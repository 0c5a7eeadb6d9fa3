import Coinage.Text.Basic
import Coinage.Text.Printable

/-!
Texts in quotes, so that a reader sees where one begins and ends and which characters it has.
Printable characters stand for themselves; the others are escaped in the shortest form that fits.
The quotes are single unless the text has a single quote and no double one.
-/

namespace Coinage.Text.Quoted

/-- The last `width` hexadecimal digits of a number. -/
def hex (width n : Nat) : List Char :=
  (List.range width).reverse.map fun i => Nat.digitChar (n / Nat.pow 16 i % 16)

def escapeChar (quote c : Char) : List Char :=
  if c = quote ∨ c = '\\' then ['\\', c]
  else if c = '\n' then ['\\', 'n']
  else if c = '\r' then ['\\', 'r']
  else if c = '\t' then ['\\', 't']
  else if isPrintable c then [c]
  else if c.toNat < 0x100 then '\\' :: 'x' :: hex 2 c.toNat
  else if c.toNat < 0x10000 then '\\' :: 'u' :: hex 4 c.toNat
  else '\\' :: 'U' :: hex 8 c.toNat

def escape (quote : Char) : Element → List Char
  | .char c => escapeChar quote c
  | .surrogate index => '\\' :: 'u' :: hex 4 (0xD800 + index)

def quoteFor (es : List Element) : Char :=
  if .char '\'' ∈ es ∧ .char '"' ∉ es then '"' else '\''

end Quoted

def quoted (text : Text) : String :=
  let quote := Quoted.quoteFor text.elements
  String.ofList (quote :: (text.elements.flatMap (Quoted.escape quote) ++ [quote]))

end Coinage.Text
