import Coinage.Json.Basic
import Coinage.Table

/-!
JSON text in its compact form: no blanks, the members of an object in the order of their keys, and
only printable ASCII characters. All other characters, the quote and the backslash are escaped; a
character above `FFFF` as a surrogate pair, and a surrogate that stands alone as itself.
-/

namespace Coinage.Json

def hex4 (n : Nat) : List Char :=
  [n / 4096 % 16, n / 256 % 16, n / 16 % 16, n % 16].map Nat.digitChar

/-- The escape of a UTF-16 unit. -/
def unitEscape (unit : Nat) : List Char := '\\' :: 'u' :: hex4 unit

def isPlain (c : Char) : Bool := ' ' ≤ c && c ≤ '~' && c != '"' && c != '\\'

def escapeChar (c : Char) : List Char :=
  if isPlain c then [c]
  else if c = '"' then ['\\', '"']
  else if c = '\\' then ['\\', '\\']
  else if c = '\n' then ['\\', 'n']
  else if c = '\r' then ['\\', 'r']
  else if c = '\t' then ['\\', 't']
  else if c = '\x08' then ['\\', 'b']
  else if c = '\x0c' then ['\\', 'f']
  else if c.toNat < 0x10000 then unitEscape c.toNat
  else
    let n := c.toNat - 0x10000
    unitEscape (0xD800 + n / 0x400) ++ unitEscape (0xDC00 + n % 0x400)

def escape : Text.Element → List Char
  | .char c => escapeChar c
  | .surrogate index => unitEscape (0xD800 + index)

def quoted (text : Text) : List Char := '"' :: (text.elements.flatMap escape ++ ['"'])

def decimal (n : Int) : List Char :=
  if n < 0 then '-' :: Nat.toDigits 10 n.natAbs else Nat.toDigits 10 n.natAbs

/-- Texts with a comma between neighbours. -/
def commaSeparated : List (List Char) → List Char
  | [] => []
  | [t] => t
  | t :: r => t ++ ',' :: commaSeparated r

mutual

def compactChars : Json → List Char
  | .null => ['n', 'u', 'l', 'l']
  | .bool true => ['t', 'r', 'u', 'e']
  | .bool false => ['f', 'a', 'l', 's', 'e']
  | .num n => decimal n
  | .real m e => decimal m ++ 'e' :: decimal e
  | .nonFinite => ['N', 'a', 'N']
  | .str s => quoted s
  | .arr items => '[' :: (commaSeparated (compactItems items) ++ [']'])
  | .obj members =>
    let written := (Table.ofList (compactMembers members)).entries
    '{' :: (commaSeparated (written.map fun m => quoted m.1 ++ ':' :: m.2) ++ ['}'])

def compactItems : List Json → List (List Char)
  | [] => []
  | v :: r => compactChars v :: compactItems r

def compactMembers : List (Text × Json) → List (Text × List Char)
  | [] => []
  | (k, v) :: r => (k, compactChars v) :: compactMembers r

end

def compact (v : Json) : String := String.ofList (compactChars v)

end Coinage.Json
