import Coinage.Numeral
import Coinage.Text.Blank

/-!
Whole numbers in texts. In its plain form a number has an optional minus sign and up to 4300 digits,
of which the first is zero only if it is the only one. A text that is no plain number is tidied up
once: white space around it, a plus sign, zeros behind the sign, zeros behind a decimal point and
single underscores do not count.
-/

namespace Coinage.Text.Whole

inductive Flaw where
  | unreadable
  | tooLong
deriving DecidableEq, Repr

def maxDigits : Nat := Numeral.maxDigits

/-- The number that digits and nothing else stand for. Digits in excess are noticed before anything
that follows them. -/
def magnitude (cs : List Char) : Except Flaw Nat :=
  let digits := cs.takeWhile Char.isDigit
  if digits.head?.all (· == '0') then if cs = ['0'] then .ok 0 else .error .unreadable
  else if maxDigits < digits.length then .error .tooLong
  else if digits.length < cs.length then .error .unreadable
  else .ok (Nat.ofDigitChars 10 digits 0)

/-- A number in its plain form. -/
def plain : List Char → Except Flaw Int
  | '-' :: cs => (magnitude cs).map fun n => -(n : Int)
  | cs => (magnitude cs).map Int.ofNat

/-- Whether a minus sign stands in front of a text, and the text without its sign. -/
def splitSign : List Char → Bool × List Char
  | '-' :: r => (true, r)
  | '+' :: r => (false, r)
  | cs => (false, cs)

/-- What remains of a text after a zero. Further zeros, and underscores among them, are passed over
up to another digit or a minus sign; in front of a decimal point or at the end the last of them
stays. -/
def afterZero (last : Char) : List Char → Option (List Char)
  | [] => some [last]
  | c :: r =>
    if c = '0' ∨ c = '_' then afterZero c r
    else if c.isDigit ∨ c = '-' then some (c :: r)
    else if c = '.' then some (last :: c :: r)
    else none

/-- A text without the zeros in front of it, if it begins with a digit. -/
def withoutZeros : List Char → Option (List Char)
  | [] => none
  | c :: r => if c = '0' then afterZero c r else if c.isDigit then some (c :: r) else none

/-- A text without a decimal point that only zeros follow. -/
def withoutFraction (cs : List Char) : List Char :=
  let zeros := (cs.dropWhile (· != '.')).drop 1
  if !zeros.isEmpty && zeros.all (· == '0') then cs.takeWhile (· != '.') else cs

/-- A text without underscores, provided that each of them stands between other characters. -/
def withoutUnderscores (cs : List Char) : List Char :=
  if (cs.splitOn '_').all (!·.isEmpty) then cs.filter (· != '_') else cs

/-- What is left of a text once everything is taken away that does not count, a minus sign in front
of it again. -/
def tidy (cs : List Char) : Option (List Char) :=
  let (negative, r) := splitSign (trim isWhiteSpace cs)
  (withoutZeros r).map fun r =>
    let r := withoutUnderscores (withoutFraction r)
    if negative then '-' :: r else r

def parse (text : String) : Except Flaw Int :=
  match plain text.toList with
  | .error .unreadable =>
    match tidy text.toList with
    | none => .error .unreadable
    | some cs => (plain cs).mapError fun _ => .unreadable
  | result => result

end Coinage.Text.Whole
