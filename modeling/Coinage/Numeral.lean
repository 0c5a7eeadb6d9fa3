/-!
Integers in texts. To write an integer down takes time that grows faster than the number of its
digits, so there is a limit to that number. Where a text has to show an integer that is too long,
there is no text, only the complaint about the limit.
-/

namespace Coinage.Numeral

def maxDigits : Nat := 4300

/-- Whether an integer has at most so many digits; its sign is not counted. -/
def isWithin (digits : Nat) (n : Int) : Bool := (Nat.toDigits 10 n.natAbs).length ≤ digits

def isWritable (n : Int) : Bool := isWithin maxDigits n

/-- The complaint about an integer with more digits than the most that it may have. They are counted
where the integer is read and not where it is to be written. -/
def overlong (most : Nat) (digits : Option Nat) : String :=
  let counted := match digits with
    | some n => s!": value has {n} digits"
    | none => ""
  s!"Exceeds the limit ({most} digits) for integer string conversion" ++ counted
    ++ "; use sys.set_int_max_str_digits() to increase the limit"

/-- A text that shows an integer, or the complaint that it cannot. -/
def showing (n : Int) (text : String) : String :=
  if isWritable n then text else overlong maxDigits none

end Coinage.Numeral
