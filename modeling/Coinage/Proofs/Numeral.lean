import Mathlib.Algebra.Group.Nat.Defs
import Coinage.Numeral

/-! Integers that are short enough to be written, by their size. -/

namespace Coinage.Numeral

theorem isWithin_iff {digits : Nat} {n : Int} (h : 0 < digits) :
    isWithin digits n = true ↔ n.natAbs < 10 ^ digits :=
  decide_eq_true_iff.trans (Nat.length_toDigits_le_iff (by decide) h)

theorem isWritable_iff {n : Int} : isWritable n = true ↔ n.natAbs < 10 ^ maxDigits :=
  isWithin_iff (by decide)

/-- The least number with too many digits. -/
def vast : Int := (10 ^ maxDigits : Nat)

theorem natAbs_vast : vast.natAbs = 10 ^ maxDigits := Int.natAbs_natCast _

end Coinage.Numeral
