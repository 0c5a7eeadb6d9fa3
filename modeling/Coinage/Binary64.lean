/-!
What becomes of a decimal in the 64-bit binary format: the nearest value with 53 significant bits,
and of two that are equally near the one whose last bit is zero.
-/

namespace Coinage.Binary64

inductive Rounded where
  | whole (n : Int)
  | fractional
  | infinite
deriving DecidableEq, Repr

/-- The nearest whole number to a quotient; a half goes to the even neighbour. -/
def roundDiv (num den : Nat) : Nat :=
  let q := num / den
  let rest := 2 * (num % den)
  if rest < den then q
  else if rest = den then q + q % 2
  else q + 1

/-- The exponent of the last of 53 bits that begin with the first bit of a quotient. -/
def lastBit (num den : Nat) : Int :=
  let estimate : Int := (Nat.log2 num : Int) - Nat.log2 den - 53
  let scaled := if estimate ≥ 0 then num / (den * Nat.pow 2 estimate.toNat)
    else num * Nat.pow 2 (-estimate).toNat / den
  max (-1074) (if scaled < Nat.pow 2 53 then estimate else estimate + 1)

/-- A positive quotient, rounded. -/
def roundQuotient (num den : Nat) : Rounded :=
  let k := lastBit num den
  if k ≥ 0 then
    let unit := Nat.pow 2 k.toNat
    let n := roundDiv num (den * unit) * unit
    if n < Nat.pow 2 1024 then .whole n else .infinite
  else
    let unit := Nat.pow 2 (-k).toNat
    let significand := roundDiv (num * unit) den
    if significand % unit = 0 then .whole (significand / unit : Nat) else .fractional

/-- `mantissa * 10 ^ exponent`, rounded. Below the smallest power that can matter everything is
zero, and above the largest one everything is infinite. -/
def roundDecimal (mantissa exponent : Int) : Rounded :=
  let m := mantissa.natAbs
  let magnitude : Int := (Nat.toDigits 10 m).length + exponent
  if m = 0 ∨ magnitude < -330 then .whole 0
  else if magnitude > 330 then .infinite
  else
    let rounded := if exponent ≥ 0 then roundQuotient (m * Nat.pow 10 exponent.toNat) 1
      else roundQuotient m (Nat.pow 10 (-exponent).toNat)
    match rounded with
    | .whole n => .whole (if mantissa < 0 then -n else n)
    | other => other

end Coinage.Binary64
