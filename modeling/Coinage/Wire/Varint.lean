import Coinage.Numeral

/-!
Natural numbers in groups of seven bits, the lowest group first. Every octet but the last has its
top bit set. A reader looks at nine octets and no more, which is enough for the numbers below
`2 ^ 63`.
-/

namespace Coinage.Wire.Varint

def maxOctets : Nat := 9

def encode (n : Nat) : List UInt8 :=
  if n < 128 then [UInt8.ofNat n]
  else UInt8.ofNat (n % 128 + 128) :: encode (n / 128)
termination_by n
decreasing_by omega

inductive Flaw where
  | tooShort
  | tooLong
deriving DecidableEq, Repr

/-- Reads a number of at most `limit` octets; answers it with what follows it. -/
def decodeUpTo : (limit : Nat) → List UInt8 → Except Flaw (Nat × List UInt8)
  | 0, _ => .error .tooLong
  | _ + 1, [] => .error .tooShort
  | limit + 1, b :: r =>
    if b < 128 then .ok (b.toNat, r)
    else (fun (n, rest) => (b.toNat % 128 + 128 * n, rest)) <$> decodeUpTo limit r

def decode (octets : List UInt8) : Except Flaw (Nat × List UInt8) :=
  decodeUpTo maxOctets octets

/-- A number that is not natural has no groups of bits. -/
structure NegativeError where
  value : Int
deriving DecidableEq, Repr

def NegativeError.message (e : NegativeError) : String :=
  Numeral.showing e.value s!"varint value must be non-negative, got {e.value}"

def encodeInt (n : Int) : Except NegativeError (List UInt8) :=
  if n < 0 then .error ⟨n⟩ else .ok (encode n.toNat)

end Coinage.Wire.Varint
