import Coinage.Base64

/-! Reading octets back from their text. The reader takes four characters at a time, of which only the
last four may end in padding, and it wants the bits that the padding stands for to be zero. -/

namespace Coinage.Base64

/-- The six bits that a digit stands for. -/
def digit? (c : Char) : Option Nat :=
  if 'A' ≤ c ∧ c ≤ 'Z' then some (c.toNat - 'A'.toNat)
  else if 'a' ≤ c ∧ c ≤ 'z' then some (26 + (c.toNat - 'a'.toNat))
  else if '0' ≤ c ∧ c ≤ '9' then some (52 + (c.toNat - '0'.toNat))
  else if c = '+' then some 62
  else if c = '/' then some 63
  else none

/-- Six bits in a place where there may be padding. -/
def bits? (c : Char) : Option Nat := if c = '=' then some 0 else digit? c

/-- The number of 24 bits that four characters stand for. -/
def number? (a b c d : Char) : Option Nat := do
  return (((← digit? a) * 64 + (← digit? b)) * 64 + (← bits? c)) * 64 + (← bits? d)

def octetsOf (n : Nat) : List UInt8 :=
  [UInt8.ofNat (n / 0x10000), UInt8.ofNat (n / 0x100 % 0x100), UInt8.ofNat (n % 0x100)]

def decodeChars : List Char → Option (List UInt8)
  | [] => some []
  | a :: b :: c :: d :: r => do
    let n ← number? a b c d
    if d ≠ '=' then return octetsOf n ++ (← decodeChars r)
    else if r ≠ [] then none
    else if c ≠ '=' then if n % 0x100 = 0 then some ((octetsOf n).take 2) else none
    else if n % 0x10000 = 0 then some ((octetsOf n).take 1) else none
  | _ => none

def decode (text : String) : Option (List UInt8) := decodeChars text.toList

theorem digit?_digit {n : Nat} (h : n < 64) : digit? (digit n) = some n := by
  have hall : ∀ n < 64, digit? (digit n) = some n := by decide
  exact hall n h

theorem digit_ne_padding {n : Nat} (h : n < 64) : digit n ≠ '=' := by
  have hall : ∀ n < 64, digit n ≠ '=' := by decide
  exact hall n h

theorem bits?_digit {n : Nat} (h : n < 64) : bits? (digit n) = some n := by
  rw [bits?, if_neg (digit_ne_padding h), digit?_digit h]

theorem bits?_padding : bits? '=' = some 0 := rfl

/-- A number is put together from its four groups of bits. -/
theorem number?_of_bits? {n : Nat} (hn : n < 0x1000000) {c d : Char}
    (hc : bits? c = some (n / 0x40 % 64)) (hd : bits? d = some (n % 64)) :
    number? (digit (n / 0x40000)) (digit (n / 0x1000 % 64)) c d = some n := by
  have hfirst := digit?_digit (show n / 0x40000 < 64 by omega)
  have hsecond := digit?_digit (show n / 0x1000 % 64 < 64 by omega)
  simp only [number?, hfirst, hsecond, hc, hd, Option.bind_eq_bind, Option.bind_some, Option.pure_def,
    Option.some.injEq]
  omega

/-- Three octets are the three parts of their number. -/
theorem octetsOf_eq (a b c : UInt8) :
    octetsOf (a.toNat * 0x10000 + b.toNat * 0x100 + c.toNat) = [a, b, c] := by
  have ha := a.toNat_lt
  have hb := b.toNat_lt
  have hc := c.toNat_lt
  have hfirst : (a.toNat * 0x10000 + b.toNat * 0x100 + c.toNat) / 0x10000 = a.toNat := by omega
  have hsecond : (a.toNat * 0x10000 + b.toNat * 0x100 + c.toNat) / 0x100 % 0x100 = b.toNat := by
    omega
  have hthird : (a.toNat * 0x10000 + b.toNat * 0x100 + c.toNat) % 0x100 = c.toNat := by omega
  rw [octetsOf, hfirst, hsecond, hthird]
  simp

theorem decodeChars_encodeChars (octets : List UInt8) :
    decodeChars (encodeChars octets) = some octets := by
  induction octets using encodeChars.induct with
  | case1 => rfl
  | case2 a =>
      obtain ⟨n, hn⟩ : ∃ n, n = a.toNat * 0x10000 := ⟨_, rfl⟩
      have ha := a.toNat_lt
      have hoctets : octetsOf n = [a, 0, 0] := by simpa [hn] using octetsOf_eq a 0 0
      have hnumber := number?_of_bits? (show n < 0x1000000 by omega)
        (bits?_padding.trans (congrArg some (show 0 = n / 0x40 % 64 by omega)))
        (bits?_padding.trans (congrArg some (show 0 = n % 64 by omega)))
      have hzero : n % 0x10000 = 0 := by omega
      simp only [encodeChars, ← hn, decodeChars]
      simp [hnumber, hoctets, hzero]
  | case3 a b =>
      obtain ⟨n, hn⟩ : ∃ n, n = a.toNat * 0x10000 + b.toNat * 0x100 := ⟨_, rfl⟩
      have ha := a.toNat_lt
      have hb := b.toNat_lt
      have hoctets : octetsOf n = [a, b, 0] := by simpa [hn] using octetsOf_eq a b 0
      have hthird := Nat.mod_lt (n / 0x40) (show 0 < 64 by decide)
      have hnumber := number?_of_bits? (show n < 0x1000000 by omega) (bits?_digit hthird)
        (bits?_padding.trans (congrArg some (show 0 = n % 64 by omega)))
      have hzero : n % 0x100 = 0 := by omega
      simp only [encodeChars, ← hn, decodeChars]
      simp [hnumber, hoctets, hzero, digit_ne_padding hthird]
  | case4 a b c r ih =>
      obtain ⟨n, hn⟩ : ∃ n, n = a.toNat * 0x10000 + b.toNat * 0x100 + c.toNat := ⟨_, rfl⟩
      have ha := a.toNat_lt
      have hb := b.toNat_lt
      have hc := c.toNat_lt
      have hoctets : octetsOf n = [a, b, c] := hn ▸ octetsOf_eq a b c
      have hfourth := Nat.mod_lt n (show 0 < 64 by decide)
      have hnumber := number?_of_bits? (show n < 0x1000000 by omega)
        (bits?_digit (Nat.mod_lt (n / 0x40) (by decide))) (bits?_digit hfourth)
      simp only [encodeChars, ← hn, decodeChars]
      simp [hnumber, hoctets, digit_ne_padding hfourth, ih]

/-- **Octets are read back from their text.** -/
theorem decode_encode (octets : List UInt8) : decode (encode octets) = some octets := by
  rw [decode, encode, String.toList_ofList, decodeChars_encodeChars]

end Coinage.Base64
