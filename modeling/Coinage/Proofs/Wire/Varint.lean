import Mathlib.Data.Nat.Digits.Defs
import Coinage.Proofs.Except
import Coinage.Wire.Varint

/-! What the reader of a varint takes, and what it leaves. Where the form of a number ends can be seen
from its octets alone, so that there is one way to split what is read into a number and what follows
it. A number may be written with more groups than it needs; the writer uses no more than that. -/

namespace Coinage.Wire.Varint

/-- The number that octets denote in their lower seven bits, the lowest group first. -/
def value (octets : List UInt8) : Nat := Nat.ofDigits 128 (octets.map fun b => b.toNat % 128)

@[simp] theorem value_nil : value [] = 0 := rfl

@[simp] theorem value_cons (b : UInt8) (r : List UInt8) :
    value (b :: r) = b.toNat % 128 + 128 * value r := by
  simp [value, Nat.ofDigits_cons]

/-- The form of a number: every octet but the last has its top bit set. -/
def IsVarint (octets : List UInt8) : Prop :=
  ∃ init last, octets = init ++ [last] ∧ (∀ b ∈ init, 128 ≤ b) ∧ last < 128

theorem not_isVarint_nil : ¬ IsVarint [] := by
  rintro ⟨init, last, h, -⟩
  simp at h

theorem isVarint_cons_iff {b : UInt8} {r : List UInt8} :
    IsVarint (b :: r) ↔ (b < 128 ∧ r = []) ∨ (128 ≤ b ∧ IsVarint r) := by
  constructor
  · rintro ⟨init, last, h, hinit, hlast⟩
    cases init with
    | nil =>
        obtain ⟨rfl, rfl⟩ := List.cons.inj h
        exact .inl ⟨hlast, rfl⟩
    | cons a init =>
        obtain ⟨rfl, rfl⟩ := List.cons.inj h
        obtain ⟨ha, hinit⟩ := List.forall_mem_cons.mp hinit
        exact .inr ⟨ha, init, last, rfl, hinit, hlast⟩
  · rintro (⟨hb, rfl⟩ | ⟨hb, init, last, rfl, hinit, hlast⟩)
    · exact ⟨[], b, rfl, by simp, hb⟩
    · exact ⟨b :: init, last, rfl, List.forall_mem_cons.mpr ⟨hb, hinit⟩, hlast⟩

/-! ### Reading -/

theorem toNat_mod_of_lt {b : UInt8} (h : b < 128) : b.toNat % 128 = b.toNat :=
  Nat.mod_eq_of_lt (UInt8.lt_iff_toNat_lt.mp h)

/-- **A number is read off the shortest front of the input that has its form.** -/
theorem decodeUpTo_eq_ok_iff {limit n : Nat} {octets rest : List UInt8} :
    decodeUpTo limit octets = .ok (n, rest) ↔
      ∃ groups, octets = groups ++ rest ∧ IsVarint groups ∧ groups.length ≤ limit ∧
        value groups = n := by
  induction limit, octets using decodeUpTo.induct generalizing n rest with
  | case1 octets =>
      simp only [decodeUpTo, reduceCtorEq, false_iff]
      rintro ⟨groups, -, hform, hlength, -⟩
      exact not_isVarint_nil (List.eq_nil_of_length_eq_zero (Nat.le_zero.mp hlength) ▸ hform)
  | case2 limit =>
      simp only [decodeUpTo, reduceCtorEq, false_iff]
      rintro ⟨groups, hsplit, hform, -⟩
      exact not_isVarint_nil ((List.append_eq_nil_iff.mp hsplit.symm).1 ▸ hform)
  | case3 limit b r hb =>
      simp only [decodeUpTo, if_pos hb, Except.ok.injEq, Prod.mk.injEq]
      constructor
      · rintro ⟨rfl, rfl⟩
        exact ⟨[b], rfl, isVarint_cons_iff.mpr (.inl ⟨hb, rfl⟩), by simp,
          by simp [toNat_mod_of_lt hb]⟩
      · rintro ⟨groups, hsplit, hform, -, rfl⟩
        cases groups with
        | nil => exact absurd hform not_isVarint_nil
        | cons a groups =>
            obtain ⟨rfl, rfl⟩ := List.cons.inj hsplit
            obtain ⟨-, rfl⟩ | ⟨hge, -⟩ := isVarint_cons_iff.mp hform
            · simp [toNat_mod_of_lt hb]
            · exact absurd hb (UInt8.not_lt.mpr hge)
  | case4 limit b r hb ih =>
      have hge : 128 ≤ b := UInt8.not_lt.mp hb
      simp only [decodeUpTo, if_neg hb, Except.map_eq_ok_iff, Prod.exists, Prod.mk.injEq, ih]
      constructor
      · rintro ⟨n', rest', ⟨groups, rfl, hform, hlength, rfl⟩, rfl, rfl⟩
        exact ⟨b :: groups, rfl, isVarint_cons_iff.mpr (.inr ⟨hge, hform⟩),
          Nat.succ_le_succ hlength, value_cons b groups⟩
      · rintro ⟨groups, hsplit, hform, hlength, rfl⟩
        cases groups with
        | nil => exact absurd hform not_isVarint_nil
        | cons a groups =>
            obtain ⟨rfl, rfl⟩ := List.cons.inj hsplit
            obtain ⟨hlt, -⟩ | ⟨-, hform⟩ := isVarint_cons_iff.mp hform
            · exact absurd hlt hb
            · exact ⟨_, rest, ⟨groups, rfl, hform, Nat.le_of_succ_le_succ hlength, rfl⟩,
                (value_cons b groups).symm, rfl⟩

/-- Input that ends within the form of a number is too short. -/
theorem decodeUpTo_eq_tooShort_iff {limit : Nat} {octets : List UInt8} :
    decodeUpTo limit octets = .error .tooShort ↔
      octets.length < limit ∧ ∀ b ∈ octets, 128 ≤ b := by
  induction limit, octets using decodeUpTo.induct with
  | case1 octets => simp [decodeUpTo]
  | case2 limit => simp [decodeUpTo]
  | case3 limit b r hb => simp [decodeUpTo, hb, UInt8.not_le.mpr hb]
  | case4 limit b r hb ih =>
      simp only [decodeUpTo, if_neg hb, Except.map_eq_error_iff, ih, List.length_cons,
        List.forall_mem_cons]
      have hge : 128 ≤ b := UInt8.not_lt.mp hb
      grind

/-- A number that does not end within the octets that are looked at is too long. -/
theorem decodeUpTo_eq_tooLong_iff {limit : Nat} {octets : List UInt8} :
    decodeUpTo limit octets = .error .tooLong ↔
      limit ≤ octets.length ∧ ∀ b ∈ octets.take limit, 128 ≤ b := by
  induction limit, octets using decodeUpTo.induct with
  | case1 octets => simp [decodeUpTo]
  | case2 limit => simp [decodeUpTo]
  | case3 limit b r hb => simp [decodeUpTo, hb, UInt8.not_le.mpr hb]
  | case4 limit b r hb ih =>
      simp only [decodeUpTo, if_neg hb, Except.map_eq_error_iff, ih, List.length_cons,
        List.take_succ_cons, List.forall_mem_cons]
      have hge : 128 ≤ b := UInt8.not_lt.mp hb
      grind

/-! ### Writing -/

theorem encode_of_lt {n : Nat} (h : n < 128) : encode n = [UInt8.ofNat n] := by
  rw [encode, if_pos h]

theorem encode_of_le {n : Nat} (h : 128 ≤ n) :
    encode n = UInt8.ofNat (n % 128 + 128) :: encode (n / 128) := by
  rw [encode, if_neg (Nat.not_lt.mpr h)]

theorem encode_ne_nil (n : Nat) : encode n ≠ [] := by
  rw [encode]
  split <;> exact List.cons_ne_nil _ _

theorem toNat_group (n : Nat) : (UInt8.ofNat (n % 128 + 128)).toNat = n % 128 + 128 := by
  rw [UInt8.toNat_ofNat']
  omega

theorem isVarint_encode (n : Nat) : IsVarint (encode n) := by
  induction n using encode.induct with
  | case1 n hn =>
      rw [encode_of_lt hn, isVarint_cons_iff, UInt8.lt_iff_toNat_lt, UInt8.toNat_ofNat']
      exact .inl ⟨Nat.lt_of_le_of_lt (Nat.mod_le _ _) hn, rfl⟩
  | case2 n hn ih =>
      rw [encode_of_le (Nat.not_lt.mp hn), isVarint_cons_iff, UInt8.le_iff_toNat_le, toNat_group]
      exact .inr ⟨Nat.le_add_left _ _, ih⟩

@[simp] theorem value_encode (n : Nat) : value (encode n) = n := by
  induction n using encode.induct with
  | case1 n hn =>
      rw [encode_of_lt hn, value_cons, UInt8.toNat_ofNat', value_nil]
      omega
  | case2 n hn ih =>
      rw [encode_of_le (Nat.not_lt.mp hn), value_cons, toNat_group, ih]
      omega

/-- Numbers are written with no more groups than they have. -/
theorem length_encode_le_iff {n k : Nat} : (encode n).length ≤ k + 1 ↔ n < 128 ^ (k + 1) := by
  induction k generalizing n with
  | zero =>
      rcases Nat.lt_or_ge n 128 with hn | hn
      · simp [encode_of_lt hn, hn]
      · obtain ⟨b, r, hr⟩ := List.exists_cons_of_ne_nil (encode_ne_nil (n / 128))
        simp [encode_of_le hn, hr, hn]
  | succ k ih =>
      rcases Nat.lt_or_ge n 128 with hn | hn
      · have hmore : 128 ^ 1 ≤ 128 ^ (k + 1 + 1) :=
          Nat.pow_le_pow_right (by decide) (Nat.le_add_left 1 (k + 1))
        simp only [encode_of_lt hn, List.length_singleton]
        omega
      · rw [encode_of_le hn, List.length_cons, Nat.succ_le_succ_iff, ih, Nat.pow_succ 128 (k + 1),
          Nat.div_lt_iff_lt_mul (by decide)]

/-- **What was written is read back, whatever follows it.** -/
theorem decode_encode_append {n : Nat} (h : n < 2 ^ 63) (rest : List UInt8) :
    decode (encode n ++ rest) = .ok (n, rest) :=
  decodeUpTo_eq_ok_iff.mpr
    ⟨encode n, rfl, isVarint_encode n, length_encode_le_iff.mpr h, value_encode n⟩

end Coinage.Wire.Varint
