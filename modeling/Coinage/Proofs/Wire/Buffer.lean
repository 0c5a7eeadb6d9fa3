import Mathlib.Data.Nat.Bitwise
import Coinage.Proofs.Wire.Varint

/-! Numbers in a buffer. The writer uses as few octets as any form that a reader takes for the number, so
nine octets are enough for the numbers below `2 ^ 63` and for no others. Wherever in a buffer such a
number was written, it is read back together with the offset behind it, and a greater one is found too
long. Nothing else comes out of a buffer: what is read is below `2 ^ 63` and stands in one to nine of its
octets. -/

namespace Coinage.Wire.Varint

variable {octets groups buffer : List UInt8} {n offset stop limit : Nat}

/-! ### The top bit -/

/-- The octets from 128 on are those with the top bit. -/
theorem and_topBit_ne_zero_iff {b : UInt8} : b &&& 0x80 ≠ 0 ↔ 128 ≤ b := by
  have hbound : b.toNat < 2 ^ 8 := b.toNat_lt
  have hmask : (b &&& 0x80).toNat = (b.toNat.testBit 7).toNat * 2 ^ 7 := by
    rw [UInt8.toNat_and]
    exact Nat.and_two_pow b.toNat 7
  have htop : b.toNat.testBit 7 = true ↔ 128 ≤ b.toNat := by
    rw [Nat.testBit_eq_decide_div_mod_eq, decide_eq_true_iff]
    omega
  rw [ne_eq, ← UInt8.toNat_inj, hmask, UInt8.le_iff_toNat_le,
    show (128 : UInt8).toNat = 128 from rfl, ← htop]
  cases b.toNat.testBit 7 <;> decide

theorem and_topBit_eq_zero_iff {b : UInt8} : b &&& 0x80 = 0 ↔ b < 128 := by
  rw [← not_iff_not, ← ne_eq, and_topBit_ne_zero_iff, UInt8.not_lt]

theorem isVarint_iff_topBit : IsVarint octets ↔
    ∃ init last, octets = init ++ [last] ∧ (∀ b ∈ init, b &&& 0x80 ≠ 0) ∧ last &&& 0x80 = 0 := by
  simp only [IsVarint, and_topBit_ne_zero_iff, and_topBit_eq_zero_iff]

/-! ### Size -/

theorem IsVarint.length_pos (h : IsVarint octets) : 0 < octets.length :=
  List.length_pos_iff.mpr fun hnil => not_isVarint_nil (hnil ▸ h)

/-- Each octet has room for seven bits of the number. -/
theorem value_lt (octets : List UInt8) : value octets < 128 ^ octets.length := by
  have hdigits : ∀ d ∈ octets.map fun b => b.toNat % 128, d < 128 := by
    intro d hd
    obtain ⟨b, -, rfl⟩ := List.mem_map.mp hd
    exact Nat.mod_lt _ (by decide)
  have hlt := Nat.ofDigits_lt_base_pow_length (by decide) hdigits
  rwa [List.length_map] at hlt

/-- **No form of a number is shorter than the one that is written.** -/
theorem IsVarint.length_encode_le (h : IsVarint octets) :
    (encode (value octets)).length ≤ octets.length := by
  obtain ⟨k, hk⟩ := Nat.exists_eq_add_one.mpr h.length_pos
  rw [hk, length_encode_le_iff, ← hk]
  exact value_lt octets

/-- A reader that looks at more octets, or at fewer, finds no shorter form of a number either. -/
theorem length_encode_add_le_of_decodeUpTo {rest : List UInt8}
    (h : decodeUpTo limit octets = .ok (n, rest)) : (encode n).length + rest.length ≤ octets.length := by
  obtain ⟨groups, rfl, hform, -, rfl⟩ := decodeUpTo_eq_ok_iff.mp h
  rw [List.length_append]
  exact Nat.add_le_add_right hform.length_encode_le _

/-- What has more octets than are looked at is too long. -/
theorem IsVarint.decodeUpTo_eq_tooLong (h : IsVarint groups) (hlimit : limit < groups.length)
    (rest : List UInt8) : decodeUpTo limit (groups ++ rest) = .error .tooLong := by
  obtain ⟨init, last, rfl, hinit, -⟩ := h
  rw [List.length_append, List.length_singleton] at hlimit
  -- All that is looked at stands in front of the last octet.
  have hle : limit ≤ init.length := Nat.le_of_lt_add_one hlimit
  refine decodeUpTo_eq_tooLong_iff.mpr ⟨?_, fun b hb => ?_⟩
  · simp only [List.length_append]
    omega
  · rw [List.append_assoc, List.take_append_of_le_length hle] at hb
    exact hinit b (List.mem_of_mem_take hb)

theorem decode_encode_append_of_le (h : 2 ^ 63 ≤ n) (rest : List UInt8) :
    decode (encode n ++ rest) = .error .tooLong := by
  refine (isVarint_encode n).decodeUpTo_eq_tooLong ?_ rest
  by_contra hle
  exact absurd (length_encode_le_iff.mp (Nat.not_lt.mp hle)) (Nat.not_lt.mpr h)

/-! ### Offsets -/

/-- Reads the number that begins at an offset of a buffer; answers it with the offset just after it. -/
def decodeAt (buffer : List UInt8) (offset : Nat) : Except Flaw (Nat × Nat) :=
  (fun (n, rest) => (n, buffer.length - rest.length)) <$> decode (buffer.drop offset)

/-- A number has an octet, so its offset is one of the buffer, and what is left tells where it ends. -/
theorem length_sub_eq_of_drop_eq {rest : List UInt8} (hform : IsVarint groups)
    (hsplit : buffer.drop offset = groups ++ rest) :
    buffer.length - rest.length = offset + groups.length := by
  have hlength := congrArg List.length hsplit
  have hpos := hform.length_pos
  rw [List.length_drop, List.length_append] at hlength
  omega

theorem decodeAt_eq_ok_iff :
    decodeAt buffer offset = .ok (n, stop) ↔
      ∃ groups, groups <+: buffer.drop offset ∧ IsVarint groups ∧ groups.length ≤ maxOctets ∧
        value groups = n ∧ offset + groups.length = stop := by
  simp only [decodeAt, decode, Except.map_eq_ok_iff, decodeUpTo_eq_ok_iff, Prod.exists, Prod.mk.injEq]
  constructor
  · rintro ⟨-, rest, ⟨groups, hsplit, hform, hle, rfl⟩, rfl, rfl⟩
    exact ⟨groups, ⟨rest, hsplit.symm⟩, hform, hle, rfl, (length_sub_eq_of_drop_eq hform hsplit).symm⟩
  · rintro ⟨groups, ⟨rest, hsplit⟩, hform, hle, rfl, rfl⟩
    exact ⟨_, rest, ⟨groups, hsplit.symm, hform, hle, rfl⟩, rfl,
      length_sub_eq_of_drop_eq hform hsplit.symm⟩

/-- Whether a number that stands in a buffer is read depends on its size alone. -/
theorem decodeAt_of_encode_prefix (hat : encode n <+: buffer.drop offset) :
    (n < 2 ^ 63 → decodeAt buffer offset = .ok (n, offset + (encode n).length)) ∧
    (2 ^ 63 ≤ n → decodeAt buffer offset = .error .tooLong) := by
  obtain ⟨rest, hsplit⟩ := hat
  rw [decodeAt, ← hsplit]
  constructor
  · intro hlt
    rw [decode_encode_append hlt, ← length_sub_eq_of_drop_eq (isVarint_encode n) hsplit.symm]
    rfl
  · intro hle
    rw [decode_encode_append_of_le hle]
    rfl

/-- What is read is bounded by the octets that are looked at, and they are octets of the buffer. -/
theorem decodeAt_bounds (h : decodeAt buffer offset = .ok (n, stop)) :
    n < 2 ^ 63 ∧ offset + 1 ≤ stop ∧ stop ≤ offset + 9 ∧ stop ≤ buffer.length := by
  obtain ⟨groups, hat, hform, hle, rfl, rfl⟩ := decodeAt_eq_ok_iff.mp h
  have hinside := hat.length_le
  rw [List.length_drop] at hinside
  have hpos := hform.length_pos
  refine ⟨?_, by omega, Nat.add_le_add_left hle offset, by omega⟩
  calc value groups < 128 ^ groups.length := value_lt groups
    _ ≤ 128 ^ 9 := Nat.pow_le_pow_right (by decide) hle
    _ = 2 ^ 63 := by decide

/-! ### Writing and reading -/

theorem encodeInt_natCast (n : Nat) : encodeInt n = .ok (encode n) := by
  rw [encodeInt, if_neg (Int.not_lt.mpr (Int.natCast_nonneg n)), Int.toNat_natCast]

/-- **Numbers are written in the shortest form, and read back below `2 ^ 63`.** What is written has the top
bit in each octet but the last, and nothing shorter is read as this number, be it by a reader that looks at
nine octets or at another number of them. Where it stands in a buffer, the number and the offset behind it
are read, and with more than 63 bits it is too long. Whatever is read from a buffer has 63 bits at most and
takes from one to nine octets, all of them in the buffer. -/
theorem numbers_written_shortest_and_read_back :
    (∀ n : Nat, encodeInt n = .ok (encode n) ∧ encode n ≠ [] ∧
      (∃ init last, encode n = init ++ [last] ∧ (∀ b ∈ init, b &&& 0x80 ≠ 0) ∧ last &&& 0x80 = 0) ∧
      (∀ limit octets rest, decodeUpTo limit octets = .ok (n, rest) →
        (encode n).length + rest.length ≤ octets.length) ∧
      ∀ buffer offset stop, decodeAt buffer offset = .ok (n, stop) →
        offset + (encode n).length ≤ stop) ∧
    (∀ (n : Nat) (buffer : List UInt8) (offset : Nat), encode n <+: buffer.drop offset →
      (n < 2 ^ 63 → decodeAt buffer offset = .ok (n, offset + (encode n).length)) ∧
      (2 ^ 63 ≤ n → decodeAt buffer offset = .error .tooLong)) ∧
    ∀ (buffer : List UInt8) (offset n stop : Nat), decodeAt buffer offset = .ok (n, stop) →
      n < 2 ^ 63 ∧ offset + 1 ≤ stop ∧ stop ≤ offset + 9 ∧ stop ≤ buffer.length := by
  refine ⟨fun n => ⟨encodeInt_natCast n, encode_ne_nil n, isVarint_iff_topBit.mp (isVarint_encode n),
    fun limit octets rest => length_encode_add_le_of_decodeUpTo, fun buffer offset stop hread => ?_⟩,
    fun n buffer offset => decodeAt_of_encode_prefix, fun buffer offset n stop => decodeAt_bounds⟩
  obtain ⟨groups, -, hform, -, rfl, rfl⟩ := decodeAt_eq_ok_iff.mp hread
  exact Nat.add_le_add_left hform.length_encode_le offset

/-- Behind a tag and in front of an octet with the top bit, the greatest number that is read and the one
after it. That one is read by a reader of eleven octets, in a form with an octet too many, and zero is read
in a form with two too many. -/
theorem greatest_number_read_back :
    decodeAt (0x0A :: (List.replicate 8 0xFF ++ [0x7F, 0xFF])) 1 = .ok (2 ^ 63 - 1, 10) ∧
    decodeAt (0x0A :: (List.replicate 9 0x80 ++ [0x01, 0xFF])) 1 = .error .tooLong ∧
    decodeUpTo 11 (List.replicate 9 0x80 ++ [0x81, 0x00]) = .ok (2 ^ 63, []) ∧
    (encode (2 ^ 63)).length ≤ 11 ∧
    decodeAt [0x0A, 0x80, 0x80, 0x00] 1 = .ok (0, 4) ∧ 1 + (encode 0).length ≤ 4 ∧
    0 < 2 ^ 63 ∧ 1 + 1 ≤ 4 ∧ 4 ≤ 1 + 9 ∧ 4 ≤ [0x0A, 0x80, 0x80, 0x00].length := by
  obtain ⟨hwritten, hread, hbounds⟩ := numbers_written_shortest_and_read_back
  have hgreatest : encode (2 ^ 63 - 1) = List.replicate 8 0xFF ++ [0x7F] := by decide +kernel
  have hnext : encode (2 ^ 63) = List.replicate 9 0x80 ++ [0x01] := by decide +kernel
  have hlonger : decodeUpTo 11 (List.replicate 9 0x80 ++ [0x81, 0x00]) = .ok (2 ^ 63, []) := by
    decide +kernel
  have hzero : decodeAt [0x0A, 0x80, 0x80, 0x00] 1 = .ok (0, 4) := by decide +kernel
  obtain ⟨-, -, -, hshortest, -⟩ := hwritten (2 ^ 63)
  obtain ⟨-, -, -, -, hshortestZero⟩ := hwritten 0
  obtain ⟨hok, -⟩ := hread (2 ^ 63 - 1) (0x0A :: (List.replicate 8 0xFF ++ [0x7F, 0xFF])) 1
    ⟨[0xFF], by rw [hgreatest]; rfl⟩
  obtain ⟨-, hlong⟩ := hread (2 ^ 63) (0x0A :: (List.replicate 9 0x80 ++ [0x01, 0xFF])) 1
    ⟨[0xFF], by rw [hnext]; rfl⟩
  rw [hgreatest] at hok
  exact ⟨hok (by decide), hlong (Nat.le_refl _), hlonger, hshortest 11 _ _ hlonger, hzero,
    hshortestZero _ 1 4 hzero, hbounds _ 1 0 4 hzero⟩

end Coinage.Wire.Varint
