import Mathlib.Algebra.Group.Nat.Defs
import Mathlib.Tactic.SplitIfs
import Coinage.Proofs.Except
import Coinage.Text.Utf8

/-! What the reader of UTF-8 accepts. A character above `7F` is a lead octet and the groups of six bits
below it, each in a continuation octet. The reader takes just the octets that some text is encoded as,
and gives this text. -/

namespace Coinage.Text.Utf8

/-- The last `wanted` groups of six bits of a number, in continuation octets. -/
def continuation : (wanted : Nat) → (n : Nat) → List UInt8
  | 0, _ => []
  | wanted + 1, n => UInt8.ofNat (0x80 + n / 64 ^ wanted % 64) :: continuation wanted n

namespace Pending

/-- What every unfinished character is like. -/
structure Sound (p : Pending) : Prop where
  wanted : 1 ≤ p.wanted
  low : 0x80 ≤ p.low.toNat
  high : p.high.toNat ≤ 0xBF

theorem Sound.exists_wanted {p : Pending} (hp : p.Sound) : ∃ k, p.wanted = k + 1 :=
  ⟨p.wanted - 1, (Nat.sub_add_cancel hp.wanted).symm⟩

/-- The number begins with the bits that were gathered, and its next group is within range. -/
structure Leads (p : Pending) (n : Nat) : Prop where
  bits : n / 64 ^ p.wanted = p.bits
  low : p.low.toNat ≤ 0x80 + n / 64 ^ (p.wanted - 1) % 64
  high : 0x80 + n / 64 ^ (p.wanted - 1) % 64 ≤ p.high.toNat

/-- The state after a continuation octet that was not the last one. -/
def next (wanted bits : Nat) : Pending := ⟨wanted, 0x80, 0xBF, bits⟩

theorem sound_next (k bits : Nat) : (next (k + 1) bits).Sound :=
  ⟨Nat.le_add_left 1 k, Nat.le_refl _, Nat.le_refl _⟩

theorem leads_next_iff {wanted bits n : Nat} : (next wanted bits).Leads n ↔ n / 64 ^ wanted = bits := by
  refine ⟨Leads.bits, fun h => ⟨h, Nat.le_add_right _ _, ?_⟩⟩
  change 0x80 + n / 64 ^ (wanted - 1) % 64 ≤ 0xBF
  omega

/-- What a group of bits that is in range makes of an unfinished character. -/
def take (p : Pending) (group : Nat) : Char ⊕ Pending :=
  if p.wanted ≤ 1 then .inl (Char.ofNat (p.bits * 64 + group))
  else .inr (next (p.wanted - 1) (p.bits * 64 + group))

/-- **The octets that are taken are groups in continuation octets.** -/
theorem step_eq_some_iff {p : Pending} (hp : p.Sound) {b : UInt8} {after : Char ⊕ Pending} :
    p.step b = some after ↔
      ∃ group < 64, b = UInt8.ofNat (0x80 + group) ∧ p.low.toNat ≤ 0x80 + group ∧
        0x80 + group ≤ p.high.toNat ∧ after = p.take group := by
  have hlow := hp.low
  have hhigh := hp.high
  simp only [step, UInt8.le_iff_toNat_le]
  constructor
  · intro h
    split at h
    · next hrange =>
        have hgroup : b.toNat % 64 = b.toNat - 0x80 := by omega
        refine ⟨b.toNat - 0x80, by omega, ?_, by omega, by omega, ?_⟩
        · rw [Nat.add_sub_cancel' (by omega), UInt8.ofNat_toNat]
        · rw [← hgroup, take]
          split at h <;> split <;> cases h <;> first | rfl | contradiction
    · cases h
  · rintro ⟨group, hgroup, rfl, hfrom, hto, rfl⟩
    have hoctet : (UInt8.ofNat (0x80 + group)).toNat = 0x80 + group := by
      rw [UInt8.toNat_ofNat']
      omega
    have hmod : (0x80 + group) % 64 = group := by omega
    rw [hoctet, hmod, if_pos ⟨hfrom, hto⟩, take]
    split <;> rfl

end Pending

open Pending

/-- A number is read group by group. -/
theorem div_pow_succ (n k : Nat) : n / 64 ^ (k + 1) * 64 + n / 64 ^ k % 64 = n / 64 ^ k := by
  rw [Nat.pow_succ, ← Nat.div_div_eq_div_mul]
  omega

/-- The continuation octets of a number finish it. -/
theorem decodeFrom_continuation {p : Pending} (hp : p.Sound) {n : Nat} (hn : p.Leads n)
    (r : List UInt8) :
    decodeFrom (some p) (continuation p.wanted n ++ r) = (Char.ofNat n :: ·) <$> decodeFrom none r := by
  -- The induction is on the groups behind the next one, which alone has a range of its own.
  obtain ⟨k, hk⟩ := hp.exists_wanted
  induction k generalizing p with
  | zero =>
      obtain ⟨hbits, hlow, hhigh⟩ := hn
      rw [hk, Nat.add_sub_cancel] at hlow hhigh
      rw [hk] at hbits
      have hstep := (step_eq_some_iff hp).mpr
        ⟨n / 64 ^ 0 % 64, Nat.mod_lt _ (by decide), rfl, hlow, hhigh, rfl⟩
      rw [take, if_pos (by omega), ← hbits, div_pow_succ, Nat.pow_zero, Nat.div_one] at hstep
      rw [hk, continuation, continuation, List.singleton_append, decodeFrom, Nat.pow_zero,
        Nat.div_one, hstep]
  | succ k ih =>
      obtain ⟨hbits, hlow, hhigh⟩ := hn
      rw [hk, Nat.add_sub_cancel] at hlow hhigh
      rw [hk] at hbits
      have hstep := (step_eq_some_iff hp).mpr
        ⟨n / 64 ^ (k + 1) % 64, Nat.mod_lt _ (by decide), rfl, hlow, hhigh, rfl⟩
      rw [take, if_neg (by omega), ← hbits, div_pow_succ, hk, Nat.add_sub_cancel] at hstep
      rw [hk, continuation, List.cons_append, decodeFrom, hstep]
      exact ih (sound_next k _) (leads_next_iff.mpr rfl) rfl

theorem exists_group_of_decodeFrom {p : Pending} (hp : p.Sound) {octets : List UInt8}
    {cs : List Char} (h : decodeFrom (some p) octets = .ok cs) :
    ∃ group r, group < 64 ∧ octets = UInt8.ofNat (0x80 + group) :: r ∧
      p.low.toNat ≤ 0x80 + group ∧ 0x80 + group ≤ p.high.toNat ∧
      (match p.take group with
        | .inl c => (c :: ·) <$> decodeFrom none r
        | .inr q => decodeFrom (some q) r) = .ok cs := by
  cases octets with
  | nil => cases h
  | cons b r =>
      rw [decodeFrom] at h
      cases hstep : p.step b with
      | none =>
          rw [hstep] at h
          cases h
      | some after =>
          obtain ⟨group, hgroup, rfl, hlow, hhigh, rfl⟩ := (step_eq_some_iff hp).mp hstep
          rw [hstep] at h
          exact ⟨group, r, hgroup, rfl, hlow, hhigh, by cases htake : p.take group <;> rwa [htake] at h⟩

/-- Nothing but the continuation octets of a number finishes an unfinished character. -/
theorem exists_leads_of_decodeFrom {p : Pending} (hp : p.Sound) {octets : List UInt8} {cs : List Char}
    (h : decodeFrom (some p) octets = .ok cs) :
    ∃ n r cs', p.Leads n ∧ octets = continuation p.wanted n ++ r ∧ cs = Char.ofNat n :: cs' ∧
      decodeFrom none r = .ok cs' := by
  obtain ⟨k, hk⟩ := hp.exists_wanted
  induction k generalizing p octets with
  | zero =>
      obtain ⟨group, r, hgroup, rfl, hlow, hhigh, hrest⟩ := exists_group_of_decodeFrom hp h
      rw [take, if_pos (by omega)] at hrest
      obtain ⟨cs', hr, rfl⟩ := Except.map_eq_ok_iff.mp hrest
      have hlast : (p.bits * 64 + group) % 64 = group := by omega
      refine ⟨p.bits * 64 + group, r, cs', ⟨?_, ?_, ?_⟩, ?_, rfl, hr⟩
      · rw [hk]
        omega
      · rw [hk]
        simpa [hlast] using hlow
      · rw [hk]
        simpa [hlast] using hhigh
      · rw [hk, continuation, continuation, Nat.pow_zero, Nat.div_one, hlast]
        rfl
  | succ k ih =>
      obtain ⟨group, r, hgroup, rfl, hlow, hhigh, hrest⟩ := exists_group_of_decodeFrom hp h
      rw [take, if_neg (by omega), hk, Nat.add_sub_cancel] at hrest
      obtain ⟨n, r', cs', hn, rfl, rfl, hr⟩ := ih (sound_next k _) hrest rfl
      have hbits : n / 64 ^ (k + 1) = p.bits * 64 + group := hn.bits
      have hgathered := div_pow_succ n (k + 1)
      have hlast : n / 64 ^ (k + 1) % 64 = group := by omega
      refine ⟨n, r', cs', ⟨?_, ?_, ?_⟩, ?_, rfl, hr⟩
      · rw [hk]
        omega
      · rwa [hk, Nat.add_sub_cancel, hlast]
      · rwa [hk, Nat.add_sub_cancel, hlast]
      · rw [hk, continuation, hlast]
        rfl

/-! ### Lead octets -/

/-- How a character is encoded, by its number. -/
theorem encodeChar_eq (c : Char) : String.utf8EncodeChar c =
    if c.toNat ≤ 0x7F then [UInt8.ofNat c.toNat]
    else if c.toNat ≤ 0x7FF then UInt8.ofNat (0xC0 + c.toNat / 64) :: continuation 1 c.toNat
    else if c.toNat ≤ 0xFFFF then UInt8.ofNat (0xE0 + c.toNat / 64 ^ 2) :: continuation 2 c.toNat
    else UInt8.ofNat (0xF0 + c.toNat / 64 ^ 3) :: continuation 3 c.toNat := by
  have hvalid : c.toNat < 0xD800 ∨ 0xDFFF < c.toNat ∧ c.toNat < 0x110000 := c.valid
  have hnumber : c.val.toNat = c.toNat := rfl
  simp only [String.utf8EncodeChar, hnumber, continuation]
  split_ifs
  · rfl
  · have hlead : c.toNat / 64 % 32 + 192 = 0xC0 + c.toNat / 64 := by omega
    simp [hlead, Nat.add_comm]
  · have hlead : c.toNat / 4096 % 16 + 224 = 0xE0 + c.toNat / 64 ^ 2 := by omega
    simp [hlead, Nat.add_comm]
  · have hlead : c.toNat / 262144 % 8 + 240 = 0xF0 + c.toNat / 64 ^ 3 := by omega
    simp [hlead, Nat.add_comm]

theorem toNat_charOfNat {n : Nat} (hn : n.isValidChar) : (Char.ofNat n).toNat = n := by
  rw [Char.ofNat, dif_pos hn]
  rfl

/-- What an octet means where a character starts, by its number. -/
theorem start_eq (b : UInt8) : start b =
    if b.toNat ≤ 0x7F then .complete (Char.ofNat b.toNat)
    else if b.toNat < 0xC2 then .never
    else if b.toNat ≤ 0xDF then .opens ⟨1, 0x80, 0xBF, b.toNat % 32⟩
    else if b.toNat = 0xE0 then .opens ⟨2, 0xA0, 0xBF, 0⟩
    else if b.toNat = 0xED then .opens ⟨2, 0x80, 0x9F, 13⟩
    else if b.toNat ≤ 0xEF then .opens ⟨2, 0x80, 0xBF, b.toNat % 16⟩
    else if b.toNat = 0xF0 then .opens ⟨3, 0x90, 0xBF, 0⟩
    else if b.toNat = 0xF4 then .opens ⟨3, 0x80, 0x8F, 4⟩
    else if b.toNat < 0xF4 then .opens ⟨3, 0x80, 0xBF, b.toNat % 8⟩
    else .never := by
  simp only [start, UInt8.le_iff_toNat_le, UInt8.lt_iff_toNat_lt, ← UInt8.toNat_inj,
    UInt8.reduceToNat]

/-- An octet of its own is a character that is encoded as just this octet. -/
theorem encodeChar_of_complete {b : UInt8} {c : Char} (h : start b = .complete c) :
    String.utf8EncodeChar c = [b] := by
  rw [start_eq] at h
  split_ifs at h with hascii
  cases h
  have hnumber : (Char.ofNat b.toNat).toNat = b.toNat := toNat_charOfNat (.inl (by omega))
  rw [encodeChar_eq, hnumber, if_pos hascii, UInt8.ofNat_toNat]

/-- The lead octet of a character, by its number and how many octets follow. -/
def IsLead (b : UInt8) (wanted n : Nat) : Prop :=
  n.isValidChar ∧
    (wanted = 1 ∧ 0x7F < n ∧ n ≤ 0x7FF ∧ b.toNat = 0xC0 + n / 64 ∨
      wanted = 2 ∧ 0x7FF < n ∧ n ≤ 0xFFFF ∧ b.toNat = 0xE0 + n / 64 ^ 2 ∨
      wanted = 3 ∧ 0xFFFF < n ∧ b.toNat = 0xF0 + n / 64 ^ 3)

theorem encodeChar_of_isLead {b : UInt8} {wanted n : Nat} (h : IsLead b wanted n) :
    String.utf8EncodeChar (Char.ofNat n) = b :: continuation wanted n := by
  obtain ⟨hvalid, hlead⟩ := h
  rw [encodeChar_eq, toNat_charOfNat hvalid]
  rcases hlead with ⟨rfl, hlow, hhigh, hb⟩ | ⟨rfl, hlow, hhigh, hb⟩ | ⟨rfl, hlow, hb⟩
  · rw [if_neg (by omega), if_pos hhigh, ← hb, UInt8.ofNat_toNat]
  · rw [if_neg (by omega), if_neg (by omega), if_pos hhigh, ← hb, UInt8.ofNat_toNat]
  · rw [if_neg (by omega), if_neg (by omega), if_neg (by omega), ← hb, UInt8.ofNat_toNat]

/-- A character above `7F` has a lead octet. -/
theorem exists_isLead {n : Nat} (hvalid : n.isValidChar) (h : 0x7F < n) :
    ∃ b wanted, IsLead b wanted n := by
  have hlimit : n < 0xD800 ∨ 0xDFFF < n ∧ n < 0x110000 := hvalid
  have hoctet : ∀ k < 256, (UInt8.ofNat k).toNat = k := fun k hk => by
    rw [UInt8.toNat_ofNat']
    omega
  by_cases htwo : n ≤ 0x7FF
  · exact ⟨_, 1, hvalid, .inl ⟨rfl, h, htwo, hoctet (0xC0 + n / 64) (by omega)⟩⟩
  · by_cases hthree : n ≤ 0xFFFF
    · exact ⟨_, 2, hvalid, .inr (.inl ⟨rfl, by omega, hthree,
        hoctet (0xE0 + n / 64 ^ 2) (by omega)⟩)⟩
    · exact ⟨_, 3, hvalid, .inr (.inr ⟨rfl, by omega,
        hoctet (0xF0 + n / 64 ^ 3) (by omega)⟩)⟩

theorem sound_of_start {b : UInt8} {p : Pending} (h : start b = .opens p) : p.Sound := by
  rw [start_eq] at h
  split_ifs at h
  all_goals
    cases h
    constructor <;> exact Nat.le_of_ble_eq_true rfl

/-- What the state after a lead octet leads to has this lead octet. -/
theorem isLead_of_start {b : UInt8} {p : Pending} (h : start b = .opens p) {n : Nat}
    (hn : p.Leads n) : IsLead b p.wanted n := by
  rw [start_eq] at h
  obtain ⟨hbits, hlow, hhigh⟩ := hn
  rw [IsLead, Nat.isValidChar]
  split_ifs at h
  all_goals
    cases h
    simp only [UInt8.reduceToNat, Nat.reduceSub, Nat.reducePow, true_and] at hbits hlow hhigh ⊢
    omega

/-- After the lead octet of a character comes a state that leads to it. -/
theorem start_of_isLead {b : UInt8} {wanted n : Nat} (h : IsLead b wanted n) :
    ∃ p, start b = .opens p ∧ p.wanted = wanted ∧ p.Leads n := by
  obtain ⟨hvalid, hlead⟩ := h
  rw [Nat.isValidChar] at hvalid
  rw [start_eq]
  split_ifs
  all_goals first | omega | skip
  all_goals
    refine ⟨_, rfl, ?_, ?_, ?_, ?_⟩
    all_goals
      simp only [UInt8.reduceToNat]
      rcases hlead with ⟨rfl, hlow, hhigh, hb⟩ | ⟨rfl, hlow, hhigh, hb⟩ | ⟨rfl, hlow, hb⟩ <;> omega

/-! ### Texts -/

/-- An encoded character is read as this character. -/
theorem decodeFrom_encodeChar (c : Char) (r : List UInt8) :
    decodeFrom none (String.utf8EncodeChar c ++ r) = (c :: ·) <$> decodeFrom none r := by
  by_cases hone : c.toNat ≤ 0x7F
  · have hoctet : (UInt8.ofNat c.toNat).toNat = c.toNat := by
      rw [UInt8.toNat_ofNat']
      omega
    rw [encodeChar_eq, if_pos hone, List.singleton_append, decodeFrom, start_eq, hoctet, if_pos hone,
      Char.ofNat_toNat]
  · have hvalid : c.toNat.isValidChar := c.valid
    obtain ⟨b, wanted, hlead⟩ := exists_isLead hvalid (Nat.lt_of_not_le hone)
    obtain ⟨p, hstart, rfl, hleads⟩ := start_of_isLead hlead
    have hencoded := encodeChar_of_isLead hlead
    rw [Char.ofNat_toNat] at hencoded
    rw [hencoded, List.cons_append, decodeFrom, hstart]
    exact (decodeFrom_continuation (sound_of_start hstart) hleads r).trans (by rw [Char.ofNat_toNat])

theorem decodeFrom_encode (cs : List Char) :
    decodeFrom none (cs.flatMap String.utf8EncodeChar) = .ok cs := by
  induction cs with
  | nil => rfl
  | cons c r ih =>
      rw [List.flatMap_cons, decodeFrom_encodeChar, ih]
      rfl

/-- What is read as characters is their encoding. -/
theorem eq_encode_of_decodeFrom {octets : List UInt8} {cs : List Char}
    (h : decodeFrom none octets = .ok cs) : octets = cs.flatMap String.utf8EncodeChar := by
  -- The octets of a character are taken all at once, so the rest is shorter by more than one.
  induction hlength : octets.length using Nat.strongRecOn generalizing octets cs with
  | ind length ih =>
      subst hlength
      cases octets with
      | nil =>
          cases h
          rfl
      | cons b r =>
          rw [decodeFrom] at h
          cases hstart : start b with
          | never =>
              rw [hstart] at h
              cases h
          | complete c =>
              rw [hstart] at h
              obtain ⟨cs', hr, rfl⟩ := Except.map_eq_ok_iff.mp h
              rw [List.flatMap_cons, encodeChar_of_complete hstart, List.singleton_append,
                ← ih r.length (Nat.lt_succ_self _) hr rfl]
          | opens p =>
              rw [hstart] at h
              obtain ⟨n, r', cs', hn, rfl, rfl, hr⟩ :=
                exists_leads_of_decodeFrom (sound_of_start hstart) h
              have hshorter : r'.length < (b :: (continuation p.wanted n ++ r')).length := by
                rw [List.length_cons, List.length_append]
                omega
              rw [List.flatMap_cons, encodeChar_of_isLead (isLead_of_start hstart hn),
                List.cons_append, ← ih r'.length hshorter hr rfl]

theorem length_encode (text : String) : (encode text).length = text.utf8ByteSize := by
  have hsize := congrArg ByteArray.size text.utf8Encode_toList
  simpa [encode, List.utf8Encode, List.length_flatMap] using hsize

/-- **Octets are read as a text if and only if they are its encoding.** -/
theorem decode_eq_ok_iff {octets : List UInt8} {text : String} :
    decode octets = .ok text ↔ octets = encode text := by
  rw [decode, Except.map_eq_ok_iff, encode]
  constructor
  · rintro ⟨cs, hcs, rfl⟩
    rw [String.toList_ofList]
    exact eq_encode_of_decodeFrom hcs
  · rintro rfl
    exact ⟨text.toList, decodeFrom_encode text.toList, String.ofList_toList⟩

theorem decode_encode (text : String) : decode (encode text) = .ok text := decode_eq_ok_iff.mpr rfl

end Coinage.Text.Utf8
