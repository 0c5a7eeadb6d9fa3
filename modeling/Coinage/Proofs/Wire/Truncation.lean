import Coinage.Proofs.Wire.Reply

/-! Fields of which the end is missing. The reader goes from front to back and looks at nothing behind
what decides, so what it says of some octets it says of any that begin with them. The exception are its
two complaints that there are too few: they ask for more octets, and there are some that settle the
matter. The front of a field that was written is always found too short. -/

namespace Coinage.Wire.StringField

open Coinage.Text Varint

/-- The answers that ask for more octets. -/
inductive WantsMore : Except DecodeError String → Prop
  | varint (field : Int) : WantsMore (.error ⟨field, .varint .tooShort⟩)
  | payload (field : Int) (expected got : Nat) :
      WantsMore (.error ⟨field, .payloadTooShort expected got⟩)

variable {field : Int} {tag : UInt8} {text : String}

/-! ### Octets that go on -/

theorem Holds.append {octets : List UInt8} (h : Holds octets field text) (more : List UInt8) :
    Holds (octets ++ more) field text := by
  obtain ⟨tag, groups, payload, trailing, rfl, htag, hgroups, hpayload⟩ := h
  exact ⟨tag, groups, payload, trailing ++ more, by simp, htag, hgroups, hpayload⟩

/-- A fault that does not ask for more octets is there whatever follows. -/
theorem Fails.append {octets : List UInt8} {cause : DecodeError.Cause} (h : Fails field octets cause)
    (hcause : ¬ WantsMore (.error ⟨field, cause⟩)) (more : List UInt8) :
    Fails field (octets ++ more) cause := by
  cases h with
  | fieldMismatch hnumber hshort => exact .fieldMismatch hnumber hshort
  | overlongField hlong => exact .overlongField hlong
  | wireTypeMismatch hnumber hwire => exact .wireTypeMismatch hnumber hwire
  | varintTooShort => exact absurd (.varint field) hcause
  | @varintTooLong tag rest htag hlength hopen =>
      rw [List.cons_append]
      refine .varintTooLong htag ?_ ?_
      · rw [List.length_append]
        omega
      · rwa [List.take_append_of_le_length hlength]
  | payloadTooShort => exact absurd (.payload field _ _) hcause
  | @invalidUtf8 tag groups payload trailing flaw htag hgroups hnone hflaw =>
      have hsplit : tag :: (groups ++ (payload ++ trailing)) ++ more =
          tag :: (groups ++ (payload ++ (trailing ++ more))) := by simp
      rw [hsplit]
      exact .invalidUtf8 htag hgroups hnone hflaw

theorem decode_append_of_settled {octets : List UInt8} (hne : octets ≠ [])
    (h : ¬ WantsMore (decode octets field)) (more : List UInt8) :
    decode (octets ++ more) field = decode octets field := by
  rcases holds_or_fails octets field with hnil | ⟨text, hholds⟩ | ⟨cause, hfails⟩
  · exact absurd hnil hne
  · rw [decode_of_holds hholds, decode_of_holds (hholds.append more)]
  · rw [decode_of_fails hfails] at h ⊢
    exact decode_of_fails (hfails.append h more)

/-! ### Octets that are missing -/

/-- A length that has not ended yet is too long if enough octets go on with it. -/
theorem Fails.tooLong_of_tooShort {rest : List UInt8} (htag : Announces tag field)
    (hopen : ∀ b ∈ rest, 128 ≤ b) :
    Fails field (tag :: rest ++ List.replicate 9 0x80) (.varint .tooLong) := by
  rw [List.cons_append]
  refine .varintTooLong htag ?_ fun b hb => ?_
  · rw [List.length_append, List.length_replicate]
    exact Nat.le_add_left 9 _
  · rcases List.mem_append.mp (List.mem_of_mem_take hb) with hb | hb
    · exact hopen b hb
    · rw [List.eq_of_mem_replicate hb]
      exact UInt8.le_refl 0x80

/-- A payload that is as long as its length says is a text or is found not to be one. -/
theorem not_wantsMore_of_isLength (htag : Announces tag field) {groups payload : List UInt8}
    (hgroups : IsLength groups payload.length) :
    ¬ WantsMore (decode (tag :: (groups ++ payload)) field) := by
  have hread := decode_of_isLength htag hgroups []
  rw [List.append_nil] at hread
  rw [hread]
  cases Utf8.decode payload <;> rintro ⟨⟩

/-- **Where more octets are asked for, there are some that settle the matter.** -/
theorem exists_settled {octets : List UInt8} (hne : octets ≠ []) (h : WantsMore (decode octets field)) :
    ∃ more, ¬ WantsMore (decode (octets ++ more) field) := by
  rcases holds_or_fails octets field with hnil | ⟨text, hholds⟩ | ⟨cause, hfails⟩
  · exact absurd hnil hne
  · rw [decode_of_holds hholds] at h
    cases h
  · rw [decode_of_fails hfails] at h
    cases hfails with
    | varintTooShort htag hlength hopen =>
        refine ⟨List.replicate 9 0x80, ?_⟩
        rw [decode_of_fails (Fails.tooLong_of_tooShort htag hopen)]
        rintro ⟨⟩
    | @payloadTooShort tag groups remaining n htag hgroups hshort =>
        refine ⟨List.replicate (n - remaining.length) 0, ?_⟩
        have hlength : (remaining ++ List.replicate (n - remaining.length) 0).length = n := by
          rw [List.length_append, List.length_replicate]
          omega
        rw [List.cons_append, List.append_assoc]
        exact not_wantsMore_of_isLength htag (hlength.symm ▸ hgroups)
    | fieldMismatch | overlongField | wireTypeMismatch | varintTooLong | invalidUtf8 => cases h

/-! ### The front of a field -/

/-- In front of its last octet the form of a number has no end. -/
theorem isOpen_of_isVarint {front rest : List UInt8} (h : IsVarint (front ++ rest))
    (hrest : rest ≠ []) : ∀ b ∈ front, 128 ≤ b := by
  obtain ⟨init, last, hsplit, hinit, -⟩ := h
  obtain ⟨rest, z, rfl⟩ := (List.eq_nil_or_concat rest).resolve_left hrest
  rw [List.concat_eq_append, ← List.append_assoc] at hsplit
  obtain ⟨rfl, -⟩ := List.append_inj' hsplit rfl
  exact fun b hb => hinit b (List.mem_append_left rest hb)

variable {groups payload front rest : List UInt8}

/-- Cut off within its length a field has too short a number in this place. -/
theorem fails_of_length_lt (htag : Announces tag field) {n : Nat} (hgroups : IsLength groups n)
    (hsplit : groups ++ payload = front ++ rest) (hlt : front.length < groups.length) :
    Fails field (tag :: front) (.varint .tooShort) := by
  have hfront : front <+: groups ++ payload := ⟨rest, hsplit.symm⟩
  obtain ⟨last, rfl⟩ :=
    List.prefix_of_prefix_length_le hfront (List.prefix_append _ _) (Nat.le_of_lt hlt)
  have hlast : last ≠ [] := by
    rintro rfl
    rw [List.append_nil] at hlt
    exact Nat.lt_irrefl _ hlt
  exact .varintTooShort htag (Nat.lt_of_lt_of_le hlt hgroups.length_le)
    (isOpen_of_isVarint hgroups.form hlast)

/-- Cut off behind its length a field has too short a payload. -/
theorem fails_of_length_le (htag : Announces tag field) (hgroups : IsLength groups payload.length)
    (hsplit : groups ++ payload = front ++ rest) (hrest : rest ≠ [])
    (hle : groups.length ≤ front.length) :
    Fails field (tag :: front)
      (.payloadTooShort payload.length (front.length - groups.length)) := by
  have hfront : front <+: groups ++ payload := ⟨rest, hsplit.symm⟩
  obtain ⟨got, rfl⟩ := List.prefix_of_prefix_length_le (List.prefix_append _ _) hfront hle
  rw [List.append_assoc, List.append_cancel_left_eq] at hsplit
  have hshort : got.length < payload.length := by
    have hpos := List.length_pos_iff.mpr hrest
    rw [hsplit, List.length_append]
    omega
  rw [List.length_append, Nat.add_sub_cancel_left]
  exact .payloadTooShort htag hgroups hshort

/-- **No part of a field is mistaken for the whole.** A field that was written and has lost its end is
found too short, in its length or in its payload. And whatever the octets are: an answer that does not
ask for more of them stays the same, message and all, whatever is put behind them, and if it does ask
for more, then with some others behind them it does not any longer. -/
theorem truncation_noticed :
    (∀ (text : String) (field : Int), (Utf8.encode text).length < 2 ^ 63 → 0 ≤ field → field ≤ 31 →
      ∃ octets, encode text field = .ok octets ∧
        ∀ front rest, octets = front ++ rest → front ≠ [] → rest ≠ [] →
          (front.length < 1 + (Varint.encode (Utf8.encode text).length).length →
            decode front field = .error ⟨field, .varint .tooShort⟩) ∧
          (1 + (Varint.encode (Utf8.encode text).length).length ≤ front.length →
            decode front field = .error ⟨field, .payloadTooShort (Utf8.encode text).length
              (front.length - (1 + (Varint.encode (Utf8.encode text).length).length))⟩)) ∧
    ∀ (octets : List UInt8) (field : Int), octets ≠ [] →
      (¬ WantsMore (decode octets field) →
        ∀ more, decode (octets ++ more) field = decode octets field) ∧
      (WantsMore (decode octets field) →
        ∃ more, ¬ WantsMore (decode (octets ++ more) field)) := by
  constructor
  · intro text field hlength hnonneg hle
    obtain ⟨tag, htag, hencode⟩ := encode_of_fits text hnonneg hle
    have hgroups := isLength_encode hlength
    refine ⟨_, hencode, fun front rest hsplit hfront hrest => ?_⟩
    obtain ⟨first, front, rfl⟩ := List.exists_cons_of_ne_nil hfront
    rw [List.cons_append, List.cons.injEq] at hsplit
    obtain ⟨rfl, hsplit⟩ := hsplit
    rw [List.length_cons, Nat.add_comm front.length 1]
    constructor
    · intro hlt
      exact decode_of_fails (fails_of_length_lt htag hgroups hsplit (Nat.lt_of_add_lt_add_left hlt))
    · intro hge
      rw [Nat.add_sub_add_left]
      exact decode_of_fails
        (fails_of_length_le htag hgroups hsplit hrest (Nat.le_of_add_le_add_left hge))
  · intro octets field hne
    exact ⟨decode_append_of_settled hne, exists_settled hne⟩

theorem encode_replicate (n : Nat) (c : Char) :
    Utf8.encode (String.ofList (List.replicate n c)) =
      (List.replicate n (String.utf8EncodeChar c)).flatten := by
  rw [Utf8.encode, String.toList_ofList, List.flatMap, List.map_replicate]

/-- A text of 130 octets, two for each character, so that its length takes two octets as well. -/
def wideText : String := String.ofList (List.replicate 65 'é')

/-- The text as it is encoded. -/
def wideOctets : List UInt8 := (List.replicate 65 (String.utf8EncodeChar 'é')).flatten

theorem encode_wideText : Utf8.encode wideText = wideOctets := encode_replicate 65 'é'

theorem wideText_torn :
    encode wideText 31 = .ok ([0xFA, 0x82, 0x01] ++ wideOctets) ∧
    decode [0xFA, 0x82] 31 = .error ⟨31, .varint .tooShort⟩ ∧
    decode [0xFA, 0x82, 0x01, 0xC3] 31 = .error ⟨31, .payloadTooShort 130 1⟩ ∧
    WantsMore (decode [0xFA, 0x82] 31) ∧ (∃ more, ¬ WantsMore (decode ([0xFA, 0x82] ++ more) 31)) ∧
    ¬ WantsMore (decode [0xFA, 1, 0xC3] 31) ∧
    ∀ more, decode ([0xFA, 1, 0xC3] ++ more) 31 = decode [0xFA, 1, 0xC3] 31 := by
  obtain ⟨hfields, hstays⟩ := truncation_noticed
  have hlength : (Utf8.encode wideText).length < 2 ^ 63 := by
    rw [encode_wideText]
    decide +kernel
  obtain ⟨octets, hencode, hfront⟩ := hfields wideText 31 hlength (by decide) (by decide)
  have hwritten : encode wideText 31 = .ok ([0xFA, 0x82, 0x01] ++ wideOctets) := by
    simp only [encode, encode_wideText]
    decide +kernel
  obtain rfl : [0xFA, 0x82, 0x01] ++ wideOctets = octets := Except.ok.inj (hwritten.symm.trans hencode)
  rw [encode_wideText, show Varint.encode wideOctets.length = [0x82, 0x01] by decide +kernel,
    show wideOctets.length = 130 by decide +kernel] at hfront
  have hlengthTorn : decode [0xFA, 0x82] 31 = .error ⟨31, .varint .tooShort⟩ :=
    (hfront [0xFA, 0x82] ([0x01] ++ wideOctets) (by decide +kernel) (by decide) (by decide)).1
      (by decide)
  have hpayloadTorn : decode [0xFA, 0x82, 0x01, 0xC3] 31 = .error ⟨31, .payloadTooShort 130 1⟩ :=
    (hfront [0xFA, 0x82, 0x01, 0xC3] wideOctets.tail (by decide +kernel) (by decide)
      (by decide +kernel)).2 (by decide)
  have hwants : WantsMore (decode [0xFA, 0x82] 31) := hlengthTorn ▸ .varint 31
  have hunfinished : decode [0xFA, 1, 0xC3] 31 = .error ⟨31, .invalidUtf8 .unfinished⟩ := by
    decide +kernel
  have hsettled : ¬ WantsMore (decode [0xFA, 1, 0xC3] 31) := by
    rw [hunfinished]
    rintro ⟨⟩
  exact ⟨hwritten, hlengthTorn, hpayloadTorn, hwants, (hstays _ 31 (by decide)).2 hwants, hsettled,
    (hstays _ 31 (by decide)).1 hsettled⟩

end Coinage.Wire.StringField
