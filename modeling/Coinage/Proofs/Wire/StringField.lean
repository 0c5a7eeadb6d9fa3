import Mathlib.Data.Nat.Bitwise
import Coinage.Proofs.Numeral
import Coinage.Proofs.Text.Utf8
import Coinage.Proofs.Wire.Varint
import Coinage.Wire.StringField

/-! The reader of a text field, told by the form of its input. It gives a text just where the input
holds the wanted field with this text, and anything behind it. All other input has one fault that comes
first, in the order of the octets: the number of the field, how it is delimited, the length, the
payload. -/

namespace Coinage.Wire.StringField

open Coinage.Text Numeral Varint

/-- The tag of a field: its number stands above three bits, of which the lowest two say that a length
follows. -/
structure Announces (tag : UInt8) (field : Int) : Prop where
  number : ((tag >>> 3).toNat : Int) = field
  wireType : tag &&& 3 = 2

/-- A number in the form of a length, which is read from nine octets at most. -/
structure IsLength (groups : List UInt8) (n : Nat) : Prop where
  form : IsVarint groups
  length_le : groups.length ≤ 9
  value : value groups = n

/-- The input is a field with this number and this text, and whatever follows it. -/
def Holds (octets : List UInt8) (field : Int) (text : String) : Prop :=
  ∃ tag groups payload trailing, octets = tag :: (groups ++ (payload ++ trailing)) ∧
    Announces tag field ∧ IsLength groups payload.length ∧ payload = Utf8.encode text

/-- Why the input is no field with this number. No two of the cases have input in common. -/
inductive Fails (field : Int) : List UInt8 → DecodeError.Cause → Prop
  | fieldMismatch {tag : UInt8} {rest : List UInt8} (hnumber : ((tag >>> 3).toNat : Int) ≠ field)
      (hshort : field.natAbs < 10 ^ maxDigits) :
      Fails field (tag :: rest) (.fieldMismatch (tag >>> 3).toNat)
  /-- A number with too many digits is never that of the tag, and cannot be told. -/
  | overlongField {tag : UInt8} {rest : List UInt8} (hlong : 10 ^ maxDigits ≤ field.natAbs) :
      Fails field (tag :: rest) .overlongField
  | wireTypeMismatch {tag : UInt8} {rest : List UInt8}
      (hnumber : ((tag >>> 3).toNat : Int) = field) (hwire : tag &&& 3 ≠ 2) :
      Fails field (tag :: rest) (.wireTypeMismatch (tag &&& 3).toNat)
  | varintTooShort {tag : UInt8} {rest : List UInt8} (htag : Announces tag field)
      (hlength : rest.length < 9) (hopen : ∀ b ∈ rest, 128 ≤ b) :
      Fails field (tag :: rest) (.varint .tooShort)
  | varintTooLong {tag : UInt8} {rest : List UInt8} (htag : Announces tag field)
      (hlength : 9 ≤ rest.length) (hopen : ∀ b ∈ rest.take 9, 128 ≤ b) :
      Fails field (tag :: rest) (.varint .tooLong)
  | payloadTooShort {tag : UInt8} {groups remaining : List UInt8} {n : Nat}
      (htag : Announces tag field) (hgroups : IsLength groups n) (hshort : remaining.length < n) :
      Fails field (tag :: (groups ++ remaining)) (.payloadTooShort n remaining.length)
  | invalidUtf8 {tag : UInt8} {groups payload trailing : List UInt8} {flaw : Utf8.Flaw}
      (htag : Announces tag field) (hgroups : IsLength groups payload.length)
      (hnone : ∀ text, payload ≠ Utf8.encode text) (hflaw : Utf8.decode payload = .error flaw) :
      Fails field (tag :: (groups ++ (payload ++ trailing))) (.invalidUtf8 flaw)

/-! ### The tag -/

theorem toNat_shiftRight_three (tag : UInt8) : (tag >>> 3).toNat = tag.toNat / 8 := by
  rw [UInt8.toNat_shiftRight, Nat.shiftRight_eq_div_pow]
  rfl

theorem toNat_and_three (tag : UInt8) : (tag &&& 3).toNat = tag.toNat % 4 := by
  rw [UInt8.toNat_and]
  exact Nat.and_two_pow_sub_one_eq_mod tag.toNat 2

theorem and_three_eq_two_iff {tag : UInt8} : tag &&& 3 = 2 ↔ tag.toNat % 4 = 2 := by
  rw [← UInt8.toNat_inj, toNat_and_three]
  rfl

theorem announces_iff {tag : UInt8} {field : Int} :
    Announces tag field ↔ ((tag.toNat / 8 : Nat) : Int) = field ∧ tag.toNat % 4 = 2 := by
  rw [← toNat_shiftRight_three, ← and_three_eq_two_iff]
  exact ⟨fun h => ⟨h.number, h.wireType⟩, fun h => ⟨h.1, h.2⟩⟩

/-! ### The length -/

theorem decode_eq_ok_iff_isLength {octets rest : List UInt8} {n : Nat} :
    Varint.decode octets = .ok (n, rest) ↔ ∃ groups, octets = groups ++ rest ∧ IsLength groups n := by
  rw [Varint.decode, decodeUpTo_eq_ok_iff]
  constructor
  · rintro ⟨groups, hsplit, hform, hle, hvalue⟩
    exact ⟨groups, hsplit, hform, hle, hvalue⟩
  · rintro ⟨groups, hsplit, hform, hle, hvalue⟩
    exact ⟨groups, hsplit, hform, hle, hvalue⟩

theorem decode_append {groups : List UInt8} {n : Nat} (h : IsLength groups n) (rest : List UInt8) :
    Varint.decode (groups ++ rest) = .ok (n, rest) :=
  decode_eq_ok_iff_isLength.mpr ⟨groups, rfl, h⟩

/-! ### The payload -/

variable {field : Int} {tag : UInt8} {rest : List UInt8}

theorem payload_of_number_ne (hnumber : ((tag >>> 3).toNat : Int) ≠ field) :
    payload field tag rest = .error (mismatch field (tag >>> 3).toNat) := by
  rw [toNat_shiftRight_three] at hnumber ⊢
  rw [payload, if_pos hnumber]

theorem mismatch_of_short (h : field.natAbs < 10 ^ maxDigits) (found : Nat) :
    mismatch field found = .fieldMismatch found :=
  if_pos (isWritable_iff.mpr h)

theorem mismatch_of_long (h : 10 ^ maxDigits ≤ field.natAbs) (found : Nat) :
    mismatch field found = .overlongField :=
  if_neg fun hshort => Nat.not_lt.mpr h (isWritable_iff.mp hshort)

/-- The number of a tag is short. -/
theorem number_ne_of_long (h : 10 ^ maxDigits ≤ field.natAbs) : ((tag >>> 3).toNat : Int) ≠ field := by
  rintro rfl
  have hsmall : (tag >>> 3).toNat < 10 ^ 3 := (tag >>> 3).toNat_lt.trans (by decide)
  have hgrows : 10 ^ 3 ≤ 10 ^ maxDigits := Nat.pow_le_pow_right (by decide) (by decide)
  exact Nat.not_lt.mpr (hgrows.trans h) hsmall

theorem payload_of_wireType_ne (hnumber : ((tag >>> 3).toNat : Int) = field)
    (hwire : ¬ tag &&& 3 = 2) :
    payload field tag rest = .error (.wireTypeMismatch (tag &&& 3).toNat) := by
  rw [toNat_shiftRight_three] at hnumber
  rw [and_three_eq_two_iff] at hwire
  rw [payload, if_neg (not_not.mpr hnumber), toNat_and_three]
  exact if_pos hwire

/-- Behind its tag a field goes on with its length. -/
theorem payload_of_announces (htag : Announces tag field) :
    payload field tag rest =
      match Varint.decode rest with
      | .error flaw => .error (.varint flaw)
      | .ok (length, rest) =>
        if rest.length < length then .error (.payloadTooShort length rest.length)
        else .ok (rest.take length) := by
  obtain ⟨hnumber, hwire⟩ := announces_iff.mp htag
  rw [payload, if_neg (not_not.mpr hnumber)]
  exact if_neg (not_not.mpr hwire)

/-! ### The field -/

theorem decode_of_isLength (htag : Announces tag field) {groups payload : List UInt8}
    (hgroups : IsLength groups payload.length) (trailing : List UInt8) :
    decode (tag :: (groups ++ (payload ++ trailing))) field =
      (Utf8.decode payload).mapError fun flaw => ⟨field, .invalidUtf8 flaw⟩ := by
  rw [decode, payload_of_announces htag, decode_append hgroups]
  simp

/-- A text is read back from its field. -/
theorem decode_of_holds {octets : List UInt8} {text : String} (h : Holds octets field text) :
    decode octets field = .ok text := by
  obtain ⟨tag, groups, payload, trailing, rfl, htag, hgroups, rfl⟩ := h
  rw [decode_of_isLength htag hgroups, Utf8.decode_encode, Except.mapError_ok]

/-- A fault of the input is what the reader finds. -/
theorem decode_of_fails {octets : List UInt8} {cause : DecodeError.Cause}
    (h : Fails field octets cause) : decode octets field = .error ⟨field, cause⟩ := by
  cases h with
  | fieldMismatch hnumber hshort =>
      rw [decode, payload_of_number_ne hnumber, mismatch_of_short hshort]
  | overlongField hlong =>
      rw [decode, payload_of_number_ne (number_ne_of_long hlong), mismatch_of_long hlong]
  | wireTypeMismatch hnumber hwire => rw [decode, payload_of_wireType_ne hnumber hwire]
  | varintTooShort htag hlength hopen =>
      rw [decode, payload_of_announces htag, Varint.decode, maxOctets,
        decodeUpTo_eq_tooShort_iff.mpr ⟨hlength, hopen⟩]
  | varintTooLong htag hlength hopen =>
      rw [decode, payload_of_announces htag, Varint.decode, maxOctets,
        decodeUpTo_eq_tooLong_iff.mpr ⟨hlength, hopen⟩]
  | payloadTooShort htag hgroups hshort =>
      rw [decode, payload_of_announces htag, decode_append hgroups]
      simp only [hshort, if_true]
  | invalidUtf8 htag hgroups hnone hflaw =>
      rw [decode_of_isLength htag hgroups, hflaw, Except.mapError_error]

/-- Input with a tag has a payload, or a fault in front of it. -/
theorem fails_or_isLength (field : Int) (tag : UInt8) (rest : List UInt8) :
    (∃ cause, Fails field (tag :: rest) cause) ∨
      ∃ groups payload trailing, rest = groups ++ (payload ++ trailing) ∧ Announces tag field ∧
        IsLength groups payload.length := by
  by_cases hnumber : ((tag >>> 3).toNat : Int) = field
  swap
  · rcases Nat.lt_or_ge field.natAbs (10 ^ maxDigits) with hshort | hlong
    · exact .inl ⟨_, .fieldMismatch hnumber hshort⟩
    · exact .inl ⟨_, .overlongField hlong⟩
  by_cases hwire : tag &&& 3 = 2
  swap
  · exact .inl ⟨_, .wireTypeMismatch hnumber hwire⟩
  have htag : Announces tag field := ⟨hnumber, hwire⟩
  rcases hlength : Varint.decode rest with (_ | _) | ⟨n, remaining⟩
  · obtain ⟨hlt, hopen⟩ := decodeUpTo_eq_tooShort_iff.mp hlength
    exact .inl ⟨_, .varintTooShort htag hlt hopen⟩
  · obtain ⟨hle, hopen⟩ := decodeUpTo_eq_tooLong_iff.mp hlength
    exact .inl ⟨_, .varintTooLong htag hle hopen⟩
  obtain ⟨groups, rfl, hgroups⟩ := decode_eq_ok_iff_isLength.mp hlength
  by_cases hshort : remaining.length < n
  · exact .inl ⟨_, .payloadTooShort htag hgroups hshort⟩
  · have htake : (remaining.take n).length = n := List.length_take_of_le (Nat.not_lt.mp hshort)
    exact .inr ⟨groups, remaining.take n, remaining.drop n, by rw [List.take_append_drop], htag,
      htake.symm ▸ hgroups⟩

/-- **Input that holds no field has a fault.** -/
theorem holds_or_fails (octets : List UInt8) (field : Int) :
    octets = [] ∨ (∃ text, Holds octets field text) ∨ ∃ cause, Fails field octets cause := by
  cases octets with
  | nil => exact .inl rfl
  | cons tag rest =>
      refine .inr ?_
      rcases fails_or_isLength field tag rest with
        hfails | ⟨groups, payload, trailing, rfl, htag, hgroups⟩
      · exact .inr hfails
      cases htext : Utf8.decode payload with
      | ok text =>
          exact .inl ⟨text, tag, groups, payload, trailing, rfl, htag, hgroups,
            Utf8.decode_eq_ok_iff.mp htext⟩
      | error flaw =>
          have hnone (text : String) : payload ≠ Utf8.encode text := fun h => by
            rw [Utf8.decode_eq_ok_iff.mpr h] at htext
            cases htext
          exact .inr ⟨_, .invalidUtf8 htag hgroups hnone htext⟩

theorem decode_eq_ok_iff {octets : List UInt8} {text : String} :
    decode octets field = .ok text ↔ (octets = [] ∧ text = "") ∨ Holds octets field text := by
  constructor
  · intro h
    rcases holds_or_fails octets field with rfl | ⟨text', hholds⟩ | ⟨cause, hfails⟩
    · exact .inl ⟨rfl, (Except.ok.inj h).symm⟩
    · obtain rfl := Except.ok.inj (h.symm.trans (decode_of_holds hholds))
      exact .inr hholds
    · cases h.symm.trans (decode_of_fails hfails)
  · rintro (⟨rfl, rfl⟩ | hholds)
    · rfl
    · exact decode_of_holds hholds

theorem decode_eq_error_iff {octets : List UInt8} {e : DecodeError} :
    decode octets field = .error e ↔ e.field = field ∧ Fails field octets e.cause := by
  constructor
  · intro h
    rcases holds_or_fails octets field with rfl | ⟨text, hholds⟩ | ⟨cause, hfails⟩
    · cases h
    · cases h.symm.trans (decode_of_holds hholds)
    · obtain rfl := Except.error.inj (h.symm.trans (decode_of_fails hfails))
      exact ⟨rfl, hfails⟩
  · rintro ⟨rfl, hfails⟩
    exact decode_of_fails hfails

theorem Fails.unique {octets : List UInt8} {cause cause' : DecodeError.Cause}
    (h : Fails field octets cause) (h' : Fails field octets cause') : cause' = cause :=
  congrArg DecodeError.cause (Except.error.inj ((decode_of_fails h').symm.trans (decode_of_fails h)))

/-- **What the reader makes of any input.** It gives a text if the input is empty or holds the field,
and else the one fault of the input. A payload that is too short is told with both lengths; a field
whose number is too long is not told at all. -/
theorem decode_spec (octets : List UInt8) (field : Int) :
    (∀ text, decode octets field = .ok text ↔
      (octets = [] ∧ text = "") ∨ Holds octets field text) ∧
    (∀ e, decode octets field = .error e ↔ e.field = field ∧ Fails field octets e.cause) ∧
    (octets ≠ [] → (∀ text, ¬ Holds octets field text) → ∃! cause, Fails field octets cause) ∧
    (∀ claimed remaining, Fails field octets (.payloadTooShort claimed remaining) →
      (decode octets field).mapError DecodeError.message =
        .error (s!"failed to decode reply: field #{field}: " ++
          s!"message too short, expected {claimed} bytes, got {remaining}")) ∧
    (Fails field octets .overlongField →
      (decode octets field).mapError DecodeError.message = .error (Numeral.overlong maxDigits none)) := by
  refine ⟨fun _ => decode_eq_ok_iff, fun _ => decode_eq_error_iff, fun hne hnone => ?_,
    fun claimed remaining hfails => ?_, fun hfails => ?_⟩
  · rcases holds_or_fails octets field with hnil | ⟨text, hholds⟩ | ⟨cause, hfails⟩
    · exact absurd hnil hne
    · exact absurd hholds (hnone text)
    · exact ⟨cause, hfails, fun cause' hfails' => hfails.unique hfails'⟩
  · rw [decode_of_fails hfails]
    rfl
  · rw [decode_of_fails hfails]
    rfl

/-- Not every wrong number is told: one with a digit more than the limit is too long. -/
theorem longest_field_not_told :
    ¬ ∀ (tag : UInt8) (rest : List UInt8) (field : Int), ((tag >>> 3).toNat : Int) ≠ field →
      decode (tag :: rest) field = .error ⟨field, .fieldMismatch (tag >>> 3).toNat⟩ := by
  intro hclaim
  have hlong : 10 ^ maxDigits ≤ vast.natAbs := natAbs_vast.ge
  have htold := hclaim 10 [0] vast (number_ne_of_long hlong)
  rw [decode_of_fails (.overlongField hlong)] at htold
  cases htold

end Coinage.Wire.StringField
