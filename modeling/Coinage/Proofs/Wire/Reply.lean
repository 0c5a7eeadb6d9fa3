import Coinage.Proofs.Judgement
import Coinage.Proofs.Wire.StringField
import Coinage.Registry.Execute

/-! Texts that are written as a field and read again. The number of a field has to fit the tag, and a
length the nine octets that are read of it; the text of a denom is far from that limit, so that the
reply to a creation always leads back to the denom. -/

namespace Coinage

open Coinage.Text Act

namespace Wire.StringField

variable {text : String} {field : Int}

theorem lengthDelimited_eq : (lengthDelimited : Int) = 2 := rfl

theorem encode_of_neg (h : field < 0) : encode text field = .error .fieldNegative := by
  have hmark := lengthDelimited_eq
  simp only [encode]
  rw [if_neg (by omega), if_pos (by omega)]

theorem encode_of_gt (h : 31 < field) : encode text field = .error (.fieldTooLarge field) := by
  have hmark := lengthDelimited_eq
  simp only [encode]
  rw [if_pos (by omega)]

theorem encode_of_fits (text : String) (hnonneg : 0 ≤ field) (hle : field ≤ 31) :
    ∃ tag, Announces tag field ∧ encode text field =
      .ok (tag :: (Varint.encode (Utf8.encode text).length ++ Utf8.encode text)) := by
  have hmark := lengthDelimited_eq
  refine ⟨UInt8.ofNat (field * 8 + lengthDelimited).toNat, announces_iff.mpr ?_, ?_⟩
  · rw [UInt8.toNat_ofNat']
    omega
  · simp only [encode]
    rw [if_neg (by omega), if_neg (by omega)]

/-- The writer has a tag for the numbers of five bits, and for no others. -/
theorem exists_encode_iff : (∃ octets, encode text field = .ok octets) ↔ 0 ≤ field ∧ field ≤ 31 := by
  rcases Int.lt_or_le field 0 with hneg | hnonneg
  · simp [encode_of_neg hneg, Int.not_le.mpr hneg]
  rcases Int.lt_or_le 31 field with hgt | hle
  · simp [encode_of_gt hgt, Int.not_le.mpr hgt]
  obtain ⟨tag, -, hencode⟩ := encode_of_fits text hnonneg hle
  exact ⟨fun _ => ⟨hnonneg, hle⟩, fun _ => ⟨_, hencode⟩⟩

theorem isLength_encode {n : Nat} (h : n < 2 ^ 63) : IsLength (Varint.encode n) n :=
  ⟨Varint.isVarint_encode n, Varint.length_encode_le_iff.mpr h, Varint.value_encode n⟩

/-- What was written is the field with its text, whatever follows it. -/
theorem holds_of_encode (hlength : (Utf8.encode text).length < 2 ^ 63) {octets : List UInt8}
    (h : encode text field = .ok octets) (trailing : List UInt8) :
    Holds (octets ++ trailing) field text := by
  obtain ⟨hnonneg, hle⟩ := exists_encode_iff.mp ⟨octets, h⟩
  obtain ⟨tag, htag, hencode⟩ := encode_of_fits text hnonneg hle
  rw [hencode] at h
  cases h
  exact ⟨tag, _, _, trailing, by simp, htag, isLength_encode hlength, rfl⟩

/-- **What was written is read back.** -/
theorem decode_append_of_encode (hlength : (Utf8.encode text).length < 2 ^ 63) {octets : List UInt8}
    (h : encode text field = .ok octets) (trailing : List UInt8) :
    decode (octets ++ trailing) field = .ok text :=
  decode_of_holds (holds_of_encode hlength h trailing)

/-- A field is not mistaken for another one. Both numbers are told, unless the wanted one has too many
digits. -/
theorem decode_of_holds_ne {octets : List UInt8} (h : Holds octets field text) {other : Int}
    (hother : other ≠ field) : decode octets other =
      .error ⟨other, if other.natAbs < 10 ^ Numeral.maxDigits then .fieldMismatch field.toNat
        else .overlongField⟩ := by
  obtain ⟨tag, groups, payload, trailing, rfl, htag, -, -⟩ := h
  have hnumber := htag.number
  split
  · next hshort =>
      rw [show field.toNat = (tag >>> 3).toNat by omega]
      exact decode_of_fails (.fieldMismatch (hnumber.trans_ne hother.symm) hshort)
  · next hlong => exact decode_of_fails (.overlongField (Nat.le_of_not_lt hlong))

end Wire.StringField

namespace Wire.Reply

/-- The reply to a creation leads back to the denom. -/
theorem denom_of_ofDenom {d : Denom} {octets : List UInt8} (h : ofDenom d.text = .ok octets) :
    denom octets = .ok d.text := by
  have hlength : (Utf8.encode d.text).length < 2 ^ 63 := by
    rw [Utf8.length_encode]
    exact Nat.lt_of_le_of_lt d.utf8ByteSize_text_le (by decide)
  rw [← List.append_nil octets]
  exact StringField.decode_append_of_encode hlength h []

end Wire.Reply

namespace Registry

variable {r r' : Registry} {sender : String} {subdenom : Text} {metadata : Option Metadata}

theorem lookup_of_createDenom {d : Denom}
    (h : (createDenom sender subdenom metadata).on r = (.ok d, r')) :
    Denom.lookup sender subdenom = .ok d := by
  obtain ⟨d', r₁, hd, h⟩ := on_bind_eq_ok_iff.mp h
  obtain ⟨-, r₂, -, h⟩ := on_bind_eq_ok_iff.mp h
  obtain ⟨-, r₃, -, h⟩ := on_bind_eq_ok_iff.mp h
  cases h
  exact (on_lift_eq_ok_iff.mp hd).1

/-- **A creation is answered with its denom,** as an attribute and in the octets of the reply. -/
theorem reply_of_createDenom {receipt : Receipt}
    (h : r.execute sender (.message (.createDenom subdenom metadata)) = (.ok receipt, r')) :
    ∃ d octets, Denom.lookup sender subdenom = .ok d ∧
      receipt = ⟨"create_denom", [("denom", d.text)], some octets⟩ ∧
      Wire.Reply.denom octets = .ok d.text := by
  rcases hperform : (perform sender (.createDenom subdenom metadata)).on r with
    ⟨fault | receipt', r''⟩ <;> simp only [execute, hperform] at h <;> cases h
  obtain ⟨d, r₁, hcreate, h⟩ := on_bind_eq_ok_iff.mp hperform
  obtain ⟨octets, r₂, hreply, h⟩ := on_bind_eq_ok_iff.mp h
  have hoctets := Except.mapError_eq_ok_iff.mp (on_lift_eq_ok_iff.mp hreply).1
  cases h
  exact ⟨d, octets, lookup_of_createDenom hcreate, rfl, Wire.Reply.denom_of_ofDenom hoctets⟩

end Registry

open Wire StringField

/-- **Writer and reader agree.** A text has a field with each of the 32 numbers, which is read back
whatever follows it, and not taken for a field with another number, even if that has too many digits to
be told; and whatever registry carries out a creation, its reply is read as the denom that the sender
and the subdenom lead to. -/
theorem Wire.fields_and_replies_read_back :
    (∀ (text : String) (field : Int), (Utf8.encode text).length < 2 ^ 63 →
      ((∃ octets, encode text field = .ok octets) ↔ 0 ≤ field ∧ field ≤ 31) ∧
      (field < 0 → encode text field = .error .fieldNegative) ∧
      (31 < field → encode text field = .error (.fieldTooLarge field)) ∧
      ∀ octets, encode text field = .ok octets → ∀ trailing,
        decode (octets ++ trailing) field = .ok text ∧
        ∀ other, other ≠ field → decode (octets ++ trailing) other =
          .error ⟨other, if other.natAbs < 10 ^ Numeral.maxDigits then .fieldMismatch field.toNat
            else .overlongField⟩) ∧
    ∀ (r r' : Registry) (sender : String) (subdenom : Text) (metadata : Option Metadata)
      (receipt : Receipt),
      r.execute sender (.message (.createDenom subdenom metadata)) = (.ok receipt, r') →
      ∃ d octets, Denom.lookup sender subdenom = .ok d ∧
        receipt.attributes = [("denom", d.text)] ∧ receipt.data = some octets ∧
        Reply.denom octets = .ok d.text := by
  constructor
  · intro text field hlength
    refine ⟨exists_encode_iff, encode_of_neg, encode_of_gt, fun octets hencode trailing => ?_⟩
    have hholds := holds_of_encode hlength hencode trailing
    exact ⟨decode_of_holds hholds, fun other hother => decode_of_holds_ne hholds hother⟩
  · intro r r' sender subdenom metadata receipt h
    obtain ⟨d, octets, hd, rfl, hreply⟩ := Registry.reply_of_createDenom h
    exact ⟨d, octets, hd, rfl, rfl, hreply⟩

/-- Alice's gold as a field of 18 octets. -/
def Wire.goldReply : List UInt8 := 10 :: 18 :: Utf8.encode "factory/alice/gold"

theorem Wire.gold_read_back :
    (∃ octets, encode "gold" 31 = .ok octets ∧ decode (octets ++ [0xFF]) 31 = .ok "gold" ∧
      decode (octets ++ [0xFF]) (-1) = .error ⟨-1, .fieldMismatch 31⟩) ∧
    ((Registry.start ∅).execute "alice" (.message (.createDenom "gold" none))).1 =
      .ok ⟨"create_denom", [("denom", "factory/alice/gold")], some goldReply⟩ ∧
    Reply.denom goldReply = .ok "factory/alice/gold" := by
  obtain ⟨hfields, hreplies⟩ := fields_and_replies_read_back
  obtain ⟨hexists, -, -, hread⟩ := hfields "gold" 31 (by decide +kernel)
  obtain ⟨octets, hoctets⟩ := hexists.mpr (by decide)
  obtain ⟨hsame, hother⟩ := hread octets hoctets [0xFF]
  have hmismatch := hother (-1) (by decide)
  rw [if_pos (by decide +kernel)] at hmismatch
  have hcreated : ((Registry.start ∅).execute "alice" (.message (.createDenom "gold" none))).1 =
      .ok ⟨"create_denom", [("denom", "factory/alice/gold")], some goldReply⟩ := by decide +kernel
  obtain ⟨d, octets', -, hdenom, hdata, hreply⟩ :=
    hreplies _ _ "alice" "gold" none _ (Prod.ext hcreated rfl)
  refine ⟨⟨octets, hoctets, hsame, hmismatch⟩, hcreated, ?_⟩
  have htext : d.text = "factory/alice/gold" := by simpa using hdenom.symm
  rw [Option.some.inj hdata, hreply, htext]

/-- Not every other number is told from that of the field: one is too long to be told at all. -/
theorem Wire.vast_number_not_told :
    ¬ ∀ (text : String) (field other : Int) (octets : List UInt8), encode text field = .ok octets →
      other ≠ field → ∃ found, decode octets other = .error ⟨other, .fieldMismatch found⟩ := by
  intro hclaim
  obtain ⟨found, hfound⟩ := hclaim "" 1 Numeral.vast [10, 0] (by decide +kernel) (by decide +kernel)
  have hlong : 10 ^ Numeral.maxDigits ≤ Numeral.vast.natAbs := Numeral.natAbs_vast.ge
  rw [decode_of_fails (.overlongField hlong)] at hfound
  cases hfound

end Coinage
