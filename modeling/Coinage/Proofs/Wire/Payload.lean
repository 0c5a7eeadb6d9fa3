import Coinage.Proofs.Text.Flaw
import Coinage.Proofs.Wire.StringField

/-! Payloads that are not the encoding of a text. The reader of a field tells what is wrong with them in
one of three phrases, and which one it is can be seen from the payload alone: from how it can be
continued, and from the octet behind the longest text in front of it. -/

namespace Coinage.Wire.StringField

open Coinage.Text Utf8

/-- With its payload the reader of a field has all that it looks at. -/
theorem decode_of_payload {field : Int} {tag : UInt8} {rest octets : List UInt8}
    (h : payload field tag rest = .ok octets) :
    decode (tag :: rest) field =
      (Utf8.decode octets).mapError fun flaw => ⟨field, .invalidUtf8 flaw⟩ := by
  rw [decode, h]

/-- The three phrases are different. -/
theorem message_eq_iff (flaw flaw' : Flaw) : flaw.message = flaw'.message ↔ flaw = flaw' := by
  cases flaw <;> cases flaw' <;> decide

/-- **What is said of a payload that is no text.** Its data end unexpectedly if there are octets that
make it a text, and for no other reason. Otherwise it is the octet behind the longest text in front of
it that decides: where no character starts with this octet the start is invalid, and where one does the
continuation. -/
theorem invalid_payload_told_apart {field : Int} {tag : UInt8} {rest octets : List UInt8}
    (hpayload : payload field tag rest = .ok octets) (hinvalid : ¬ IsEncoding octets) :
    ∃ flaw front b behind,
      decode (tag :: rest) field = .error ⟨field, .invalidUtf8 flaw⟩ ∧
      (DecodeError.mk field (.invalidUtf8 flaw)).reason = "invalid utf-8: " ++ flaw.message ∧
      octets = front ++ b :: behind ∧ IsLongestEncoding front octets ∧
      (flaw.message = "unexpected end of data" ↔ ∃ more, more ≠ [] ∧ IsEncoding (octets ++ more)) ∧
      (flaw.message = "invalid start byte" ↔ (0x80 ≤ b ∧ b ≤ 0xC1) ∨ 0xF5 ≤ b) ∧
      (flaw.message = "invalid continuation byte" ↔
        (¬ ∃ more, more ≠ [] ∧ IsEncoding (octets ++ more)) ∧
          ¬ ((0x80 ≤ b ∧ b ≤ 0xC1) ∨ 0xF5 ≤ b)) := by
  obtain ⟨flaw, front, b, behind, hread, hsplit, hlongest, hstart⟩ := exists_flaw hinvalid
  have hend := unfinished_iff hread
  refine ⟨flaw, front, b, behind, ?decode, rfl, hsplit, hlongest, ?unfinished, ?start, ?continuation⟩
  case decode => rw [decode_of_payload hpayload, hread, Except.mapError_error]
  case unfinished => exact (message_eq_iff flaw .unfinished).trans hend
  case start => exact (message_eq_iff flaw .startOctet).trans hstart
  case continuation =>
    rw [← hend, ← hstart]
    refine (message_eq_iff flaw .continuationOctet).trans ?_
    cases flaw <;> simp

/-- The first two octets of a surrogate, behind a character. Each of them may stand where it stands, but
not both. -/
theorem surrogate_never_text :
    payload 1 0x0A [3, 0x61, 0xED, 0xA0] = .ok [0x61, 0xED, 0xA0] ∧
      ¬ IsEncoding [0x61, 0xED, 0xA0] ∧
      (decode [0x0A, 3, 0x61, 0xED, 0xA0] 1).mapError DecodeError.reason =
        .error "invalid utf-8: invalid continuation byte" ∧
      ¬ ∃ more, more ≠ [] ∧ IsEncoding ([0x61, 0xED, 0xA0] ++ more) := by
  have hpayload : payload 1 0x0A [3, 0x61, 0xED, 0xA0] = .ok [0x61, 0xED, 0xA0] := by decide +kernel
  have hread : Utf8.decode [0x61, 0xED, 0xA0] = .error .continuationOctet := by decide +kernel
  have hinvalid : ¬ IsEncoding [0x61, 0xED, 0xA0] := by
    rintro ⟨text, htext⟩
    cases (Utf8.decode_eq_ok_iff.mpr htext).symm.trans hread
  obtain ⟨flaw, front, b, behind, hdecode, hreason, -, -, -, -, hcontinuation⟩ :=
    invalid_payload_told_apart hpayload hinvalid
  rw [decode_of_payload hpayload, hread] at hdecode
  cases hdecode
  refine ⟨hpayload, hinvalid, ?_, (hcontinuation.mp rfl).1⟩
  rw [decode_of_payload hpayload, hread]
  exact congrArg Except.error hreason

end Coinage.Wire.StringField
