import Coinage.Text.Utf8
import Coinage.Wire.Varint

/-!
A text as one length-delimited field: a tag octet, the length of the payload as a varint, the
payload in UTF-8. The tag holds the number of the field above its three low bits, and in its two
lowest bits how the field is delimited. What follows the payload is not looked at, and no octets at
all stand for the empty text.
-/

namespace Coinage.Wire.StringField

open Coinage.Text

/-- The mark of a length-delimited field. -/
def lengthDelimited : Nat := 2

inductive DecodeError.Cause where
  | fieldMismatch (found : Nat)
  /-- The tag is that of another field, and the number of the wanted one is too long to be told. -/
  | overlongField
  | wireTypeMismatch (found : Nat)
  | varint (flaw : Varint.Flaw)
  | payloadTooShort (expected got : Nat)
  | invalidUtf8 (flaw : Utf8.Flaw)
deriving DecidableEq, Repr

/-- A failed reading of the field numbered `field`. -/
structure DecodeError where
  field : Int
  cause : DecodeError.Cause
deriving DecidableEq, Repr

def DecodeError.reason (e : DecodeError) : String :=
  match e.cause with
  | .overlongField => Numeral.overlong Numeral.maxDigits none
  | .fieldMismatch found => s!"invalid field #{found} for field #{e.field}"
  | .wireTypeMismatch found => s!"invalid wire type {found}"
  | .varint .tooShort => "varint data too short"
  | .varint .tooLong => "varint data too long"
  | .payloadTooShort expected got =>
    s!"message too short, expected {expected} bytes, got {got}"
  | .invalidUtf8 flaw => s!"invalid utf-8: {flaw.message}"

def DecodeError.message (e : DecodeError) : String :=
  match e.cause with
  | .overlongField => e.reason
  | _ => s!"failed to decode reply: field #{e.field}: {e.reason}"

/-- The tag is that of another field. -/
def mismatch (field : Int) (found : Nat) : DecodeError.Cause :=
  if Numeral.isWritable field then .fieldMismatch found else .overlongField

/-- The payload that a tag and a length announce, and no octet after it. -/
def payload (field : Int) (tag : UInt8) (rest : List UInt8) :
    Except DecodeError.Cause (List UInt8) :=
  let number := tag.toNat / 8
  let wireType := tag.toNat % 4
  if (number : Int) ≠ field then .error (mismatch field number)
  else if wireType ≠ lengthDelimited then .error (.wireTypeMismatch wireType)
  else
    match Varint.decode rest with
    | .error flaw => .error (.varint flaw)
    | .ok (length, rest) =>
      if rest.length < length then .error (.payloadTooShort length rest.length)
      else .ok (rest.take length)

def decode (octets : List UInt8) (field : Int) : Except DecodeError String :=
  match octets with
  | [] => .ok ""
  | tag :: rest =>
    match payload field tag rest with
    | .error cause => .error ⟨field, cause⟩
    | .ok octets => (Utf8.decode octets).mapError fun flaw => ⟨field, .invalidUtf8 flaw⟩

inductive EncodeError where
  | fieldTooLarge (field : Int)
  | fieldNegative
deriving DecidableEq, Repr

def EncodeError.message : EncodeError → String
  | .fieldTooLarge field =>
    Numeral.showing field s!"field number {field} does not fit in a single tag byte"
  | .fieldNegative => "bytes must be in range(0, 256)"

def encode (text : String) (field : Int) : Except EncodeError (List UInt8) :=
  let tag := field * 8 + lengthDelimited
  let octets := Utf8.encode text
  if tag > 255 then .error (.fieldTooLarge field)
  else if tag < 0 then .error .fieldNegative
  else .ok (UInt8.ofNat tag.toNat :: (Varint.encode octets.length ++ octets))

end Coinage.Wire.StringField
