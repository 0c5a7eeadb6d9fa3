/-!
UTF-8, read one octet at a time. Between two octets the reader holds at most one unfinished
character: how many continuation octets it still wants, the range that the next one has to lie in,
and the bits gathered so far. The range is narrower than `80..BF` only for the first continuation
octet after `E0`, `ED`, `F0` and `F4`, which keeps out the over-long forms, the surrogates and the
numbers above `10FFFF`.
-/

namespace Coinage.Text.Utf8

/-- Why octets are not the encoding of a text; the first fault decides. -/
inductive Flaw where
  | startOctet
  | continuationOctet
  | unfinished
deriving DecidableEq, Repr

def Flaw.message : Flaw → String
  | .startOctet => "invalid start byte"
  | .continuationOctet => "invalid continuation byte"
  | .unfinished => "unexpected end of data"

/-- A character of which some octets are still to come. -/
structure Pending where
  wanted : Nat
  low : UInt8
  high : UInt8
  bits : Nat
deriving DecidableEq, Repr

/-- What an octet means where a character starts. -/
inductive Start where
  | complete (c : Char)
  | opens (p : Pending)
  | never
deriving DecidableEq, Repr

def start (b : UInt8) : Start :=
  if b ≤ 0x7F then .complete (Char.ofNat b.toNat)
  else if b < 0xC2 then .never
  else if b ≤ 0xDF then .opens ⟨1, 0x80, 0xBF, b.toNat % 32⟩
  else if b = 0xE0 then .opens ⟨2, 0xA0, 0xBF, 0⟩
  else if b = 0xED then .opens ⟨2, 0x80, 0x9F, 13⟩
  else if b ≤ 0xEF then .opens ⟨2, 0x80, 0xBF, b.toNat % 16⟩
  else if b = 0xF0 then .opens ⟨3, 0x90, 0xBF, 0⟩
  else if b = 0xF4 then .opens ⟨3, 0x80, 0x8F, 4⟩
  else if b < 0xF4 then .opens ⟨3, 0x80, 0xBF, b.toNat % 8⟩
  else .never

/-- Takes in a continuation octet: `none` where it is out of range, else the finished character or
what is still pending. -/
def Pending.step (p : Pending) (b : UInt8) : Option (Char ⊕ Pending) :=
  if p.low ≤ b ∧ b ≤ p.high then
    let bits := p.bits * 64 + b.toNat % 64
    if p.wanted ≤ 1 then some (.inl (Char.ofNat bits))
    else some (.inr ⟨p.wanted - 1, 0x80, 0xBF, bits⟩)
  else none

/-- Reads the rest of a text from the state between two octets. -/
def decodeFrom : Option Pending → List UInt8 → Except Flaw (List Char)
  | none, [] => .ok []
  | some _, [] => .error .unfinished
  | none, b :: r =>
    match start b with
    | .complete c => (c :: ·) <$> decodeFrom none r
    | .opens p => decodeFrom (some p) r
    | .never => .error .startOctet
  | some p, b :: r =>
    match p.step b with
    | none => .error .continuationOctet
    | some (.inl c) => (c :: ·) <$> decodeFrom none r
    | some (.inr q) => decodeFrom (some q) r

def decode (octets : List UInt8) : Except Flaw String :=
  String.ofList <$> decodeFrom none octets

def encode (text : String) : List UInt8 :=
  text.toList.flatMap String.utf8EncodeChar

end Coinage.Text.Utf8
