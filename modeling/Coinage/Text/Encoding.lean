import Coinage.Text.Basic
import Coinage.Text.Utf8

/-!
The octets of JSON text as a text. It begins with an ASCII character, so its first octets, or a byte
order mark, tell in which encoding it is. Surrogates that stand alone are read as well, wherever
they are encoded in the way of characters.
-/

namespace Coinage.Text.Encoding

inductive ByteOrder where
  | big
  | little
deriving DecidableEq, Repr

inductive Scheme where
  | utf8
  | utf16 (order : ByteOrder)
  | utf32 (order : ByteOrder)
deriving DecidableEq, Repr

/-- The encoding of a text, and the text without its byte order mark. -/
def detect (octets : List UInt8) : Scheme × List UInt8 :=
  match octets with
  | 0x00 :: 0x00 :: 0xFE :: 0xFF :: r => (.utf32 .big, r)
  | 0xFF :: 0xFE :: 0x00 :: 0x00 :: r => (.utf32 .little, r)
  | 0xFE :: 0xFF :: r => (.utf16 .big, r)
  | 0xFF :: 0xFE :: r => (.utf16 .little, r)
  | 0xEF :: 0xBB :: 0xBF :: r => (.utf8, r)
  | 0x00 :: 0x00 :: _ :: _ :: _ => (.utf32 .big, octets)
  | 0x00 :: _ :: _ :: _ :: _ => (.utf16 .big, octets)
  | _ :: 0x00 :: 0x00 :: 0x00 :: _ => (.utf32 .little, octets)
  | _ :: 0x00 :: _ :: _ :: _ => (.utf16 .little, octets)
  | [0x00, _] => (.utf16 .big, octets)
  | [_, 0x00] => (.utf16 .little, octets)
  | _ => (.utf8, octets)

def word (order : ByteOrder) (a b : UInt8) : Nat :=
  match order with
  | .big => a.toNat * 0x100 + b.toNat
  | .little => b.toNat * 0x100 + a.toNat

/-- Octets two by two, unless one is left over. -/
def words (order : ByteOrder) : List UInt8 → Option (List Nat)
  | [] => some []
  | [_] => none
  | a :: b :: r => (words order r).map (word order a b :: ·)

/-- Words two by two, the high half first in the big order. -/
def doubleWords (order : ByteOrder) : List Nat → Option (List Nat)
  | [] => some []
  | [_] => none
  | a :: b :: r =>
    let n := match order with
      | .big => a * 0x10000 + b
      | .little => b * 0x10000 + a
    (doubleWords order r).map (n :: ·)

/-- UTF-16 units as elements; two units that make up a surrogate pair are one character. -/
def ofUnits : List Nat → List Element
  | [] => []
  | [a] => [.ofCode a]
  | a :: b :: r =>
    if 0xD800 ≤ a ∧ a < 0xDC00 ∧ 0xDC00 ≤ b ∧ b < 0xE000 then
      .ofCode (0x10000 + (a - 0xD800) * 0x400 + (b - 0xDC00)) :: ofUnits r
    else .ofCode a :: ofUnits (b :: r)

def ofCodePoint (n : Nat) : Option Element := if n ≤ 0x10FFFF then some (.ofCode n) else none

/-- Reads UTF-8 from the state between two octets, and along with it surrogates that are encoded as
if they were characters. -/
def ofOctets : Option Utf8.Pending → List UInt8 → Option (List Element)
  | none, [] => some []
  | some _, [] => none
  | none, 0xED :: b :: c :: r =>
    if 0xA0 ≤ b ∧ b ≤ 0xBF ∧ 0x80 ≤ c ∧ c ≤ 0xBF then
      (ofOctets none r).map (.ofCode (0xD000 + b.toNat % 64 * 64 + c.toNat % 64) :: ·)
    else
      match Utf8.start 0xED with
      | .opens p => ofOctets (some p) (b :: c :: r)
      | _ => none
  | none, b :: r =>
    match Utf8.start b with
    | .complete c => (ofOctets none r).map (.char c :: ·)
    | .opens p => ofOctets (some p) r
    | .never => none
  | some p, b :: r =>
    match p.step b with
    | none => none
    | some (.inl c) => (ofOctets none r).map (.char c :: ·)
    | some (.inr q) => ofOctets (some q) r

def decodeAs (scheme : Scheme) (octets : List UInt8) : Option (List Element) :=
  match scheme with
  | .utf8 => ofOctets none octets
  | .utf16 order => (words order octets).map ofUnits
  | .utf32 order => do (← doubleWords order (← words order octets)).mapM ofCodePoint

def decode (octets : List UInt8) : Option Text :=
  let (scheme, rest) := detect octets
  (decodeAs scheme rest).map Text.mk

end Coinage.Text.Encoding
