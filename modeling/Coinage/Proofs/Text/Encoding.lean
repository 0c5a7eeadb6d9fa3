import Coinage.Proofs.Text.Utf8
import Coinage.Text.Encoding

/-! UTF-8 among the encodings of JSON text. Whoever reads JSON text has to find out about its encoding
first, and accepts surrogates besides, encoded as if they were characters. An object
in UTF-8 is read as what it is all the same. -/

namespace Coinage.Text.Encoding

open Utf8

/-- A character in front of others that are read alike. -/
theorem map_char_of_map {r : List UInt8} {c : Char} {cs : List Char}
    (h : (c :: ·) <$> decodeFrom none r = .ok cs)
    (ih : ∀ {cs : List Char}, decodeFrom none r = .ok cs →
      ofOctets none r = some (cs.map Element.char)) :
    (ofOctets none r).map (.char c :: ·) = some (cs.map Element.char) := by
  obtain ⟨cs', hr, rfl⟩ := Except.map_eq_ok_iff.mp h
  rw [ih hr]
  rfl

/-- What is read as UTF-8 is read alike where surrogates are accepted as well. -/
theorem ofOctets_of_decodeFrom {p : Option Pending} {octets : List UInt8} {cs : List Char}
    (h : decodeFrom p octets = .ok cs) : ofOctets p octets = some (cs.map Element.char) := by
  fun_induction ofOctets p octets generalizing cs with
  | case1 =>
      cases h
      rfl
  | case2 | case8 | case9 => simp_all [decodeFrom]
  | case3 b c r hsurrogate ih =>
      -- The second octet of a surrogate is out of the range for that of a character.
      have hstep : Pending.step ⟨2, 0x80, 0x9F, 13⟩ b = none :=
        if_neg fun hrange => absurd (UInt8.le_trans hsurrogate.1 hrange.2) (by decide)
      rw [decodeFrom] at h
      change decodeFrom (some ⟨2, 0x80, 0x9F, 13⟩) (b :: c :: r) = _ at h
      rw [decodeFrom, hstep] at h
      cases h
  | case4 b c r hother p hstart ih =>
      rw [decodeFrom, hstart] at h
      exact ih h
  | case5 b c r hother hnever => exact absurd rfl (hnever ⟨2, 0x80, 0x9F, 13⟩)
  | case6 b r hfirst c hstart ih =>
      rw [decodeFrom, hstart] at h
      exact map_char_of_map h ih
  | case7 b r hfirst p hstart ih =>
      rw [decodeFrom, hstart] at h
      exact ih h
  | case10 p b r c hstep ih =>
      rw [decodeFrom, hstep] at h
      exact map_char_of_map h ih
  | case11 p b r q hstep ih =>
      rw [decodeFrom, hstep] at h
      exact ih h

/-- **An object in UTF-8 is read as the text that it is.** -/
theorem decode_encode_object (cs : List Char) :
    decode (encode (String.ofList ('{' :: '"' :: cs))) =
      some (ofString (String.ofList ('{' :: '"' :: cs))) := by
  have hoctets : encode (String.ofList ('{' :: '"' :: cs)) =
      0x7B :: 0x22 :: cs.flatMap String.utf8EncodeChar := by
    rw [encode, String.toList_ofList]
    rfl
  have hdetect : detect (encode (String.ofList ('{' :: '"' :: cs))) =
      (.utf8, encode (String.ofList ('{' :: '"' :: cs))) := by
    rw [hoctets]
    rcases cs.flatMap String.utf8EncodeChar with - | ⟨a, - | ⟨b, r⟩⟩ <;> rfl
  have hdecode : decodeFrom none (encode (String.ofList ('{' :: '"' :: cs))) =
      .ok ('{' :: '"' :: cs) := by
    rw [encode, String.toList_ofList]
    exact decodeFrom_encode _
  rw [decode, hdetect]
  simp only [decodeAs, ofOctets_of_decodeFrom hdecode]
  simp [ofString]

end Coinage.Text.Encoding
