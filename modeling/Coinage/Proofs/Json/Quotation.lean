import Mathlib.Tactic.IntervalCases
import Coinage.Json.Parser
import Coinage.Json.Printer

/-! Quoted texts, written and read. Every element of a text is written in a way of its own, but a
high surrogate and a low one next to each other are written just as the character that they make up,
and are read as that character. All other texts come back as they were, and so do all strings. -/

namespace Coinage

open Json

theorem Json.isHigh_iff {n : Nat} : isHigh n = true ↔ 0xD800 ≤ n ∧ n < 0xDC00 := by
  simp [isHigh]

theorem Json.isLow_iff {n : Nat} : isLow n = true ↔ 0xDC00 ≤ n ∧ n < 0xE000 := by
  simp [isLow]

namespace Text

/-- Neighbours that make up a surrogate pair become one character. -/
def joinElements : List Element → List Element
  | e :: e' :: r =>
    if isHigh e.code && isLow e'.code then .char (ofPair e.code e'.code) :: joinElements r
    else e :: joinElements (e' :: r)
  | es => es

/-- The text as it comes back after it was written. -/
def joined (t : Text) : Text := ⟨joinElements t.elements⟩

namespace Element

theorem code_char (c : Char) : c.toNat < 0xD800 ∨ 0xDFFF < c.toNat ∧ c.toNat < 0x110000 := c.valid

theorem not_isHigh_char (c : Char) : isHigh (Element.char c).code = false := by
  have hvalid := code_char c
  rw [← Bool.not_eq_true, isHigh_iff, code]
  omega

theorem not_isLow_char (c : Char) : isLow (Element.char c).code = false := by
  have hvalid := code_char c
  rw [← Bool.not_eq_true, isLow_iff, code]
  omega

theorem ofCode_code (e : Element) : ofCode e.code = e := by
  cases e with
  | char c =>
      have hvalid := code_char c
      rw [ofCode, code, if_neg (by omega), Char.ofNat_toNat]
  | surrogate i =>
      have hi := i.isLt
      have hindex : Fin.ofNat 0x800 (0xD800 + i.val - 0xD800) = i := by
        apply Fin.ext
        change (0xD800 + i.val - 0xD800) % 0x800 = i.val
        omega
      rw [code, ofCode, if_pos (by omega), hindex]

end Element

theorem joined_ofString (s : String) : (ofString s).joined = ofString s := by
  have hchars : ∀ cs : List Char, joinElements (cs.map .char) = cs.map .char := by
    intro cs
    induction cs with
    | nil => rfl
    | cons c r ih =>
        cases r with
        | nil => rfl
        | cons c' r' =>
            simp only [List.map_cons, joinElements, Element.not_isHigh_char] at ih ⊢
            rw [Bool.false_and, if_neg Bool.false_ne_true, ih]
  exact congrArg mk (hchars s.toList)

end Text

namespace Json

open Text (Element joinElements)

/-- The pieces that an escaped element is read as. -/
def spelling : Element → List Piece
  | .char c =>
    if isPlain c || ['"', '\\', '\n', '\r', '\t', '\x08', '\x0c'].contains c then [.plain (.char c)]
    else if c.toNat < 0x10000 then [.unit c.toNat]
    else
      let n := c.toNat - 0x10000
      [.unit (0xD800 + n / 0x400), .unit (0xDC00 + n % 0x400)]
  | .surrogate i => [.unit (0xD800 + i)]

/-- A text as the reader sees it. -/
abbrev source (cs : List Char) : Source := cs.map .char

theorem hexValue_digitChar {d : Nat} (h : d < 16) : hexValue (Nat.digitChar d) = some d := by
  interval_cases d <;> decide

theorem pieces_unitEscape {n : Nat} (h : n < 0x10000) (rest : Source) :
    pieces (source (unitEscape n) ++ rest) =
      (pieces rest).map fun p => (.unit n :: p.1, p.2) := by
  have hvalue : 4096 * (n / 4096 % 16) + 256 * (n / 256 % 16) + 16 * (n / 16 % 16) + n % 16 = n := by
    omega
  simp only [source, unitEscape, hex4, List.map_cons, List.map_nil, List.cons_append,
    List.nil_append, pieces, hexValue_digitChar (Nat.mod_lt _ (by decide : 0 < 16))]
  simp only [Option.bind_eq_bind, Option.bind_some, hvalue]
  cases pieces rest <;> rfl

theorem pieces_plain {c : Char} (h : isPlain c = true) (rest : Source) :
    pieces (.char c :: rest) = (pieces rest).map fun p => (.plain (.char c) :: p.1, p.2) := by
  simp only [isPlain, Bool.and_eq_true, decide_eq_true_eq, bne_iff_ne, ne_eq] at h
  obtain ⟨⟨⟨hlow, -⟩, hquote⟩, hslash⟩ := h
  have hprintable : ¬ c < ' ' := Char.not_lt.mpr hlow
  rw [pieces.eq_def]
  split
  · next heq => cases heq
  · next heq =>
      cases heq
      exact absurd rfl hquote
  · next heq =>
      cases heq
      exact absurd rfl hslash
  · next heq =>
      cases heq
      exact absurd rfl hslash
  · next heq =>
      cases heq
      exact absurd rfl hslash
  · next heq =>
      cases heq
      simp only [Element.char?, Option.any_some, hprintable, decide_false, Bool.false_eq_true,
        if_false]
      cases pieces rest <;> rfl

theorem pieces_short {c d : Char} (hd : d ≠ 'u') (hshort : shortEscape? d = some c)
    (rest : Source) :
    pieces (.char '\\' :: .char d :: rest) =
      (pieces rest).map fun p => (.plain (.char c) :: p.1, p.2) := by
  rw [pieces.eq_def]
  split
  · next heq => cases heq
  · next heq => cases heq
  · next heq =>
      cases heq
      exact absurd rfl hd
  · next heq =>
      cases heq
      rw [hshort]
      cases pieces rest <;> rfl
  · next hno heq =>
      cases heq
      exact absurd rfl (hno d rest)
  · next hno heq =>
      cases heq
      exact absurd rfl hno

theorem pieces_escape (e : Element) (rest : Source) :
    pieces (source (escape e) ++ rest) = (pieces rest).map fun p => (spelling e ++ p.1, p.2) := by
  cases e with
  | surrogate i =>
      have hi := i.isLt
      exact pieces_unitEscape (by omega) rest
  | char c =>
      have hshort : ∀ d x : Char, d ≠ 'u' → shortEscape? d = some x →
          spelling (.char x) = [.plain (.char x)] → c = x →
          pieces (source ['\\', d] ++ rest) =
            (pieces rest).map fun p => (spelling (.char c) ++ p.1, p.2) := by
        rintro d x hd hx hspelling rfl
        rw [hspelling]
        exact pieces_short hd hx rest
      rw [escape, escapeChar]
      split_ifs with hplain hquote hslash hline hreturn htab hback hfeed hunit
      · simpa [spelling, hplain] using pieces_plain hplain rest
      · exact hshort '"' '"' (by decide) rfl rfl hquote
      · exact hshort '\\' '\\' (by decide) rfl rfl hslash
      · exact hshort 'n' '\n' (by decide) rfl rfl hline
      · exact hshort 'r' '\r' (by decide) rfl rfl hreturn
      · exact hshort 't' '\t' (by decide) rfl rfl htab
      · exact hshort 'b' '\x08' (by decide) rfl rfl hback
      · exact hshort 'f' '\x0c' (by decide) rfl rfl hfeed
      · have hspelling : spelling (.char c) = [.unit c.toNat] := by
          simp [spelling, hplain, hquote, hslash, hline, hreturn, htab, hback, hfeed, hunit]
        rw [hspelling]
        exact pieces_unitEscape hunit rest
      · have hvalid := Element.code_char c
        have hspelling : spelling (.char c) = [.unit (0xD800 + (c.toNat - 0x10000) / 0x400),
            .unit (0xDC00 + (c.toNat - 0x10000) % 0x400)] := by
          simp [spelling, hplain, hquote, hslash, hline, hreturn, htab, hback, hfeed, hunit]
        rw [hspelling, source, List.map_append, List.append_assoc, pieces_unitEscape (by omega),
          pieces_unitEscape (by omega), Option.map_map]
        rfl

/-- Whether the first piece is the second half of a pair. -/
def startsLow : List Piece → Bool
  | .unit n :: _ => isLow n
  | _ => false

theorem joinPieces_unit {n : Nat} {ps : List Piece} (h : (isHigh n && startsLow ps) = false) :
    joinPieces (.unit n :: ps) = Element.ofCode n :: joinPieces ps := by
  match ps with
  | [] => rfl
  | .plain e :: r => rfl
  | .unit low :: r =>
      rw [joinPieces, if_neg]
      rw [Bool.not_eq_true]
      exact h

theorem joinPieces_pair {high low : Nat} (h : (isHigh high && isLow low) = true) (ps : List Piece) :
    joinPieces (.unit high :: .unit low :: ps) = .char (ofPair high low) :: joinPieces ps := by
  rw [joinPieces, if_pos h]

theorem joinPieces_char (c : Char) (ps : List Piece) :
    joinPieces (spelling (.char c) ++ ps) = .char c :: joinPieces ps := by
  have hvalid := Element.code_char c
  rw [spelling]
  split_ifs with hplain hunit
  · rfl
  · have hhigh := Element.not_isHigh_char c
    rw [Element.code] at hhigh
    refine (joinPieces_unit ?_).trans ?_
    · rw [hhigh, Bool.false_and]
    · rw [← Element.ofCode_code (.char c), Element.code]
      rfl
  · have hpair : (isHigh (0xD800 + (c.toNat - 0x10000) / 0x400) &&
        isLow (0xDC00 + (c.toNat - 0x10000) % 0x400)) = true := by
      rw [Bool.and_eq_true, isHigh_iff, isLow_iff]
      omega
    refine (joinPieces_pair hpair ps).trans ?_
    have hcode : 0x10000 + (0xD800 + (c.toNat - 0x10000) / 0x400 - 0xD800) * 0x400 +
        (0xDC00 + (c.toNat - 0x10000) % 0x400 - 0xDC00) = c.toNat := by omega
    rw [ofPair, hcode, Char.ofNat_toNat]

theorem startsLow_spelling (e : Element) (ps : List Piece) :
    startsLow (spelling e ++ ps) = isLow e.code := by
  cases e with
  | surrogate i => rfl
  | char c =>
      have hvalid := Element.code_char c
      rw [Element.not_isLow_char, spelling]
      split_ifs with hplain hunit
      · rfl
      · exact Element.not_isLow_char c
      · change isLow (0xD800 + (c.toNat - 0x10000) / 0x400) = false
        rw [← Bool.not_eq_true, isLow_iff]
        omega

theorem joinPieces_spelling (es : List Element) :
    joinPieces (es.flatMap spelling) = joinElements es := by
  have hstep : ∀ (e : Element) (ps : List Piece), (isHigh e.code && startsLow ps) = false →
      joinPieces (spelling e ++ ps) = e :: joinPieces ps := by
    intro e ps hapart
    cases e with
    | char c => exact joinPieces_char c ps
    | surrogate i =>
        refine (joinPieces_unit hapart).trans ?_
        exact congrArg (· :: joinPieces ps) (Element.ofCode_code (.surrogate i))
  fun_induction joinElements es with
  | case1 e e' r hpair ih =>
      -- Characters are no halves of a pair, so both elements are surrogates.
      cases e with
      | char c => simp [Element.not_isHigh_char] at hpair
      | surrogate i =>
          cases e' with
          | char c => simp [Element.not_isLow_char] at hpair
          | surrogate j =>
              rw [← ih]
              exact joinPieces_pair hpair _
  | case2 e e' r hpair ih =>
      rw [List.flatMap_cons, hstep, ih]
      rw [List.flatMap_cons, startsLow_spelling]
      exact Bool.not_eq_true _ ▸ hpair
  | case3 es h =>
      match es, h with
      | [], _ => rfl
      | [e], _ => exact hstep e [] (Bool.and_false _)
      | e :: e' :: r, h => exact absurd rfl (h e e' r)

/-- **A quoted text is read to its end, and as what its neighbours make up.** -/
theorem quotedText_quoted (t : Text) (rest : Source) :
    quotedText (source (t.elements.flatMap escape ++ ['"']) ++ rest) = .ok (t.joined, rest) := by
  have hpieces : ∀ es : List Element,
      pieces (source (es.flatMap escape ++ ['"']) ++ rest) = some (es.flatMap spelling, rest) := by
    intro es
    induction es with
    | nil => rfl
    | cons e r ih =>
        rw [List.flatMap_cons, List.append_assoc, source, List.map_append, List.append_assoc,
          pieces_escape, ih]
        rfl
  rw [quotedText, hpieces]
  simp only [joinPieces_spelling]
  rfl

end Json

end Coinage
