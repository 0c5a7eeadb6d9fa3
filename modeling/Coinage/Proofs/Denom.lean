import Mathlib.Data.List.Count
import Mathlib.Tactic.SplitIfs
import Coinage.Denom.Lookup
import Coinage.Proofs.Except
import Coinage.Proofs.Text.WellFormed

/-! Denoms and their texts. A denom is found again by its parts, and by nothing else; its text is
taken apart into just these parts unless there is a separator in the subdenom. A text with such a
subdenom has too many parts, and no other text leads to the denom either. -/

namespace Coinage.Denom

open Text

theorem toList_canonicalText (creator subdenom : String) :
    (canonicalText creator subdenom).toList =
      namespacePrefix.toList ++ '/' :: (creator.toList ++ '/' :: subdenom.toList) := by
  simp [canonicalText]

theorem utf8ByteSize_canonicalText (creator subdenom : String) :
    (canonicalText creator subdenom).utf8ByteSize =
      9 + creator.utf8ByteSize + subdenom.utf8ByteSize := by
  simp only [canonicalText, String.utf8ByteSize_append]
  have hprefix : namespacePrefix.utf8ByteSize = 7 := by decide
  have hslash : "/".utf8ByteSize = 1 := by decide
  omega

theorem utf8ByteSize_text_le (d : Denom) : d.text.utf8ByteSize ≤ maxLength := by
  have hsubdenom := d.subdenom_length
  have hcreator := d.creator_length
  rw [text, utf8ByteSize_canonicalText]
  simp only [maxSubdenomLength, maxCreatorLength, maxLength] at hsubdenom hcreator ⊢
  omega

/-- The rules for the parts leave no room for a text of a wrong length. -/
theorem ofParts_creator_subdenom (d : Denom) : ofParts d.creator d.subdenom = .ok d := by
  have hsubdenom := d.subdenom_length
  have hcreator := d.creator_length
  have hlength := utf8ByteSize_canonicalText d.creator d.subdenom
  simp only [maxSubdenomLength, maxCreatorLength] at hsubdenom hcreator
  simp only [ofParts]
  rw [if_neg, dif_neg d.creator_noSlash, dif_neg (Nat.not_lt.mpr d.subdenom_length),
    dif_neg (Nat.not_lt.mpr d.creator_length)]
  simp only [minLength, maxLength]
  omega

theorem ofParts_eq_ok_iff {creator subdenom : String} {d : Denom} :
    ofParts creator subdenom = .ok d ↔ creator = d.creator ∧ subdenom = d.subdenom := by
  refine ⟨fun h => ?_, fun h => h.1 ▸ h.2 ▸ ofParts_creator_subdenom d⟩
  simp only [ofParts] at h
  split_ifs at h
  cases h
  exact ⟨rfl, rfl⟩

@[ext]
theorem ext_parts {d d' : Denom} (hcreator : d.creator = d'.creator)
    (hsubdenom : d.subdenom = d'.subdenom) : d = d' := by
  cases d
  cases d'
  cases hcreator
  cases hsubdenom
  rfl

/-! ### Looking up a pair of parts -/

theorem candidate_ofString (creator subdenom : String) :
    candidate (ofString creator) (ofString subdenom) = ofString (canonicalText creator subdenom) := by
  simp only [candidate, assemble, ofString_append, canonicalText]

/-- A name has an encoding just if its parts have. -/
theorem isWellFormed_candidate_iff {creator subdenom : Text} :
    (candidate creator subdenom).IsWellFormed ↔ creator.IsWellFormed ∧ subdenom.IsWellFormed := by
  simp [candidate, assemble]

theorem lookup_ofString (creator subdenom : String) :
    lookup (ofString creator) (ofString subdenom) = (ofParts creator subdenom).mapError fun flaw =>
      .rejected (.invalidDenom (ofString (canonicalText creator subdenom)) flaw) := by
  rw [lookup, toString?_ofString, toString?_ofString, candidate_ofString]

theorem lookup_of_illFormed {creator subdenom : Text}
    (h : ¬ (candidate creator subdenom).IsWellFormed) :
    lookup creator subdenom = .error (.illFormed (candidate creator subdenom)) := by
  rw [lookup]
  split
  · next hcreator hsubdenom =>
      rw [isWellFormed_candidate_iff] at h
      refine absurd ⟨?_, ?_⟩ h
      · exact isWellFormed_iff.mpr ⟨_, toString?_eq_some_iff.mp hcreator⟩
      · exact isWellFormed_iff.mpr ⟨_, toString?_eq_some_iff.mp hsubdenom⟩
  · rfl

/-- A pair of parts has an encoding, or its name has none. -/
theorem lookup_cases (creator subdenom : Text) :
    (∃ c s, creator = ofString c ∧ subdenom = ofString s) ∨
      ¬ (candidate creator subdenom).IsWellFormed ∧
        lookup creator subdenom = .error (.illFormed (candidate creator subdenom)) := by
  by_cases h : (candidate creator subdenom).IsWellFormed
  · obtain ⟨hcreator, hsubdenom⟩ := isWellFormed_candidate_iff.mp h
    obtain ⟨c, rfl⟩ := isWellFormed_iff.mp hcreator
    obtain ⟨s, rfl⟩ := isWellFormed_iff.mp hsubdenom
    exact .inl ⟨c, s, rfl, rfl⟩
  · exact .inr ⟨h, lookup_of_illFormed h⟩

/-- A pair of parts leads to the denom that has these parts. -/
theorem lookup_eq_ok_iff {creator subdenom : Text} {d : Denom} :
    lookup creator subdenom = .ok d ↔
      creator = ofString d.creator ∧ subdenom = ofString d.subdenom := by
  constructor
  · intro h
    rcases lookup_cases creator subdenom with ⟨c, s, rfl, rfl⟩ | ⟨-, herror⟩
    · rw [lookup_ofString, Except.mapError_eq_ok_iff, ofParts_eq_ok_iff] at h
      rw [ofString_inj, ofString_inj]
      exact h
    · rw [herror] at h
      cases h
  · rintro ⟨rfl, rfl⟩
    rw [lookup_ofString, ofParts_creator_subdenom, Except.mapError_ok]

/-- A pair of parts is refused in the name that they make, or this name has no encoding. -/
theorem lookup_eq_error_iff {creator subdenom : Text} {fault : Fault} :
    lookup creator subdenom = .error fault ↔
      (∃ c s flaw, creator = ofString c ∧ subdenom = ofString s ∧ ofParts c s = .error flaw ∧
        fault = .rejected (.invalidDenom (candidate creator subdenom) flaw)) ∨
      ¬ (candidate creator subdenom).IsWellFormed ∧
        fault = .illFormed (candidate creator subdenom) := by
  rcases lookup_cases creator subdenom with ⟨c, s, rfl, rfl⟩ | ⟨hill, herror⟩
  · simp only [lookup_ofString, Except.mapError_eq_error_iff, candidate_ofString, ofString_inj,
      isWellFormed_ofString, not_true_eq_false, false_and, or_false]
    constructor
    · rintro ⟨flaw, hflaw, rfl⟩
      exact ⟨c, s, flaw, rfl, rfl, hflaw, rfl⟩
    · rintro ⟨_, _, flaw, rfl, rfl, hflaw, rfl⟩
      exact ⟨flaw, hflaw, rfl⟩
  · have hnone : ∀ c s, creator = ofString c → subdenom ≠ ofString s := by
      rintro c s rfl rfl
      exact hill (isWellFormed_candidate_iff.mpr ⟨isWellFormed_ofString c, isWellFormed_ofString s⟩)
    rw [herror, or_iff_right, and_iff_right hill, Except.error.injEq, eq_comm]
    rintro ⟨c, s, -, hcreator, hsubdenom, -⟩
    exact hnone c s hcreator hsubdenom

theorem lookup_creator_subdenom (d : Denom) :
    lookup (ofString d.creator) (ofString d.subdenom) = .ok d :=
  lookup_eq_ok_iff.mpr ⟨rfl, rfl⟩

/-! ### Taking apart a text -/

theorem parts_append {first : Text} (hfirst : separator ∉ first.elements) (rest : Text) :
    parts (first ++ ofString "/" ++ rest) = first :: parts rest := by
  have hsplit : (first ++ ofString "/" ++ rest).elements =
      first.elements ++ separator :: rest.elements := by
    simp only [elements_append, List.append_assoc]
    rfl
  rw [parts, hsplit, List.splitOn_append_cons_self_of_not_mem hfirst, List.map_cons]
  rfl

theorem parts_of_noSlash {text : Text} (h : separator ∉ text.elements) : parts text = [text] := by
  rw [parts, List.splitOn_eq_singleton h, List.map_singleton]

theorem parts_assemble {first creator : Text} (hfirst : separator ∉ first.elements)
    (hcreator : separator ∉ creator.elements) (subdenom : Text) :
    parts (assemble first creator subdenom) = first :: creator :: parts subdenom := by
  rw [assemble, append_assoc, append_assoc, parts_append hfirst, ← append_assoc,
    parts_append hcreator]

theorem separator_mem_ofString {s : String} : separator ∈ (ofString s).elements ↔ '/' ∈ s.toList :=
  char_mem_elements_ofString

theorem ofString_text (d : Denom) :
    ofString d.text = candidate (ofString d.creator) (ofString d.subdenom) :=
  (candidate_ofString d.creator d.subdenom).symm

theorem noSlash_creator (d : Denom) : separator ∉ (ofString d.creator).elements :=
  mt separator_mem_ofString.mp d.creator_noSlash

theorem parts_text (d : Denom) : parts (ofString d.text) =
    ofString namespacePrefix :: ofString d.creator :: parts (ofString d.subdenom) := by
  rw [ofString_text, candidate, parts_assemble (by decide) d.noSlash_creator]

/-- Different denoms have different texts. -/
theorem text_inj {d d' : Denom} : d.text = d'.text ↔ d = d' := by
  refine ⟨fun h => ?_, congrArg text⟩
  have hparts := congrArg (fun s => parts (ofString s)) h
  simp only [parts_text, List.cons.injEq, ofString_inj] at hparts
  have hcreator : d.creator = d'.creator := hparts.2.1
  have hlists := congrArg String.toList h
  rw [text, text, toList_canonicalText, toList_canonicalText, hcreator, List.append_cancel_left_eq,
    List.cons.injEq, List.append_cancel_left_eq, List.cons.injEq, String.toList_inj] at hlists
  exact ext_parts hcreator hlists.2.2

theorem noSlash_of_isPrefixSpelling {first : Text} (h : isPrefixSpelling first = true) :
    separator ∉ first.elements := by
  intro hslash
  rw [isPrefixSpelling, Option.any_eq_true] at h
  obtain ⟨s, hs, hlower⟩ := h
  rw [toString?_eq_some_iff.mp hs, separator_mem_ofString] at hslash
  have hmem := List.mem_map_of_mem (f := Char.toLower) hslash
  rw [beq_iff_eq.mp hlower] at hmem
  exact absurd hmem (by decide)

/-- A text with a prefix, a creator and a subdenom leads to the denom of these parts. -/
theorem parse_of_parts {first : Text} (hfirst : isPrefixSpelling first = true) (d : Denom)
    (h : '/' ∉ d.subdenom.toList) :
    parse (assemble first (ofString d.creator) (ofString d.subdenom)) = .ok d := by
  have hparts : flawOrParts (assemble first (ofString d.creator) (ofString d.subdenom)) =
      .ok (ofString d.creator, ofString d.subdenom) := by
    rw [flawOrParts, parts_assemble (noSlash_of_isPrefixSpelling hfirst) d.noSlash_creator,
      parts_of_noSlash (mt separator_mem_ofString.mp h)]
    exact if_pos hfirst
  rw [parse, parseWith, hparts]
  change (lookup (ofString d.creator) (ofString d.subdenom)).mapError _ = _
  rw [lookup_creator_subdenom, Except.mapError_ok]

/-- **A denom is called by its text unless there is a separator in its subdenom.** -/
theorem parse_text {d : Denom} (h : '/' ∉ d.subdenom.toList) : parse (ofString d.text) = .ok d := by
  rw [ofString_text]
  exact parse_of_parts (by decide) d h

theorem length_splitOn {α : Type} [DecidableEq α] (a : α) (es : List α) :
    (es.splitOn a).length = es.count a + 1 := by
  induction es with
  | nil => rfl
  | cons e r ih =>
      rw [List.splitOn_cons_eq_if_modifyHead, List.count_cons]
      split
      · rw [List.length_cons, ih]
      · rw [List.length_modifyHead, ih]

theorem length_parts (text : Text) : (parts text).length = text.elements.count separator + 1 := by
  rw [parts, List.length_map, length_splitOn]

/-- A text is refused for the number of its parts unless there are two separators in it. -/
theorem flawOrParts_of_count {text : Text} (h : text.elements.count separator ≠ 2) :
    flawOrParts text = .error (.partCount (text.elements.count separator + 1)) := by
  have hlength := length_parts text
  rw [flawOrParts]
  split
  · next heq =>
      rw [heq, List.length_cons, List.length_cons, List.length_singleton] at hlength
      omega
  · rw [hlength]

theorem count_separator_ofString (s : String) :
    (ofString s).elements.count separator = s.toList.count '/' :=
  List.count_map_of_injective s.toList Element.char (fun _ _ => Element.char.inj) '/'

/-- Whatever would be called by such a text, the text has too many parts. -/
theorem parse_text_of_slash {d : Denom} (h : '/' ∈ d.subdenom.toList) :
    parse (ofString d.text) = .error (.rejected
      (.invalidDenom (ofString d.text) (.partCount (d.subdenom.toList.count '/' + 3)))) := by
  have hcount : (ofString d.text).elements.count separator = d.subdenom.toList.count '/' + 2 := by
    have hlength := length_parts (ofString d.text)
    rw [parts_text, List.length_cons, List.length_cons, length_parts,
      count_separator_ofString d.subdenom] at hlength
    omega
  have hslash : 0 < d.subdenom.toList.count '/' := List.count_pos_iff.mpr h
  rw [parse, parseWith, flawOrParts_of_count (by omega), hcount]

theorem not_mem_of_mem_splitOn {α : Type} [DecidableEq α] {a : α} {es part : List α}
    (h : part ∈ es.splitOn a) : a ∉ part := by
  induction es generalizing part with
  | nil =>
      rw [List.splitOn_nil, List.mem_singleton] at h
      rw [h]
      exact List.not_mem_nil
  | cons e r ih =>
      rw [List.splitOn_cons_eq_if_modifyHead] at h
      split at h
      · rcases List.mem_cons.mp h with rfl | hr
        · exact List.not_mem_nil
        · exact ih hr
      · next he =>
          obtain ⟨first, rest, hsplit⟩ := List.exists_cons_of_ne_nil (List.splitOn_ne_nil a r)
          rw [hsplit] at h ih
          rcases List.mem_cons.mp h with rfl | hr
          · rw [List.mem_cons, not_or]
            exact ⟨fun heq => he (heq ▸ beq_self_eq_true e), ih List.mem_cons_self⟩
          · exact ih (List.mem_cons_of_mem first hr)

/-- No part has a separator in it. -/
theorem noSlash_of_mem_parts {text part : Text} (h : part ∈ parts text) :
    separator ∉ part.elements := by
  obtain ⟨es, hes, rfl⟩ := List.mem_map.mp h
  exact not_mem_of_mem_splitOn hes

/-- The parts of a text that leads to a denom. -/
theorem parts_of_parse {text : Text} {d : Denom} (h : parse text = .ok d) :
    ∃ first, isPrefixSpelling first = true ∧
      parts text = [first, ofString d.creator, ofString d.subdenom] := by
  rw [parse, parseWith, flawOrParts] at h
  split at h
  · cases h
  · next creator subdenom hfound =>
      rw [Except.mapError_eq_ok_iff, lookup_eq_ok_iff] at h
      obtain ⟨rfl, rfl⟩ := h
      split at hfound
      · next hparts =>
          split at hfound
          · next hfirst =>
              cases hfound
              exact ⟨_, hfirst, hparts⟩
          · cases hfound
      · cases hfound

/-- No text leads to a denom with a separator in its subdenom. -/
theorem noSlash_of_parse {text : Text} {d : Denom} (h : parse text = .ok d) :
    '/' ∉ d.subdenom.toList := by
  obtain ⟨first, -, hparts⟩ := parts_of_parse h
  have hmem : ofString d.subdenom ∈ parts text := by
    rw [hparts]
    simp
  exact mt separator_mem_ofString.mpr (noSlash_of_mem_parts hmem)

end Coinage.Denom
