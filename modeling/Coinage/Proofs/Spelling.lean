import Mathlib.Data.List.Forall2
import Coinage.Proofs.Denom
import Coinage.Proofs.Except

/-! The texts that lead to a denom. They have three parts, of which the first is a spelling of the
prefix in small and capital letters and the others meet the rules for a creator and a subdenom. So
the texts of a denom are its own text and whatever differs from it in the letters of the prefix only.
Any other text with an encoding is refused in its own name, and for the first thing that is wrong with
it; so is one without an encoding, unless all that is wrong with it is found when its parts are looked
up. -/

namespace Coinage

/-! ### Spellings of a word -/

namespace Text

theorem toNat_toLower (c : Char) :
    c.toLower.toNat = if 65 ≤ c.toNat ∧ c.toNat ≤ 90 then c.toNat + 32 else c.toNat := by
  unfold Char.toLower
  have hfirst : 'A'.val.toNat = 65 := rfl
  have hlast : 'Z'.val.toNat = 90 := rfl
  simp only [ge_iff_le, UInt32.le_iff_toNat_le, hfirst, hlast, Char.toNat_val]
  split
  · have hoffset : ('a'.val - 'A'.val).toNat = 32 := rfl
    change (c.val + ('a'.val - 'A'.val)).toNat = _
    rw [UInt32.toNat_add, hoffset, Char.toNat_val]
    omega
  · rfl

theorem toNat_toUpper (c : Char) :
    c.toUpper.toNat = if 97 ≤ c.toNat ∧ c.toNat ≤ 122 then c.toNat - 32 else c.toNat := by
  unfold Char.toUpper
  have hfirst : 'a'.val.toNat = 97 := rfl
  have hlast : 'z'.val.toNat = 122 := rfl
  simp only [UInt32.le_iff_toNat_le, hfirst, hlast, Char.toNat_val]
  split
  · -- The offset is negative, so the sum of the words wraps around.
    have hoffset : ('A'.val - 'a'.val).toNat = 2 ^ 32 - 32 := rfl
    change (c.val + ('A'.val - 'a'.val)).toNat = _
    rw [UInt32.toNat_add, hoffset, Char.toNat_val]
    omega
  · rfl

/-- Only a small letter itself and its capital have it as their small letter. -/
theorem toLower_eq_iff {c w : Char} (hw : w.isLower = true) :
    c.toLower = w ↔ c = w ∨ c = w.toUpper := by
  have hrange : (decide (w.val ≥ 'a'.val) && decide (w.val ≤ 'z'.val)) = true := hw
  have hletter : 97 ≤ w.toNat ∧ w.toNat ≤ 122 := by
    simpa [UInt32.le_iff_toNat_le] using hrange
  simp only [← Char.toNat_inj, toNat_toLower, toNat_toUpper, if_pos hletter]
  split <;> omega

/-- A spelling of a word, letter by letter the one of the word or its capital. -/
def IsCasing (word spelling : String) : Prop :=
  List.Forall₂ (fun w c => c = w ∨ c = w.toUpper) word.toList spelling.toList

/-- What gives a word in small letters is a spelling of it. -/
theorem map_toLower_eq_iff {word cs : List Char} (hlower : ∀ w ∈ word, w.isLower = true) :
    cs.map Char.toLower = word ↔ List.Forall₂ (fun w c => c = w ∨ c = w.toUpper) word cs := by
  induction word generalizing cs with
  | nil => simp
  | cons w rest ih =>
      obtain ⟨hfirst, hrest⟩ := List.forall_mem_cons.mp hlower
      cases cs with
      | nil => simp
      | cons c cs =>
          rw [List.map_cons, List.cons.injEq, List.forall₂_cons, toLower_eq_iff hfirst, ih hrest]

end Text

namespace Denom

open Text

/-- A spelling of the prefix. -/
def IsPrefix (first : Text) : Prop := ∃ spelling, first = ofString spelling ∧ IsCasing "factory" spelling

/-- The prefix is accepted in just its spellings. -/
theorem isPrefixSpelling_iff {first : Text} : isPrefixSpelling first = true ↔ IsPrefix first := by
  have hlower : "factory".toList.all Char.isLower = true := by decide
  simp only [isPrefixSpelling, Option.any_eq_true, toString?_eq_some_iff, beq_iff_eq]
  exact exists_congr fun s => and_congr_right fun _ => map_toLower_eq_iff (List.all_eq_true.mp hlower)

theorem isCasing_of_isPrefixSpelling {spelling : String}
    (h : isPrefixSpelling (ofString spelling) = true) : IsCasing "factory" spelling := by
  obtain ⟨spelling', hsame, hcasing⟩ := isPrefixSpelling_iff.mp h
  rwa [ofString_inj.mp hsame]

/-- No spelling of the prefix has a separator in it. -/
theorem IsPrefix.noSlash {first : Text} (h : IsPrefix first) : separator ∉ first.elements :=
  noSlash_of_isPrefixSpelling (isPrefixSpelling_iff.mpr h)

/-! ### The three parts of a text -/

/-- The text consists of three parts with separators between them, and there are no others. -/
structure Splits (text first creator subdenom : Text) : Prop where
  text : text = assemble first creator subdenom
  first : separator ∉ first.elements
  creator : separator ∉ creator.elements
  subdenom : separator ∉ subdenom.elements

variable {text first creator subdenom : Text} {flaw : Flaw} {d : Denom}

theorem elements_assemble (first creator subdenom : Text) :
    (assemble first creator subdenom).elements =
      [separator].intercalate [first.elements, creator.elements, subdenom.elements] := by
  simp [assemble, List.intercalate, ofString, separator]

theorem parts_eq_iff : parts text = [first, creator, subdenom] ↔
    Splits text first creator subdenom := by
  constructor
  · intro h
    have hnone : ∀ part ∈ [first, creator, subdenom], separator ∉ part.elements :=
      fun part hpart => noSlash_of_mem_parts (h ▸ hpart)
    have hlists : text.elements.splitOn separator =
        [first.elements, creator.elements, subdenom.elements] := by
      have hmapped := congrArg (List.map Text.elements) h
      have hsame : Text.elements ∘ Text.mk = id := rfl
      rwa [parts, List.map_map, hsame, List.map_id] at hmapped
    refine ⟨congrArg Text.mk ?_, hnone _ (by simp), hnone _ (by simp), hnone _ (by simp)⟩
    calc text.elements
        = [separator].intercalate (text.elements.splitOn separator) :=
          (List.intercalate_splitOn separator).symm
      _ = (assemble first creator subdenom).elements := by rw [hlists, elements_assemble]
  · rintro ⟨rfl, hfirst, hcreator, hsubdenom⟩
    rw [parts_assemble hfirst hcreator, parts_of_noSlash hsubdenom]

/-- A text has three parts just if there are two separators in it. -/
theorem exists_splits_iff : (∃ first creator subdenom, Splits text first creator subdenom) ↔
    text.elements.count separator = 2 := by
  simp only [← parts_eq_iff]
  have hlength := length_parts text
  constructor
  · rintro ⟨first, creator, subdenom, h⟩
    rw [h] at hlength
    simpa using hlength.symm
  · intro hcount
    exact List.length_eq_three.mp (by omega)

theorem flawOrParts_of_splits (h : Splits text first creator subdenom) :
    flawOrParts text =
      if isPrefixSpelling first then .ok (creator, subdenom) else .error (.wrongPrefix first) := by
  rw [flawOrParts, parts_eq_iff.mpr h]

/-! ### Acceptance and refusal -/

section Lookup

variable {α : Type} {lookup : Text → Text → Except Fault α}

/-- What is wrong with a text: the first rule that it breaks, as the lookup has it for the parts. -/
inductive Refuses (lookup : Text → Text → Except Fault α) (text : Text) : Flaw → Prop
  | partCount (hcount : text.elements.count separator ≠ 2) :
      Refuses lookup text (.partCount (text.elements.count separator + 1))
  | wrongPrefix {first creator subdenom : Text} (hsplits : Splits text first creator subdenom)
      (hfirst : ¬ IsPrefix first) : Refuses lookup text (.wrongPrefix first)
  | parts {first creator subdenom denom : Text} {flaw : Flaw}
      (hsplits : Splits text first creator subdenom) (hfirst : IsPrefix first)
      (hlookup : lookup creator subdenom = .error (.rejected (.invalidDenom denom flaw))) :
      Refuses lookup text flaw
  /-- A rejection of another kind counts by what it says. -/
  | refused {first creator subdenom : Text} {rejection : Rejection}
      (hsplits : Splits text first creator subdenom) (hfirst : IsPrefix first)
      (hlookup : lookup creator subdenom = .error (.rejected rejection))
      (hother : ∀ denom flaw, rejection ≠ .invalidDenom denom flaw) :
      Refuses lookup text (.refused rejection.message)

/-- The lookup of the parts fails with something that is no rejection. -/
def Escapes (lookup : Text → Text → Except Fault α) (text : Text) (fault : Fault) : Prop :=
  ∃ first creator subdenom, Splits text first creator subdenom ∧ IsPrefix first ∧
    lookup creator subdenom = .error fault ∧ ∀ rejection, fault ≠ .rejected rejection

theorem parseWith_of_error (h : flawOrParts text = .error flaw) :
    parseWith lookup text = .error (.rejected (.invalidDenom text flaw)) := by
  rw [parseWith, h]

theorem parseWith_of_splits (h : Splits text first creator subdenom) (hfirst : IsPrefix first) :
    parseWith lookup text = (lookup creator subdenom).mapError (attributeTo text) := by
  rw [parseWith, flawOrParts_of_splits h, if_pos (isPrefixSpelling_iff.mpr hfirst)]

theorem parseWith_of_refuses (h : Refuses lookup text flaw) :
    parseWith lookup text = .error (.rejected (.invalidDenom text flaw)) := by
  cases h with
  | partCount hcount => exact parseWith_of_error (flawOrParts_of_count hcount)
  | wrongPrefix hsplits hfirst =>
      refine parseWith_of_error ?_
      rw [flawOrParts_of_splits hsplits, if_neg (mt isPrefixSpelling_iff.mp hfirst)]
  | parts hsplits hfirst hlookup =>
      rw [parseWith_of_splits hsplits hfirst, hlookup]
      rfl
  | @refused first creator subdenom rejection hsplits hfirst hlookup hother =>
      rw [parseWith_of_splits hsplits hfirst, hlookup]
      cases rejection with
      | invalidDenom denom flaw => exact absurd rfl (hother denom flaw)
      | _ => rfl

theorem parseWith_of_escapes {fault : Fault} (h : Escapes lookup text fault) :
    parseWith lookup text = .error fault := by
  obtain ⟨first, creator, subdenom, hsplits, hfirst, hlookup, hother⟩ := h
  rw [parseWith_of_splits hsplits hfirst, hlookup]
  cases fault with
  | rejected rejection => exact absurd rfl (hother rejection)
  | _ => rfl

/-- Every text is refused, or taken apart and handed to the lookup, which accepts it or fails. -/
theorem refuses_or_escapes_or_accepts (lookup : Text → Text → Except Fault α) (text : Text) :
    (∃ flaw, Refuses lookup text flaw) ∨ (∃ fault, Escapes lookup text fault) ∨
      ∃ first creator subdenom a, Splits text first creator subdenom ∧
        IsPrefix first ∧ lookup creator subdenom = .ok a := by
  by_cases hcount : text.elements.count separator = 2
  swap
  · exact .inl ⟨_, .partCount hcount⟩
  obtain ⟨first, creator, subdenom, hsplits⟩ := exists_splits_iff.mpr hcount
  by_cases hfirst : IsPrefix first
  swap
  · exact .inl ⟨_, .wrongPrefix hsplits hfirst⟩
  cases hlookup : lookup creator subdenom with
  | ok a => exact .inr (.inr ⟨first, creator, subdenom, a, hsplits, hfirst, hlookup⟩)
  | error fault =>
      cases fault with
      | rejected rejection =>
          cases rejection with
          | invalidDenom denom flaw => exact .inl ⟨flaw, .parts hsplits hfirst hlookup⟩
          | _ => exact .inl ⟨_, .refused hsplits hfirst hlookup fun _ _ h => by cases h⟩
      | _ => exact .inr (.inl ⟨_, first, creator, subdenom, hsplits, hfirst, hlookup,
          fun _ h => by cases h⟩)

/-- **A refusal names the text and the first rule that it breaks,** and nothing but a lookup that
fails for another reason comes before it. -/
theorem parseWith_eq_error_iff {fault : Fault} : parseWith lookup text = .error fault ↔
    (∃ flaw, Refuses lookup text flaw ∧ fault = .rejected (.invalidDenom text flaw)) ∨
      Escapes lookup text fault := by
  constructor
  · intro h
    rcases refuses_or_escapes_or_accepts lookup text with
      ⟨flaw, hflaw⟩ | ⟨fault', hescapes⟩ | ⟨first, creator, subdenom, a, hsplits, hfirst, hlookup⟩
    · rw [parseWith_of_refuses hflaw] at h
      exact .inl ⟨flaw, hflaw, (Except.error.inj h).symm⟩
    · rw [parseWith_of_escapes hescapes] at h
      exact .inr (Except.error.inj h ▸ hescapes)
    · rw [parseWith_of_splits hsplits hfirst, hlookup] at h
      cases h
  · rintro (⟨flaw, hflaw, rfl⟩ | hescapes)
    · exact parseWith_of_refuses hflaw
    · exact parseWith_of_escapes hescapes

theorem parseWith_eq_ok_iff {a : α} : parseWith lookup text = .ok a ↔
    ∃ first creator subdenom, Splits text first creator subdenom ∧ IsPrefix first ∧
      lookup creator subdenom = .ok a := by
  constructor
  · intro h
    rcases refuses_or_escapes_or_accepts lookup text with
      ⟨flaw, hflaw⟩ | ⟨fault', hescapes⟩ | ⟨first, creator, subdenom, a', hsplits, hfirst, hlookup⟩
    · rw [parseWith_of_refuses hflaw] at h
      cases h
    · rw [parseWith_of_escapes hescapes] at h
      cases h
    · rw [parseWith_of_splits hsplits hfirst, hlookup] at h
      cases h
      exact ⟨first, creator, subdenom, hsplits, hfirst, hlookup⟩
  · rintro ⟨first, creator, subdenom, hsplits, hfirst, hlookup⟩
    rw [parseWith_of_splits hsplits hfirst, hlookup]
    rfl

end Lookup

theorem parse_eq_ok_iff : parse text = .ok d ↔
    ∃ first, Splits text first (ofString d.creator) (ofString d.subdenom) ∧ IsPrefix first := by
  rw [parse, parseWith_eq_ok_iff]
  simp only [lookup_eq_ok_iff]
  constructor
  · rintro ⟨first, _, _, hsplits, hfirst, rfl, rfl⟩
    exact ⟨first, hsplits, hfirst⟩
  · rintro ⟨first, hsplits, hfirst⟩
    exact ⟨first, _, _, hsplits, hfirst, rfl, rfl⟩

/-- All that the lookup of a pair fails with, other than a rejection, is that the pair has no
encoding. -/
theorem escapes_lookup_iff {fault : Fault} : Escapes lookup text fault ↔
    ∃ first creator subdenom, Splits text first creator subdenom ∧ IsPrefix first ∧
      ¬ text.IsWellFormed ∧ fault = .illFormed (candidate creator subdenom) := by
  refine exists_congr fun first => exists_congr fun creator => exists_congr fun subdenom =>
    and_congr_right fun hsplits => and_congr_right fun hfirst => ?_
  obtain ⟨spelling, rfl, -⟩ := hfirst
  have hform : text.IsWellFormed ↔ (candidate creator subdenom).IsWellFormed := by
    simp [hsplits.text, candidate, assemble]
  rw [hform]
  rw [lookup_eq_error_iff]
  constructor
  · rintro ⟨⟨c, s, flaw, -, -, -, rfl⟩ | hill, hother⟩
    · exact absurd rfl (hother _)
    · exact hill
  · rintro ⟨hill, rfl⟩
    exact ⟨.inr ⟨hill, rfl⟩, fun _ h => by cases h⟩

theorem parse_eq_error_iff {fault : Fault} : parse text = .error fault ↔
    (∃ flaw, Refuses Denom.lookup text flaw ∧ fault = .rejected (.invalidDenom text flaw)) ∨
      ∃ first creator subdenom, Splits text first creator subdenom ∧ IsPrefix first ∧
        ¬ text.IsWellFormed ∧ fault = .illFormed (candidate creator subdenom) := by
  rw [parse, parseWith_eq_error_iff, escapes_lookup_iff]

/-! ### Canonical forms -/

/-- The canonical form of a text that names a denom. -/
def canonical (text : Text) : Except Fault String := (parse text).map Denom.text

theorem canonical_eq_ok_iff {result : String} :
    canonical text = .ok result ↔ ∃ d : Denom, parse text = .ok d ∧ d.text = result := by
  rw [canonical]
  cases parse text <;> simp [Except.map]

theorem canonical_eq_error_iff {fault : Fault} :
    canonical text = .error fault ↔ parse text = .error fault := by
  rw [canonical]
  cases parse text <;> simp [Except.map]

theorem canonicalText_eq (creator subdenom : String) :
    canonicalText creator subdenom = "factory/" ++ creator ++ "/" ++ subdenom := by
  rw [canonicalText, namespacePrefix]
  rfl

theorem text_eq (d : Denom) : d.text = "factory/" ++ d.creator ++ "/" ++ d.subdenom :=
  canonicalText_eq d.creator d.subdenom

theorem assemble_ofString (first creator subdenom : String) :
    assemble (ofString first) (ofString creator) (ofString subdenom) =
      ofString (first ++ "/" ++ creator ++ "/" ++ subdenom) := by
  simp only [assemble, ofString_append]

/-- What a text has to be in order to name a denom, and what its canonical form is then. -/
theorem canonical_eq_ok_iff_parts {result : String} : canonical text = .ok result ↔
    ∃ first creator subdenom : String,
      text = ofString (first ++ "/" ++ creator ++ "/" ++ subdenom) ∧
      IsCasing "factory" first ∧ '/' ∉ creator.toList ∧ '/' ∉ subdenom.toList ∧
      creator.utf8ByteSize ≤ 75 ∧ subdenom.utf8ByteSize ≤ 44 ∧
      result = "factory/" ++ creator ++ "/" ++ subdenom := by
  simp only [canonical_eq_ok_iff, parse_eq_ok_iff]
  constructor
  · rintro ⟨d, ⟨first, hsplits, spelling, rfl, hfirst⟩, rfl⟩
    exact ⟨spelling, d.creator, d.subdenom, hsplits.text.trans (assemble_ofString _ _ _), hfirst,
      d.creator_noSlash, mt separator_mem_ofString.mpr hsplits.subdenom, d.creator_length,
      d.subdenom_length, text_eq d⟩
  · rintro ⟨first, creator, subdenom, htext, hfirst, hcreator, hsubdenom, hlong, hlong', rfl⟩
    have hprefix : IsPrefix (ofString first) := ⟨first, rfl, hfirst⟩
    have hsplits : Splits text (ofString first) (ofString creator) (ofString subdenom) :=
      ⟨htext.trans (assemble_ofString _ _ _).symm, hprefix.noSlash,
        mt separator_mem_ofString.mp hcreator, mt separator_mem_ofString.mp hsubdenom⟩
    exact ⟨⟨creator, subdenom, hcreator, hlong', hlong⟩, ⟨_, hsplits, hprefix⟩, text_eq _⟩

/-- A canonical form is its own canonical form. -/
theorem canonical_of_canonical {result : String} (h : canonical text = .ok result) :
    canonical (ofString result) = .ok result := by
  obtain ⟨d, hparse, rfl⟩ := canonical_eq_ok_iff.mp h
  exact canonical_eq_ok_iff.mpr ⟨d, parse_text (noSlash_of_parse hparse), rfl⟩

/-- The texts of one denom differ in the letters of the prefix only. -/
theorem canonical_eq_iff {text' : Text} {result result' : String} (h : canonical text = .ok result)
    (h' : canonical text' = .ok result') : result = result' ↔
      ∃ (first first' : String) (rest : Text), text = ofString first ++ ofString "/" ++ rest ∧
        text' = ofString first' ++ ofString "/" ++ rest ∧
        IsCasing "factory" first ∧ IsCasing "factory" first' := by
  obtain ⟨d, hparse, rfl⟩ := canonical_eq_ok_iff.mp h
  obtain ⟨d', hparse', rfl⟩ := canonical_eq_ok_iff.mp h'
  obtain ⟨_, hsplits, first, rfl, hfirst⟩ := parse_eq_ok_iff.mp hparse
  obtain ⟨_, hsplits', first', rfl, hfirst'⟩ := parse_eq_ok_iff.mp hparse'
  rw [text_inj]
  constructor
  · rintro rfl
    refine ⟨first, first', ofString d.creator ++ ofString "/" ++ ofString d.subdenom, ?_, ?_, hfirst,
      hfirst'⟩
    · simp only [hsplits.text, assemble, append_assoc]
    · simp only [hsplits'.text, assemble, append_assoc]
  · rintro ⟨p, p', rest, htext, htext', hp, hp'⟩
    -- Both texts have the parts of what they share, after one part that they need not share.
    have hparts := parts_eq_iff.mpr hsplits
    have hparts' := parts_eq_iff.mpr hsplits'
    rw [htext, parts_append (IsPrefix.noSlash ⟨p, rfl, hp⟩), List.cons.injEq] at hparts
    rw [htext', parts_append (IsPrefix.noSlash ⟨p', rfl, hp'⟩), List.cons.injEq] at hparts'
    have hrest := hparts.2.symm.trans hparts'.2
    simp only [List.cons.injEq, and_true, ofString_inj] at hrest
    exact ext_parts hrest.1 hrest.2

/-- **A text names a denom just if it is a spelling of the prefix, a creator and a subdenom.** Its
canonical form has the prefix in small letters and is accepted as it stands; nothing but the letters of
the prefix is lost on the way to it. Whatever other text is given, it is rejected, and the rejection is
about the text itself and for the first rule that it breaks: the number of its parts, then the prefix,
then what the lookup has to say. There is one exception: if it is found at the lookup that the parts
have no encoding, then that is the fault, and it is about the name that they would make. Whatever else
the parts are looked up by, what is no rejection is passed on as it is. -/
theorem canonical_of_spellings :
    (∀ (text : Text) (result : String), canonical text = .ok result ↔
      ∃ first creator subdenom : String,
        text = ofString (first ++ "/" ++ creator ++ "/" ++ subdenom) ∧
        IsCasing "factory" first ∧ '/' ∉ creator.toList ∧ '/' ∉ subdenom.toList ∧
        creator.utf8ByteSize ≤ 75 ∧ subdenom.utf8ByteSize ≤ 44 ∧
        result = "factory/" ++ creator ++ "/" ++ subdenom) ∧
      (∀ (text : Text) (result : String), canonical text = .ok result →
        canonical (ofString result) = .ok result) ∧
      (∀ (text text' : Text) (result result' : String), canonical text = .ok result →
        canonical text' = .ok result' →
        (result = result' ↔
          ∃ (first first' : String) (rest : Text), text = ofString first ++ ofString "/" ++ rest ∧
            text' = ofString first' ++ ofString "/" ++ rest ∧
            IsCasing "factory" first ∧ IsCasing "factory" first')) ∧
      (∀ (text : Text) (fault : Fault), canonical text = .error fault ↔
        (∃ flaw, Refuses Denom.lookup text flaw ∧ fault = .rejected (.invalidDenom text flaw)) ∨
          ∃ first creator subdenom, Splits text first creator subdenom ∧ IsPrefix first ∧
            ¬ text.IsWellFormed ∧ fault = .illFormed (candidate creator subdenom)) ∧
      (∀ {α : Type} (lookup : Text → Text → Except Fault α) (text : Text) (fault : Fault),
        parseWith lookup text = .error fault ↔
          (∃ flaw, Refuses lookup text flaw ∧ fault = .rejected (.invalidDenom text flaw)) ∨
            Escapes lookup text fault) ∧
      (∀ n : Nat, (Flaw.partCount n).message =
        ofString s!"denom must have 3 parts separated by /, had {n}") ∧
      (∀ first : Text, (Flaw.wrongPrefix first).message =
        ofString "prefix must be 'factory', was " ++ first) ∧
      ∀ reason : Text, (Flaw.refused reason).message = reason := by
  refine ⟨fun _ _ => canonical_eq_ok_iff_parts, fun _ _ => canonical_of_canonical,
    fun _ _ _ _ => canonical_eq_iff, fun text fault => ?_,
    fun _ _ _ => parseWith_eq_error_iff, fun _ => rfl, fun _ => rfl, fun _ => rfl⟩
  rw [canonical_eq_error_iff, parse_eq_error_iff]

/-- A text is known by any spelling of the prefix, and refused for its prefix before its parts are
looked at. -/
theorem mixed_spellings_of_gold :
    canonical "FacTory/alice/gold" = .ok "factory/alice/gold" ∧
      canonical "factory/alice/gold" = .ok "factory/alice/gold" ∧
      canonical "fabric/alice/gold" =
        .error (.rejected (.invalidDenom "fabric/alice/gold" (.wrongPrefix "fabric"))) := by
  obtain ⟨haccepts, hidempotent, -, hrefuses, -⟩ := canonical_of_spellings
  have hspelling : IsCasing "factory" "FacTory" := isCasing_of_isPrefixSpelling (by decide)
  have hother : ¬ IsPrefix "fabric" := mt isPrefixSpelling_iff.mpr (by decide)
  have hgold : canonical "FacTory/alice/gold" = .ok "factory/alice/gold" :=
    (haccepts _ _).mpr ⟨"FacTory", "alice", "gold", by decide, hspelling, by decide, by decide,
      by decide, by decide, by decide⟩
  have hsplits : Splits "fabric/alice/gold" "fabric" "alice" "gold" :=
    ⟨by decide, by decide, by decide, by decide⟩
  exact ⟨hgold, hidempotent _ _ hgold,
    (hrefuses _ _).mpr (.inl ⟨_, .wrongPrefix hsplits hother, rfl⟩)⟩

/-- A creator that is half a character. -/
def torn : Text := ⟨[.ofCode 0xD83D]⟩

theorem parse_torn : parse (assemble "factory" torn "x") = .error (.illFormed (candidate torn "x")) := by
  decide

/-- Not every fault is a rejection of the text, if texts may have surrogates in them. -/
theorem torn_creator_not_rejected :
    ¬ ∀ (text : Text) (fault : Fault), canonical text = .error fault →
      ∃ flaw, fault = .rejected (.invalidDenom text flaw) := by
  intro hclaim
  obtain ⟨flaw, hflaw⟩ := hclaim _ _ (canonical_eq_error_iff.mpr parse_torn)
  cases hflaw

end Denom

end Coinage
