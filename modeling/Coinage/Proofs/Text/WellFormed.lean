import Mathlib.Data.List.Basic
import Coinage.Text.Basic

/-! Texts without surrogates. These are the texts that have an encoding, and each of them is that of a
`String`. A text has one just if all of its parts have. -/

namespace Coinage.Text

/-- A text without surrogates. -/
def IsWellFormed (t : Text) : Prop := t.toString?.isSome = true

instance : DecidablePred IsWellFormed := fun _ => inferInstanceAs (Decidable (_ = true))

@[simp] theorem isWellFormed_ofString (s : String) : (ofString s).IsWellFormed := by
  rw [IsWellFormed, toString?_ofString]
  rfl

theorem mapM_char?_eq_some_iff {es : List Element} {cs : List Char} :
    es.mapM Element.char? = some cs ↔ es = cs.map .char := by
  induction es generalizing cs with
  | nil => cases cs <;> simp [pure]
  | cons e r ih =>
      cases e with
      | surrogate i => cases cs <;> simp [Element.char?]
      | char c =>
          cases cs with
          | nil => simp [Element.char?, Option.bind_eq_some_iff]
          | cons c' cs => simp [Element.char?, Option.bind_eq_some_iff, ih, and_comm]

theorem toString?_eq_some_iff {t : Text} {s : String} : t.toString? = some s ↔ t = ofString s := by
  refine ⟨fun h => ?_, fun h => h ▸ toString?_ofString s⟩
  obtain ⟨cs, hcs, rfl⟩ := Option.map_eq_some_iff.mp h
  rw [ofString, String.toList_ofList, ← mapM_char?_eq_some_iff.mp hcs]

theorem isWellFormed_iff {t : Text} : t.IsWellFormed ↔ ∃ s, t = ofString s := by
  simp only [IsWellFormed, Option.isSome_iff_exists, toString?_eq_some_iff]

/-- A text has an encoding just if all its elements are characters. -/
theorem isWellFormed_iff_forall {t : Text} : t.IsWellFormed ↔ ∀ e ∈ t.elements, ∃ c, e = .char c := by
  rw [isWellFormed_iff]
  constructor
  · rintro ⟨s, rfl⟩ e he
    obtain ⟨c, -, rfl⟩ := List.mem_map.mp he
    exact ⟨c, rfl⟩
  · intro h
    obtain ⟨cs, hcs⟩ : ∃ cs : List Char, t.elements = cs.map .char := by
      obtain ⟨es⟩ := t
      change ∃ cs : List Char, es = cs.map .char
      induction es with
      | nil => exact ⟨[], rfl⟩
      | cons e r ih =>
          obtain ⟨⟨c, rfl⟩, hrest⟩ := List.forall_mem_cons.mp h
          obtain ⟨cs, rfl⟩ := ih hrest
          exact ⟨c :: cs, rfl⟩
    exact ⟨String.ofList cs, by rw [ofString, String.toList_ofList, ← hcs]⟩

/-! ### Parts of texts -/

@[simp] theorem elements_append (s t : Text) : (s ++ t).elements = s.elements ++ t.elements := rfl

theorem ofString_append (s s' : String) : ofString s ++ ofString s' = ofString (s ++ s') := by
  change (⟨_ ++ _⟩ : Text) = ⟨_⟩
  rw [String.toList_append, List.map_append]
  rfl

theorem append_assoc (s t u : Text) : s ++ t ++ u = s ++ (t ++ u) :=
  congrArg Text.mk (List.append_assoc s.elements t.elements u.elements)

@[simp] theorem isWellFormed_append_iff {s t : Text} :
    (s ++ t).IsWellFormed ↔ s.IsWellFormed ∧ t.IsWellFormed := by
  simp only [isWellFormed_iff_forall, elements_append, List.forall_mem_append]

@[simp] theorem char_mem_elements_ofString {c : Char} {s : String} :
    Element.char c ∈ (ofString s).elements ↔ c ∈ s.toList := by
  simp [ofString]

end Coinage.Text
