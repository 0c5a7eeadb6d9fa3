/-!
Entries in the order in which their keys first came. Putting a key again changes its value and
leaves it where it stands.
-/

namespace Coinage.Listing

variable {κ α : Type} [BEq κ]

def put (k : κ) (a : α) : List (κ × α) → List (κ × α)
  | [] => [(k, a)]
  | e :: r => if k == e.1 then (k, a) :: r else e :: put k a r

/-- Puts entries one after the other, so of several values for a key the last one stays. -/
def putAll (es : List (κ × α)) (listing : List (κ × α)) : List (κ × α) :=
  es.foldl (fun l e => put e.1 e.2 l) listing

def ofEntries (es : List (κ × α)) : List (κ × α) := putAll es []

theorem lookup_put [LawfulBEq κ] (k k' : κ) (a : α) (es : List (κ × α)) :
    (put k a es).lookup k' = if k' == k then some a else es.lookup k' := by
  induction es with
  | nil => cases h : k' == k <;> simp [put, List.lookup_cons, h]
  | cons e r ih =>
    obtain ⟨k₁, a₁⟩ := e
    by_cases same : k = k₁
    · cases h : k' == k₁ <;> simp [put, List.lookup_cons, same, h]
    · by_cases h : k' = k₁
      · subst h
        simp [put, same, Ne.symm same]
      · simpa [put, List.lookup_cons, same, beq_false_of_ne h] using ih

end Coinage.Listing
