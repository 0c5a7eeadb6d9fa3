/-!
Finite tables kept in key order. The entries are strictly increasing in their keys, so a key occurs
once and two tables that answer every lookup alike are the same table (`Table.ext_get?`).
-/

namespace Coinage

/-- Whether entry `a` stands before entry `b`. -/
abbrev Precedes {κ α : Type} [Ord κ] (a b : κ × α) : Prop := compare a.1 b.1 = .lt

structure Table (κ α : Type) [Ord κ] where
  entries : List (κ × α)
  ordered : entries.Pairwise Precedes
deriving DecidableEq

namespace Table

variable {κ α : Type} [Ord κ]

def empty : Table κ α := ⟨[], .nil⟩

instance : EmptyCollection (Table κ α) := ⟨empty⟩

instance : Inhabited (Table κ α) := ⟨empty⟩

def keys (t : Table κ α) : List κ := t.entries.map (·.1)

def size (t : Table κ α) : Nat := t.entries.length

/-- The value of `k` in a list of entries. -/
def lookup (k : κ) : List (κ × α) → Option α
  | [] => none
  | (k', a) :: r => if compare k k' = .eq then some a else lookup k r

/-- Puts `k` where its place is, in exchange for an entry of the same key. -/
def place (k : κ) (a : α) : List (κ × α) → List (κ × α)
  | [] => [(k, a)]
  | (k', a') :: r =>
    match compare k k' with
    | .lt => (k, a) :: (k', a') :: r
    | .eq => (k, a) :: r
    | .gt => (k', a') :: place k a r

def remove (k : κ) (es : List (κ × α)) : List (κ × α) :=
  es.filter fun e => compare k e.1 != .eq

theorem mem_place {k : κ} {a : α} {e : κ × α} {es : List (κ × α)} (h : e ∈ place k a es) :
    e = (k, a) ∨ e ∈ es := by
  induction es with
  | nil => simpa [place] using h
  | cons x r ih =>
    simp only [place] at h
    split at h <;> simp only [List.mem_cons] at h ⊢ <;> grind

theorem ordered_place [Std.TransOrd κ] [Std.LawfulEqOrd κ] (k : κ) (a : α) {es : List (κ × α)}
    (h : es.Pairwise Precedes) : (place k a es).Pairwise Precedes := by
  induction es with
  | nil => simp [place]
  | cons x r ih =>
    obtain ⟨first, rest⟩ := List.pairwise_cons.mp h
    simp only [place]
    split
    next before =>
      refine List.pairwise_cons.mpr ⟨fun e he => ?_, h⟩
      rcases List.mem_cons.mp he with rfl | he
      · exact before
      · exact Std.TransCmp.lt_trans before (first e he)
    next same =>
      refine List.pairwise_cons.mpr ⟨fun e he => ?_, rest⟩
      rw [Precedes, Std.LawfulEqOrd.eq_of_compare same]
      exact first e he
    next after =>
      refine List.pairwise_cons.mpr ⟨fun e he => ?_, ih rest⟩
      rcases mem_place he with rfl | he
      · exact Std.OrientedCmp.lt_of_gt after
      · exact first e he

def get? (t : Table κ α) (k : κ) : Option α := lookup k t.entries

def insert [Std.TransOrd κ] [Std.LawfulEqOrd κ] (t : Table κ α) (k : κ) (a : α) : Table κ α :=
  ⟨place k a t.entries, ordered_place k a t.ordered⟩

def erase (t : Table κ α) (k : κ) : Table κ α :=
  ⟨remove k t.entries, t.ordered.filter _⟩

/-- The table of a list of entries, the first of which counts for a key. -/
def ofList [Std.TransOrd κ] [Std.LawfulEqOrd κ] (es : List (κ × α)) : Table κ α :=
  es.foldr (fun e t => t.insert e.1 e.2) ∅

/-- The table overridden by a list of entries, the later ones last. -/
def insertAll [Std.TransOrd κ] [Std.LawfulEqOrd κ] (t : Table κ α) (es : List (κ × α)) :
    Table κ α :=
  es.foldl (fun t e => t.insert e.1 e.2) t

@[simp] theorem get?_empty (k : κ) : (∅ : Table κ α).get? k = none := rfl

private theorem lookup_place [Std.LawfulEqOrd κ] [DecidableEq κ] (k k' : κ) (a : α)
    (es : List (κ × α)) :
    lookup k' (place k a es) = if k' = k then some a else lookup k' es := by
  induction es with
  | nil => simp [place, lookup]
  | cons x r ih =>
    obtain ⟨k₁, a₁⟩ := x
    simp only [place]
    split
    · simp [lookup]
    next same =>
      obtain rfl : k = k₁ := Std.LawfulEqOrd.eq_of_compare same
      by_cases h : k' = k <;> simp [lookup, h]
    next after =>
      have differ : k ≠ k₁ := by
        rintro rfl
        simp [Std.ReflCmp.compare_self] at after
      by_cases h : k' = k
      · subst h
        simp [lookup, ih, differ]
      · simp [lookup, ih, h]

theorem get?_insert [Std.TransOrd κ] [Std.LawfulEqOrd κ] [DecidableEq κ] (t : Table κ α)
    (k k' : κ) (a : α) : (t.insert k a).get? k' = if k' = k then some a else t.get? k' :=
  lookup_place k k' a t.entries

private theorem lookup_remove [Std.LawfulEqOrd κ] [DecidableEq κ] (k k' : κ)
    (es : List (κ × α)) : lookup k' (remove k es) = if k' = k then none else lookup k' es := by
  induction es with
  | nil => simp [remove, lookup]
  | cons x r ih =>
    obtain ⟨k₁, a₁⟩ := x
    simp only [remove, List.filter_cons, bne_iff_ne, ne_eq, Std.LawfulEqOrd.compare_eq_iff_eq,
      lookup] at ih ⊢
    by_cases same : k = k₁ <;> by_cases h : k' = k <;>
      simp_all [lookup]

theorem get?_erase [Std.LawfulEqOrd κ] [DecidableEq κ] (t : Table κ α) (k k' : κ) :
    (t.erase k).get? k' = if k' = k then none else t.get? k' :=
  lookup_remove k k' t.entries

private theorem lookup_eq_some_iff [Std.TransOrd κ] [Std.LawfulEqOrd κ] {k : κ} {a : α}
    {es : List (κ × α)} (h : es.Pairwise Precedes) : lookup k es = some a ↔ (k, a) ∈ es := by
  induction es with
  | nil => simp [lookup]
  | cons x r ih =>
    obtain ⟨k₁, a₁⟩ := x
    obtain ⟨first, rest⟩ := List.pairwise_cons.mp h
    by_cases same : k = k₁
    · subst same
      have absent : (k, a) ∉ r := fun he => by
        have := first _ he
        simp [Precedes, Std.ReflCmp.compare_self] at this
      simp [lookup, absent, eq_comm]
    · simp [lookup, same, ih rest]

theorem get?_eq_some_iff [Std.TransOrd κ] [Std.LawfulEqOrd κ] {t : Table κ α} {k : κ} {a : α} :
    t.get? k = some a ↔ (k, a) ∈ t.entries :=
  lookup_eq_some_iff t.ordered

private theorem eq_of_mem_iff [Std.TransOrd κ] {xs ys : List (κ × α)} (hx : xs.Pairwise Precedes)
    (hy : ys.Pairwise Precedes) (h : ∀ e, e ∈ xs ↔ e ∈ ys) : xs = ys := by
  have irrefl (e : κ × α) : ¬ Precedes e e := by simp [Precedes, Std.ReflCmp.compare_self]
  induction xs generalizing ys with
  | nil => cases ys with
    | nil => rfl
    | cons y ys => simpa using (h y).mpr (by simp)
  | cons x xs ih => cases ys with
    | nil => simpa using (h x).mp (by simp)
    | cons y ys =>
      obtain ⟨firstx, restx⟩ := List.pairwise_cons.mp hx
      obtain ⟨firsty, resty⟩ := List.pairwise_cons.mp hy
      obtain rfl : x = y := by
        rcases List.mem_cons.mp ((h x).mp (by simp)) with same | inys
        · exact same
        rcases List.mem_cons.mp ((h y).mpr (by simp)) with same | inxs
        · exact same.symm
        exact absurd (Std.TransCmp.lt_trans (firsty x inys) (firstx y inxs)) (irrefl y)
      congr 1
      refine ih restx resty fun e => ⟨fun he => ?_, fun he => ?_⟩
      · rcases List.mem_cons.mp ((h e).mp (List.mem_cons_of_mem x he)) with rfl | there
        · exact absurd (firstx e he) (irrefl e)
        · exact there
      · rcases List.mem_cons.mp ((h e).mpr (List.mem_cons_of_mem x he)) with rfl | there
        · exact absurd (firsty e he) (irrefl e)
        · exact there

private theorem place_of_precedes (e : κ × α) {es : List (κ × α)} (h : ∀ x ∈ es, Precedes e x) :
    place e.1 e.2 es = e :: es := by
  cases es with
  | nil => rfl
  | cons x r =>
    have before : compare e.1 x.1 = .lt := h x (by simp)
    simp [place, before]

/-- Entries that are in order already stay as they are. -/
theorem entries_ofList [Std.TransOrd κ] [Std.LawfulEqOrd κ] {es : List (κ × α)}
    (h : es.Pairwise Precedes) : (ofList es).entries = es := by
  induction es with
  | nil => rfl
  | cons e r ih =>
    obtain ⟨first, rest⟩ := List.pairwise_cons.mp h
    have tail : (ofList r).entries = r := ih rest
    show place e.1 e.2 (ofList r).entries = e :: r
    rw [tail, place_of_precedes e first]

/-- Tables that answer every lookup alike are equal. -/
theorem ext_get? [Std.TransOrd κ] [Std.LawfulEqOrd κ] {s t : Table κ α}
    (h : ∀ k, s.get? k = t.get? k) : s = t := by
  obtain ⟨xs, hx⟩ := s
  obtain ⟨ys, hy⟩ := t
  obtain rfl : xs = ys := eq_of_mem_iff hx hy fun e => by
    rw [← lookup_eq_some_iff hx, ← lookup_eq_some_iff hy]
    exact iff_of_eq (congrArg (· = some e.2) (h e.1))
  rfl

/-- No key is listed twice, and the listing is increasing. -/
theorem keys_ordered (t : Table κ α) : t.keys.Pairwise fun a b => compare a b = .lt := by
  simpa [keys, List.pairwise_map] using t.ordered

end Table

end Coinage
