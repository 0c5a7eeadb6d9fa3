import Mathlib.Algebra.Order.BigOperators.Group.Finset
import Mathlib.Data.Fintype.EquivFin
import Mathlib.Data.Fintype.Lattice
import Mathlib.Data.List.Lex
import Mathlib.Logic.Relation
import Mathlib.Order.WithBot
import Coinage.Proofs.Transaction

/-! Why transactions do not wait for each other in a circle. A transaction asks for each of its keys
once, in the order of the keys by their codes, so the key that it waits for comes after all that it
has. Of several transactions, the one whose next key comes last waits for none of the others. -/

namespace Coinage

/-! ### The order of the locks -/

private theorem compareLex_eq_lt (codes codes' : List Nat) :
    codes.compareLex (@compare Nat instOrdNat) codes' = .lt ↔ codes < codes' := by
  induction codes generalizing codes' with
  | nil => cases codes' <;> simp [List.compareLex_nil_nil, List.compareLex_nil_cons]
  | cons code rest ih =>
      cases codes' with
      | nil => simp [List.compareLex_cons_nil]
      | cons code' rest' =>
          rw [List.compareLex_cons_cons, Ordering.then_eq_lt, ih, List.cons_lt_cons_iff,
            Nat.compare_eq_lt, Nat.compare_eq_eq]

theorem Text.compare_eq_lt_iff (s t : Text) : compare s t = .lt ↔ s.codes < t.codes :=
  compareLex_eq_lt s.codes t.codes

namespace Database

/-- Keys are locked in the order of their codes, and none of them twice. -/
theorem pairwise_lockOrder (keys : List Text) :
    (lockOrder keys).Pairwise fun key key' => key.codes < key'.codes :=
  (Table.keys_ordered _).imp fun h => (Text.compare_eq_lt_iff _ _).mp h

end Database

/-! ### A transaction on its way to its locks -/

structure Locking where
  /-- The keys that it is to lock, as they were given. -/
  locks : List Text
  held : List Text
  /-- What is held was taken in order. -/
  inOrder : held <+: Database.lockOrder locks

namespace Locking

/-- The locks still to be taken, the next one first. -/
def missing (t : Locking) : List Text := (Database.lockOrder t.locks).drop t.held.length

def next? (t : Locking) : Option Text := t.missing.head?

theorem held_append_missing (t : Locking) : t.held ++ t.missing = Database.lockOrder t.locks :=
  List.prefix_iff_eq_append.mp t.inOrder

theorem lockOrder_eq_of_next? {t : Locking} {key : Text} (h : t.next? = some key) :
    ∃ later, Database.lockOrder t.locks = t.held ++ key :: later := by
  obtain ⟨later, hmissing⟩ := List.head?_eq_some_iff.mp h
  exact ⟨later, by rw [← hmissing, held_append_missing]⟩

theorem next?_eq_none_iff {t : Locking} : t.next? = none ↔ t.held = Database.lockOrder t.locks := by
  rw [next?, List.head?_eq_none_iff, ← t.held_append_missing, List.self_eq_append_right]

/-- What a transaction has comes before what it asks for next. -/
theorem codes_lt_of_next? {t : Locking} {key key' : Text} (hheld : key ∈ t.held)
    (hnext : t.next? = some key') : key.codes < key'.codes := by
  have hordered := Database.pairwise_lockOrder t.locks
  obtain ⟨later, horder⟩ := lockOrder_eq_of_next? hnext
  rw [horder] at hordered
  exact (List.pairwise_append.mp hordered).2.2 key hheld key' List.mem_cons_self

/-- The place of the next key in the order of all keys, after all of them if there is no next one. -/
def rank (t : Locking) : WithTop (List Nat) :=
  match t.next? with
  | some key => (key.codes : WithTop (List Nat))
  | none => ⊤

theorem rank_eq_coe {t : Locking} {key : Text} (h : t.next? = some key) :
    t.rank = (key.codes : WithTop (List Nat)) := by
  rw [rank, h]

/-- Whoever holds what another one waits for has got further in the order of the keys. -/
theorem rank_lt_rank {t u : Locking} {key : Text} (hnext : t.next? = some key)
    (hheld : key ∈ u.held) : t.rank < u.rank := by
  rw [rank_eq_coe hnext]
  cases hnext' : u.next? with
  | none =>
      rw [rank, hnext']
      exact WithTop.coe_lt_top key.codes
  | some key' =>
      rw [rank_eq_coe hnext']
      exact WithTop.coe_lt_coe.mpr (codes_lt_of_next? hheld hnext')

/-! ### Several transactions -/

variable {ι : Type} {family : ι → Locking}

/-- Nobody holds the next key of the transaction that has got furthest. -/
theorem exists_next_free [Finite ι] [Nonempty ι] (family : ι → Locking) :
    ∃ i, ∀ key, (family i).next? = some key → ∀ j, key ∉ (family j).held := by
  obtain ⟨i, hfurthest⟩ := Finite.exists_max fun i => (family i).rank
  refine ⟨i, fun key hnext j hheld => ?_⟩
  exact (rank_lt_rank hnext hheld).not_ge (hfurthest j)

/-- **Transactions that take locks do not all wait for each other.** However many there are, whatever
keys they were given, and wherever each of them has got to with its locks, one of them has all of its
locks or can have the next one. That no lock is held by two of them need not even be assumed. -/
theorem exists_not_waiting [Finite ι] [Nonempty ι] (family : ι → Locking) :
    ∃ i, (family i).held = Database.lockOrder (family i).locks ∨
      ∃ key later, Database.lockOrder (family i).locks = (family i).held ++ key :: later ∧
        ∀ j, j ≠ i → key ∉ (family j).held := by
  obtain ⟨i, hfree⟩ := exists_next_free family
  refine ⟨i, ?_⟩
  cases hnext : (family i).next? with
  | none => exact .inl (next?_eq_none_iff.mp hnext)
  | some key =>
      obtain ⟨later, horder⟩ := lockOrder_eq_of_next? hnext
      exact .inr ⟨key, later, horder, fun j _ => hfree key hnext j⟩

/-- Each one wants a key of the next one, and the last one wants a key of the first one. -/
def circle : Fin 3 → Locking
  | 0 => ⟨["b", "a"], ["a"], by decide +kernel⟩
  | 1 => ⟨["c", "b", "c"], ["b"], by decide +kernel⟩
  | 2 => ⟨["c", "a"], [], List.nil_prefix⟩

/-- The first and the last one of the circle wait, so that it is the second one that does not. -/
theorem circle_not_waiting :
    (circle 0).next? = some "b" ∧ (circle 1).held = ["b"] ∧ (circle 2).next? = some "a" ∧
      (circle 0).held = ["a"] ∧
      ∃ i, (circle i).held = Database.lockOrder (circle i).locks ∨
        ∃ key later, Database.lockOrder (circle i).locks = (circle i).held ++ key :: later ∧
          ∀ j, j ≠ i → key ∉ (circle j).held :=
  ⟨by decide +kernel, rfl, by decide +kernel, rfl, exists_not_waiting circle⟩

/-! ### Until all of them are through -/

/-- The transaction with one more lock. -/
def withNext (t : Locking) : Locking :=
  ⟨t.locks, (Database.lockOrder t.locks).take (t.held.length + 1), List.take_prefix _ _⟩

theorem held_withNext {t : Locking} {key : Text} (h : t.next? = some key) :
    t.withNext.held = t.held ++ [key] := by
  obtain ⟨later, horder⟩ := lockOrder_eq_of_next? h
  change (Database.lockOrder t.locks).take (t.held.length + 1) = _
  rw [horder, List.take_length_add_append]
  rfl

/-- A transaction that has come to its end holds nothing and asks for nothing. -/
def ended : Locking := ⟨[], [], List.nil_prefix⟩

theorem eq_ended {t : Locking} (h : t.locks = []) : t = ended := by
  obtain ⟨locks, held, hprefix⟩ := t
  obtain rfl : locks = [] := h
  obtain rfl : held = [] := List.prefix_nil.mp hprefix
  rfl

/-- How many locks are to be taken and given back. -/
def work (t : Locking) : Nat := t.missing.length + (Database.lockOrder t.locks).length

theorem work_ended : ended.work = 0 := rfl

theorem work_pos {t : Locking} (h : t ≠ ended) : 0 < t.work := by
  have hlocks : Database.lockOrder t.locks ≠ [] := fun hnil =>
    h (eq_ended ((Database.lockOrder_eq_nil_iff _).mp hnil))
  have hlength : 0 < (Database.lockOrder t.locks).length := List.length_pos_iff.mpr hlocks
  rw [work]
  omega

theorem work_withNext_lt {t : Locking} {key : Text} (h : t.next? = some key) :
    t.withNext.work < t.work := by
  have hbefore := congrArg List.length t.held_append_missing
  have hafter := congrArg List.length t.withNext.held_append_missing
  rw [held_withNext h] at hafter
  change _ = (Database.lockOrder t.locks).length at hafter
  change t.withNext.missing.length + (Database.lockOrder t.locks).length < _
  simp only [List.length_append, List.length_singleton] at hbefore hafter
  rw [work]
  omega

variable [DecidableEq ι]

/-- What may happen next: a transaction takes a lock that no other one has, or it has all of its locks
and goes on to its end, where they are given back. -/
inductive Advances (family : ι → Locking) : (ι → Locking) → Prop
  | take {i : ι} {key : Text} (hnext : (family i).next? = some key)
      (hfree : ∀ j, j ≠ i → key ∉ (family j).held) :
      Advances family (Function.update family i (family i).withNext)
  | finish {i : ι} (hall : (family i).next? = none) : Advances family (Function.update family i ended)

/-- No two transactions hold the same lock. -/
def Exclusive (family : ι → Locking) : Prop :=
  Pairwise fun i j => (family i).held.Disjoint (family j).held

theorem Exclusive.update (h : Exclusive family) {i : ι} {t : Locking}
    (ht : ∀ j, j ≠ i → t.held.Disjoint (family j).held) :
    Exclusive (Function.update family i t) := by
  intro j k hjk
  by_cases hj : j = i
  · subst hj
    simpa [Function.update_of_ne hjk.symm] using ht k hjk.symm
  · by_cases hk : k = i
    · subst hk
      simpa [Function.update_of_ne hj] using (ht j hj).symm
    · simpa [Function.update_of_ne hj, Function.update_of_ne hk] using h hjk

theorem Exclusive.advances {family' : ι → Locking} (h : Exclusive family)
    (hstep : Advances family family') : Exclusive family' := by
  cases hstep with
  | @take i key hnext hfree =>
      refine h.update fun j hj => ?_
      rw [held_withNext hnext, List.disjoint_append_left, List.singleton_disjoint]
      exact ⟨h hj.symm, hfree j hj⟩
  | finish hall => exact h.update fun j _ => List.disjoint_nil_left _

/-- Locks are exclusive all the way. -/
theorem Exclusive.run {family' : ι → Locking} (h : Exclusive family)
    (hrun : Relation.ReflTransGen Advances family family') : Exclusive family' := by
  induction hrun with
  | refl => exact h
  | tail _ hstep ih => exact ih.advances hstep

theorem sum_work_update_lt [Fintype ι] {i : ι} {t : Locking} (h : t.work < (family i).work) :
    ∑ j, (Function.update family i t j).work < ∑ j, (family j).work := by
  refine Finset.sum_lt_sum (fun j _ => ?_) ⟨i, Finset.mem_univ i, by simpa using h⟩
  by_cases hj : j = i
  · subst hj
    simpa using h.le
  · rw [Function.update_of_ne hj]

/-- As long as not all transactions have ended, one of them gets on. -/
theorem exists_advances [Fintype ι] (hopen : ∃ i, family i ≠ ended) :
    ∃ family', Advances family family' ∧ ∑ i, (family' i).work < ∑ i, (family i).work := by
  obtain ⟨i₀, hi₀⟩ := hopen
  -- Those that have ended would count as having got furthest, so they are left out.
  have : Nonempty { i // family i ≠ ended } := ⟨i₀, hi₀⟩
  obtain ⟨⟨i, hi⟩, hfree⟩ := exists_next_free fun i : { i // family i ≠ ended } => family i
  cases hnext : (family i).next? with
  | none => exact ⟨_, .finish hnext, sum_work_update_lt (work_ended ▸ work_pos hi)⟩
  | some key =>
      refine ⟨_, .take hnext fun j _ hheld => ?_, sum_work_update_lt (work_withNext_lt hnext)⟩
      by_cases hj : family j = ended
      · rw [hj] at hheld
        exact List.not_mem_nil hheld
      · exact hfree key hnext ⟨j, hj⟩ hheld

/-- **Transactions need not be given up to let others through.** Wherever they have got to with their
locks, they can all be led on to their ends. -/
theorem can_all_finish [Finite ι] (family : ι → Locking) :
    Relation.ReflTransGen Advances family fun _ => ended := by
  have := Fintype.ofFinite ι
  induction hwork : ∑ i, (family i).work using Nat.strong_induction_on generalizing family with
  | _ work ih =>
      by_cases hopen : ∃ i, family i ≠ ended
      · obtain ⟨family', hstep, hless⟩ := exists_advances hopen
        exact .head hstep (ih _ (hwork ▸ hless) family' rfl)
      · have hended : family = fun _ => ended := funext fun i => by_contra fun hi => hopen ⟨i, hi⟩
        rw [← hended]

end Locking

end Coinage
