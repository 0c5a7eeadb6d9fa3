import Mathlib.Data.List.Basic
import Coinage.Store.Basic

/-! What a transaction comes to. Either store runs a script to what `Script.eval` says of its
contents, and a transaction has one of three ends: it does not get through to the store, the script
fails, or what the script has staged becomes visible. Only the last one changes the contents. -/

namespace Coinage

variable {ε α β : Type}

namespace Table

variable {κ γ : Type} [Ord κ] [Std.TransOrd κ] [Std.LawfulEqOrd κ]

@[simp] theorem insertAll_cons (t : Table κ γ) (k : κ) (a : γ) (es : List (κ × γ)) :
    t.insertAll ((k, a) :: es) = (t.insert k a).insertAll es := rfl

theorem mem_keys_iff {t : Table κ γ} {k : κ} : k ∈ t.keys ↔ ∃ a, t.get? k = some a := by
  simp only [keys, List.mem_map, get?_eq_some_iff]
  constructor
  · rintro ⟨⟨_, a⟩, he, rfl⟩
    exact ⟨a, he⟩
  · rintro ⟨a, he⟩
    exact ⟨(k, a), he, rfl⟩

theorem mem_keys_insert [DecidableEq κ] {t : Table κ γ} {k k' : κ} {a : γ} :
    k' ∈ (t.insert k a).keys ↔ k' = k ∨ k' ∈ t.keys := by
  by_cases h : k' = k <;> simp [mem_keys_iff, get?_insert, h]

end Table

namespace Listing

variable {κ γ : Type} [BEq κ]

theorem put_ne_nil (k : κ) (a : γ) (listing : List (κ × γ)) : put k a listing ≠ [] := by
  cases listing with
  | nil => simp [put]
  | cons e r =>
      rw [put]
      split <;> simp

theorem putAll_ne_nil {es : List (κ × γ)} (hes : es ≠ []) (listing : List (κ × γ)) :
    putAll es listing ≠ [] := by
  induction es generalizing listing with
  | nil => exact absurd rfl hes
  | cons e r ih =>
      cases r with
      | nil => exact put_ne_nil e.1 e.2 listing
      | cons e' r' => exact ih (List.cons_ne_nil e' r') (put e.1 e.2 listing)

end Listing

namespace Script

@[simp] theorem eval_read (contents : Table Text String) (staged : Staged) (key : Text) :
    (read key : Script ε _).eval contents staged =
      (.ok ((staged.lookup key).or (contents.get? key)), staged) := rfl

@[simp] theorem eval_stage (contents : Table Text String) (staged : Staged)
    (batch : List (Text × String)) :
    (stage batch : Script ε Unit).eval contents staged = (.ok (), Listing.putAll batch staged) := rfl

@[simp] theorem eval_lift (contents : Table Text String) (staged : Staged) (x : Except ε α) :
    (liftM x : Script ε α).eval contents staged = (x, staged) := by
  cases x <;> rfl

theorem eval_bind (contents : Table Text String) (staged : Staged) (script : Script ε α)
    (next : α → Script ε β) :
    (script >>= next).eval contents staged =
      match script.eval contents staged with
      | (.ok a, staged) => (next a).eval contents staged
      | (.error e, staged) => (.error e, staged) := by
  change (script.bind next).eval contents staged = _
  induction script generalizing staged with
  | done | fail => rfl
  | readThen key more ih | peekThen key more ih => exact ih _ _
  | stageThen batch more ih => exact ih _

/-- Whatever it finds, the script has staged something by its end unless it fails. -/
def Stages (script : Script ε α) : Prop :=
  ∀ contents staged a staged', script.eval contents staged = (.ok a, staged') → staged' ≠ []

theorem stages_stage {batch : List (Text × String)} (hbatch : batch ≠ []) :
    (stage batch : Script ε Unit).Stages := by
  intro contents staged a staged' h
  rw [eval_stage] at h
  cases h
  exact Listing.putAll_ne_nil hbatch staged

theorem Stages.of_bind {script : Script ε α} {next : α → Script ε β} (h : ∀ a, (next a).Stages) :
    (script >>= next).Stages := by
  intro contents staged b staged' heval
  rw [eval_bind] at heval
  rcases hfirst : script.eval contents staged with ⟨e | a, middle⟩ <;> rw [hfirst] at heval
  · cases heval
  · exact h a contents middle b staged' heval

theorem Stages.of_lift_bind {x : Except ε α} {next : α → Script ε β}
    (h : ∀ a, x = .ok a → (next a).Stages) : (liftM x >>= next).Stages := by
  intro contents staged b staged' heval
  rw [eval_bind, eval_lift] at heval
  cases x with
  | error e => cases heval
  | ok a => exact h a rfl contents staged b staged' heval

/-- What a transaction comes to on the given contents, and what it leaves there. One that takes no
locks does not find out that commands fail. -/
def outcome (contents : Table Text String) (failing : Bool) (locks : List Text)
    (script : Script ε α) : Except (Abort ε) α × Table Text String :=
  if failing = true ∧ locks ≠ [] then (.error .commandFailed, contents)
  else
    match script.eval contents [] with
    | (.ok a, staged) => (.ok a, contents.insertAll staged)
    | (.error e, _) => (.error (.raised e), contents)

end Script

namespace Database

/-- Every key is locked that was asked for, and no other one. -/
theorem mem_lockOrder {key : Text} {keys : List Text} : key ∈ lockOrder keys ↔ key ∈ keys := by
  have hfold : ∀ (keys : List Text) (t : Table Text Unit),
      key ∈ (keys.foldl (fun t k => t.insert k ()) t).keys ↔ key ∈ keys ∨ key ∈ t.keys := by
    intro keys
    induction keys with
    | nil => simp
    | cons first rest ih =>
        intro t
        rw [List.foldl_cons, ih, Table.mem_keys_insert, List.mem_cons, or_left_comm, or_assoc]
  have hempty : key ∉ (∅ : Table Text Unit).keys := List.not_mem_nil
  rw [lockOrder, hfold, or_iff_left hempty]

theorem lockOrder_eq_nil_iff (keys : List Text) : lockOrder keys = [] ↔ keys = [] := by
  simp only [List.eq_nil_iff_forall_not_mem, mem_lockOrder]

/-- If commands fail, the one for the first lock does; otherwise all locks are taken. -/
theorem lockWhere_const (failing : Bool) (db : Database) (keys : List Text) :
    ∃ journal, db.lockWhere (fun _ => failing) keys = (!failing || keys.isEmpty, { db with journal }) := by
  induction keys generalizing db with
  | nil => exact ⟨db.journal, by simp [lockWhere]⟩
  | cons key r ih =>
      cases failing with
      | true => exact ⟨(db.note (.lock key)).journal, by simp [lockWhere, note]⟩
      | false =>
          obtain ⟨journal, hrest⟩ := ih (db.note (.lock key))
          exact ⟨journal, by simpa [lockWhere, note] using hrest⟩

/-- Over a connection a script reads what it would read off the rows at once. -/
theorem perform_eq (db : Database) (staged : Staged) (script : Script ε α) :
    ∃ journal, db.perform staged script = ((script.eval db.rows staged).1,
      (script.eval db.rows staged).2, { db with journal }) := by
  induction script generalizing db staged with
  | done | fail => exact ⟨db.journal, rfl⟩
  | readThen key next ih =>
      cases hstaged : staged.lookup key with
      | some text => simpa [perform, Script.eval, hstaged] using ih (some text) db staged
      | none => simpa [perform, Script.eval, hstaged, get, note] using ih _ (db.get key).2 staged
  | peekThen key next ih => simpa [perform, Script.eval, get, note] using ih _ (db.get key).2 staged
  | stageThen batch next ih => simpa [perform, Script.eval] using ih db (Listing.putAll batch staged)

theorem transact_refused {db : Database} {locks : List Text} (script : Script ε α)
    (hfailing : db.commandsFail = true) (hlocks : locks ≠ []) :
    ∃ journal, db.transact locks script = (.error .commandFailed, { db with journal }.rollback) := by
  obtain ⟨journal, hlock⟩ := lockWhere_const db.commandsFail db (lockOrder locks)
  have hrefused : (!db.commandsFail || (lockOrder locks).isEmpty) = false := by
    simpa [lockOrder_eq_nil_iff, hlocks] using hfailing
  rw [hrefused] at hlock
  exact ⟨journal, by simp only [transact, transactWhere, hlock]⟩

theorem transact_granted {db : Database} {locks : List Text} (script : Script ε α)
    (hworks : db.commandsFail = false ∨ locks = []) :
    ∃ journal, db.transact locks script =
      match script.eval db.rows [] with
      | (.ok a, staged) => (.ok a, ({ db with journal }.upsert staged).commit)
      | (.error e, _) => (.error (.raised e), { db with journal }.rollback) := by
  obtain ⟨journal, hlock⟩ := lockWhere_const db.commandsFail db (lockOrder locks)
  have hgranted : (!db.commandsFail || (lockOrder locks).isEmpty) = true := by
    simpa [lockOrder_eq_nil_iff] using hworks
  rw [hgranted] at hlock
  obtain ⟨journal', hperform⟩ := perform_eq { db with journal } [] script
  refine ⟨journal', ?_⟩
  simp only [transact, transactWhere, hlock, hperform]
  rcases script.eval db.rows [] with ⟨result, staged⟩
  cases result <;> rfl

end Database

namespace Store

/-- Whether the commands of the store fail, which memory has none of. -/
def commandsFail : Store → Bool
  | .memory _ => false
  | .database db => db.commandsFail

/-- What was sent to the store and is not committed. -/
def pending : Store → Staged
  | .memory _ => []
  | .database db => db.pending

/-- `t` holds what `s` holds, its commands fail just as those of `s` do, and it has nothing pending that
`s` has not. Only their journals may tell them apart. -/
structure Alike (s t : Store) : Prop where
  contents : t.contents = s.contents
  commandsFail : t.commandsFail = s.commandsFail
  pending : t.pending ⊆ s.pending

theorem Alike.refl (s : Store) : s.Alike s := ⟨rfl, rfl, List.Subset.refl _⟩

theorem Alike.trans {s t u : Store} (h : s.Alike t) (h' : t.Alike u) : s.Alike u :=
  ⟨h'.contents.trans h.contents, h'.commandsFail.trans h.commandsFail,
    List.Subset.trans h'.pending h.pending⟩

theorem get_fst (s : Store) (key : Text) : (s.get key).1 = s.contents.get? key := by
  cases s <;> rfl

theorem get_alike (s : Store) (key : Text) : s.Alike (s.get key).2 := by
  cases s <;> exact ⟨rfl, rfl, List.Subset.refl _⟩

theorem get_congr {s t : Store} (h : s.Alike t) (key : Text) :
    (s.get key).2.Alike (t.get key).2 := by
  have hback : (s.get key).2.Alike s := by cases s <;> exact ⟨rfl, rfl, List.Subset.refl _⟩
  exact hback.trans (h.trans (get_alike t key))

/-- A store between two transactions, by what it holds and whether its commands fail. -/
structure Settled (s : Store) (contents : Table Text String) (failing : Bool) : Prop where
  contents : s.contents = contents
  commandsFail : s.commandsFail = failing
  pending : s.pending = []

theorem Settled.alike {s t : Store} (h : t.Settled s.contents s.commandsFail) : s.Alike t :=
  ⟨h.contents, h.commandsFail, h.pending ▸ List.nil_subset _⟩

theorem Settled.alike_of_eq {s t : Store} {contents contents' : Table Text String}
    {failing failing' : Bool} (hs : s.Settled contents failing) (ht : t.Settled contents' failing')
    (hcontents : contents' = contents) (hfailing : failing' = failing) : s.Alike t :=
  Settled.alike ⟨by rw [ht.contents, hs.contents, hcontents],
    by rw [ht.commandsFail, hs.commandsFail, hfailing], ht.pending⟩

variable {s t : Store} {locks : List Text} {script : Script ε α}

theorem transact_of_commandsFail (script : Script ε α) (hfailing : s.commandsFail = true) (hlocks : locks ≠ []) :
    (s.transact locks script).1 = .error .commandFailed ∧
      (s.transact locks script).2.Settled s.contents s.commandsFail := by
  cases s with
  | memory entries => cases hfailing
  | database db =>
      obtain ⟨journal, hrefused⟩ := Database.transact_refused script hfailing hlocks
      simp only [transact, hrefused]
      exact ⟨trivial, rfl, rfl, rfl⟩

theorem transact_raised (hworks : s.commandsFail = false ∨ locks = []) {e : ε} {staged : Staged}
    (heval : script.eval s.contents [] = (.error e, staged)) :
    (s.transact locks script).1 = .error (.raised e) ∧
      (s.transact locks script).2.Settled s.contents s.commandsFail := by
  cases s with
  | memory entries =>
      change script.eval entries [] = _ at heval
      simp only [transact, heval]
      exact ⟨trivial, rfl, rfl, rfl⟩
  | database db =>
      change script.eval db.rows [] = _ at heval
      obtain ⟨journal, hgranted⟩ := Database.transact_granted script hworks
      simp only [transact, hgranted, heval]
      exact ⟨trivial, rfl, rfl, rfl⟩

/-- What is committed is what was staged, unless nothing was and rows of others were pending. -/
theorem transact_committed (hworks : s.commandsFail = false ∨ locks = []) {a : α} {staged : Staged}
    (heval : script.eval s.contents [] = (.ok a, staged))
    (hstaged : staged ≠ [] ∨ s.pending = []) :
    (s.transact locks script).1 = .ok a ∧
      (s.transact locks script).2.Settled (s.contents.insertAll staged) s.commandsFail := by
  cases s with
  | memory entries =>
      change script.eval entries [] = _ at heval
      simp only [transact, heval]
      exact ⟨trivial, rfl, rfl, rfl⟩
  | database db =>
      change script.eval db.rows [] = _ at heval
      obtain ⟨journal, hgranted⟩ := Database.transact_granted script hworks
      simp only [transact, hgranted, heval]
      cases staged with
      | nil =>
          have hnone : db.pending = [] := hstaged.resolve_left (not_not.mpr rfl)
          refine ⟨trivial, ?_, rfl, rfl⟩
          change db.rows.insertAll db.pending = _
          rw [hnone]
          rfl
      | cons row rest => exact ⟨trivial, rfl, rfl, rfl⟩

/-- A transaction goes through as its script does. -/
theorem eval_of_transact_ok {a : α} (h : (s.transact locks script).1 = .ok a) :
    ∃ staged, script.eval s.contents [] = (.ok a, staged) := by
  by_cases hworks : s.commandsFail = false ∨ locks = []
  · rcases heval : script.eval s.contents [] with ⟨e | a', staged⟩
    · rw [(transact_raised hworks heval).1] at h
      cases h
    · refine ⟨staged, ?_⟩
      cases s with
      | memory entries =>
          change script.eval entries [] = _ at heval
          rw [transact, heval] at h
          cases h
          rfl
      | database db =>
          change script.eval db.rows [] = _ at heval
          obtain ⟨journal, hgranted⟩ := Database.transact_granted script hworks
          simp only [transact, hgranted, heval] at h
          cases h
          rfl
  · rw [not_or, Bool.not_eq_false] at hworks
    rw [(transact_of_commandsFail script hworks.1 hworks.2).1] at h
    cases h

/-- **A failed transaction leaves the store as it was.** -/
theorem transact_alike_of_error {abort : Abort ε} (hstages : script.Stages)
    (h : (s.transact locks script).1 = .error abort) : s.Alike (s.transact locks script).2 := by
  by_cases hworks : s.commandsFail = false ∨ locks = []
  · rcases heval : script.eval s.contents [] with ⟨result, staged⟩
    cases result with
    | error e => exact (transact_raised hworks heval).2.alike
    | ok a =>
        rw [(transact_committed hworks heval (.inl (hstages _ _ _ _ heval))).1] at h
        cases h
  · rw [not_or, Bool.not_eq_false] at hworks
    exact (transact_of_commandsFail script hworks.1 hworks.2).2.alike

/-- Stores that hold the same answer a transaction alike and hold the same afterwards. -/
theorem transact_congr (locks : List Text) (h : s.Alike t) (hstages : script.Stages) :
    (t.transact locks script).1 = (s.transact locks script).1 ∧
      (s.transact locks script).2.Alike (t.transact locks script).2 := by
  have heval' : script.eval t.contents [] = script.eval s.contents [] := by rw [h.contents]
  by_cases hworks : s.commandsFail = false ∨ locks = []
  · have hworks' : t.commandsFail = false ∨ locks = [] := by rwa [h.commandsFail]
    rcases heval : script.eval s.contents [] with ⟨result, staged⟩
    rw [heval] at heval'
    cases result with
    | error e =>
        obtain ⟨hs, hsettled⟩ := transact_raised hworks heval
        obtain ⟨ht, htsettled⟩ := transact_raised hworks' heval'
        exact ⟨ht.trans hs.symm, hsettled.alike_of_eq htsettled h.contents h.commandsFail⟩
    | ok a =>
        have hstaged := hstages _ _ _ _ heval
        obtain ⟨hs, hsettled⟩ := transact_committed hworks heval (.inl hstaged)
        obtain ⟨ht, htsettled⟩ := transact_committed hworks' heval' (.inl hstaged)
        refine ⟨ht.trans hs.symm, hsettled.alike_of_eq htsettled ?_ h.commandsFail⟩
        rw [h.contents]
  · rw [not_or, Bool.not_eq_false] at hworks
    have hfailing' : t.commandsFail = true := h.commandsFail.trans hworks.1
    obtain ⟨hs, hsettled⟩ := transact_of_commandsFail script hworks.1 hworks.2
    obtain ⟨ht, htsettled⟩ := transact_of_commandsFail script hfailing' hworks.2
    exact ⟨ht.trans hs.symm, hsettled.alike_of_eq htsettled h.contents h.commandsFail⟩

theorem Settled.get {contents : Table Text String} {failing : Bool} (h : s.Settled contents failing)
    (key : Text) : (s.get key).2.Settled contents failing := by
  cases s <;> exact ⟨h.contents, h.commandsFail, h.pending⟩

/-- **Between transactions a store is no more than what it holds.** Where that is, and what is in its
journal, neither the answer to the next transaction nor what is held then depends on. -/
theorem Settled.transact {contents : Table Text String} {failing : Bool}
    (h : s.Settled contents failing) (locks : List Text) (script : Script ε α) :
    (s.transact locks script).1 = (script.outcome contents failing locks).1 ∧
      (s.transact locks script).2.Settled (script.outcome contents failing locks).2 failing := by
  obtain ⟨rfl, rfl, hpending⟩ := h
  by_cases hworks : s.commandsFail = false ∨ locks = []
  · have houtcome : ¬ (s.commandsFail = true ∧ locks ≠ []) := by
      rwa [not_and_or, Bool.not_eq_true, not_not]
    rw [Script.outcome, if_neg houtcome]
    rcases heval : script.eval s.contents [] with ⟨e | a, staged⟩
    · exact transact_raised hworks heval
    · exact transact_committed hworks heval (.inr hpending)
  · rw [not_or, Bool.not_eq_false] at hworks
    rw [Script.outcome, if_pos hworks]
    exact transact_of_commandsFail script hworks.1 hworks.2

end Store

end Coinage
