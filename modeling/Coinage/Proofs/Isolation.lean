import Coinage.Proofs.Session

/-! What a transaction sees and what it leaves. A script may take many courses; it takes the one in
which every read finds what was last assigned to its key, and every look from outside finds what was
committed before. If that course ends well, every key that was assigned to holds what was last assigned
to it, and all others are as they were. Otherwise nothing has happened. In how many batches the
assignments were made does not matter. -/

namespace Coinage

variable {ε α : Type}

/-! ### The last one of several values for a key -/

namespace Listing

variable {κ γ : Type} [BEq κ]

/-- The value that a key was given last. -/
def latest? (k : κ) (es : List (κ × γ)) : Option γ := es.reverse.lookup k

theorem latest?_append (k : κ) (es es' : List (κ × γ)) :
    latest? k (es ++ es') = (latest? k es').or (latest? k es) := by
  rw [latest?, List.reverse_append, List.lookup_append]
  rfl

theorem latest?_cons (k : κ) (e : κ × γ) (es : List (κ × γ)) :
    latest? k (e :: es) = (latest? k es).or (if k == e.1 then some e.2 else none) := by
  rw [← List.singleton_append, latest?_append]
  congr 1
  change (match k == e.1 with | true => some e.2 | false => none) = _
  cases k == e.1 <;> rfl

variable [LawfulBEq κ]

theorem latest?_eq_none_iff {k : κ} {es : List (κ × γ)} :
    latest? k es = none ↔ k ∉ es.map Prod.fst := by
  rw [latest?, List.lookup_eq_none_iff]
  constructor
  · intro h hmem
    obtain ⟨e, he, rfl⟩ := List.mem_map.mp hmem
    exact bne_iff_ne.mp (h e (List.mem_reverse.mpr he)) rfl
  · intro h e he
    rw [bne_iff_ne]
    rintro rfl
    exact h (List.mem_map_of_mem (List.mem_reverse.mp he))

theorem lookup_putAll (k : κ) (es listing : List (κ × γ)) :
    (putAll es listing).lookup k = (latest? k es).or (listing.lookup k) := by
  induction es generalizing listing with
  | nil => rfl
  | cons e r ih =>
      change (putAll r (put e.1 e.2 listing)).lookup k = _
      rw [ih, lookup_put, latest?_cons, Option.or_assoc]
      congr 1
      split <;> rfl

theorem mem_keys_put {k k' : κ} {a : γ} {listing : List (κ × γ)} :
    k' ∈ (put k a listing).map Prod.fst ↔ k' = k ∨ k' ∈ listing.map Prod.fst := by
  induction listing with
  | nil => simp [put]
  | cons e r ih =>
      by_cases h : k = e.1
      · simp [put, h]
      · simp only [put, beq_false_of_ne h, Bool.false_eq_true, if_false, List.map_cons,
          List.mem_cons, ih]
        exact or_left_comm

theorem nodup_put {listing : List (κ × γ)} (h : (listing.map Prod.fst).Nodup) (k : κ) (a : γ) :
    ((put k a listing).map Prod.fst).Nodup := by
  induction listing with
  | nil => simp [put]
  | cons e r ih =>
      obtain ⟨hfirst, hrest⟩ := List.nodup_cons.mp h
      by_cases hk : k = e.1
      · simpa [put, hk] using h
      · simp only [put, beq_false_of_ne hk, Bool.false_eq_true, if_false, List.map_cons,
          List.nodup_cons, mem_keys_put, not_or]
        exact ⟨⟨Ne.symm hk, hfirst⟩, ih hrest⟩

theorem nodup_putAll {listing : List (κ × γ)} (h : (listing.map Prod.fst).Nodup)
    (es : List (κ × γ)) : ((putAll es listing).map Prod.fst).Nodup := by
  induction es generalizing listing with
  | nil => exact h
  | cons e r ih => exact ih (nodup_put h e.1 e.2)

/-- Where no key comes twice, its only value is also its latest one. -/
theorem latest?_of_nodup {es : List (κ × γ)} (h : (es.map Prod.fst).Nodup) (k : κ) :
    latest? k es = es.lookup k := by
  induction es with
  | nil => rfl
  | cons e r ih =>
      obtain ⟨hfirst, hrest⟩ := List.nodup_cons.mp h
      rw [latest?_cons, ih hrest, List.lookup_cons]
      cases hk : k == e.1 with
      | false => simp
      | true =>
          have hnone : r.lookup k = none := by
            rw [← ih hrest, latest?_eq_none_iff, beq_iff_eq.mp hk]
            exact hfirst
          simp [hnone]

end Listing

namespace Table

open Listing

variable {κ γ : Type} [Ord κ] [Std.TransOrd κ] [Std.LawfulEqOrd κ] [DecidableEq κ]

theorem get?_insertAll (t : Table κ γ) (es : List (κ × γ)) (k : κ) :
    (t.insertAll es).get? k = (latest? k es).or (t.get? k) := by
  induction es generalizing t with
  | nil => rfl
  | cons e r ih =>
      rw [insertAll_cons, ih, get?_insert, latest?_cons, Option.or_assoc]
      congr 1
      by_cases h : k = e.1 <;> simp [h]

end Table

namespace Script

open Listing

/-- What is done inside a transaction, with what was found. -/
inductive Event where
  | read (key : Text) (found : Option String)
  | peek (key : Text) (found : Option String)
  | stage (batch : List (Text × String))

def Event.assignments : Event → List (Text × String)
  | .read .. | .peek .. => []
  | .stage batch => batch

/-- All that was assigned, in order. -/
def assigned (events : List Event) : List (Text × String) := events.flatMap Event.assignments

/-- The script can do the events, one after the other, and go on as the second script. -/
inductive Leads : List Event → Script ε α → Script ε α → Prop
  | nil (script : Script ε α) : Leads [] script script
  | read {key : Text} {found : Option String} {next : Option String → Script ε α}
      {events : List Event} {rest : Script ε α} (h : Leads events (next found) rest) :
      Leads (.read key found :: events) (.readThen key next) rest
  | peek {key : Text} {found : Option String} {next : Option String → Script ε α}
      {events : List Event} {rest : Script ε α} (h : Leads events (next found) rest) :
      Leads (.peek key found :: events) (.peekThen key next) rest
  | stage {batch : List (Text × String)} {next : Script ε α} {events : List Event}
      {rest : Script ε α} (h : Leads events next rest) :
      Leads (.stage batch :: events) (.stageThen batch next) rest

/-- What an event has found is what there is to be found after the assignments: inside, what was
assigned last, or else what was there; outside, what was there. -/
def Event.Finds (contents : Table Text String) (assignments : List (Text × String)) : Event → Prop
  | .read key found => found = (latest? key assignments).or (contents.get? key)
  | .peek key found => found = contents.get? key
  | .stage _ => True

instance (contents : Table Text String) (assignments : List (Text × String)) (event : Event) :
    Decidable (event.Finds contents assignments) :=
  match event with
  | .read .. | .peek .. => inferInstanceAs (Decidable (_ = _))
  | .stage _ => .isTrue trivial

/-- Every event has found what there was to be found when it came. -/
def Faithful (contents : Table Text String) (events : List Event) : Prop :=
  ∀ before event after, events = before ++ event :: after → event.Finds contents (assigned before)

variable {contents : Table Text String}

theorem assigned_concat (events : List Event) (event : Event) :
    assigned (events ++ [event]) = assigned events ++ event.assignments := by
  simp [assigned]

theorem faithful_nil (contents : Table Text String) : Faithful contents [] := by
  intro before event after h
  simp at h

/-- One more event. -/
theorem Faithful.concat {events : List Event} (h : Faithful contents events) (event : Event)
    (hevent : event.Finds contents (assigned events)) : Faithful contents (events ++ [event]) := by
  intro before event' after heq
  rcases List.eq_nil_or_concat after with rfl | ⟨after', last, rfl⟩
  · obtain ⟨rfl, hlast⟩ := List.append_inj' heq rfl
    rw [← List.singleton_inj.mp hlast]
    exact hevent
  · rw [List.concat_eq_append, ← List.cons_append, ← List.append_assoc] at heq
    exact h before event' after' (List.append_inj' heq rfl).1

/-- What a transaction has staged after some events. -/
def stagedBy (events : List Event) : Staged := putAll (assigned events) []

theorem stagedBy_concat (events : List Event) (event : Event) :
    stagedBy (events ++ [event]) = putAll event.assignments (stagedBy events) := by
  rw [stagedBy, assigned_concat, putAll, List.foldl_append]
  rfl

theorem lookup_stagedBy (events : List Event) (key : Text) :
    (stagedBy events).lookup key = latest? key (assigned events) := by
  rw [stagedBy, lookup_putAll]
  exact Option.or_none

/-- Committing what was staged is assigning all that was assigned. -/
theorem get?_insertAll_stagedBy (contents : Table Text String) (events : List Event) (key : Text) :
    (contents.insertAll (stagedBy events)).get? key =
      (latest? key (assigned events)).or (contents.get? key) := by
  have hempty : (([] : Staged).map Prod.fst).Nodup := List.nodup_nil
  have hnodup : ((stagedBy events).map Prod.fst).Nodup := nodup_putAll hempty _
  rw [Table.get?_insertAll, latest?_of_nodup hnodup, lookup_stagedBy]

/-- A script has got where a faithful course leads, and has staged what was assigned on the way. -/
theorem eval_of_leads {events : List Event} {script rest : Script ε α} (h : Leads events script rest)
    (before : List Event) (hfaithful : Faithful contents (before ++ events)) :
    script.eval contents (stagedBy before) = rest.eval contents (stagedBy (before ++ events)) := by
  induction h generalizing before with
  | nil script => rw [List.append_nil]
  | @read key found next events rest _ ih =>
      have hfound : found = _ := hfaithful before (.read key found) events rfl
      rw [List.append_cons] at hfaithful ⊢
      rw [← ih _ hfaithful, stagedBy_concat, eval, lookup_stagedBy, ← hfound]
      rfl
  | @peek key found next events rest _ ih =>
      have hfound : found = _ := hfaithful before (.peek key found) events rfl
      rw [List.append_cons] at hfaithful ⊢
      rw [← ih _ hfaithful, stagedBy_concat, eval, ← hfound]
      rfl
  | @stage batch next events rest _ ih =>
      rw [List.append_cons] at hfaithful ⊢
      rw [← ih _ hfaithful, stagedBy_concat, eval]
      rfl

/-- The script is at its end. -/
inductive IsEnd : Script ε α → Prop
  | done (a : α) : IsEnd (.done a)
  | fail (fault : ε) : IsEnd (.fail fault)

/-- Whatever has happened before, a faithful course leads a script on to an end. -/
theorem exists_leads (script : Script ε α) (before : List Event) (h : Faithful contents before) :
    ∃ events rest, Faithful contents (before ++ events) ∧ Leads events script rest ∧ rest.IsEnd := by
  induction script generalizing before with
  | done a => exact ⟨[], _, (List.append_nil before).symm ▸ h, .nil _, .done a⟩
  | fail fault => exact ⟨[], _, (List.append_nil before).symm ▸ h, .nil _, .fail fault⟩
  | readThen key next ih =>
      let found := (latest? key (assigned before)).or (contents.get? key)
      have hread : Faithful contents (before ++ [.read key found]) := h.concat _ rfl
      obtain ⟨events, rest, hfaithful, hleads, hend⟩ := ih found _ hread
      rw [List.append_assoc] at hfaithful
      exact ⟨_, rest, hfaithful, .read hleads, hend⟩
  | peekThen key next ih =>
      have hpeek : Faithful contents (before ++ [.peek key (contents.get? key)]) := h.concat _ rfl
      obtain ⟨events, rest, hfaithful, hleads, hend⟩ := ih _ _ hpeek
      rw [List.append_assoc] at hfaithful
      exact ⟨_, rest, hfaithful, .peek hleads, hend⟩
  | stageThen batch next ih =>
      have hstage : Faithful contents (before ++ [.stage batch]) := h.concat _ trivial
      obtain ⟨events, rest, hfaithful, hleads, hend⟩ := ih _ hstage
      rw [List.append_assoc] at hfaithful
      exact ⟨_, rest, hfaithful, .stage hleads, hend⟩

/-! ### Steps that are spelled out -/

/-- An event that the step may turn out to be. -/
inductive Event.IsOf : Event → Step → Prop
  | read (key : Text) (found : Option String) : IsOf (.read key found) (.get key)
  | peek (key : Text) (found : Option String) : IsOf (.peek key found) (.peek key)
  | stage (batch : List (Text × String)) : IsOf (.stage batch) (.write batch)

/-- What the reads among the events have found. -/
def answers (events : List Event) : List (Option String) :=
  events.filterMap fun
    | .read _ found | .peek _ found => some found
    | .stage _ => none

theorem Leads.bind {β : Type} {events : List Event} {script rest : Script ε α}
    (h : Leads events script rest) (next : α → Script ε β) :
    Leads events (script.bind next) (rest.bind next) := by
  induction h with
  | nil script => exact .nil _
  | read _ ih => exact .read ih
  | peek _ ih => exact .peek ih
  | stage _ ih => exact .stage ih

/-- Steps lead to what the reads among them have found. -/
theorem leads_ofSteps {events : List Event} {steps : List Step}
    (h : List.Forall₂ Event.IsOf events steps) :
    Leads events (ofSteps steps) (.done (answers events)) := by
  induction h with
  | nil => exact .nil _
  | cons hevent _ ih =>
      cases hevent with
      | read key found => exact .read (ih.bind _)
      | peek key found => exact .peek (ih.bind _)
      | stage batch => exact .stage ih

/-- Steps before an abort lead to its reason. -/
theorem leads_ofSteps_abort {events : List Event} {steps : List Step}
    (h : List.Forall₂ Event.IsOf events steps) (reason : String) (later : List Step) :
    Leads events (ofSteps (steps ++ .abort reason :: later)) (.fail reason) := by
  induction h with
  | nil => exact .nil _
  | cons hevent _ ih =>
      cases hevent with
      | read key found => exact .read (ih.bind _)
      | peek key found => exact .peek (ih.bind _)
      | stage batch => exact .stage ih

/-! ### Batches -/

/-- The same script with every row staged in a batch of its own. -/
def singly : Script ε α → Script ε α
  | .done a => .done a
  | .fail fault => .fail fault
  | .readThen key next => .readThen key fun found => (next found).singly
  | .peekThen key next => .peekThen key fun found => (next found).singly
  | .stageThen batch next => batch.foldr (fun row rest => .stageThen [row] rest) next.singly

theorem eval_stage_singly (staged : Staged) (batch : List (Text × String)) (next : Script ε α) :
    (batch.foldr (fun row rest => .stageThen [row] rest) next).eval contents staged =
      next.eval contents (putAll batch staged) := by
  induction batch generalizing staged with
  | nil => rfl
  | cons row r ih => exact ih (putAll [row] staged)

theorem eval_singly (staged : Staged) (script : Script ε α) :
    script.singly.eval contents staged = script.eval contents staged := by
  induction script generalizing staged with
  | done | fail => rfl
  | readThen key next ih | peekThen key next ih => exact ih _ _
  | stageThen batch next ih => exact (eval_stage_singly staged batch _).trans (ih _)

/-- A batch may be cut in two anywhere. -/
theorem singly_append (batch batch' : List (Text × String)) (next : Script ε α) :
    (Script.stageThen (batch ++ batch') next).singly =
      (Script.stageThen batch (.stageThen batch' next)).singly :=
  List.foldr_append

end Script

open Script Listing

namespace Database

theorem perform_stage_singly (db : Database) (staged : Staged) (batch : List (Text × String))
    (next : Script ε α) :
    db.perform staged (batch.foldr (fun row rest => .stageThen [row] rest) next) =
      db.perform (putAll batch staged) next := by
  induction batch generalizing staged with
  | nil => rfl
  | cons row r ih => exact ih (putAll [row] staged)

theorem perform_singly (db : Database) (staged : Staged) (script : Script ε α) :
    db.perform staged script.singly = db.perform staged script := by
  induction script generalizing db staged with
  | done | fail => rfl
  | readThen key next ih =>
      rw [singly, perform, perform]
      cases staged.lookup key with
      | some text => exact ih _ db staged
      | none => exact ih _ _ staged
  | peekThen key next ih => exact ih _ _ staged
  | stageThen batch next ih => exact (perform_stage_singly db staged batch _).trans (ih db _)

end Database

namespace Store

/-- In how many batches rows are staged does not show, not even in a journal. -/
theorem transact_singly (s : Store) (locks : List Text) (script : Script ε α) :
    s.transact locks script.singly = s.transact locks script := by
  cases s with
  | memory entries => rw [transact, transact, eval_singly]
  | database db =>
      simp only [transact, Database.transact, Database.transactWhere]
      split
      · rfl
      · simp only [Database.perform_singly]

variable {s : Store} {contents : Table Text String} {failing : Bool}

/-- A failed transaction cannot be told from one that was never opened, whatever is done next. -/
theorem Settled.session_of_error {abort : Abort ε} {locks : List Text} {script : Script ε α}
    (hs : s.Settled contents failing) (h : (s.transact locks script).1 = .error abort) :
    (s.transact locks script).2.Settled contents failing ∧
      ∀ {ε' α' : Type} (ledger : Ledger) (log : List Log.Record) (asked : List (List Text))
        (turns : List (Turn ε' α')),
        Registry.session ⟨(s.transact locks script).2, ledger, log, asked⟩ turns =
          Registry.session ⟨s, ledger, log, asked⟩ turns := by
  have hafter : (s.transact locks script).2.Settled contents failing := by
    obtain ⟨hresult, hsettled⟩ := hs.transact locks script
    rw [h, outcome] at hresult
    rw [outcome] at hsettled
    split at hsettled
    · exact hsettled
    · next hworks =>
        rw [if_neg hworks] at hresult
        rcases heval : script.eval contents [] with ⟨fault | a, staged⟩ <;>
          rw [heval] at hresult hsettled
        · exact hsettled
        · cases hresult
  refine ⟨hafter, fun ledger log asked turns => ?_⟩
  have hmirrors : Registry.Mirrors ⟨s, ledger, log, asked⟩
      ⟨(s.transact locks script).2, ledger, log, asked⟩ :=
    ⟨⟨contents, failing, hs, hafter⟩, rfl, rfl, rfl⟩
  exact hmirrors.session turns

theorem Settled.works_of_ok (hs : s.Settled contents failing) {locks : List Text}
    {script : Script ε α} {a : α} (h : (s.transact locks script).1 = .ok a) :
    failing = false ∨ locks = [] := by
  by_contra hnot
  have hcut : failing = true ∧ locks ≠ [] := by
    rwa [not_or, Bool.not_eq_false] at hnot
  rw [(hs.transact locks script).1, outcome, if_pos hcut] at h
  cases h

/-- What a transaction comes to that gets through to the store, by the course that it takes. -/
theorem Settled.transact_of_leads (hs : s.Settled contents failing) {locks : List Text}
    (hworks : failing = false ∨ locks = []) {script rest : Script ε α} {events : List Script.Event}
    (hfaithful : Faithful contents events) (hleads : Leads events script rest) :
    (∀ a, rest = .done a → (s.transact locks script).1 = .ok a ∧
      ∀ key, (s.transact locks script).2.contents.get? key =
        (latest? key (assigned events)).or (contents.get? key)) ∧
      ∀ fault, rest = .fail fault → (s.transact locks script).1 = .error (.raised fault) := by
  obtain ⟨hresult, hsettled⟩ := hs.transact locks script
  have hnot : ¬ (failing = true ∧ locks ≠ []) := by
    rwa [not_and_or, Bool.not_eq_true, not_not]
  have heval : script.eval contents [] = rest.eval contents (stagedBy events) :=
    eval_of_leads hleads [] hfaithful
  rw [outcome, if_neg hnot, heval] at hresult hsettled
  constructor
  · rintro a rfl
    refine ⟨hresult, fun key => ?_⟩
    rw [hsettled.contents]
    exact get?_insertAll_stagedBy contents events key
  · rintro fault rfl
    exact hresult

/-- **A transaction sees its own writes and the contents as they were, and leaves all or nothing.**
Every script has a course on which it finds what it should, to its end. If that is a good one, what is
committed is, for every key, what was last assigned to it, and otherwise what was there before. If the
script fails, or the locks cannot be asked for, all is as if the transaction had never been opened. How
the assignments are cut into batches makes no difference. -/
theorem transact_isolated_and_atomic (hs : s.Settled contents failing) (locks : List Text)
    (script : Script ε α) :
    (∃ events rest, Faithful contents events ∧ Leads events script rest ∧ rest.IsEnd) ∧
      (∀ events, Faithful contents events → failing = false ∨ locks = [] →
        (∀ a, Leads events script (.done a) →
          (s.transact locks script).1 = .ok a ∧
            ∀ key, (s.transact locks script).2.contents.get? key =
              (latest? key (assigned events)).or (contents.get? key)) ∧
          ∀ fault, Leads events script (.fail fault) →
            (s.transact locks script).1 = .error (.raised fault)) ∧
      (failing = true → locks ≠ [] → (s.transact locks script).1 = .error .commandFailed) ∧
      (∀ abort, (s.transact locks script).1 = .error abort →
        (s.transact locks script).2.contents = contents ∧
          ∀ {ε' α' : Type} (ledger : Ledger) (log : List Log.Record) (asked : List (List Text))
            (turns : List (Turn ε' α')),
            Registry.session ⟨(s.transact locks script).2, ledger, log, asked⟩ turns =
              Registry.session ⟨s, ledger, log, asked⟩ turns) ∧
      ∀ script' : Script ε α, script.singly = script'.singly →
        s.transact locks script = s.transact locks script' := by
  refine ⟨?_, ?_, ?_, ?_, ?_⟩
  · exact exists_leads script [] (faithful_nil contents)
  · intro events hfaithful hworks
    exact ⟨fun a hleads => (hs.transact_of_leads hworks hfaithful hleads).1 a rfl,
      fun fault hleads => (hs.transact_of_leads hworks hfaithful hleads).2 fault rfl⟩
  · intro hfailing hlocks
    rw [(hs.transact locks script).1, outcome, if_pos ⟨hfailing, hlocks⟩]
  · intro abort habort
    obtain ⟨hafter, hsession⟩ := hs.session_of_error habort
    exact ⟨hafter.contents, hsession⟩
  · intro script' hsame
    rw [← transact_singly s locks script, hsame, transact_singly]

/-- Two keys, of which the first one is only read below. -/
def ninety : Table Text String := .ofList [("i", "90"), ("k", "0")]

/-- A key is written to four times in three batches, and another one in between. -/
def revision : List Step :=
  [.write [("k", "1"), ("k", "2")], .get "k", .peek "k", .write [("j", "3"), ("k", "4")],
    .write [("k", "5")], .get "k", .peek "j", .get "i"]

def revisionCourse : List Script.Event :=
  [.stage [("k", "1"), ("k", "2")], .read "k" (some "2"), .peek "k" (some "0"),
    .stage [("j", "3"), ("k", "4")], .stage [("k", "5")], .read "k" (some "5"), .peek "j" none,
    .read "i" (some "90")]

theorem isOf_revisionCourse : List.Forall₂ Event.IsOf revisionCourse revision :=
  .cons (.stage _) <| .cons (.read _ _) <| .cons (.peek _ _) <| .cons (.stage _) <|
    .cons (.stage _) <| .cons (.read _ _) <| .cons (.peek _ _) <| .cons (.read _ _) .nil

theorem faithful_revisionCourse : Faithful ninety revisionCourse := by
  have hstart := faithful_nil ninety
  have h₁ := hstart.concat (.stage [("k", "1"), ("k", "2")]) (by decide +kernel)
  have h₂ := h₁.concat (.read "k" (some "2")) (by decide +kernel)
  have h₃ := h₂.concat (.peek "k" (some "0")) (by decide +kernel)
  have h₄ := h₃.concat (.stage [("j", "3"), ("k", "4")]) (by decide +kernel)
  have h₅ := h₄.concat (.stage [("k", "5")]) (by decide +kernel)
  have h₆ := h₅.concat (.read "k" (some "5")) (by decide +kernel)
  have h₇ := h₆.concat (.peek "j" none) (by decide +kernel)
  exact h₇.concat (.read "i" (some "90")) (by decide +kernel)

/-- The first batch in two pieces. -/
def revisionInPieces : List Step := .write [("k", "1")] :: .write [("k", "2")] :: revision.tail

theorem revision_isolated_and_atomic :
    ((Store.database (.ofRows ninety)).transact ["k"] (ofSteps revision)).1 =
        .ok [some "2", some "0", some "5", none, some "90"] ∧
      ((Store.database (.ofRows ninety)).transact ["k"] (ofSteps revision)).2.contents.get? "k" =
        some "5" ∧
      (Store.database (.ofRows ninety)).transact ["k"] (ofSteps revision) =
        (Store.database (.ofRows ninety)).transact ["k"] (ofSteps revisionInPieces) ∧
      ((Store.database (.ofRows ninety)).transact ["k"]
        (ofSteps (revision ++ [.abort "no"]))).2.contents = ninety := by
  have hsettled : (Store.database (.ofRows ninety)).Settled ninety false := ⟨rfl, rfl, rfl⟩
  have hgood := transact_isolated_and_atomic hsettled ["k"] (ofSteps revision)
  obtain ⟨hresult, hcommitted⟩ := (hgood.2.1 revisionCourse faithful_revisionCourse (.inl rfl)).1 _
    (leads_ofSteps isOf_revisionCourse)
  have hbad := transact_isolated_and_atomic hsettled ["k"] (ofSteps (revision ++ [.abort "no"]))
  have hraised := (hbad.2.1 revisionCourse faithful_revisionCourse (.inl rfl)).2 "no"
    (leads_ofSteps_abort isOf_revisionCourse "no" [])
  refine ⟨hresult, ?_, hgood.2.2.2.2 (ofSteps revisionInPieces) ?_, (hbad.2.2.2.1 _ hraised).1⟩
  · rw [hcommitted]
    decide +kernel
  · exact singly_append [("k", "1")] [("k", "2")] (ofSteps revision.tail)

end Store

end Coinage
