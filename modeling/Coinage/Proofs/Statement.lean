import Coinage.Proofs.Isolation
import Coinage.Proofs.Locking

/-! What a transaction sends to the database. First it asks for its locks, then it reads what it has
not staged itself, and in the end either all that is staged goes out in one batch and is committed, or
all is rolled back. Nothing else is sent, and nothing in another order. -/

namespace Coinage

variable {ε α : Type}

/-! ### What is staged in the end -/

namespace Listing

variable {κ γ : Type} [BEq κ] [LawfulBEq κ]

/-- A key that is there stays at its place. -/
theorem keys_put_of_mem {k : κ} {listing : List (κ × γ)} (h : k ∈ listing.map Prod.fst) (a : γ) :
    (put k a listing).map Prod.fst = listing.map Prod.fst := by
  induction listing with
  | nil => cases h
  | cons e r ih =>
      by_cases hk : k = e.1
      · simp [put, hk]
      · have hrest : k ∈ r.map Prod.fst := List.mem_of_ne_of_mem hk h
        simp [put, hk, ih hrest]

/-- A new key comes after the others. -/
theorem keys_put_of_notMem {k : κ} {listing : List (κ × γ)} (h : k ∉ listing.map Prod.fst) (a : γ) :
    (put k a listing).map Prod.fst = listing.map Prod.fst ++ [k] := by
  induction listing with
  | nil => rfl
  | cons e r ih =>
      rw [List.map_cons, List.mem_cons, not_or] at h
      simp [put, h.1, ih h.2]

/-- The rows are those of the keys that were assigned to, each one once and in the order in which they
first were, with what was assigned last. -/
structure Gathers (rows assignments : List (κ × γ)) : Prop where
  keys : rows.map Prod.fst = (assignments.map Prod.fst).eraseDups
  nodup : (rows.map Prod.fst).Nodup
  latest : ∀ row ∈ rows, latest? row.1 assignments = some row.2

theorem keys_putAll_nil (es : List (κ × γ)) :
    (putAll es []).map Prod.fst = (es.map Prod.fst).eraseDups := by
  induction es using List.reverseRecOn with
  | nil => rfl
  | append_singleton es e ih =>
      have hlast : putAll (es ++ [e]) [] = put e.1 e.2 (putAll es []) := by
        rw [putAll, List.foldl_append]
        rfl
      rw [hlast, List.map_append, List.eraseDups_append, ← ih]
      by_cases hfound : e.1 ∈ es.map Prod.fst
      · have hthere : e.1 ∈ (putAll es []).map Prod.fst := by rwa [ih, List.mem_eraseDups]
        have hnothing : ([e].map Prod.fst).removeAll (es.map Prod.fst) = [] := by
          simpa [List.removeAll] using hfound
        rw [keys_put_of_mem hthere, hnothing, List.eraseDups_nil, List.append_nil]
      · have hnew : e.1 ∉ (putAll es []).map Prod.fst := by rwa [ih, List.mem_eraseDups]
        have hone : ([e].map Prod.fst).removeAll (es.map Prod.fst) = [e.1] := by
          simpa [List.removeAll] using hfound
        rw [keys_put_of_notMem hnew, hone]
        rfl

theorem lookup_of_mem {listing : List (κ × γ)} (h : (listing.map Prod.fst).Nodup) {e : κ × γ}
    (he : e ∈ listing) : listing.lookup e.1 = some e.2 := by
  obtain ⟨before, after, rfl⟩ := List.append_of_mem he
  refine List.lookup_eq_some_iff.mpr ⟨before, after, rfl, fun e' he' => bne_iff_ne.mpr fun hsame => ?_⟩
  rw [List.map_append] at h
  exact List.disjoint_of_nodup_append h (List.mem_map_of_mem he') (hsame ▸ List.mem_cons_self)

theorem gathers_putAll_nil (es : List (κ × γ)) : Gathers (putAll es []) es := by
  have hempty : (([] : List (κ × γ)).map Prod.fst).Nodup := List.nodup_nil
  have hnodup := nodup_putAll hempty es
  refine ⟨keys_putAll_nil es, hnodup, fun row hrow => ?_⟩
  have hlookup := lookup_of_mem hnodup hrow
  rwa [lookup_putAll, List.lookup_nil, Option.or_none] at hlookup

end Listing

open Listing

/-! ### What is sent -/

namespace Script

/-- What an event sends to the database once there are assignments: a read asks it only for a key that
is not among them, and a look from outside always does, over a connection of its own. -/
def Event.statement? (assignments : List (Text × String)) : Event → Option Database.Event
  | .read key _ => if key ∈ assignments.map Prod.fst then none else some (.get key)
  | .peek key _ => some (.get key)
  | .stage _ => none

/-- What the events send that come after others. -/
def statements (before : List Event) : List Event → List Database.Event
  | [] => []
  | event :: r => (event.statement? (assigned before)).toList ++ statements (before ++ [event]) r

/-- The batch that goes out before a commit, if there is anything in it. -/
def batches (events : List Event) : List Database.Event :=
  if assigned events = [] then [] else [.upsert (stagedBy events)]

theorem Leads.split {event : Event} {events : List Event} {script rest : Script ε α}
    (h : Leads (event :: events) script rest) :
    ∃ next, Leads [event] script next ∧ Leads events next rest := by
  cases h with
  | read h => exact ⟨_, .read (.nil _), h⟩
  | peek h => exact ⟨_, .peek (.nil _), h⟩
  | stage h => exact ⟨_, .stage (.nil _), h⟩

end Script

open Script

namespace Database

def noteAll (db : Database) (events : List Event) : Database :=
  { db with journal := db.journal ++ events }

theorem noteAll_nil (db : Database) : db.noteAll [] = db := by
  rw [noteAll, List.append_nil]

theorem noteAll_noteAll (db : Database) (events events' : List Event) :
    (db.noteAll events).noteAll events' = db.noteAll (events ++ events') := by
  simp [noteAll]

/-- One event: it sends its statement, if it has one, and what it assigns is staged. -/
theorem perform_of_event {event : Script.Event} {script next : Script ε α}
    (h : Leads [event] script next) (db : Database) (before : List Script.Event)
    (hfinds : event.Finds db.rows (assigned before)) :
    db.perform (stagedBy before) script =
      (db.noteAll (event.statement? (assigned before)).toList).perform
        (stagedBy (before ++ [event])) next := by
  rw [stagedBy_concat]
  cases h with
  | @read key found next _ _ hrest =>
      cases hrest
      change found = _ at hfinds
      rw [perform, lookup_stagedBy]
      cases hlatest : latest? key (assigned before) with
      | some text =>
          have hassigned : key ∈ (assigned before).map Prod.fst := by
            by_contra hnot
            rw [latest?_eq_none_iff.mpr hnot] at hlatest
            cases hlatest
          rw [hlatest, Option.some_or] at hfinds
          rw [hfinds, Script.Event.statement?, if_pos hassigned, Option.toList_none, noteAll_nil]
          rfl
      | none =>
          have hassigned : key ∉ (assigned before).map Prod.fst := latest?_eq_none_iff.mp hlatest
          rw [hlatest, Option.none_or] at hfinds
          rw [hfinds, Script.Event.statement?, if_neg hassigned]
          rfl
  | @peek key found next _ _ hrest =>
      cases hrest
      change found = _ at hfinds
      rw [perform, hfinds]
      rfl
  | @stage batch next _ _ hrest =>
      cases hrest
      rw [perform, Script.Event.statement?, Option.toList_none, noteAll_nil]
      rfl

/-- On a faithful course a script has sent what its events send, and has staged what was assigned. -/
theorem perform_of_leads {events : List Script.Event} {script rest : Script ε α}
    (h : Leads events script rest) (db : Database) (before : List Script.Event)
    (hfaithful : Faithful db.rows (before ++ events)) :
    db.perform (stagedBy before) script =
      (db.noteAll (statements before events)).perform (stagedBy (before ++ events)) rest := by
  induction events generalizing db before script with
  | nil =>
      cases h
      rw [statements, noteAll_nil, List.append_nil]
  | cons event events ih =>
      obtain ⟨next, hfirst, hlater⟩ := h.split
      have hfinds := hfaithful before event events rfl
      rw [List.append_cons] at hfaithful ⊢
      rw [perform_of_event hfirst db before hfinds, ih hlater (db.noteAll _) _ hfaithful,
        noteAll_noteAll, statements]

/-! ### Locks that fail -/

variable {fails : Text → Bool}

theorem lockWhere_append {taken : List Text} (htaken : ∀ key ∈ taken, fails key = false)
    (db : Database) (rest : List Text) :
    db.lockWhere fails (taken ++ rest) = (db.noteAll (taken.map .lock)).lockWhere fails rest := by
  induction taken generalizing db with
  | nil => rw [List.nil_append, List.map_nil, noteAll_nil]
  | cons key r ih =>
      obtain ⟨hkey, hrest⟩ := List.forall_mem_cons.mp htaken
      have hnote : (db.note (.lock key)).noteAll (r.map .lock) =
          db.noteAll ((key :: r).map .lock) := noteAll_noteAll db [.lock key] _
      rw [List.cons_append, lockWhere, if_neg (by simp [hkey]), ih hrest, hnote]

theorem lockWhere_of_forall {keys : List Text} (h : ∀ key ∈ keys, fails key = false)
    (db : Database) : db.lockWhere fails keys = (true, db.noteAll (keys.map .lock)) := by
  have hall := lockWhere_append h db []
  rwa [List.append_nil] at hall

theorem lockWhere_of_fails {taken : List Text} (htaken : ∀ key ∈ taken, fails key = false)
    {key : Text} (hkey : fails key = true) (db : Database) (later : List Text) :
    db.lockWhere fails (taken ++ key :: later) =
      (false, db.noteAll ((taken ++ [key]).map .lock)) := by
  rw [lockWhere_append htaken, lockWhere, if_pos hkey, List.map_append, ← noteAll_noteAll]
  rfl

/-! ### The journal of a transaction -/

/-- What something done with a database comes to, and what it adds to the journal. -/
structure Sends (db : Database) (done : Except (Abort ε) α × Database)
    (answer : Except (Abort ε) α) (events : List Event) : Prop where
  answer : done.1 = answer
  journal : done.2.journal = db.journal ++ events

variable {db : Database} {locks : List Text} {script : Script ε α} {events : List Script.Event}

theorem journal_upsert_stagedBy (db : Database) (events : List Script.Event) :
    (db.upsert (stagedBy events)).journal = db.journal ++ batches events := by
  by_cases h : assigned events = []
  · have hnone : stagedBy events = [] := by rw [stagedBy, h]; rfl
    rw [batches, if_pos h, hnone, List.append_nil]
    rfl
  · have hsome : (stagedBy events).isEmpty = false :=
      List.isEmpty_eq_false_iff.mpr (putAll_ne_nil h [])
    rw [batches, if_neg h, upsert, hsome]
    rfl

theorem sends_of_done (hlocks : ∀ key ∈ lockOrder locks, fails key = false)
    (hfaithful : Faithful db.rows events) {a : α} (hleads : Leads events script (.done a)) :
    db.Sends (db.transactWhere fails locks script) (.ok a)
      ((lockOrder locks).map .lock ++ statements [] events ++ batches events ++ [.commit]) := by
  have hperform := perform_of_leads hleads (db.noteAll ((lockOrder locks).map .lock)) [] hfaithful
  change Database.perform _ [] script = _ at hperform
  rw [transactWhere, lockWhere_of_forall hlocks]
  simp only [hperform]
  refine ⟨rfl, ?_⟩
  change (upsert _ (stagedBy events)).journal ++ [.commit] = _
  rw [journal_upsert_stagedBy, noteAll_noteAll]
  simp only [noteAll, List.append_assoc]

theorem sends_of_fail (hlocks : ∀ key ∈ lockOrder locks, fails key = false)
    (hfaithful : Faithful db.rows events) {fault : ε} (hleads : Leads events script (.fail fault)) :
    db.Sends (db.transactWhere fails locks script) (.error (.raised fault))
      ((lockOrder locks).map .lock ++ statements [] events ++ [.rollback]) := by
  have hperform := perform_of_leads hleads (db.noteAll ((lockOrder locks).map .lock)) [] hfaithful
  change Database.perform _ [] script = _ at hperform
  rw [transactWhere, lockWhere_of_forall hlocks]
  simp only [hperform, noteAll_noteAll]
  exact ⟨rfl, List.append_assoc _ _ _⟩

theorem sends_of_refused {taken later : List Text} {key : Text}
    (horder : lockOrder locks = taken ++ key :: later) (htaken : ∀ key ∈ taken, fails key = false)
    (hkey : fails key = true) :
    db.Sends (db.transactWhere fails locks script) (.error .commandFailed)
      ((taken ++ [key]).map .lock ++ [.rollback]) := by
  rw [transactWhere, horder, lockWhere_of_fails htaken hkey]
  exact ⟨rfl, List.append_assoc _ _ _⟩

/-- **All that a transaction sends.** The locks come first, each one once and by its code, and then the
reads that the transaction cannot answer itself. On a good end all that is staged follows in one batch,
if anything is, and a commit. If the script fails, or one of the lock statements, there is a rollback,
and no batch and no commit. -/
theorem transactWhere_sends (db : Database) (locks : List Text) (script : Script ε α) :
    db.transact locks script = db.transactWhere (fun _ => db.commandsFail) locks script ∧
      (∀ key, key ∈ lockOrder locks ↔ key ∈ locks) ∧
      ((lockOrder locks).Pairwise fun key key' => key.codes < key'.codes) ∧
      (∃ events rest, Faithful db.rows events ∧ Leads events script rest ∧ rest.IsEnd) ∧
      (∀ events, Gathers (stagedBy events) (assigned events)) ∧
      ∀ fails : Text → Bool,
        (∀ events, (∀ key ∈ locks, fails key = false) → Faithful db.rows events →
          (∀ a, Leads events script (.done a) →
            db.Sends (db.transactWhere fails locks script) (.ok a)
              ((lockOrder locks).map .lock ++ statements [] events ++ batches events ++ [.commit])) ∧
          ∀ fault, Leads events script (.fail fault) →
            db.Sends (db.transactWhere fails locks script) (.error (.raised fault))
              ((lockOrder locks).map .lock ++ statements [] events ++ [.rollback])) ∧
        ∀ taken key later, lockOrder locks = taken ++ key :: later →
          (∀ key ∈ taken, fails key = false) → fails key = true →
            db.Sends (db.transactWhere fails locks script) (.error .commandFailed)
              ((taken ++ [key]).map .lock ++ [.rollback]) := by
  refine ⟨rfl, fun key => mem_lockOrder,
    pairwise_lockOrder locks, exists_leads script [] (faithful_nil db.rows),
    fun events => gathers_putAll_nil (assigned events), fun fails => ⟨?_, ?_⟩⟩
  · intro events hlocks hfaithful
    have hordered : ∀ key ∈ lockOrder locks, fails key = false :=
      fun key hkey => hlocks key (mem_lockOrder.mp hkey)
    exact ⟨fun a hleads => sends_of_done hordered hfaithful hleads,
      fun fault hleads => sends_of_fail hordered hfaithful hleads⟩
  · intro taken key later horder htaken hkey
    exact sends_of_refused horder htaken hkey

/-- Reads of `k`, which is staged by then, do not show, and neither do the texts that it had in
between. After an abort all that is staged is lost, and if the second lock cannot be taken, nothing
comes after it. -/
theorem revision_sends :
    Sends (.ofRows Store.ninety)
        ((Database.ofRows Store.ninety).transact ["k", "i", "k"] (ofSteps Store.revision))
        (.ok [some "2", some "0", some "5", none, some "90"])
        [.lock "i", .lock "k", .get "k", .get "j", .get "i", .upsert [("k", "5"), ("j", "3")],
          .commit] ∧
      Sends (.ofRows Store.ninety) ((Database.ofRows Store.ninety).transact ["k"]
        (ofSteps (Store.revision ++ [.abort "no"]))) (.error (.raised "no"))
        [.lock "k", .get "k", .get "j", .get "i", .rollback] ∧
      Sends (.ofRows Store.ninety) ((Database.ofRows Store.ninety).transactWhere (· == "k")
        ["k", "i", "k"] (ofSteps Store.revision)) (.error .commandFailed)
        [.lock "i", .lock "k", .rollback] := by
  obtain ⟨hwhere, -, -, -, -, hsends⟩ :=
    transactWhere_sends (.ofRows Store.ninety) ["k", "i", "k"] (ofSteps Store.revision)
  obtain ⟨habort, -, -, -, -, hsends'⟩ :=
    transactWhere_sends (.ofRows Store.ninety) ["k"] (ofSteps (Store.revision ++ [.abort "no"]))
  have hgood := ((hsends fun _ => false).1 Store.revisionCourse (fun _ _ => rfl)
    Store.faithful_revisionCourse).1 _ (leads_ofSteps Store.isOf_revisionCourse)
  have hbad := ((hsends' fun _ => false).1 Store.revisionCourse (fun _ _ => rfl)
    Store.faithful_revisionCourse).2 _ (leads_ofSteps_abort Store.isOf_revisionCourse "no" [])
  have hevents : (lockOrder ["k", "i", "k"]).map .lock ++ statements [] Store.revisionCourse ++
      batches Store.revisionCourse ++ [.commit] = [.lock "i", .lock "k", .get "k", .get "j", .get "i",
        .upsert [("k", "5"), ("j", "3")], .commit] := by decide +kernel
  have hevents' : (lockOrder ["k"]).map .lock ++ statements [] Store.revisionCourse ++ [.rollback] =
      [.lock "k", .get "k", .get "j", .get "i", .rollback] := by decide +kernel
  rw [hevents] at hgood
  rw [hevents'] at hbad
  rw [hwhere, habort]
  exact ⟨hgood, hbad, (hsends (· == "k")).2 ["i"] "k" [] (by decide +kernel) (by decide +kernel)
    (by decide +kernel)⟩

end Database

end Coinage
