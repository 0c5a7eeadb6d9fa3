import Coinage.Proofs.Footprint
import Coinage.Registry.Answer

/-! What a database is sent. Rows are sent and committed at the end of a transaction that goes through,
and at no other time: the journal of a failed command, and that of a query, has nothing in it but
locks, reads and a rollback. -/

namespace Coinage

open Act Registry

variable {ε α : Type}

namespace Database

/-- Whether rows are sent or committed. -/
def Event.isWrite : Event → Bool
  | .upsert _ | .commit => true
  | .opened .. | .migrate | .ping | .lock _ | .get _ | .rollback => false

/-- The second journal continues the first one, with events that have the property. -/
def Continues (P : Event → Prop) (before after : List Event) : Prop :=
  ∃ events, after = before ++ events ∧ ∀ event ∈ events, P event

variable {P : Event → Prop}

theorem Continues.refl (journal : List Event) : Continues P journal journal :=
  ⟨[], (List.append_nil _).symm, List.forall_mem_nil _⟩

theorem Continues.trans {journal journal' journal'' : List Event} (h : Continues P journal journal')
    (h' : Continues P journal' journal'') : Continues P journal journal'' := by
  obtain ⟨events, rfl, hevents⟩ := h
  obtain ⟨events', rfl, hevents'⟩ := h'
  exact ⟨events ++ events', List.append_assoc .., List.forall_mem_append.mpr ⟨hevents, hevents'⟩⟩

theorem Continues.mono {Q : Event → Prop} {before after : List Event} (h : Continues P before after)
    (hPQ : ∀ event, P event → Q event) : Continues Q before after := by
  obtain ⟨events, heq, hevents⟩ := h
  exact ⟨events, heq, fun event hevent => hPQ event (hevents event hevent)⟩

theorem continues_note (db : Database) {event : Event} (h : P event) :
    Continues P db.journal (db.note event).journal :=
  ⟨[event], rfl, List.forall_mem_singleton.mpr h⟩

theorem continues_lockWhere (fails : Text → Bool) (db : Database) {keys : List Text}
    (h : ∀ key ∈ keys, P (.lock key)) :
    Continues P db.journal (db.lockWhere fails keys).2.journal := by
  induction keys generalizing db with
  | nil => exact .refl _
  | cons key r ih =>
      obtain ⟨hkey, hrest⟩ := List.forall_mem_cons.mp h
      have hlock := db.continues_note hkey
      simp only [lockWhere]
      split
      · exact hlock
      · exact hlock.trans (ih _ hrest)

theorem continues_send (db : Database) {event : Event} (h : P event) (hrollback : P .rollback) :
    Continues P db.journal (db.send event).2.journal := by
  have hsent := db.continues_note h
  simp only [send]
  split
  · exact hsent.trans ((db.note event).continues_note hrollback)
  · exact hsent

/-- The second journal continues the first one, and nothing was written in between. -/
def Unwritten (before after : List Event) : Prop :=
  Continues (fun event => event.isWrite = false) before after

theorem unwritten_note (db : Database) {event : Event} (h : event.isWrite = false) :
    Unwritten db.journal (db.note event).journal :=
  db.continues_note h

theorem unwritten_perform (db : Database) (staged : Staged) (script : Script ε α) :
    Unwritten db.journal (db.perform staged script).2.2.journal := by
  induction script generalizing db staged with
  | done | fail => exact .refl _
  | readThen key next ih =>
      simp only [perform]
      split
      · exact ih _ db staged
      · exact (db.unwritten_note rfl).trans (ih _ _ staged)
  | peekThen key next ih => exact (db.unwritten_note rfl).trans (ih _ _ staged)
  | stageThen batch next ih => exact ih db _

/-- Nothing is written before a transaction has gone through. -/
theorem unwritten_transactWhere_of_error {fails : Text → Bool} {db : Database} {locks : List Text}
    {script : Script ε α} {abort : Abort ε}
    (h : (db.transactWhere fails locks script).1 = .error abort) :
    Unwritten db.journal (db.transactWhere fails locks script).2.journal := by
  have hlocks : Unwritten db.journal (db.lockWhere fails (lockOrder locks)).2.journal :=
    db.continues_lockWhere fails fun _ _ => rfl
  rw [transactWhere] at h ⊢
  rcases hlock : db.lockWhere fails (lockOrder locks) with ⟨_ | _, db'⟩ <;> rw [hlock] at hlocks
  · exact hlocks.trans (db'.unwritten_note rfl)
  · have hscript := db'.unwritten_perform [] script
    simp only [hlock] at h ⊢
    rcases hperform : db'.perform [] script with ⟨_ | _, staged, db''⟩ <;>
      simp only [hperform] at h hscript ⊢
    · exact (hlocks.trans hscript).trans (db''.unwritten_note rfl)
    · cases h

end Database

open Database

namespace Store

theorem unwritten_transact_of_error {s : Store} {locks : List Text} {script : Script ε α}
    {abort : Abort ε} (h : (s.transact locks script).1 = .error abort) :
    Unwritten s.journal (s.transact locks script).2.journal := by
  cases s with
  | memory entries =>
      simp only [transact]
      split <;> exact .refl _
  | database db => exact unwritten_transactWhere_of_error h

theorem continues_send {P : Event → Prop} (s : Store) {event : Event} (h : P event)
    (hrollback : P .rollback) : Continues P s.journal (s.send event).2.journal := by
  cases s with
  | memory entries => exact .refl _
  | database db => exact db.continues_send h hrollback

end Store

namespace Registry

theorem Browses.unwritten {r r' : Registry} (h : r.Browses r') :
    Unwritten r.store.journal r'.store.journal := by
  obtain ⟨keys, hkeys⟩ := h.journal
  exact ⟨keys.map .get, hkeys, List.forall_mem_map.mpr fun _ _ => rfl⟩

/-- **A failed message writes nothing.** -/
theorem unwritten_execute_of_error {r : Registry} {sender : String} {message : Submitted Command}
    {fault : Fault} (h : (r.execute sender message).1 = .error fault) :
    Unwritten r.store.journal (r.execute sender message).2.store.journal := by
  cases message with
  | other shown => exact .refl _
  | message command =>
      cases ht : command.transaction? sender with
      | none => exact (browses_execute ht r).unwritten
      | some t =>
          have hopens := opens_execute ht r
          rw [hopens.store]
          cases hresult : (r.store.transact t.locks t.script).1 with
          | error abort => exact Store.unwritten_transact_of_error hresult
          | ok u =>
              have hok := hopens.isOk
              rw [h, hresult] at hok
              cases hok

theorem browses_look (query : Query) : (look query).Browses := by
  cases query with
  | fullDenom creator subdenom =>
      exact (browses_lift _).bind fun _ => browses_lift (.ok _)
  | metadata text =>
      exact (browses_lift _).bind fun _ => (browses_fetch _).bind fun _ => (browses_lift _).bind
        fun _ => browses_lift (.ok _)
  | admin text =>
      refine (browses_lift _).bind fun d => (browses_fetch _).bind fun _ =>
        (browses_lift _).bind fun a => ?_
      cases a with
      | none => exact browses_lift (.error _)
      | some a => exact browses_lift (.ok _)
  | denomsByCreator creator =>
      exact (browses_fetch _).bind fun _ => (browses_lift _).bind fun _ => browses_lift (.ok _)
  | params => exact browses_lift (.error _)

/-- Queries write nothing. -/
theorem unwritten_answer (r : Registry) (query : Query) :
    Unwritten r.store.journal (r.answer (.message query)).2.store.journal :=
  (browses_look query r).unwritten

end Registry

end Coinage
