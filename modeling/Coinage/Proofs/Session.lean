import Coinage.Proofs.Simulation

/-! Sessions. Besides sending messages and asking queries, one may read the store and run transactions
of one's own in between. None of this shows whether texts are kept in memory or in a database: a
session has the same answers over both, and both hold the same after each of its turns. -/

namespace Coinage

/-- One turn of a session. The scripts give results of type `α` and fail with faults of type `ε`; what
they do next may depend on all that they have read. -/
inductive Turn (ε α : Type) where
  | execute (m : Sent)
  | query (query : Submitted Query)
  | get (key : Text)
  | transact (locks : List Text) (script : Script ε α)

/-- How a turn is answered. -/
inductive Turn.Reply (ε α : Type) where
  | executed (result : Except Fault Receipt)
  | answered (result : Except Fault Answer)
  | found (text : Option String)
  | transacted (result : Except (Abort ε) α)

/-- What shows of a turn: the reply to it, and what there is right after it. -/
structure Turn.Trace (ε α : Type) where
  reply : Turn.Reply ε α
  contents : Table Text String
  ledger : Ledger
  log : List Log.Record
  locks : List (List Text)

variable {ε α : Type}

namespace Registry

/-- Takes one turn. -/
def take (r : Registry) : Turn ε α → Turn.Reply ε α × Registry
  | .execute m => let (result, r) := r.execute m.sender m.message; (.executed result, r)
  | .query query => let (result, r) := r.answer query; (.answered result, r)
  | .get key => let (text, store) := r.store.get key; (.found text, { r with store })
  | .transact locks script => let (result, r) := r.transact locks script; (.transacted result, r)

/-- What shows of a turn that has led here. -/
def trace (r : Registry) (reply : Turn.Reply ε α) : Turn.Trace ε α :=
  ⟨reply, r.store.contents, r.ledger, r.log, r.locks⟩

/-- What shows of all turns of a session. -/
def session (r : Registry) : List (Turn ε α) → List (Turn.Trace ε α)
  | [] => []
  | turn :: rest => let (reply, r) := r.take turn; r.trace reply :: r.session rest

/-- Both registries are between two transactions and have the same to show. Where their stores are and
what is in the journals may differ. -/
structure Mirrors (r t : Registry) : Prop where
  store : ∃ contents failing, r.store.Settled contents failing ∧ t.store.Settled contents failing
  ledger : t.ledger = r.ledger
  log : t.log = r.log
  locks : t.locks = r.locks

variable {r t : Registry}

theorem Mirrors.contents (h : r.Mirrors t) : t.store.contents = r.store.contents := by
  obtain ⟨contents, failing, hr, ht⟩ := h.store
  exact ht.contents.trans hr.contents.symm

theorem Mirrors.trace (h : r.Mirrors t) (reply : Turn.Reply ε α) : t.trace reply = r.trace reply := by
  rw [Registry.trace, Registry.trace, h.contents, h.ledger, h.log, h.locks]

theorem Mirrors.get (h : r.Mirrors t) (key : Text) :
    (t.store.get key).1 = (r.store.get key).1 ∧
      Mirrors { r with store := (r.store.get key).2 } { t with store := (t.store.get key).2 } := by
  obtain ⟨contents, failing, hr, ht⟩ := h.store
  refine ⟨?_, ⟨contents, failing, hr.get key, ht.get key⟩, h.ledger, h.log, h.locks⟩
  rw [Store.get_fst, Store.get_fst, h.contents]

theorem Mirrors.transact (h : r.Mirrors t) (locks : List Text) (script : Script ε α) :
    (t.transact locks script).1 = (r.transact locks script).1 ∧
      (r.transact locks script).2.Mirrors (t.transact locks script).2 := by
  obtain ⟨contents, failing, hr, ht⟩ := h.store
  obtain ⟨hresult, hafter⟩ := hr.transact locks script
  obtain ⟨hresult', hafter'⟩ := ht.transact locks script
  refine ⟨hresult'.trans hresult.symm, ⟨_, failing, hafter, hafter'⟩, h.ledger, h.log, ?_⟩
  exact congrArg (· ++ [locks]) h.locks

theorem Mirrors.record (r t : Registry) (level : Log.Level) (text : String) (h : r.Mirrors t) :
    (r.record level text).Mirrors (t.record level text) :=
  ⟨h.store, h.ledger, congrArg (· ++ [(⟨level, text⟩ : Log.Record)]) h.log, h.locks⟩

theorem Mirrors.move (h : r.Mirrors t) (m : Ledger.Movement) :
    (t.move m).1 = (r.move m).1 ∧ (r.move m).2.Mirrors (t.move m).2 := by
  rw [Registry.move, Registry.move, h.ledger]
  cases r.ledger.apply m with
  | error e => exact ⟨rfl, h⟩
  | ok ledger => exact ⟨rfl, Mirrors.record _ _ .info _ ⟨h.store, rfl, h.log, h.locks⟩⟩

theorem simulation_mirrors : Simulation Mirrors where
  get := Mirrors.get
  transact := Mirrors.transact
  move := Mirrors.move
  record := Mirrors.record

theorem Mirrors.take (h : r.Mirrors t) (turn : Turn ε α) :
    (t.take turn).1 = (r.take turn).1 ∧ (r.take turn).2.Mirrors (t.take turn).2 := by
  cases turn with
  | execute m =>
      obtain ⟨hresult, hafter⟩ := simulation_mirrors.execute h m.sender m.message
      exact ⟨congrArg Turn.Reply.executed hresult, hafter⟩
  | query query =>
      obtain ⟨hresult, hafter⟩ := simulation_mirrors.answer h query
      exact ⟨congrArg Turn.Reply.answered hresult, hafter⟩
  | get key =>
      obtain ⟨hfound, hafter⟩ := h.get key
      exact ⟨congrArg Turn.Reply.found hfound, hafter⟩
  | transact locks script =>
      obtain ⟨hresult, hafter⟩ := h.transact locks script
      exact ⟨congrArg Turn.Reply.transacted hresult, hafter⟩

theorem Mirrors.session (h : r.Mirrors t) (turns : List (Turn ε α)) :
    t.session turns = r.session turns := by
  induction turns generalizing r t with
  | nil => rfl
  | cons turn rest ih =>
      obtain ⟨hreply, hafter⟩ := h.take turn
      have htrace : (t.take turn).2.trace (t.take turn).1 = (r.take turn).2.trace (r.take turn).1 := by
        rw [hreply, hafter.trace]
      exact congrArg₂ List.cons htrace (ih hafter)

/-- A registry over memory and one over a database that does its work, with the same in both. -/
theorem mirrors_of_contents (contents : Table Text String) (journal : List Database.Event)
    (ledger : Ledger) (log : List Log.Record) (locks : List (List Text)) :
    Mirrors ⟨.memory contents, ledger, log, locks⟩
      ⟨.database ⟨contents, [], false, journal⟩, ledger, log, locks⟩ where
  store := ⟨contents, false, ⟨rfl, rfl, rfl⟩, ⟨rfl, rfl, rfl⟩⟩
  ledger := rfl
  log := rfl
  locks := rfl

/-- **Memory and a database are interchangeable.** Started from the same contents, a session of
commands, queries, reads and transactions has the same replies over either, and after each turn the
contents, the balances and the records are the same. -/
theorem session_memory_eq_database (contents : Table Text String) (journal : List Database.Event)
    (ledger : Ledger) (log : List Log.Record) (locks : List (List Text))
    (turns : List (Turn ε α)) :
    session ⟨.memory contents, ledger, log, locks⟩ turns =
      session ⟨.database ⟨contents, [], false, journal⟩, ledger, log, locks⟩ turns :=
  ((mirrors_of_contents contents journal ledger log locks).session turns).symm

-- A database whose commands fail gives itself away with the first lock that a transaction asks for.
example :
    ((start (.memory ∅)).transact ["k"] (.done 0 : Script String Nat)).1 = .ok 0 ∧
      ((start (.database ⟨∅, [], true, []⟩)).transact ["k"] (.done 0 : Script String Nat)).1 =
        .error .commandFailed :=
  ⟨rfl, rfl⟩

end Registry

end Coinage
