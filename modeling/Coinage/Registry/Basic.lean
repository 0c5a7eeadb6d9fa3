import Coinage.Address
import Coinage.Denom.Lookup
import Coinage.Log
import Coinage.Store.Basic

/-!
The state of the registry and what can be done to it in one step: read a text, run a transaction,
have the ledger perform a movement, put something on record. A step that fails has left the store
and the ledger as they were.
-/

namespace Coinage

/-- Besides what it keeps, a registry has a record of what it did and of the locks it asked for. -/
structure Registry where
  store : Store
  ledger : Ledger
  log : List Log.Record
  locks : List (List Text)
deriving DecidableEq

namespace Registry

def start (store : Store) : Registry := ⟨store, ∅, [], []⟩

/-- The same registry with empty records. -/
def clearRecords (r : Registry) : Registry :=
  { r with store := r.store.clearJournal, log := [], locks := [] }

def record (level : Log.Level) (text : String) (r : Registry) : Registry :=
  { r with log := r.log ++ [⟨level, text⟩] }

/-- Runs a transaction on the store. -/
def transact {ε α : Type} (r : Registry) (locks : List Text) (script : Script ε α) :
    Except (Abort ε) α × Registry :=
  let (result, store) := r.store.transact locks script
  (result, { r with store, locks := r.locks ++ [locks] })

/-- Has the ledger perform a movement, and puts it on record. -/
def move (r : Registry) (m : Ledger.Movement) : Except Ledger.Error Unit × Registry :=
  match r.ledger.apply m with
  | .error e => (.error e, r)
  | .ok ledger => (.ok (), { r with ledger }.record .info ("[LEDGER] " ++ m.describe))

/-- The address that a text is. A text without an encoding has a character that no address has. -/
def addressOf (text : Text) : Except Fault String :=
  match text.toString?.filter Address.isValid with
  | some address => .ok address
  | none => .error (.rejected (.invalidAddress text "invalid address"))

end Registry

/-- What the registry does in answer to a message. -/
abbrev Act := ExceptT Fault (StateM Registry)

namespace Act

variable {α : Type}

def reject (rejection : Rejection) : Act α := throw (.rejected rejection)

def info (text : String) : Act Unit := modify (·.record .info text)

def fetch (key : Text) : Act (Option String) :=
  modifyGet fun r => let (text, store) := r.store.get key; (text, { r with store })

/-- A failed transaction, as a fault of what it was run for. -/
def faultOfAbort : Abort Fault → Fault
  | .commandFailed => .commandFailed
  | .raised fault => fault

def transaction (locks : List Text) (script : Script Fault α) : Act α :=
  ExceptT.mk <| modifyGet fun r =>
    let (result, r) := r.transact locks script
    (result.mapError faultOfAbort, r)

def move (m : Ledger.Movement) : Act Unit :=
  ExceptT.mk <| modifyGet fun r =>
    let (result, r) := r.move m
    (result.mapError Fault.ledger, r)

/-- Runs an act on a registry. -/
def on (act : Act α) (r : Registry) : Except Fault α × Registry := act.run.run r

end Act

end Coinage
