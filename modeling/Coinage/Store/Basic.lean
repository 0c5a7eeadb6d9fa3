import Coinage.Store.Database

/-!
The two places where texts are kept: in memory, or in a database. Seen through `contents`, and as
long as the commands of a database succeed, it makes no difference which of them a store is.
-/

namespace Coinage

inductive Store where
  | memory (entries : Table Text String)
  | database (db : Database)
deriving DecidableEq

namespace Store

variable {ε α : Type}

instance : EmptyCollection Store := ⟨.memory ∅⟩

/-- What is committed. -/
def contents : Store → Table Text String
  | .memory entries => entries
  | .database db => db.rows

def journal : Store → List Database.Event
  | .memory _ => []
  | .database db => db.journal

def get (s : Store) (key : Text) : Option String × Store :=
  match s with
  | .memory entries => (entries.get? key, s)
  | .database db => let (text, db) := db.get key; (text, .database db)

/-- Runs a script as one transaction: all that it has staged becomes visible at once at its end, and
nothing does if it fails. -/
def transact (s : Store) (locks : List Text) (script : Script ε α) :
    Except (Abort ε) α × Store :=
  match s with
  | .memory entries =>
    match script.eval entries [] with
    | (.ok a, staged) => (.ok a, .memory (entries.insertAll staged))
    | (.error e, _) => (.error (.raised e), s)
  | .database db => let (result, db) := db.transact locks script; (result, .database db)

/-- Sends a command to the database; memory has no use for it. -/
def send (s : Store) (event : Database.Event) : Except (Abort Empty) Unit × Store :=
  match s with
  | .memory _ => (.ok (), s)
  | .database db => let (result, db) := db.send event; (result, .database db)

/-- Lets the commands of a database fail from now on, or succeed. -/
def setCommandsFail (failing : Bool) : Store → Store
  | .memory entries => .memory entries
  | .database db => .database { db with commandsFail := failing }

def clearJournal : Store → Store
  | .memory entries => .memory entries
  | .database db => .database { db with journal := [] }

end Store

end Coinage
