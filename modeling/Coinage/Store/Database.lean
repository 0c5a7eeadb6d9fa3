import Coinage.Store.Script

/-!
Texts in a database table, behind a pool of connections. A transaction takes one advisory lock per
key, in the order of the keys, so that no two transactions can wait for each other; it reads committed
rows, and what it has staged goes out in one batch right before the commit. The journal of a
database lists what was done over its connections.

This table takes every text. One outside of memory takes no text with U+0000 in it and none without an
encoding, so what is said of a database holds of such a one as long as its journal has no such texts.
-/

namespace Coinage

/-- Why a transaction came to nothing. -/
inductive Abort (ε : Type) where
  /-- A command over the connection failed. -/
  | commandFailed
  | raised (fault : ε)
deriving DecidableEq, Repr

/-- What is done over a connection. -/
inductive Database.Event where
  | opened (conninfo : String) (minSize maxSize : Int)
  | migrate
  | ping
  | lock (key : Text)
  | get (key : Text)
  | upsert (rows : List (Text × String))
  | commit
  | rollback
deriving DecidableEq, Repr

structure Database where
  rows : Table Text String
  /-- Rows that were sent and are not committed. -/
  pending : List (Text × String)
  /-- Whether commands fail, which are the statements that answer nothing: those that take a lock,
  bring the table into being or see whether the database is alive. Rows are read, written and committed
  all the same. -/
  commandsFail : Bool
  journal : List Database.Event
deriving DecidableEq

namespace Database

variable {ε α : Type}

def ofRows (rows : Table Text String) : Database := ⟨rows, [], false, []⟩

def note (db : Database) (event : Event) : Database := { db with journal := db.journal ++ [event] }

def get (db : Database) (key : Text) : Option String × Database :=
  (db.rows.get? key, db.note (.get key))

def rollback (db : Database) : Database := { db.note .rollback with pending := [] }

def upsert (db : Database) (staged : Staged) : Database :=
  if staged.isEmpty then db else { db.note (.upsert staged) with pending := staged }

def commit (db : Database) : Database :=
  { db.note .commit with rows := db.rows.insertAll db.pending, pending := [] }

/-- Sends a command on a connection of its own. -/
def send (db : Database) (event : Event) : Except (Abort Empty) Unit × Database :=
  let db := db.note event
  if db.commandsFail then (.error .commandFailed, db.rollback) else (.ok (), db)

/-- The keys to lock, each once and in order. -/
def lockOrder (keys : List Text) : List Text :=
  (keys.foldl (fun t k => t.insert k ()) (∅ : Table Text Unit)).keys

/-- Takes locks one by one, up to one whose command fails; says whether all of them were taken. -/
def lockWhere (fails : Text → Bool) (db : Database) : List Text → Bool × Database
  | [] => (true, db)
  | key :: r =>
    if fails key then (false, db.note (.lock key)) else lockWhere fails (db.note (.lock key)) r

/-- Runs a script over the open connection. -/
def perform (db : Database) (staged : Staged) : Script ε α → Except ε α × Staged × Database
  | .done a => (.ok a, staged, db)
  | .fail e => (.error e, staged, db)
  | .readThen key next =>
    match staged.lookup key with
    | some text => db.perform staged (next (some text))
    | none => (db.get key).2.perform staged (next (db.get key).1)
  | .peekThen key next => (db.get key).2.perform staged (next (db.get key).1)
  | .stageThen batch next => db.perform (Listing.putAll batch staged) next

/-- Runs a script as one transaction in which the commands for some of the locks fail. -/
def transactWhere (fails : Text → Bool) (db : Database) (locks : List Text) (script : Script ε α) :
    Except (Abort ε) α × Database :=
  match db.lockWhere fails (lockOrder locks) with
  | (false, db) => (.error .commandFailed, db.rollback)
  | (true, db) =>
    match db.perform [] script with
    | (.ok a, staged, db) => (.ok a, (db.upsert staged).commit)
    | (.error e, _, db) => (.error (.raised e), db.rollback)

/-- Runs a script as one transaction; the commands for its locks all fail or all succeed. -/
def transact (db : Database) (locks : List Text) (script : Script ε α) :
    Except (Abort ε) α × Database :=
  db.transactWhere (fun _ => db.commandsFail) locks script

end Database

end Coinage
