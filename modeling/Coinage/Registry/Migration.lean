import Coinage.Registry.Basic

/-!
Bringing the table of a database into being. Every script is run on a connection of its own, in the
order of the names; the first one that fails ends the run.
-/

namespace Coinage.Migration

def scripts : List String := ["001_create_kv_store.sql"]

/-- The name of the script that failed. -/
structure Error where
  script : String
deriving DecidableEq, Repr

def Error.message (e : Error) : String := s!"Database migration failed: {e.script}"

def runScript (r : Registry) (script : String) : Except Error Unit × Registry :=
  let r := r.record .info s!"Executing migration: {script}"
  match r.store.send .migrate with
  | (.ok (), store) =>
    (.ok (), { r with store }.record .info s!"Migration complete: {script}")
  | (.error _, store) =>
    let reason := Fault.commandComplaint
    (.error ⟨script⟩, { r with store }.record .error s!"Migration failed: {script} - {reason}")

def runScripts (r : Registry) : List String → Except Error Unit × Registry
  | [] => (.ok (), r)
  | script :: rest =>
    match runScript r script with
    | (.ok (), r) => runScripts r rest
    | failed => failed

def run (r : Registry) : Except Error Unit × Registry :=
  runScripts (r.record .info s!"Running {scripts.length} migration(s)") scripts

end Coinage.Migration
