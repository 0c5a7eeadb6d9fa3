import Coinage.Listing
import Coinage.Table
import Coinage.Text.Basic

/-!
What is done inside one transaction: reads through it, reads of the committed contents from outside
it, staged writes, and a result or a fault at the end. `Script.eval` says what a script comes to;
how a store gets there is the store's own affair.
-/

namespace Coinage

/-- Staged writes in the order in which their keys were first staged, each with its latest text. -/
abbrev Staged := List (Text × String)

inductive Script (ε α : Type) where
  | done (result : α)
  | fail (fault : ε)
  | readThen (key : Text) (next : Option String → Script ε α)
  | peekThen (key : Text) (next : Option String → Script ε α)
  | stageThen (batch : List (Text × String)) (next : Script ε α)

namespace Script

variable {ε α β : Type}

protected def bind : Script ε α → (α → Script ε β) → Script ε β
  | .done a, f => f a
  | .fail e, _ => .fail e
  | .readThen key next, f => .readThen key fun text => (next text).bind f
  | .peekThen key next, f => .peekThen key fun text => (next text).bind f
  | .stageThen batch next, f => .stageThen batch (next.bind f)

instance : Monad (Script ε) where
  pure := .done
  bind := Script.bind

/-- Reads a key as the transaction sees it. -/
def read (key : Text) : Script ε (Option String) := .readThen key .done

/-- Reads a key as everybody else sees it. -/
def peek (key : Text) : Script ε (Option String) := .peekThen key .done

def stage (batch : List (Text × String)) : Script ε Unit := .stageThen batch (.done ())

def ofExcept : Except ε α → Script ε α
  | .ok a => .done a
  | .error e => .fail e

instance : MonadLift (Except ε) (Script ε) := ⟨ofExcept⟩

/-- How a script ends on the given contents, and what it has staged by then. -/
def eval (contents : Table Text String) (staged : Staged) : Script ε α → Except ε α × Staged
  | .done a => (.ok a, staged)
  | .fail e => (.error e, staged)
  | .readThen key next => (next ((staged.lookup key).or (contents.get? key))).eval contents staged
  | .peekThen key next => (next (contents.get? key)).eval contents staged
  | .stageThen batch next => next.eval contents (Listing.putAll batch staged)

end Script

/-- One step of a transaction that is spelled out. -/
inductive Step where
  | get (key : Text)
  | peek (key : Text)
  | write (batch : List (Text × String))
  | abort (reason : String)
deriving DecidableEq, Repr

/-- Runs steps in order and answers what was read; an `abort` ends the script with its reason. -/
def Script.ofSteps : List Step → Script String (List (Option String))
  | [] => .done []
  | .get key :: r => .readThen key fun text => (ofSteps r).bind fun texts => .done (text :: texts)
  | .peek key :: r => .peekThen key fun text => (ofSteps r).bind fun texts => .done (text :: texts)
  | .write batch :: r => .stageThen batch (ofSteps r)
  | .abort reason :: _ => .fail reason

end Coinage
