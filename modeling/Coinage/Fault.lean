import Coinage.Ledger
import Coinage.Registry.Entry
import Coinage.Rejection
import Coinage.Text.Quoted
import Coinage.Wire.Reply

/-!
Everything that the registry can fail with.
-/

namespace Coinage

/-- Why the registry did not do what it was asked for. -/
inductive Fault where
  | rejected (rejection : Rejection)
  | ledger (error : Ledger.Error)
  | negativeAmount (amount : Int)
  | stored (flaw : Entry.Flaw)
  | unsupported (kind shown : String)
  | reply (error : Wire.StringField.EncodeError)
  /-- A text that has to have an encoding has none. -/
  | illFormed (text : Text)
  /-- The database failed to do what it was told, such as to take a lock. -/
  | commandFailed
deriving DecidableEq, Repr

/-- The complaint about the first surrogates of a text, which have no encoding. -/
def Text.encodingComplaint (text : Text) : String :=
  let first := (text.elements.takeWhile (·.char?.isSome)).length
  let surrogates := (text.elements.drop first).takeWhile (·.char?.isNone)
  let last := first + surrogates.length - 1
  let shown := quoted ⟨surrogates⟩
  let place := if first < last then s!"characters in position {first}-{last}"
    else s!"character {shown} in position {first}"
  s!"'utf-8' codec can't encode {place}: surrogates not allowed"

/-- What is said about a command of the database that fails. -/
def Fault.commandComplaint : String := "connection lost"

def Fault.message : Fault → Text
  | .rejected rejection => rejection.message
  | .ledger error => .ofString error.message
  | .negativeAmount amount =>
    .ofString (Numeral.showing amount s!"amount must be unsigned, got {amount}")
  | .stored (.unread flaw) => .ofString flaw.message
  | .stored (.metadata (.missingKey key)) => .ofString key
  | .stored _ => .ofString "stored text has the wrong shape"
  | .unsupported kind shown => .ofString s!"unsupported {kind} message: {shown}"
  | .reply error => .ofString error.message
  | .illFormed text => .ofString text.encodingComplaint
  | .commandFailed => .ofString commandComplaint

end Coinage
