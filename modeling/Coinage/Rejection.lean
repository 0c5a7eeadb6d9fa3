import Coinage.Denom.Basic
import Coinage.Text.Basic

/-!
The rules of the registry that a request can break. A rejected request has changed nothing.
-/

namespace Coinage

inductive Rejection where
  | invalidDenom (denom : Text) (flaw : Denom.Flaw)
  | denomAlreadyExists (denom : String)
  | unknownDenom (denom : String)
  /-- `admin` is who may act on the denom instead, the empty text if nobody may. -/
  | notAdmin (denom sender : String) (admin : Text)
  | invalidAddress (address : Text) (reason : String)
  | zeroAmount
  | unimplemented (feature : String)
deriving DecidableEq, Repr

def Rejection.message : Rejection → Text
  | .invalidDenom denom flaw =>
    .ofString "invalid denom '" ++ denom ++ .ofString "': " ++ flaw.message
  | .denomAlreadyExists denom => .ofString s!"denom already exists: {denom}"
  | .unknownDenom denom => .ofString s!"denom was never created: {denom}"
  | .notAdmin denom sender _ => .ofString s!"{sender} is not admin of {denom}"
  | .invalidAddress address reason => .ofString s!"{reason}: '" ++ address ++ .ofString "'"
  | .zeroAmount => .ofString "amount must be greater than zero"
  | .unimplemented feature => .ofString s!"{feature} is not implemented"

end Coinage
