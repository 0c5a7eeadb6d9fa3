import Coinage.Metadata
import Coinage.Text.Quoted

/-!
The messages that the registry takes and what it answers them with. Commands come from a sender and
may change something; queries only ask.
-/

namespace Coinage

inductive Command where
  | createDenom (subdenom : Text) (metadata : Option Metadata)
  | changeAdmin (denom newAdmin : Text)
  | mintTokens (denom : Text) (amount : Int) (recipient : Text)
  /-- `holder` is the sender, by its address or as the empty text. -/
  | burnTokens (denom : Text) (amount : Int) (holder : Text)
  | forceTransfer (denom : Text) (amount : Int) (source target : Text)
  | setMetadata (denom : Text) (metadata : Metadata)
deriving DecidableEq, Repr

def Command.method : Command → String
  | .createDenom .. => "create_denom"
  | .changeAdmin .. => "change_admin"
  | .mintTokens .. => "mint_tokens"
  | .burnTokens .. => "burn_tokens"
  | .forceTransfer .. => "force_transfer_tokens"
  | .setMetadata .. => "set_metadata"

inductive Query where
  | fullDenom (creator subdenom : Text)
  | metadata (denom : Text)
  | admin (denom : Text)
  | denomsByCreator (creator : Text)
  | params
deriving DecidableEq, Repr

open Text in
def Query.describe : Query → String
  | .fullDenom creator subdenom =>
    s!"FullDenom(creator_addr={quoted creator}, subdenom={quoted subdenom})"
  | .metadata denom => s!"GetMetadata(denom={quoted denom})"
  | .admin denom => s!"GetAdmin(denom={quoted denom})"
  | .denomsByCreator creator => s!"DenomsByCreator(creator={quoted creator})"
  | .params => "GetParams()"

/-- What is handed in where a message is wanted: one, or something else that can only be shown. -/
inductive Submitted (μ : Type) where
  | message (m : μ)
  | other (shown : String)
deriving DecidableEq, Repr

/-- What a command that succeeded is answered with; only a creation has reply octets. -/
structure Receipt where
  method : String
  attributes : List (String × String)
  data : Option (List UInt8)
deriving DecidableEq, Repr

/-- The receipt of a command that has nothing to report. -/
def Command.receipt (c : Command) : Receipt := ⟨c.method, [], none⟩

inductive Answer where
  | denom (denom : String)
  | metadata (metadata : Option Metadata)
  | admin (admin : Text)
  | denoms (denoms : List Text)
deriving DecidableEq, Repr

end Coinage
