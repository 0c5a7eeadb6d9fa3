import Coinage.Registry.Basic
import Coinage.Registry.Message

/-!
The commands of the registry. A denom comes into being by `createDenom` and never goes away; its
creator is its first admin. Only the admin may have its tokens minted, burned or moved, describe it
and hand it over, and nobody may once the admin is the empty text.
-/

namespace Coinage.Registry

open Entry

/-- Whether `sender` may act on a denom, by the stored text of its admin. -/
def authorize (sender : String) (d : Denom) (stored : Option String) : Except Fault Unit := do
  match ← (admin stored).mapError .stored with
  | none => throw (.rejected (.unknownDenom d.text))
  | some admin =>
    if admin = Text.ofString "" ∨ admin ≠ Text.ofString sender then
      throw (.rejected (.notAdmin d.text sender admin))

def checkAmount (amount : Int) : Except Fault Unit :=
  if amount = 0 then .error (.rejected .zeroAmount)
  else if amount < 0 then .error (.negativeAmount amount)
  else .ok ()

/-- Enters a denom with its admin and at the end of its creator's list, unless it is there. -/
def createScript (d : Denom) (metadata : Option Metadata) : Script Fault Unit := do
  let current ← (admin (← Script.read (adminKey d))).mapError Fault.stored
  if current.isSome then Script.fail (.rejected (.denomAlreadyExists d.text))
  let created ← (denoms (← Script.read (creatorKey d.creator))).mapError Fault.stored
  let described ← (metadataRows d metadata).mapError Fault.stored
  Script.stage ([(adminKey d, adminText d.creator),
    (creatorKey d.creator, denomsText (created ++ [Text.ofString d.text]))] ++ described)

def createDenom (sender : String) (subdenom : Text) (metadata : Option Metadata) : Act Denom := do
  let d ← Denom.lookup sender subdenom
  Act.transaction [adminKey d, creatorKey sender] (createScript d metadata)
  Act.info s!"Created denom {d.text} (admin {sender})"
  return d

/-- Hands a denom over; the empty text as new admin leaves it without one. -/
def handoverScript (sender : String) (d : Denom) (newAdmin : Text) : Script Fault Unit := do
  authorize sender d (← Script.read (adminKey d))
  unless newAdmin = Text.ofString "" do discard (addressOf newAdmin)
  Script.stage [(adminKey d, adminText newAdmin)]

def changeAdmin (sender : String) (text newAdmin : Text) : Act Unit := do
  let d ← Denom.parse text
  Act.transaction [adminKey d] (handoverScript sender d newAdmin)
  Act.info s!"Changed admin of {d.text} from {sender} to {Text.quoted newAdmin}"

/-- The denom of a command that moves tokens, once its sender may give it. -/
def authorizeMovement (sender : String) (text : Text) (amount : Int) : Act Denom := do
  checkAmount amount
  let d ← Denom.parse text
  authorize sender d (← Act.fetch (adminKey d))
  return d

def mintTokens (sender : String) (text : Text) (amount : Int) (recipient : Text) : Act Unit := do
  let d ← authorizeMovement sender text amount
  let recipient ← addressOf recipient
  Act.move (.mint d.text amount recipient)
  Act.info s!"Minted {amount} {d.text} to {recipient}"

/-- Only the admin's own tokens can be burned. -/
def burnTokens (sender : String) (text : Text) (amount : Int) (holder : Text) : Act Unit := do
  let d ← authorizeMovement sender text amount
  unless holder = Text.ofString "" ∨ holder = Text.ofString sender do
    Act.reject (.invalidAddress holder "burn from address must be the denom admin")
  Act.move (.burn d.text amount sender)
  Act.info s!"Burned {amount} {d.text} from {sender}"

def forceTransfer (sender : String) (text : Text) (amount : Int) (source target : Text) :
    Act Unit := do
  let d ← authorizeMovement sender text amount
  let source ← addressOf source
  let target ← addressOf target
  Act.move (.transfer d.text amount source target)
  Act.info s!"Force transferred {amount} {d.text} from {source} to {target}"

def describeScript (sender : String) (d : Denom) (metadata : Metadata) : Script Fault Unit := do
  authorize sender d (← Script.read (adminKey d))
  Script.stage (← (metadataRows d (some metadata)).mapError Fault.stored)

def setMetadata (sender : String) (text : Text) (metadata : Metadata) : Act Unit := do
  let d ← Denom.parse text
  Act.transaction [adminKey d, metadataKey d] (describeScript sender d metadata)
  Act.info s!"Set metadata of {d.text}"

def perform (sender : String) (command : Command) : Act Receipt :=
  match command with
  | .createDenom subdenom metadata => do
    let d ← createDenom sender subdenom metadata
    let octets ← (Wire.Reply.ofDenom d.text).mapError Fault.reply
    return { command.receipt with attributes := [("denom", d.text)], data := some octets }
  | .changeAdmin denom newAdmin => do
    changeAdmin sender denom newAdmin
    return command.receipt
  | .mintTokens denom amount recipient => do
    mintTokens sender denom amount recipient
    return command.receipt
  | .burnTokens denom amount holder => do
    burnTokens sender denom amount holder
    return command.receipt
  | .forceTransfer denom amount source target => do
    forceTransfer sender denom amount source target
    return command.receipt
  | .setMetadata denom metadata => do
    setMetadata sender denom metadata
    return command.receipt

/-- Puts on record that somebody acted on a denom of somebody else. -/
def warnOfRefusal (fault : Fault) (r : Registry) : Registry :=
  match fault with
  | .rejected (.notAdmin denom sender admin) =>
    r.record .warning s!"Rejected {sender} acting on {denom} (admin is {Text.quoted admin})"
  | _ => r

/-- Carries out a command on behalf of its sender. -/
def execute (r : Registry) (sender : String) : Submitted Command → Except Fault Receipt × Registry
  | .other shown => (.error (.unsupported "execute" shown), r)
  | .message command =>
    match (perform sender command).on r with
    | (.ok receipt, r) => (.ok receipt, r)
    | (.error fault, r) => (.error fault, warnOfRefusal fault r)

end Coinage.Registry
