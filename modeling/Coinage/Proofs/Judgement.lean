import Coinage.Proofs.Act
import Coinage.Proofs.Book
import Coinage.Proofs.Except

/-! Commands, judged by the book. A registry that keeps a book carries out a command just as the
book judges it: it fails with the first fault that the book finds, or does the deed that the command
comes to and nothing else. -/

namespace Coinage

open Act Entry Registry

namespace Registry

theorem addressOf_eq_ok_iff {t : Text} {s : String} :
    addressOf t = .ok s ↔ t = Text.ofString s ∧ Address.isValid s = true := by
  rw [addressOf, ← Text.toString?_eq_some_iff, ← Option.filter_eq_some_iff]
  cases t.toString?.filter Address.isValid <;> simp

theorem addressOf_ofString {s : String} (h : Address.isValid s = true) :
    addressOf (Text.ofString s) = .ok s :=
  addressOf_eq_ok_iff.mpr ⟨rfl, h⟩

end Registry

namespace Book

variable (b : Book) (failing : Bool) (ledger : Ledger) (sender : String)

/-- Taking the locks, which every transaction starts with. -/
def checkLocks : Except Fault Unit :=
  if failing then .error .commandFailed else .ok ()

/-- The check that somebody is the admin of a denom, and that there is one. -/
def authorize (d : Denom) : Except Fault Unit :=
  match b.admin d with
  | none => .error (.rejected (.unknownDenom d.text))
  | some admin =>
    if admin = "" ∨ admin ≠ sender then .error (.rejected (.notAdmin d.text sender admin))
    else .ok ()

/-- The check that metadata can be stored, if there are any. -/
def checkWritable : Option Metadata → Except Fault Unit
  | none => .ok ()
  | some m =>
    let most := Json.Limits.standard.digits
    if isWritable most m then .ok () else .error (.stored (.unread (.tooManyDigits most none)))

def checkCreation (d : Denom) (metadata : Option Metadata) : Except Fault Unit := do
  if (b.admin d).isSome then throw (.rejected (.denomAlreadyExists d.text))
  checkWritable metadata

/-- Who a denom is handed over to, if not to nobody. -/
def newAdminOf (newAdmin : Text) : Except Fault String :=
  if newAdmin = Text.ofString "" then .ok "" else addressOf newAdmin

/-- The denom of a command that moves tokens. -/
def authorizeMovement (text : Text) (amount : Int) : Except Fault Denom := do
  checkAmount amount
  let d ← Denom.parse text
  b.authorize sender d
  return d

/-- Leaves it to the ledger whether there is enough to be moved. -/
def settle (m : Ledger.Movement) : Except Fault Deed :=
  ((ledger.apply m).mapError Fault.ledger).map fun _ => .moved m

/-- What is wrong with a command, or the deed that it comes to. -/
def judge : Command → Except Fault Deed
  | .createDenom subdenom metadata => do
    let d ← Denom.lookup sender subdenom
    checkLocks failing
    b.checkCreation d metadata
    return .created d metadata
  | .changeAdmin text newAdmin => do
    let d ← Denom.parse text
    checkLocks failing
    b.authorize sender d
    return .handedOver d (← newAdminOf newAdmin)
  | .mintTokens text amount recipient => do
    let d ← b.authorizeMovement sender text amount
    settle ledger (.mint d.text amount (← addressOf recipient))
  | .burnTokens text amount holder => do
    let d ← b.authorizeMovement sender text amount
    unless holder = Text.ofString "" ∨ holder = Text.ofString sender do
      throw (.rejected (.invalidAddress holder "burn from address must be the denom admin"))
    settle ledger (.burn d.text amount sender)
  | .forceTransfer text amount source target => do
    let d ← b.authorizeMovement sender text amount
    let source ← addressOf source
    let target ← addressOf target
    settle ledger (.transfer d.text amount source target)
  | .setMetadata text metadata => do
    let d ← Denom.parse text
    checkLocks failing
    b.authorize sender d
    checkWritable (some metadata)
    return .described d metadata

variable {b failing sender} {contents : Table Text String}

/-! ### What it takes to get through -/

theorem checkLocks_eq_ok_iff {u : Unit} : checkLocks failing = .ok u ↔ failing = false := by
  cases failing <;> simp [checkLocks]

theorem authorize_eq_ok_iff {d : Denom} {u : Unit} :
    b.authorize sender d = .ok u ↔ b.admin d = some sender ∧ sender ≠ "" := by
  rw [authorize]
  cases b.admin d with
  | none => simp
  | some admin =>
      by_cases heq : admin = sender
      · subst heq
        by_cases hempty : admin = "" <;> simp [hempty]
      · simp [heq]

theorem checkAmount_eq_ok_iff {amount : Int} {u : Unit} :
    checkAmount amount = .ok u ↔ 0 < amount := by
  rw [checkAmount]
  split
  · next heq => simp [heq]
  · split
    · simp
      omega
    · simp
      omega

theorem checkWritable_eq_ok_iff {metadata : Option Metadata} {u : Unit} :
    checkWritable metadata = .ok u ↔ Storable metadata := by
  cases metadata with
  | none => simp [checkWritable, Storable]
  | some m =>
      simp only [checkWritable]
      split <;> simp_all [Storable]

theorem checkCreation_eq_ok_iff {d : Denom} {metadata : Option Metadata} {u : Unit} :
    b.checkCreation d metadata = .ok u ↔
      b.admin d = none ∧ Storable metadata := by
  rw [checkCreation]
  cases b.admin d with
  | none => simp [checkWritable_eq_ok_iff]
  | some admin => exact ⟨fun h => (by cases h), fun h => (by cases h.1)⟩

theorem settle_eq_ok_iff {ledger : Ledger} {m : Ledger.Movement} {deed : Deed} :
    settle ledger m = .ok deed ↔ (∃ l, ledger.apply m = .ok l) ∧ deed = .moved m := by
  rw [settle]
  cases ledger.apply m with
  | error e => simp [Except.map]
  | ok l => simp [Except.map, eq_comm]

theorem authorizeMovement_eq_ok_iff {text : Text} {amount : Int} {d : Denom} :
    b.authorizeMovement sender text amount = .ok d ↔
      0 < amount ∧ Denom.parse text = .ok d ∧ b.admin d = some sender ∧ sender ≠ "" := by
  simp only [authorizeMovement, Except.bind_eq_ok_iff, exists_const,
    checkAmount_eq_ok_iff, authorize_eq_ok_iff, Except.pure_eq_ok_iff]
  constructor
  · rintro ⟨hamount, d', hd, hadmin, rfl⟩
    exact ⟨hamount, hd, hadmin⟩
  · rintro ⟨hamount, hd, hadmin⟩
    exact ⟨hamount, d, hd, hadmin, rfl⟩

/-! ### The deeds of the six commands -/

theorem judge_createDenom {ledger : Ledger} {subdenom : Text} {metadata : Option Metadata}
    {deed : Deed} :
    b.judge failing ledger sender (.createDenom subdenom metadata) = .ok deed ↔
      ∃ d : Denom, d.creator = sender ∧ subdenom = Text.ofString d.subdenom ∧ failing = false ∧
        b.admin d = none ∧ Storable metadata ∧ deed = .created d metadata := by
  simp only [judge, Except.bind_eq_ok_iff, exists_const, Denom.lookup_eq_ok_iff, Text.ofString_inj,
    checkLocks_eq_ok_iff, checkCreation_eq_ok_iff, Except.pure_eq_ok_iff]
  constructor
  · rintro ⟨d, ⟨hcreator, rfl⟩, hworks, ⟨hadmin, hwritable⟩, rfl⟩
    exact ⟨d, hcreator.symm, rfl, hworks, hadmin, hwritable, rfl⟩
  · rintro ⟨d, hcreator, rfl, hworks, hadmin, hwritable, rfl⟩
    exact ⟨d, ⟨hcreator.symm, rfl⟩, hworks, ⟨hadmin, hwritable⟩, rfl⟩

theorem judge_changeAdmin {ledger : Ledger} {text newAdmin : Text} {deed : Deed} :
    b.judge failing ledger sender (.changeAdmin text newAdmin) = .ok deed ↔
      ∃ d a, Denom.parse text = .ok d ∧ failing = false ∧ (b.admin d = some sender ∧ sender ≠ "") ∧
        newAdminOf newAdmin = .ok a ∧ deed = .handedOver d a := by
  simp only [judge, Except.bind_eq_ok_iff, exists_const, checkLocks_eq_ok_iff,
    authorize_eq_ok_iff, Except.pure_eq_ok_iff]
  constructor
  · rintro ⟨d, hd, hworks, hadmin, a, ha, rfl⟩
    exact ⟨d, a, hd, hworks, hadmin, ha, rfl⟩
  · rintro ⟨d, a, hd, hworks, hadmin, ha, rfl⟩
    exact ⟨d, hd, hworks, hadmin, a, ha, rfl⟩

theorem judge_setMetadata {ledger : Ledger} {text : Text} {m : Metadata} {deed : Deed} :
    b.judge failing ledger sender (.setMetadata text m) = .ok deed ↔
      ∃ d, Denom.parse text = .ok d ∧ failing = false ∧ (b.admin d = some sender ∧ sender ≠ "") ∧
        Storable (some m) ∧ deed = .described d m := by
  simp only [judge, Except.bind_eq_ok_iff, exists_const, checkLocks_eq_ok_iff,
    authorize_eq_ok_iff, checkWritable_eq_ok_iff, Except.pure_eq_ok_iff]

theorem judge_mintTokens {ledger : Ledger} {text recipient : Text} {amount : Int} {deed : Deed} :
    b.judge failing ledger sender (.mintTokens text amount recipient) = .ok deed ↔
      ∃ d address, (0 < amount ∧ Denom.parse text = .ok d ∧ b.admin d = some sender ∧ sender ≠ "") ∧
        addressOf recipient = .ok address ∧
        (∃ l, ledger.apply (.mint d.text amount address) = .ok l) ∧
        deed = .moved (.mint d.text amount address) := by
  simp only [judge, Except.bind_eq_ok_iff, authorizeMovement_eq_ok_iff, settle_eq_ok_iff]
  constructor
  · rintro ⟨d, hd, address, haddress, hledger, rfl⟩
    exact ⟨d, address, hd, haddress, hledger, rfl⟩
  · rintro ⟨d, address, hd, haddress, hledger, rfl⟩
    exact ⟨d, hd, address, haddress, hledger, rfl⟩

/-- Only the sender's own tokens are burned. -/
theorem judge_burnTokens {ledger : Ledger} {text holder : Text} {amount : Int} {deed : Deed} :
    b.judge failing ledger sender (.burnTokens text amount holder) = .ok deed ↔
      ∃ d, (0 < amount ∧ Denom.parse text = .ok d ∧ b.admin d = some sender ∧ sender ≠ "") ∧
        (holder = Text.ofString "" ∨ holder = Text.ofString sender) ∧
        (∃ l, ledger.apply (.burn d.text amount sender) = .ok l) ∧
        deed = .moved (.burn d.text amount sender) := by
  simp only [judge, Except.bind_eq_ok_iff, authorizeMovement_eq_ok_iff]
  constructor
  · rintro ⟨d, hd, h⟩
    split at h
    · next hholder =>
        obtain ⟨hledger, rfl⟩ := settle_eq_ok_iff.mp h
        exact ⟨d, hd, hholder, hledger, rfl⟩
    · cases h
  · rintro ⟨d, hd, hholder, hledger, rfl⟩
    refine ⟨d, hd, ?_⟩
    rw [if_pos hholder]
    exact settle_eq_ok_iff.mpr ⟨hledger, rfl⟩

theorem judge_forceTransfer {ledger : Ledger} {text source target : Text} {amount : Int}
    {deed : Deed} :
    b.judge failing ledger sender (.forceTransfer text amount source target) = .ok deed ↔
      ∃ d source' target',
        (0 < amount ∧ Denom.parse text = .ok d ∧ b.admin d = some sender ∧ sender ≠ "") ∧
        (addressOf source = .ok source' ∧ addressOf target = .ok target') ∧
        (∃ l, ledger.apply (.transfer d.text amount source' target') = .ok l) ∧
        deed = .moved (.transfer d.text amount source' target') := by
  simp only [judge, Except.bind_eq_ok_iff, authorizeMovement_eq_ok_iff, settle_eq_ok_iff]
  constructor
  · rintro ⟨d, hd, source', hsource, target', htarget, hledger, rfl⟩
    exact ⟨d, source', target', hd, ⟨hsource, htarget⟩, hledger, rfl⟩
  · rintro ⟨d, source', target', hd, ⟨hsource, htarget⟩, hledger, rfl⟩
    exact ⟨d, hd, source', hsource, target', htarget, hledger, rfl⟩

theorem eq_of_newAdminOf {newAdmin : Text} {a : String} (h : newAdminOf newAdmin = .ok a) :
    newAdmin = Text.ofString a ∧ (a = "" ∨ Address.isValid a = true) := by
  rw [newAdminOf] at h
  split at h
  · next heq =>
      cases h
      exact ⟨heq, .inl rfl⟩
  · obtain ⟨heq, hvalid⟩ := addressOf_eq_ok_iff.mp h
    exact ⟨heq, .inr hvalid⟩

end Book

/-- The deeds that commands come to, each on its grounds. -/
inductive Book.Grants (b : Book) (failing : Bool) (ledger : Ledger) (sender : String) :
    Command → Deed → Prop
  | creation {d : Denom} {metadata : Option Metadata} (hcreator : d.creator = sender)
      (hworks : failing = false) (hnew : b.admin d = none) (hstorable : Storable metadata) :
      Grants b failing ledger sender (.createDenom d.subdenom metadata) (.created d metadata)
  | handover {text : Text} {d : Denom} {a : String} (hd : Denom.parse text = .ok d)
      (hworks : failing = false) (hadmin : b.admin d = some sender ∧ sender ≠ "")
      (hvalid : a = "" ∨ Address.isValid a = true) :
      Grants b failing ledger sender (.changeAdmin text a) (.handedOver d a)
  | mint {text : Text} {amount : Int} {d : Denom} {recipient : String} (hamount : 0 < amount)
      (hd : Denom.parse text = .ok d) (hadmin : b.admin d = some sender ∧ sender ≠ "")
      (hrecipient : Address.isValid recipient = true)
      (hledger : ∃ l, ledger.apply (.mint d.text amount recipient) = .ok l) :
      Grants b failing ledger sender (.mintTokens text amount recipient)
        (.moved (.mint d.text amount recipient))
  | burn {text holder : Text} {amount : Int} {d : Denom} (hamount : 0 < amount)
      (hd : Denom.parse text = .ok d) (hadmin : b.admin d = some sender ∧ sender ≠ "")
      (hholder : holder = Text.ofString "" ∨ holder = Text.ofString sender)
      (hledger : ∃ l, ledger.apply (.burn d.text amount sender) = .ok l) :
      Grants b failing ledger sender (.burnTokens text amount holder)
        (.moved (.burn d.text amount sender))
  | transfer {text : Text} {amount : Int} {d : Denom} {source target : String}
      (hamount : 0 < amount) (hd : Denom.parse text = .ok d)
      (hadmin : b.admin d = some sender ∧ sender ≠ "") (hsource : Address.isValid source = true)
      (htarget : Address.isValid target = true)
      (hledger : ∃ l, ledger.apply (.transfer d.text amount source target) = .ok l) :
      Grants b failing ledger sender (.forceTransfer text amount source target)
        (.moved (.transfer d.text amount source target))
  | description {text : Text} {d : Denom} {m : Metadata} (hd : Denom.parse text = .ok d)
      (hworks : failing = false) (hadmin : b.admin d = some sender ∧ sender ≠ "")
      (hstorable : Storable (some m)) :
      Grants b failing ledger sender (.setMetadata text m) (.described d m)

namespace Book

variable {b : Book} {failing : Bool} {ledger : Ledger} {sender : String} {command : Command}
  {deed : Deed}

/-- **A deed is only ever judged to be done on its grounds.** -/
theorem grants_of_judge (h : b.judge failing ledger sender command = .ok deed) :
    b.Grants failing ledger sender command deed := by
  cases command with
  | createDenom subdenom metadata =>
      obtain ⟨d, hcreator, rfl, hworks, hnew, hstorable, rfl⟩ := judge_createDenom.mp h
      exact .creation hcreator hworks hnew hstorable
  | changeAdmin text newAdmin =>
      obtain ⟨d, a, hd, hworks, hadmin, ha, rfl⟩ := judge_changeAdmin.mp h
      obtain ⟨rfl, hvalid⟩ := eq_of_newAdminOf ha
      exact .handover hd hworks hadmin hvalid
  | mintTokens text amount recipient =>
      obtain ⟨d, address, ⟨hamount, hd, hadmin⟩, haddress, hledger, rfl⟩ := judge_mintTokens.mp h
      obtain ⟨rfl, hrecipient⟩ := addressOf_eq_ok_iff.mp haddress
      exact .mint hamount hd hadmin hrecipient hledger
  | burnTokens text amount holder =>
      obtain ⟨d, ⟨hamount, hd, hadmin⟩, hholder, hledger, rfl⟩ := judge_burnTokens.mp h
      exact .burn hamount hd hadmin hholder hledger
  | forceTransfer text amount source target =>
      obtain ⟨d, source', target', ⟨hamount, hd, hadmin⟩, ⟨hsource, htarget⟩, hledger, rfl⟩ :=
        judge_forceTransfer.mp h
      obtain ⟨rfl, hsource'⟩ := addressOf_eq_ok_iff.mp hsource
      obtain ⟨rfl, htarget'⟩ := addressOf_eq_ok_iff.mp htarget
      exact .transfer hamount hd hadmin hsource' htarget' hledger
  | setMetadata text m =>
      obtain ⟨d, hd, hworks, hadmin, hstorable, rfl⟩ := judge_setMetadata.mp h
      exact .description hd hworks hadmin hstorable

/-- Whatever the book finds of a command, what has been judged can be entered. -/
theorem canEnter_of_judge (h : b.judge failing ledger sender command = .ok deed) :
    CanEnter deed := by
  cases grants_of_judge h with
  | creation _ _ _ hstorable | description _ _ _ hstorable => exact hstorable
  | handover | mint | burn | transfer => trivial

theorem permits_of_judge (h : b.judge failing ledger sender command = .ok deed) :
    b.Permits deed := by
  cases grants_of_judge h with
  | creation _ _ hnew _ => exact hnew
  | handover _ _ hadmin _ | description _ _ hadmin _ =>
      exact ne_of_eq_of_ne hadmin.1 (Option.some_ne_none sender)
  | mint | burn | transfer => trivial

/-- Tokens are only moved as far as the ledger can perform it. -/
theorem apply_of_judge {m : Ledger.Movement}
    (h : b.judge failing ledger sender command = .ok (.moved m)) : ∃ l, ledger.apply m = .ok l := by
  cases grants_of_judge h with
  | mint _ _ _ _ hledger | burn _ _ _ _ hledger | transfer _ _ _ _ _ hledger => exact hledger

/-- A denom is handed over to nobody or to an address. -/
theorem valid_of_judge {d : Denom} {a : String}
    (h : b.judge failing ledger sender command = .ok (.handedOver d a)) :
    a = "" ∨ Address.isValid a = true := by
  cases grants_of_judge h with
  | handover _ _ _ hvalid => exact hvalid

end Book

end Coinage
