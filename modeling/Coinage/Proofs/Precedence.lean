import Coinage.Proofs.Authority
import Coinage.Proofs.Chronicle
import Coinage.Proofs.Spelling

/-! What is asked of a command before it is carried out, and in which order. What a command comes to
hangs on a list of checks: it fails with the fault of the first one that does not hold, and succeeds
if all of them hold. All but the last are the registry's own; the last one is whether the account
that a movement takes from has enough. -/

namespace Coinage

open Registry Entry Coinage.Except

/-- Something that is asked of a command, and the fault if it is not so. -/
structure Check where
  holds : Bool
  fault : Fault
deriving DecidableEq

namespace Check

/-- The fault of the first check that does not hold. -/
def firstFault? (checks : List Check) : Option Fault :=
  (checks.find? fun check => !check.holds).map fault

/-- The checks of what a text stands for. If it stands for nothing, there is nothing to be checked. -/
def found {α : Type} (result : Except Fault α) (checks : α → List Check) : List Check :=
  match result with
  | .ok a => checks a
  | .error fault => [⟨false, fault⟩]

/-- The computation fails just as the checks say. -/
def Decides {α : Type} (checks : List Check) (result : Except Fault α) : Prop :=
  ∀ fault, result = .error fault ↔ firstFault? checks = some fault

variable {α β : Type} {check : Check} {checks checks' : List Check} {fault : Fault}

theorem firstFault?_cons (check : Check) (checks : List Check) : firstFault? (check :: checks) =
    if check.holds then firstFault? checks else some check.fault := by
  rw [firstFault?, List.find?_cons]
  cases check.holds <;> rfl

theorem firstFault?_append (checks checks' : List Check) :
    firstFault? (checks ++ checks') = (firstFault? checks).or (firstFault? checks') := by
  rw [firstFault?, List.find?_append]
  cases h : checks.find? fun check => !check.holds <;> simp [firstFault?, h]

theorem firstFault?_eq_none_iff :
    firstFault? checks = none ↔ ∀ check ∈ checks, check.holds = true := by
  simp [firstFault?]

theorem Decides.exists_ok_iff {result : Except Fault α} (h : Decides checks result) :
    (∃ a, result = .ok a) ↔ ∀ check ∈ checks, check.holds = true := by
  rw [← firstFault?_eq_none_iff]
  cases result with
  | ok a =>
      have hnone : firstFault? checks = none :=
        Option.eq_none_iff_forall_ne_some.mpr fun fault hfault => by cases (h fault).mpr hfault
      simp [hnone]
  | error fault => simp [(h fault).mp rfl]

theorem decides_nil (a : α) : Decides [] (.ok a : Except Fault α) := by
  intro fault
  simp [firstFault?]

/-- If a check does not hold, its fault is that of the computation. -/
theorem decides_cons {result : Except Fault α}
    (hfails : check.holds = false → result = .error check.fault)
    (hholds : check.holds = true → Decides checks result) : Decides (check :: checks) result := by
  intro fault
  rw [firstFault?_cons]
  cases hcheck : check.holds with
  | true => exact hholds hcheck fault
  | false => simp [hfails hcheck]

/-- A single check that is not the last word. -/
theorem decides_guard (holds : Bool) (fault : Fault) (a : α) :
    Decides [⟨holds, fault⟩] (if holds then .ok a else .error fault) :=
  decides_cons (fun hfails => if_neg (Bool.eq_false_iff.mp hfails)) fun hholds => by
    rw [if_pos hholds]
    exact decides_nil a

theorem Decides.bind {result : Except Fault α} {next : α → Except Fault β}
    (h : Decides checks result) (hnext : ∀ a, result = .ok a → Decides checks' (next a)) :
    Decides (checks ++ checks') (result >>= next) := by
  intro fault
  rw [firstFault?_append]
  cases result with
  | error fault' =>
      rw [(h fault').mp rfl]
      change Except.error fault' = Except.error fault ↔ some fault' = some fault
      simp
  | ok a =>
      have hnone : firstFault? checks = none :=
        firstFault?_eq_none_iff.mpr (h.exists_ok_iff.mp ⟨a, rfl⟩)
      rw [hnone, Option.none_or]
      exact hnext a rfl fault

theorem Decides.bind_ok {result : Except Fault α} (h : Decides checks result) (f : α → β) :
    Decides checks (result >>= fun a => .ok (f a)) := by
  have hdecides : Decides (checks ++ []) (result >>= fun a => .ok (f a)) :=
    h.bind fun a _ => decides_nil (f a)
  rwa [List.append_nil] at hdecides

theorem decides_found {result : Except Fault α} {next : α → Except Fault β}
    {rest : α → List Check} (hnext : ∀ a, result = .ok a → Decides (rest a) (next a)) :
    Decides (found result rest) (result >>= next) := by
  cases result with
  | ok a => exact hnext a rfl
  | error fault =>
      intro fault'
      change Except.error fault = Except.error fault' ↔ some fault = some fault'
      simp

end Check

open Check

namespace Ledger

/-- The holding that a movement takes from, and how much it takes. -/
def Movement.debit? : Movement → Option (Holding × Int)
  | .mint .. => none
  | .burn denom amount holder => some (⟨holder, denom⟩, amount)
  | .transfer denom amount source _ => some (⟨source, denom⟩, amount)

/-- Whether there is enough for a deed, if it is a movement that takes from somebody. -/
def fundsChecks (l : Ledger) : Option Deed → List Check
  | some (.moved m) =>
    match m.debit? with
    | some (holding, amount) =>
      let balance := l.balance holding
      [⟨amount ≤ balance, .ledger (shortage holding balance amount)⟩]
    | none => []
  | _ => []

/-- What a movement takes is more than there is. -/
def Lacks (l : Ledger) (m : Movement) (e : Error) : Prop :=
  ∃ holding amount, m.debit? = some (holding, amount) ∧ l.balance holding < amount ∧
    e = shortage holding (l.balance holding) amount

variable {l : Ledger} {m : Movement} {e : Error}

theorem shortage_eq (holding : Holding) (balance amount : Int) :
    shortage holding balance amount =
      if balance.natAbs < 10 ^ Numeral.maxDigits ∧ amount.natAbs < 10 ^ Numeral.maxDigits then
        .insufficientFunds holding balance amount
      else .overlong := by
  simp only [shortage, Bool.and_eq_true, Numeral.isWritable_iff]

/-- A debit fails for want of funds, or because nothing is to be taken from what is not there. -/
theorem debit_eq_error_cases {holding : Holding} {amount : Int} :
    l.debit holding amount = .error e ↔
      l.balance holding < amount ∧ e = shortage holding (l.balance holding) amount ∨
        amount = 0 ∧ l.amounts.get? holding = none ∧ e = .noHolding holding := by
  have hnothing : l.amounts.get? holding = none → l.balance holding = 0 := fun hmissing => by
    rw [balance, hmissing, Option.getD_none]
  rw [debit]
  by_cases hless : l.balance holding < amount
  · have hnothing' : ¬ (amount = 0 ∧ l.amounts.get? holding = none ∧ e = .noHolding holding) := by
      rintro ⟨hzero, hmissing, -⟩
      rw [hnothing hmissing, hzero] at hless
      exact lt_irrefl 0 hless
    rw [if_pos hless, or_iff_left hnothing']
    simp [hless, eq_comm]
  · rw [if_neg hless, or_iff_right fun h => hless h.1]
    by_cases hwhole : l.balance holding = amount
    · cases hmissing : l.amounts.get? holding with
      | none =>
          have hzero : amount = 0 := hwhole.symm.trans (hnothing hmissing)
          simp [hwhole, hzero, eq_comm]
      | some amount' => simp [hwhole]
    · have hthere : amount = 0 → l.amounts.get? holding ≠ none :=
        fun hzero hmissing => hwhole ((hnothing hmissing).trans hzero.symm)
      simp +contextual [hwhole, hthere]

/-- There is always a holding to take a positive amount from, or too little in it. -/
theorem debit_eq_error_iff {holding : Holding} {amount : Int} (hpositive : 0 < amount) :
    l.debit holding amount = .error e ↔ l.balance holding < amount ∧
      e = shortage holding (l.balance holding) amount := by
  rw [debit_eq_error_cases, or_iff_left fun h => hpositive.ne' h.1]

/-- A movement that takes nothing does not fail. -/
theorem exists_apply_of_debit?_eq_none (htaken : m.debit? = none) (l : Ledger) :
    ∃ l', l.apply m = .ok l' := by
  cases m with
  | mint denom amount recipient => exact ⟨_, rfl⟩
  | burn | transfer => cases htaken

/-- A movement that takes something fails just as taking it does. -/
theorem apply_eq_error_iff_debit {holding : Holding} {amount : Int}
    (htaken : m.debit? = some (holding, amount)) :
    l.apply m = .error e ↔ l.debit holding amount = .error e := by
  cases m with
  | mint => cases htaken
  | burn =>
      cases htaken
      exact Iff.rfl
  | transfer =>
      cases htaken
      exact Except.map_eq_error_iff

/-- If a movement fails, it is for want of funds. -/
theorem apply_eq_error_iff
    (hpositive : ∀ holding amount, m.debit? = some (holding, amount) → 0 < amount) :
    l.apply m = .error e ↔ l.Lacks m e := by
  cases htaken : m.debit? with
  | none =>
      obtain ⟨l', happly⟩ := exists_apply_of_debit?_eq_none htaken l
      simp [happly, Lacks, htaken]
  | some taken =>
      obtain ⟨holding, amount⟩ := taken
      rw [apply_eq_error_iff_debit htaken, debit_eq_error_iff (hpositive holding amount htaken)]
      simp [Lacks, htaken]

/-- The check of the funds is just whether they are lacking. -/
theorem firstFault?_fundsChecks_eq_some_iff {deed : Option Deed} {fault : Fault} :
    firstFault? (l.fundsChecks deed) = some fault ↔
      ∃ m e, deed = some (.moved m) ∧ l.Lacks m e ∧ fault = .ledger e := by
  rcases deed with - | ⟨d | d | d | m⟩
  case some.moved =>
    cases htaken : m.debit? with
    | none => simp [fundsChecks, firstFault?, Lacks, htaken]
    | some taken =>
        obtain ⟨holding, amount⟩ := taken
        by_cases henough : amount ≤ l.balance holding
        · have hnone : ¬ l.balance holding < amount := Int.not_lt.mpr henough
          simp [fundsChecks, firstFault?, Lacks, htaken, henough, hnone]
        · have hless : l.balance holding < amount := Int.not_le.mp henough
          simp [fundsChecks, firstFault?, Lacks, htaken, henough, hless, eq_comm]
  all_goals simp [fundsChecks, firstFault?]

end Ledger

namespace Registry

/-- The admin of a denom as its entry has it. -/
def admin? (r : Registry) (d : Denom) : Option Text :=
  (Entry.admin (r.store.contents.get? (adminKey d))).toOption.join

def lockCheck (r : Registry) : Check := ⟨!r.store.commandsFail, .commandFailed⟩

def amountChecks (amount : Int) : List Check :=
  [⟨amount ≠ 0, .rejected .zeroAmount⟩, ⟨0 ≤ amount, .negativeAmount amount⟩]

/-- The denom has to exist, and to have the sender as its admin. -/
def adminChecks (r : Registry) (sender : String) (d : Denom) : List Check :=
  let admin := (r.admin? d).getD ""
  [⟨(r.admin? d).isSome, .rejected (.unknownDenom d.text)⟩,
    ⟨admin ≠ Text.ofString "" ∧ admin = Text.ofString sender,
      .rejected (.notAdmin d.text sender admin)⟩]

/-- Whether a text is an address, which no text without an encoding is. -/
def isAddress (text : Text) : Bool := text.toString?.any Address.isValid

def addressChecks (text : Text) : List Check :=
  [⟨isAddress text, .rejected (.invalidAddress text "invalid address")⟩]

/-- Who a denom is handed over to may be nobody. -/
def newAdminChecks (text : Text) : List Check :=
  [⟨text = Text.ofString "" ∨ isAddress text = true,
    .rejected (.invalidAddress text "invalid address")⟩]

/-- Whose tokens are burned need not be said. -/
def holderChecks (sender : String) (text : Text) : List Check :=
  [⟨text = Text.ofString "" ∨ text = Text.ofString sender,
    .rejected (.invalidAddress text "burn from address must be the denom admin")⟩]

/-- Numbers that are too long are not written. -/
def writableCheck (metadata : Option Metadata) : Check :=
  let most := Json.Limits.standard.digits
  ⟨metadata.all (isWritable most), .stored (.unread (.tooManyDigits most none))⟩

def movementChecks (r : Registry) (sender : String) (text : Text) (amount : Int) : List Check :=
  amountChecks amount ++ found (Denom.parse text) (r.adminChecks sender)

/-- What the registry itself asks about a command. -/
def permissions (r : Registry) (sender : String) : Command → List Check
  | .createDenom subdenom metadata =>
    found (Denom.lookup sender subdenom) fun d =>
      [r.lockCheck, ⟨(r.admin? d).isNone, .rejected (.denomAlreadyExists d.text)⟩,
        writableCheck metadata]
  | .changeAdmin text newAdmin =>
    found (Denom.parse text) fun d =>
      [r.lockCheck] ++ (r.adminChecks sender d ++ newAdminChecks newAdmin)
  | .mintTokens text amount recipient =>
    r.movementChecks sender text amount ++ addressChecks recipient
  | .burnTokens text amount holder =>
    r.movementChecks sender text amount ++ holderChecks sender holder
  | .forceTransfer text amount source target =>
    r.movementChecks sender text amount ++ (addressChecks source ++ addressChecks target)
  | .setMetadata text m =>
    found (Denom.parse text) fun d =>
      [r.lockCheck] ++ (r.adminChecks sender d ++ [writableCheck (some m)])

/-- All that is asked about a command, in order. -/
def checks (r : Registry) (sender : String) (command : Command) : List Check :=
  r.permissions sender command ++ r.ledger.fundsChecks (command.deed? sender)

/-! ### What the checks decide -/

theorem fundsChecks_eq_nil {l : Ledger} {deed : Option Deed} (h : ∀ m, deed ≠ some (.moved m)) :
    l.fundsChecks deed = [] := by
  rcases deed with - | ⟨d | d | d | m⟩
  case some.moved => exact absurd rfl (h m)
  all_goals rfl

theorem decides_checkAmount (amount : Int) : Decides (amountChecks amount) (checkAmount amount) := by
  rw [checkAmount]
  refine decides_cons (fun hzero => if_pos (by simpa using hzero)) fun hnonzero => ?_
  rw [if_neg (by simpa using hnonzero)]
  refine decides_cons (fun hnegative => if_pos (by simpa using hnegative)) fun hunsigned => ?_
  rw [if_neg (by simpa using hunsigned)]
  exact decides_nil ()

theorem isAddress_iff {text : Text} : isAddress text = true ↔ ∃ s, addressOf text = .ok s := by
  simp only [isAddress, Option.any_eq_true, addressOf_eq_ok_iff, Text.toString?_eq_some_iff]

theorem addressOf_of_not_isAddress {text : Text} (h : isAddress text = false) :
    addressOf text = .error (.rejected (.invalidAddress text "invalid address")) := by
  rw [addressOf]
  split
  · next heq =>
      obtain ⟨htext, hvalid⟩ := Option.filter_eq_some_iff.mp heq
      rw [isAddress, htext, Option.any_some, hvalid] at h
      cases h
  · rfl

theorem decides_addressOf (text : Text) : Decides (addressChecks text) (addressOf text) := by
  refine decides_cons addressOf_of_not_isAddress fun hholds => ?_
  obtain ⟨s, hs⟩ := isAddress_iff.mp hholds
  rw [hs]
  exact decides_nil s

theorem decides_settle (l : Ledger) {m : Ledger.Movement}
    (hpositive : ∀ holding amount, m.debit? = some (holding, amount) → 0 < amount) :
    Decides (l.fundsChecks (some (.moved m))) (Book.settle l m) := by
  intro fault
  rw [Ledger.firstFault?_fundsChecks_eq_some_iff, Book.settle]
  have hlacks : (∃ m' e, some (Deed.moved m) = some (.moved m') ∧ l.Lacks m' e ∧ fault = .ledger e) ↔
      ∃ e, l.apply m = .error e ∧ fault = .ledger e := by
    simp [Ledger.apply_eq_error_iff hpositive]
  rw [hlacks]
  cases l.apply m <;> simp [Except.map, eq_comm]

end Registry

namespace Book

theorem decides_newAdminOf (text : Text) : Decides (newAdminChecks text) (newAdminOf text) := by
  rw [newAdminOf]
  by_cases hnobody : text = Text.ofString ""
  · rw [if_pos hnobody]
    exact decides_cons (fun hfails => absurd (.inl hnobody) (of_decide_eq_false hfails))
      fun _ => decides_nil ""
  · have hchecks : newAdminChecks text = addressChecks text := by
      simp [newAdminChecks, addressChecks, hnobody]
    rw [if_neg hnobody, hchecks]
    exact decides_addressOf text

theorem decides_checkLocks (r : Registry) :
    Decides [r.lockCheck] (checkLocks r.store.commandsFail) := by
  rw [lockCheck]
  cases r.store.commandsFail with
  | true => exact decides_guard false _ ()
  | false => exact decides_guard true _ ()

theorem decides_checkWritable (metadata : Option Metadata) :
    Decides [writableCheck metadata] (checkWritable metadata) := by
  cases metadata with
  | none => exact decides_guard true _ ()
  | some m => exact decides_guard (isWritable Json.Limits.standard.digits m) _ ()

/-- The check of whose tokens are to be burned, before what it lets through. -/
theorem decides_holder_bind {sender : String} {holder : Text} {rest : List Check}
    {verdict : Except Fault Deed} (h : Decides rest verdict) :
    Decides (holderChecks sender holder ++ rest) (do
      unless holder = Text.ofString "" ∨ holder = Text.ofString sender do
        throw (.rejected (.invalidAddress holder "burn from address must be the denom admin"))
      verdict) := by
  refine decides_cons (fun hfails => ?_) fun hholds => ?_
  · rw [if_neg (of_decide_eq_false hfails)]
    rfl
  · rw [if_pos (of_decide_eq_true hholds)]
    exact h

variable {b : Book} {r : Registry} (hkept : b.Kept r.store.contents)

include hkept

theorem admin?_of_kept (d : Denom) : r.admin? d = (b.admin d).map Text.ofString := by
  rw [admin?, admin_of_kept hkept]
  rfl

theorem decides_authorize (sender : String) (d : Denom) :
    Decides (r.adminChecks sender d) (b.authorize sender d) := by
  rw [adminChecks, admin?_of_kept hkept, authorize]
  cases b.admin d with
  | none => exact decides_cons (fun _ => rfl) fun hsome => by cases hsome
  | some a =>
      have hguard : (if a = "" ∨ a ≠ sender then .error (.rejected (.notAdmin d.text sender a))
            else .ok () : Except Fault Unit) =
          if decide (Text.ofString a ≠ Text.ofString "" ∧ Text.ofString a = Text.ofString sender)
          then .ok () else .error (.rejected (.notAdmin d.text sender a)) := by
        simp only [ne_eq, Text.ofString_inj, decide_eq_true_eq]
        rw [← ite_not]
        simp only [not_or, not_not]
      refine decides_cons (fun hnone => by cases hnone) fun _ => ?_
      change Decides _ (if a = "" ∨ a ≠ sender then _ else _)
      rw [hguard]
      exact decides_guard _ _ ()

theorem decides_checkCreation (d : Denom) (metadata : Option Metadata) :
    Decides [⟨(r.admin? d).isNone, .rejected (.denomAlreadyExists d.text)⟩, writableCheck metadata]
      (b.checkCreation d metadata) := by
  rw [admin?_of_kept hkept, checkCreation]
  cases b.admin d with
  | none => exact decides_cons (fun hsome => by cases hsome) fun _ => decides_checkWritable metadata
  | some a => exact decides_cons (fun _ => rfl) fun hnone => by cases hnone

/-- What is asked before tokens are moved. -/
theorem decides_authorizeMovement (sender : String) (text : Text) (amount : Int) :
    Decides (r.movementChecks sender text amount) (b.authorizeMovement sender text amount) := by
  refine (decides_checkAmount amount).bind fun _ _ => decides_found fun d _ => ?_
  exact (decides_authorize hkept sender d).bind_ok fun _ => d

/-- **What a command is judged to come to is decided by its checks.** -/
theorem decides_judge (sender : String) (command : Command) :
    Decides (r.checks sender command) (b.judge r.store.commandsFail r.ledger sender command) := by
  cases command with
  | createDenom subdenom metadata =>
      rw [checks, fundsChecks_eq_nil (by simp [Command.deed?, Option.bind_eq_some_iff]), List.append_nil]
      refine decides_found fun d _ => (decides_checkLocks r).bind fun _ _ => ?_
      exact (decides_checkCreation hkept d metadata).bind_ok fun _ => Deed.created d metadata
  | changeAdmin text newAdmin =>
      rw [checks, fundsChecks_eq_nil (by simp [Command.deed?, Option.bind_eq_some_iff]), List.append_nil]
      refine decides_found fun d _ => (decides_checkLocks r).bind fun _ _ => ?_
      refine (decides_authorize hkept sender d).bind fun _ _ => ?_
      exact (decides_newAdminOf newAdmin).bind_ok (Deed.handedOver d)
  | mintTokens text amount recipient =>
      rw [checks, permissions, List.append_assoc]
      refine (decides_authorizeMovement hkept sender text amount).bind fun d hd => ?_
      obtain ⟨hamount, hdenom, -⟩ := authorizeMovement_eq_ok_iff.mp hd
      refine (decides_addressOf recipient).bind fun address haddress => ?_
      have hdeed : (Command.mintTokens text amount recipient).deed? sender =
          some (.moved (.mint d.text amount address)) := by
        rw [Command.deed?, hdenom, (addressOf_eq_ok_iff.mp haddress).1, Text.toString?_ofString]
        rfl
      rw [hdeed]
      exact decides_settle _ fun _ _ htaken => by cases htaken
  | burnTokens text amount holder =>
      rw [checks, permissions, List.append_assoc]
      refine (decides_authorizeMovement hkept sender text amount).bind fun d hd => ?_
      obtain ⟨hamount, hdenom, -⟩ := authorizeMovement_eq_ok_iff.mp hd
      have hdeed : (Command.burnTokens text amount holder).deed? sender =
          some (.moved (.burn d.text amount sender)) := by
        rw [Command.deed?, hdenom]
        rfl
      rw [hdeed]
      refine decides_holder_bind (decides_settle r.ledger fun _ _ htaken => ?_)
      cases htaken
      exact hamount
  | forceTransfer text amount source target =>
      rw [checks, permissions, List.append_assoc]
      refine (decides_authorizeMovement hkept sender text amount).bind fun d hd => ?_
      obtain ⟨hamount, hdenom, -⟩ := authorizeMovement_eq_ok_iff.mp hd
      rw [List.append_assoc]
      refine (decides_addressOf source).bind fun source' hsource =>
        (decides_addressOf target).bind fun target' htarget => ?_
      have hdeed : (Command.forceTransfer text amount source target).deed? sender =
          some (.moved (.transfer d.text amount source' target')) := by
        rw [Command.deed?, hdenom, (addressOf_eq_ok_iff.mp hsource).1, (addressOf_eq_ok_iff.mp htarget).1,
          Text.toString?_ofString, Text.toString?_ofString]
        rfl
      rw [hdeed]
      exact decides_settle _ fun _ _ htaken => by cases htaken; exact hamount
  | setMetadata text m =>
      rw [checks, fundsChecks_eq_nil (by simp [Command.deed?, Option.bind_eq_some_iff]), List.append_nil]
      refine decides_found fun d _ => (decides_checkLocks r).bind fun _ _ => ?_
      refine (decides_authorize hkept sender d).bind fun _ _ => ?_
      exact (decides_checkWritable (some m)).bind_ok fun _ => Deed.described d m

end Book

namespace Registry

open Book

variable {r : Registry}

theorem decides_execute (h : r.Reachable) (sender : String) (command : Command) :
    Decides (r.checks sender command) (r.execute sender (.message command)).1 := by
  obtain ⟨deeds, hkeeps⟩ := h.exists_keeps
  intro fault
  rw [← decides_judge hkeeps.kept sender command fault,
    (execute_of_kept hkeeps.kept sender command).1]
  cases (ofDeeds deeds).judge r.store.commandsFail r.ledger sender command <;> simp [Except.map]

/-- **The first check that does not hold decides.** A command succeeds if all of its checks hold,
and otherwise fails with the fault of the first one that does not. A name that is none is refused as
the text that was given, for the first rule that it breaks, or as the name that the parts that were
given would make; only if these parts have no encoding, that is the fault. -/
theorem execute_decided_by_checks (h : r.Reachable) (sender : String) (command : Command) :
    ((∃ receipt, (r.execute sender (.message command)).1 = .ok receipt) ↔
        ∀ check ∈ r.checks sender command, check.holds = true) ∧
      (∀ fault, (r.execute sender (.message command)).1 = .error fault ↔
        firstFault? (r.checks sender command) = some fault) ∧
      ∀ text fault,
        (Denom.parse text = .error fault ↔
          (∃ flaw, Denom.Refuses Denom.lookup text flaw ∧
              fault = .rejected (.invalidDenom text flaw)) ∨
            ∃ first creator subdenom, Denom.Splits text first creator subdenom ∧
              Denom.IsPrefix first ∧ ¬ text.IsWellFormed ∧
              fault = .illFormed (Denom.candidate creator subdenom)) ∧
        (Denom.lookup sender text = .error fault ↔
          (∃ c s flaw, Text.ofString sender = Text.ofString c ∧ text = Text.ofString s ∧
              Denom.ofParts c s = .error flaw ∧
              fault = .rejected (.invalidDenom (Denom.candidate sender text) flaw)) ∨
            ¬ (Denom.candidate sender text).IsWellFormed ∧
              fault = .illFormed (Denom.candidate sender text)) :=
  ⟨(decides_execute h sender command).exists_ok_iff, decides_execute h sender command,
    fun _ _ => ⟨Denom.parse_eq_error_iff, Denom.lookup_eq_error_iff⟩⟩

/-- Four things are wrong with what Bob asks for. -/
def presumption : Command := .forceTransfer "FACTORY/alice/gold" 5 "A" "B"

theorem presumption_refused :
    goldCreated.Reachable ∧
      ((goldCreated.checks "bob" presumption).filter fun check => !check.holds).length = 4 ∧
      (goldCreated.execute "bob" (.message presumption)).1 =
        .error (.rejected (.notAdmin gold.text "bob" "alice")) := by
  have hreachable : goldCreated.Reachable := (Reachable.start rfl).execute "alice" _
  have hfirst : firstFault? (goldCreated.checks "bob" presumption) =
      some (.rejected (.notAdmin gold.text "bob" "alice")) := by decide +kernel
  exact ⟨hreachable, by decide +kernel,
    ((execute_decided_by_checks hreachable "bob" presumption).2.1 _).mpr hfirst⟩

/-- A registry whose database gives no locks. -/
def lockless : Registry := start (.database { Database.ofRows ∅ with commandsFail := true })

theorem execute_lockless_creation :
    (lockless.execute "alice" (.message (.createDenom "gold" none))).1 = .error .commandFailed := by
  decide +kernel

/-- What is lacking has too many digits to be told. -/
theorem execute_vast_burn :
    (goldCreated.execute "alice" (.message (.burnTokens "factory/alice/gold" Numeral.vast ""))).1 =
      .error (.ledger .overlong) := by
  decide +kernel

/-- It is not enough that a denom is new to be created, nor to be its admin to describe it; not
everybody who burns more than there is gets told so, nor everybody who calls a denom by what is no
name. -/
theorem lockless_overlong_and_torn_refused :
    (¬ ∀ r : Registry, r.Reachable → ∀ (sender s : String) (d : Denom),
      Denom.lookup sender s = .ok d → r.admin? d = none →
        ∃ receipt, (r.execute sender (.message (.createDenom s none))).1 = .ok receipt) ∧
    (¬ ∀ r : Registry, r.Reachable → ∀ (sender : String) (text : Text) (m : Metadata) (d : Denom),
      Denom.parse text = .ok d → r.admin? d = some (Text.ofString sender) → sender ≠ "" →
        r.store.commandsFail = false →
        ∃ receipt, (r.execute sender (.message (.setMetadata text m))).1 = .ok receipt) ∧
    (¬ ∀ r : Registry, r.Reachable → ∀ (sender : String) (text : Text) (amount : Int) (d : Denom),
      Denom.parse text = .ok d → r.admin? d = some (Text.ofString sender) → sender ≠ "" →
        0 < amount → r.ledger.balance ⟨sender, d.text⟩ < amount →
        (r.execute sender (.message (.burnTokens text amount ""))).1 = .error (.ledger
          (.insufficientFunds ⟨sender, d.text⟩ (r.ledger.balance ⟨sender, d.text⟩) amount))) ∧
    ¬ ∀ (text : Text) (fault : Fault), Denom.parse text = .error fault →
      ∃ flaw, fault = .rejected (.invalidDenom text flaw) := by
  have hreachable : goldCreated.Reachable := (Reachable.start rfl).execute "alice" _
  refine ⟨fun hcreated => ?_, fun hdescribed => ?_, fun hburned => ?_, fun hrejected => ?_⟩
  · obtain ⟨receipt, hreceipt⟩ := hcreated lockless (.start rfl) "alice" "gold" gold
      (by decide +kernel) (by decide +kernel)
    rw [execute_lockless_creation] at hreceipt
    cases hreceipt
  · have hresult := hdescribed goldCreated hreachable "alice" "factory/alice/gold" overlong gold
      (by decide +kernel) (by decide +kernel) (by decide) rfl
    obtain ⟨deeds, hkeeps⟩ := hreachable.exists_keeps
    obtain ⟨deed, hjudge⟩ := hkeeps.execute_ok_iff.mp hresult
    obtain ⟨-, -, -, -, hwritable, -⟩ := judge_setMetadata.mp hjudge
    have hlong : Entry.isWritable Json.Limits.standard.digits overlong = false :=
      isWritable_of_long List.mem_cons_self (by decide) rfl
    rw [hwritable overlong rfl] at hlong
    cases hlong
  · have hresult := hburned goldCreated hreachable "alice" "factory/alice/gold" Numeral.vast gold
      (by decide +kernel) (by decide +kernel) (by decide) (by decide +kernel) (by decide +kernel)
    rw [execute_vast_burn] at hresult
    cases hresult
  · obtain ⟨flaw, hflaw⟩ := hrejected _ _ Denom.parse_torn
    cases hflaw

end Registry

end Coinage
