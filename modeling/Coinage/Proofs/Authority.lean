import Coinage.Proofs.History

/-! Who changes what. Everything that a message changes is about the one denom that the message
names, and lies within the keys and the holdings that go with its kind. Except for a creation, which
finds no admin, the sender is the admin of that denom. -/

namespace Coinage

open Registry Book Entry

/-- The denom that a command is about. -/
def Command.denom? (sender : String) : Command → Option Denom
  | .createDenom subdenom _ => (Denom.lookup sender subdenom).toOption
  | .changeAdmin text _ | .mintTokens text _ _ | .burnTokens text _ _ | .forceTransfer text _ _ _
  | .setMetadata text _ => (Denom.parse text).toOption

/-- The keys whose texts a command about `d` may change. -/
def Command.keys (sender : String) (d : Denom) : Command → List Text
  | .createDenom .. => [adminKey d, metadataKey d, creatorKey sender]
  | .changeAdmin .. => [adminKey d]
  | .setMetadata .. => [metadataKey d]
  | .mintTokens .. | .burnTokens .. | .forceTransfer .. => []

/-- The accounts whose balances a command may change. -/
def Command.accounts (sender : String) : Command → List Text
  | .mintTokens _ _ recipient => [recipient]
  | .burnTokens .. => [sender]
  | .forceTransfer _ _ source target => [source, target]
  | .createDenom .. | .changeAdmin .. | .setMetadata .. => []

theorem Command.keys_subset (sender : String) (d : Denom) (command : Command) :
    command.keys sender d ⊆ [adminKey d, metadataKey d, creatorKey sender] := by
  cases command <;> simp [keys]

def Command.isCreation : Command → Bool
  | .createDenom .. => true
  | _ => false

namespace Table

variable {κ α : Type} [Ord κ] [Std.TransOrd κ] [Std.LawfulEqOrd κ] [DecidableEq κ]

theorem get?_insertAll_of_not_mem {k : κ} {es : List (κ × α)} (h : k ∉ es.map Prod.fst)
    (t : Table κ α) : (t.insertAll es).get? k = t.get? k := by
  induction es generalizing t with
  | nil => rfl
  | cons e r ih =>
      rw [List.map_cons, List.mem_cons, not_or] at h
      rw [insertAll_cons, ih h.2, get?_insert, if_neg h.1]

end Table

namespace Ledger

def Movement.denom : Movement → String
  | .mint denom .. | .burn denom .. | .transfer denom .. => denom

/-- The accounts that a movement is about. -/
def Movement.accounts : Movement → List String
  | .mint _ _ recipient => [recipient]
  | .burn _ _ holder => [holder]
  | .transfer _ _ source target => [source, target]

theorem get?_credit_of_ne {l : Ledger} {holding holding' : Holding} (h : holding' ≠ holding)
    (amount : Int) : (l.credit holding amount).amounts.get? holding' = l.amounts.get? holding' := by
  rw [credit, Table.get?_insert, if_neg h]

/-- A debit takes a part of a holding, or the whole of one that is there. -/
theorem debit_cases {l l' : Ledger} {holding : Holding} {amount : Int}
    (h : l.debit holding amount = .ok l') :
    amount < l.balance holding ∧
        l' = ⟨l.amounts.insert holding (l.balance holding - amount)⟩ ∨
      l.balance holding = amount ∧ (l.amounts.get? holding).isSome = true ∧
        l' = ⟨l.amounts.erase holding⟩ := by
  simp only [debit] at h
  split at h
  · cases h
  · next henough =>
      split at h
      · next hpart =>
          cases h
          exact .inl ⟨by omega, rfl⟩
      · next hwhole =>
          split at h
          · cases h
          · next hthere =>
              cases h
              exact .inr ⟨not_not.mp hwhole, by simpa [Option.isSome_iff_ne_none] using hthere, rfl⟩

theorem apply_transfer_eq_ok_iff {l l' : Ledger} {denom source target : String} {amount : Int} :
    l.apply (.transfer denom amount source target) = .ok l' ↔
      ∃ middle, l.debit ⟨source, denom⟩ amount = .ok middle ∧
        middle.credit ⟨target, denom⟩ amount = l' := by
  rw [apply]
  cases l.debit ⟨source, denom⟩ amount with
  | error e => exact ⟨fun h => (by cases h), fun ⟨_, h, _⟩ => (by cases h)⟩
  | ok middle => exact ⟨fun h => ⟨middle, rfl, Except.ok.inj h⟩, fun ⟨_, rfl, h⟩ => congrArg _ h⟩

theorem get?_debit_of_ne {l l' : Ledger} {holding holding' : Holding} {amount : Int}
    (hdebit : l.debit holding amount = .ok l') (h : holding' ≠ holding) :
    l'.amounts.get? holding' = l.amounts.get? holding' := by
  rcases debit_cases hdebit with ⟨-, rfl⟩ | ⟨-, -, rfl⟩
  · rw [Table.get?_insert, if_neg h]
  · rw [Table.get?_erase, if_neg h]

theorem Movement.ne_of_apart {m : Movement} {holding : Holding}
    (h : holding.denom = m.denom → holding.address ∉ m.accounts) {account : String}
    (haccount : account ∈ m.accounts) : holding ≠ ⟨account, m.denom⟩ := by
  rintro rfl
  exact h rfl haccount

/-- **A movement changes nothing but what its accounts have of its denom.** -/
theorem get?_apply_of_apart {l l' : Ledger} {m : Movement} (happly : l.apply m = .ok l')
    {holding : Holding} (h : holding.denom = m.denom → holding.address ∉ m.accounts) :
    l'.amounts.get? holding = l.amounts.get? holding := by
  cases m with
  | mint denom amount recipient =>
      cases happly
      exact get?_credit_of_ne (Movement.ne_of_apart h List.mem_cons_self) amount
  | burn denom amount holder =>
      exact get?_debit_of_ne happly (Movement.ne_of_apart h List.mem_cons_self)
  | transfer denom amount source target =>
      have hsource : holding ≠ ⟨source, denom⟩ := Movement.ne_of_apart h List.mem_cons_self
      have htarget : holding ≠ ⟨target, denom⟩ :=
        Movement.ne_of_apart h (List.mem_cons_of_mem source List.mem_cons_self)
      obtain ⟨middle, hdebit, rfl⟩ := apply_transfer_eq_ok_iff.mp happly
      rw [get?_credit_of_ne htarget, get?_debit_of_ne hdebit hsource]

theorem get?_after_moved {l : Ledger} {m : Movement} {holding : Holding}
    (h : holding.denom = m.denom → holding.address ∉ m.accounts) :
    (l.after (.moved m)).amounts.get? holding = l.amounts.get? holding := by
  rw [after]
  cases happly : l.apply m with
  | error e => rfl
  | ok l' => exact get?_apply_of_apart happly h

end Ledger

/-- What entitles a sender to a deed, and what the deed is confined to. -/
structure Book.Warrant (b : Book) (sender : String) (command : Command) (deed : Deed) (d : Denom) :
    Prop where
  denom : command.denom? sender = some d
  rows : ∀ key, key ∉ command.keys sender d → key ∉ (b.rows deed).map Prod.fst
  holdings : ∀ (l : Ledger) (holding : Holding),
    (holding.denom = d.text → Text.ofString holding.address ∉ command.accounts sender) →
    (l.after deed).amounts.get? holding = l.amounts.get? holding
  creation : command.isCreation = true → b.admin d = none ∧ ∀ l : Ledger, l.after deed = l
  admin : command.isCreation = false → b.admin d = some sender ∧ sender ≠ ""

namespace Book

variable {b : Book} {failing : Bool} {ledger : Ledger} {sender : String} {command : Command}
  {deed : Deed}

theorem denom?_of_parse {text : Text} {d : Denom} (hd : Denom.parse text = .ok d) :
    (Denom.parse text).toOption = some d := by
  rw [hd]
  rfl

/-- The warrant of an admin who moves tokens of the denom. -/
theorem warrant_moved {m : Ledger.Movement} {d : Denom} (hdenom : command.denom? sender = some d)
    (hm : m.denom = d.text) (haccounts : command.accounts sender = m.accounts.map Text.ofString)
    (hcreation : command.isCreation = false) (hadmin : b.admin d = some sender ∧ sender ≠ "") :
    b.Warrant sender command (.moved m) d where
  denom := hdenom
  rows _ _ := List.not_mem_nil
  holdings l holding hout := by
    refine Ledger.get?_after_moved fun heq hmem => ?_
    have hout := hout (heq.trans hm)
    rw [haccounts] at hout
    exact hout (List.mem_map_of_mem hmem)
  creation h := by
    rw [hcreation] at h
    cases h
  admin _ := hadmin

/-- The warrant of an admin for a deed that is no movement. -/
theorem warrant_written {d : Denom} (hdenom : command.denom? sender = some d)
    (hrows : (b.rows deed).map Prod.fst = command.keys sender d)
    (hledger : ∀ l : Ledger, l.after deed = l) (hcreation : command.isCreation = false)
    (hadmin : b.admin d = some sender ∧ sender ≠ "") : b.Warrant sender command deed d where
  denom := hdenom
  rows _ hkey := hrows ▸ hkey
  holdings l _ _ := by rw [hledger]
  creation h := by
    rw [hcreation] at h
    cases h
  admin _ := hadmin

/-- **Whoever gets through has the authority for it, and keeps within it.** -/
theorem exists_warrant (h : b.judge failing ledger sender command = .ok deed) :
    ∃ d, b.Warrant sender command deed d := by
  cases grants_of_judge h with
  | @creation d metadata hcreator _ hnew _ =>
      subst hcreator
      refine ⟨d, ?_, fun key hkey => ?_, fun _ _ _ => rfl, fun _ => ⟨hnew, fun _ => rfl⟩,
        fun h => by cases h⟩
      · exact congrArg Except.toOption (Denom.lookup_creator_subdenom d)
      · simp only [Command.keys, List.mem_cons, List.not_mem_nil, or_false, not_or] at hkey
        cases metadata <;> simp [rows, hkey]
  | handover hd _ hadmin | description hd _ hadmin =>
      exact ⟨_, warrant_written (denom?_of_parse hd) rfl (fun _ => rfl) rfl hadmin⟩
  | mint _ hd hadmin | burn _ hd hadmin | transfer _ hd hadmin =>
      exact ⟨_, warrant_moved (denom?_of_parse hd) rfl rfl rfl hadmin⟩

end Book

namespace Registry

/-- Who the admin of a denom is, what is said about it or what somebody has of it is different. -/
def Touches (r r' : Registry) (d : Denom) : Prop :=
  r'.store.contents.get? (adminKey d) ≠ r.store.contents.get? (adminKey d) ∨
  r'.store.contents.get? (metadataKey d) ≠ r.store.contents.get? (metadataKey d) ∨
  ∃ account, r'.ledger.balance ⟨account, d.text⟩ ≠ r.ledger.balance ⟨account, d.text⟩

variable {r r' : Registry} {b : Book} {sender : String} {command : Command} {deed : Deed} {d : Denom}

theorem get?_of_warrant (hwarrant : b.Warrant sender command deed d) (hdone : Carried b deed r r')
    {key : Text} (hkey : r'.store.contents.get? key ≠ r.store.contents.get? key) :
    key ∈ command.keys sender d := by
  by_contra hout
  rw [hdone.contents, Table.get?_insertAll_of_not_mem (hwarrant.rows key hout)] at hkey
  exact hkey rfl

theorem amounts_of_warrant (hwarrant : b.Warrant sender command deed d)
    (hdone : Carried b deed r r') {holding : Holding}
    (hamount : r'.ledger.amounts.get? holding ≠ r.ledger.amounts.get? holding) :
    holding.denom = d.text ∧ Text.ofString holding.address ∈ command.accounts sender := by
  by_contra hout
  rw [hdone.ledger, hwarrant.holdings r.ledger holding (not_and.mp hout)] at hamount
  exact hamount rfl

/-- What is about one denom is not about another one. -/
theorem eq_of_touches (hwarrant : b.Warrant sender command deed d) (hdone : Carried b deed r r')
    {d' : Denom} (htouches : r.Touches r' d') : d' = d := by
  rcases htouches with hadmin | hmetadata | ⟨account, hbalance⟩
  · have hkey := Command.keys_subset sender d command (get?_of_warrant hwarrant hdone hadmin)
    simpa [adminKey_inj, adminKey_ne_metadataKey, adminKey_ne_creatorKey] using hkey
  · have hkey := Command.keys_subset sender d command (get?_of_warrant hwarrant hdone hmetadata)
    simpa [metadataKey_inj, (adminKey_ne_metadataKey _ _).symm, metadataKey_ne_creatorKey] using hkey
  · have hamount : r'.ledger.amounts.get? ⟨account, d'.text⟩ ≠
        r.ledger.amounts.get? ⟨account, d'.text⟩ := by
      intro heq
      rw [Ledger.balance, Ledger.balance, heq] at hbalance
      exact hbalance rfl
    exact Denom.text_inj.mp (amounts_of_warrant hwarrant hdone hamount).1

theorem exists_warrant_of_touches {deeds : List Deed} (hkeeps : r.Keeps deeds)
    {message : Submitted Command} (htouches : r.Touches (r.execute sender message).2 d) :
    ∃ command deed, message = .message command ∧
      (ofDeeds deeds).Warrant sender command deed d ∧
      Carried (ofDeeds deeds) deed r (r.execute sender message).2 := by
  rcases execute_cases hkeeps.kept sender message with
    ⟨-, halike⟩ | ⟨command, deed, rfl, hjudge, -, hdone⟩
  · rw [Touches, halike.contents, halike.ledger] at htouches
    rcases htouches with hno | hno | ⟨account, hno⟩ <;> exact absurd rfl hno
  · obtain ⟨d', hwarrant⟩ := exists_warrant hjudge
    obtain rfl := eq_of_touches hwarrant hdone htouches
    exact ⟨command, deed, rfl, hwarrant, hdone⟩

/-- **Nothing changes without authority, and nothing else changes.** If a message changes the admin
of a denom, its metadata or what somebody has of it, then it is a creation of this very denom, which
had no admin and of which nobody's balance changes; or it names this denom, and its sender is the
admin. Beyond that no text changes but those under the keys that go with the message, and nothing
that anybody has but what its accounts have of its denom; and none of it unless it succeeds. -/
theorem execute_changes_with_authority (h : r.Reachable) (sender : String)
    (message : Submitted Command) :
    (∀ d, r.Touches (r.execute sender message).2 d →
      ∃ command, message = .message command ∧ command.denom? sender = some d ∧
        (command.isCreation = true ∧ r.store.contents.get? (adminKey d) = none ∧
            (r.execute sender message).2.ledger = r.ledger ∨
          command.isCreation = false ∧
            r.store.contents.get? (adminKey d) = some (adminText sender) ∧ sender ≠ "")) ∧
      (∀ key, (r.execute sender message).2.store.contents.get? key ≠ r.store.contents.get? key →
        ∃ command d receipt, message = .message command ∧
          (r.execute sender message).1 = .ok receipt ∧ command.denom? sender = some d ∧
          key ∈ command.keys sender d) ∧
      ∀ holding, (r.execute sender message).2.ledger.amounts.get? holding ≠
          r.ledger.amounts.get? holding →
        ∃ command d receipt, message = .message command ∧
          (r.execute sender message).1 = .ok receipt ∧ command.denom? sender = some d ∧
          holding.denom = d.text ∧ Text.ofString holding.address ∈ command.accounts sender := by
  obtain ⟨deeds, hkeeps⟩ := h.exists_keeps
  refine ⟨fun d htouches => ?_, ?_⟩
  · obtain ⟨command, deed, rfl, hwarrant, hdone⟩ := exists_warrant_of_touches hkeeps htouches
    refine ⟨command, rfl, hwarrant.denom, ?_⟩
    cases hcreation : command.isCreation with
    | true =>
        obtain ⟨hnew, hledger⟩ := hwarrant.creation hcreation
        refine .inl ⟨rfl, ?_, hdone.ledger.trans (hledger r.ledger)⟩
        rw [hkeeps.kept.admin, hnew]
        rfl
    | false =>
        obtain ⟨hadmin, hsender⟩ := hwarrant.admin hcreation
        refine .inr ⟨rfl, ?_, hsender⟩
        rw [hkeeps.kept.admin, hadmin]
        rfl
  · rcases execute_cases hkeeps.kept sender message with
      ⟨-, halike⟩ | ⟨command, deed, rfl, hjudge, hresult, hdone⟩
    · refine ⟨fun key hkey => ?_, fun holding hamount => ?_⟩
      · exact absurd (congrArg (Table.get? · key) halike.contents) hkey
      · exact absurd (congrArg (fun l => l.amounts.get? holding) halike.ledger) hamount
    · obtain ⟨d, hwarrant⟩ := exists_warrant hjudge
      refine ⟨fun key hkey => ?_, fun holding hamount => ?_⟩
      · exact ⟨command, d, _, rfl, hresult, hwarrant.denom, get?_of_warrant hwarrant hdone hkey⟩
      · exact ⟨command, d, _, rfl, hresult, hwarrant.denom,
          amounts_of_warrant hwarrant hdone hamount⟩

/-- Alice's gold. -/
def gold : Denom := ⟨"alice", "gold", by decide, by decide, by decide⟩

/-- Just after its creation. -/
def goldCreated : Registry :=
  (start ∅).after [⟨"alice", .message (.createDenom "gold" none)⟩]

def goldHandover : Submitted Command := .message (.changeAdmin "FACTORY/alice/gold" "bob")

theorem goldHandover_has_authority :
    goldCreated.Reachable ∧ goldCreated.Touches (goldCreated.execute "alice" goldHandover).2 gold ∧
      ∃ command : Command, goldHandover = .message command ∧ command.denom? "alice" = some gold ∧
        (command.isCreation = true ∧ goldCreated.store.contents.get? (adminKey gold) = none ∧
            (goldCreated.execute "alice" goldHandover).2.ledger = goldCreated.ledger ∨
          command.isCreation = false ∧
            goldCreated.store.contents.get? (adminKey gold) = some (adminText "alice") ∧
            "alice" ≠ "") := by
  have hreachable : goldCreated.Reachable := (Reachable.start rfl).execute "alice" _
  have htouches : goldCreated.Touches (goldCreated.execute "alice" goldHandover).2 gold :=
    .inl (by decide +kernel)
  exact ⟨hreachable, htouches,
    (execute_changes_with_authority hreachable "alice" goldHandover).1 gold htouches⟩

end Registry

end Coinage
