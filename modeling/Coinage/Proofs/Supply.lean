import Mathlib.Algebra.BigOperators.Finprod
import Coinage.Proofs.Authority

/-! How much there is of a denom. A movement changes the balances of its accounts by its amount, so
all balances together change by what is minted or burned and by nothing else: a transfer takes from
one account what it gives to another one, or to the same. After a run there is of every denom what
the successful messages of the run have minted of it, less what they have burned. -/

namespace Coinage

open Registry Book

namespace Ledger

/-- What all accounts together have of a denom. -/
noncomputable def supply (l : Ledger) (denom : String) : Int :=
  ∑ᶠ account : String, l.balance ⟨account, denom⟩

/-- The change of one balance out of all. -/
def changeAt (holding : Holding) (amount : Int) (holding' : Holding) : Int :=
  if holding' = holding then amount else 0

/-- What a movement changes the balance of a holding by. -/
def Movement.change : Movement → Holding → Int
  | .mint denom amount recipient => changeAt ⟨recipient, denom⟩ amount
  | .burn denom amount holder => changeAt ⟨holder, denom⟩ (-amount)
  | .transfer denom amount source target => fun holding =>
    changeAt ⟨source, denom⟩ (-amount) holding + changeAt ⟨target, denom⟩ amount holding

/-- How much comes into being by a movement. -/
def Movement.issue : Movement → Int
  | .mint _ amount _ => amount
  | .burn _ amount _ => -amount
  | .transfer .. => 0

variable {l l' : Ledger}

/-- One balance has changed and nobody else has got or lost anything. -/
theorem balance_eq_add_changeAt {holding : Holding} {amount : Int}
    (hown : l'.balance holding = l.balance holding + amount)
    (hothers : ∀ holding', holding' ≠ holding →
      l'.amounts.get? holding' = l.amounts.get? holding')
    (holding' : Holding) :
    l'.balance holding' = l.balance holding' + changeAt holding amount holding' := by
  by_cases heq : holding' = holding
  · rw [heq, hown, changeAt, if_pos rfl]
  · rw [balance, hothers holding' heq, changeAt, if_neg heq, add_zero, balance]

theorem balance_credit (l : Ledger) (holding : Holding) (amount : Int) (holding' : Holding) :
    (l.credit holding amount).balance holding' =
      l.balance holding' + changeAt holding amount holding' := by
  have hown : (l.credit holding amount).balance holding = l.balance holding + amount := by
    rw [balance, credit, Table.get?_insert, if_pos rfl, Option.getD_some]
  exact balance_eq_add_changeAt hown (fun _ hne => get?_credit_of_ne hne amount) holding'

theorem balance_of_debit {holding : Holding} {amount : Int} (h : l.debit holding amount = .ok l')
    (holding' : Holding) :
    l'.balance holding' = l.balance holding' + changeAt holding (-amount) holding' := by
  have hown : l'.balance holding = l.balance holding + -amount := by
    rcases debit_cases h with ⟨-, rfl⟩ | ⟨hwhole, -, rfl⟩
    · rw [balance, Table.get?_insert, if_pos rfl, Option.getD_some, sub_eq_add_neg]
    · rw [balance, Table.get?_erase, if_pos rfl, Option.getD_none, hwhole, add_neg_cancel]
  exact balance_eq_add_changeAt hown (fun _ hne => get?_debit_of_ne h hne) holding'

theorem balance_of_apply {m : Movement} (h : l.apply m = .ok l') (holding : Holding) :
    l'.balance holding = l.balance holding + m.change holding := by
  cases m with
  | mint denom amount recipient =>
      cases h
      exact balance_credit l ⟨recipient, denom⟩ amount holding
  | burn denom amount holder => exact balance_of_debit h holding
  | transfer denom amount source target =>
      obtain ⟨middle, hdebit, rfl⟩ := apply_transfer_eq_ok_iff.mp h
      rw [balance_credit, balance_of_debit hdebit, Movement.change, add_assoc]

/-- Only those that have an entry have anything. -/
theorem finite_support_balance (l : Ledger) (denom : String) :
    (Function.support fun account => l.balance ⟨account, denom⟩).Finite := by
  refine (l.amounts.keys.map Holding.address).finite_toSet.subset fun account haccount => ?_
  rw [Function.mem_support, balance] at haccount
  cases hget : l.amounts.get? ⟨account, denom⟩ with
  | none =>
      rw [hget] at haccount
      exact absurd rfl haccount
  | some amount =>
      have hentry := Table.get?_eq_some_iff.mp hget
      have hkey : (⟨account, denom⟩ : Holding) ∈ l.amounts.keys := List.mem_map_of_mem hentry
      exact List.mem_map_of_mem (f := Holding.address) hkey

theorem finite_support_changeAt (holding : Holding) (amount : Int) (denom : String) :
    (Function.support fun account => changeAt holding amount ⟨account, denom⟩).Finite := by
  refine (Set.finite_singleton holding.address).subset fun account haccount => ?_
  rw [Function.mem_support, changeAt] at haccount
  by_contra hother
  exact haccount (if_neg fun heq => hother (Set.mem_singleton_of_eq (congrArg Holding.address heq)))

theorem finsum_changeAt (holding : Holding) (amount : Int) (denom : String) :
    ∑ᶠ account, changeAt holding amount ⟨account, denom⟩ =
      if holding.denom = denom then amount else 0 := by
  have hothers : ∀ account, account ≠ holding.address →
      changeAt holding amount ⟨account, denom⟩ = 0 := fun account hother =>
    if_neg fun heq => hother (congrArg Holding.address heq)
  rw [finsum_eq_single _ holding.address hothers]
  cases holding
  simp [changeAt, eq_comm]

/-- The changes that a movement makes add up to what it issues. -/
theorem finsum_change (m : Movement) (denom : String) :
    (Function.support fun account => m.change ⟨account, denom⟩).Finite ∧
      ∑ᶠ account, m.change ⟨account, denom⟩ = if m.denom = denom then m.issue else 0 := by
  cases m with
  | mint denom' amount recipient =>
      exact ⟨finite_support_changeAt _ _ _, finsum_changeAt ⟨recipient, denom'⟩ amount denom⟩
  | burn denom' amount holder =>
      exact ⟨finite_support_changeAt _ _ _, finsum_changeAt ⟨holder, denom'⟩ (-amount) denom⟩
  | transfer denom' amount source target =>
      have hsource := finite_support_changeAt ⟨source, denom'⟩ (-amount) denom
      have htarget := finite_support_changeAt ⟨target, denom'⟩ amount denom
      refine ⟨(hsource.union htarget).subset (Function.support_add _ _), ?_⟩
      calc ∑ᶠ account, Movement.change (.transfer denom' amount source target) ⟨account, denom⟩
          = ∑ᶠ account, changeAt ⟨source, denom'⟩ (-amount) ⟨account, denom⟩ +
              ∑ᶠ account, changeAt ⟨target, denom'⟩ amount ⟨account, denom⟩ :=
            finsum_add_distrib hsource htarget
        _ = (if denom' = denom then -amount else 0) + if denom' = denom then amount else 0 := by
            rw [finsum_changeAt, finsum_changeAt]
        _ = if denom' = denom then 0 else 0 := by split <;> simp

/-- **A movement changes what there is of its denom by what it issues.** -/
theorem supply_of_apply {m : Movement} (h : l.apply m = .ok l') (denom : String) :
    l'.supply denom = l.supply denom + if m.denom = denom then m.issue else 0 := by
  obtain ⟨hfinite, hchange⟩ := finsum_change m denom
  calc l'.supply denom
      = ∑ᶠ account, (l.balance ⟨account, denom⟩ + m.change ⟨account, denom⟩) :=
        finsum_congr fun account => balance_of_apply h ⟨account, denom⟩
    _ = l.supply denom + ∑ᶠ account, m.change ⟨account, denom⟩ :=
        finsum_add_distrib (finite_support_balance l denom) hfinite
    _ = _ := by rw [hchange]

theorem supply_empty (denom : String) : (∅ : Ledger).supply denom = 0 :=
  finsum_eq_zero_of_forall_eq_zero fun _ => rfl

end Ledger

namespace Outcome

/-- How much a message has minted of a denom. -/
def minted (d : Denom) (o : Outcome) : Int :=
  match o.message, o.result with
  | .message (.mintTokens text amount _), .ok _ => if Denom.parse text = .ok d then amount else 0
  | _, _ => 0

/-- How much a message has burned of a denom. -/
def burned (d : Denom) (o : Outcome) : Int :=
  match o.message, o.result with
  | .message (.burnTokens text amount _), .ok _ => if Denom.parse text = .ok d then amount else 0
  | _, _ => 0

/-- The message was to mint or burn some of a denom, and did. -/
def Issues (d : Denom) (o : Outcome) : Prop :=
  ∃ text amount account receipt, Denom.parse text = .ok d ∧ o.result = .ok receipt ∧
    (o.message = .message (.mintTokens text amount account) ∨
      o.message = .message (.burnTokens text amount account))

variable {o : Outcome} {d : Denom}

theorem minted_of_error {fault : Fault} (h : o.result = .error fault) : o.minted d = 0 := by
  rw [minted, h]
  split
  · next heq => cases heq
  · rfl

theorem burned_of_error {fault : Fault} (h : o.result = .error fault) : o.burned d = 0 := by
  rw [burned, h]
  split
  · next heq => cases heq
  · rfl

theorem minted_of_not_issues (h : ¬ o.Issues d) : o.minted d = 0 := by
  rw [minted]
  split
  · next text amount account receipt hmessage hresult =>
      exact if_neg fun hd => h ⟨text, amount, account, receipt, hd, hresult, .inl hmessage⟩
  · rfl

theorem burned_of_not_issues (h : ¬ o.Issues d) : o.burned d = 0 := by
  rw [burned]
  split
  · next text amount account receipt hmessage hresult =>
      exact if_neg fun hd => h ⟨text, amount, account, receipt, hd, hresult, .inr hmessage⟩
  · rfl

end Outcome

/-- How much comes into being of a denom by a deed. -/
def Deed.issue (d : Denom) : Deed → Int
  | .moved m => if m.denom = d.text then m.issue else 0
  | _ => 0

/-- What a deed issues is what its message has minted less what it has burned. -/
theorem Book.issue_of_judge {b : Book} {failing : Bool} {ledger : Ledger} {sender : String}
    {command : Command} {deed : Deed} (h : b.judge failing ledger sender command = .ok deed)
    (d : Denom) (receipt : Receipt) :
    deed.issue d = Outcome.minted d ⟨⟨sender, .message command⟩, .ok receipt⟩ -
      Outcome.burned d ⟨⟨sender, .message command⟩, .ok receipt⟩ := by
  cases grants_of_judge h with
  | creation | handover | description => rfl
  | mint _ hd | burn _ hd =>
      simp only [Deed.issue, Outcome.minted, Outcome.burned, Ledger.Movement.denom,
        Ledger.Movement.issue, hd, Denom.text_inj, Except.ok.injEq]
      split <;> simp
  | transfer => exact ite_self 0

theorem Ledger.supply_after {b : Book} {failing : Bool} {ledger : Ledger} {sender : String}
    {command : Command} {deed : Deed} (h : b.judge failing ledger sender command = .ok deed)
    (d : Denom) : (ledger.after deed).supply d.text = ledger.supply d.text + deed.issue d := by
  cases deed with
  | moved m =>
      obtain ⟨l, happly⟩ := apply_of_judge h
      have hafter : ledger.after (.moved m) = l := by
        rw [after, happly]
        rfl
      rw [hafter]
      exact supply_of_apply happly d.text
  | created | handedOver | described => exact (add_zero _).symm

namespace Registry

variable {r : Registry} {deeds : List Deed}

/-- One message: what there is of a denom changes by what the message has minted and burned. -/
theorem Keeps.supply_execute (h : r.Keeps deeds) (m : Sent) (d : Denom) :
    (r.execute m.sender m.message).2.ledger.supply d.text = r.ledger.supply d.text +
      (Outcome.minted d ⟨m, (r.execute m.sender m.message).1⟩ -
        Outcome.burned d ⟨m, (r.execute m.sender m.message).1⟩) := by
  obtain ⟨sender, message⟩ := m
  rcases execute_cases h.kept sender message with
    ⟨⟨fault, hresult⟩, halike⟩ | ⟨command, deed, rfl, hjudge, hresult, hdone⟩
  · rw [halike.ledger, Outcome.minted_of_error hresult, Outcome.burned_of_error hresult, sub_zero,
      add_zero]
  · rw [hdone.ledger, hresult, Ledger.supply_after hjudge, issue_of_judge hjudge]

/-- A run: what there is of a denom is what was minted of it less what was burned. -/
theorem supply_after_run {store : Store} (hempty : store.contents = ∅) (ms : List Sent) (d : Denom) :
    ((start store).after ms).ledger.supply d.text =
      (((start store).history ms).map (Outcome.minted d)).sum -
        (((start store).history ms).map (Outcome.burned d)).sum := by
  induction ms using List.reverseRecOn with
  | nil => exact Ledger.supply_empty d.text
  | append_singleton ms m ih =>
      rw [after_concat, history_concat, (keeps_after hempty ms).supply_execute m d, ih]
      simp only [List.map_append, List.map_cons, List.map_nil, List.sum_append, List.sum_singleton]
      omega

/-- **Supply is conserved.** After any run, and for every denom, all balances together are what the
successful messages of the run have minted of it, under whatever spelling of its name, less what
they have burned; and no message changes their sum unless it mints or burns some of the denom. -/
theorem supply_eq_minted_sub_burned {store : Store} (hempty : store.contents = ∅) (ms : List Sent)
    (d : Denom) :
    (Function.support fun account =>
        ((start store).after ms).ledger.balance ⟨account, d.text⟩).Finite ∧
      ∑ᶠ account, ((start store).after ms).ledger.balance ⟨account, d.text⟩ =
        (((start store).history ms).map (Outcome.minted d)).sum -
          (((start store).history ms).map (Outcome.burned d)).sum ∧
      ∀ m : Sent,
        ¬ Outcome.Issues d ⟨m, (((start store).after ms).execute m.sender m.message).1⟩ →
        ∑ᶠ account, ((start store).after (ms ++ [m])).ledger.balance ⟨account, d.text⟩ =
          ∑ᶠ account, ((start store).after ms).ledger.balance ⟨account, d.text⟩ := by
  refine ⟨Ledger.finite_support_balance _ _, supply_after_run hempty ms d, fun m hno => ?_⟩
  have hstep := (keeps_after hempty ms).supply_execute m d
  rw [Outcome.minted_of_not_issues hno, Outcome.burned_of_not_issues hno, sub_zero, add_zero,
    ← after_concat] at hstep
  exact hstep

/-- Alice mints under one spelling, gives herself all she has, burns under another spelling, and
fails to burn more than is left. -/
def coinages : List Sent :=
  [⟨"alice", .message (.createDenom "gold" none)⟩,
    ⟨"alice", .message (.mintTokens "FACTORY/alice/gold" 10 "alice")⟩,
    ⟨"alice", .message (.forceTransfer "factory/alice/gold" 10 "alice" "alice")⟩,
    ⟨"alice", .message (.burnTokens "Factory/alice/gold" 4 "")⟩,
    ⟨"alice", .message (.burnTokens "factory/alice/gold" 7 "alice")⟩]

theorem coinages_conserve :
    (∅ : Store).contents = ∅ ∧
      ∑ᶠ account, ((start ∅).after coinages).ledger.balance ⟨account, gold.text⟩ = 6 := by
  have hempty : (∅ : Store).contents = ∅ := rfl
  have hissued : (((start ∅).history coinages).map (Outcome.minted gold)).sum -
      (((start ∅).history coinages).map (Outcome.burned gold)).sum = 6 := by decide +kernel
  exact ⟨hempty, (supply_eq_minted_sub_burned hempty coinages gold).2.1.trans hissued⟩

end Registry

end Coinage
