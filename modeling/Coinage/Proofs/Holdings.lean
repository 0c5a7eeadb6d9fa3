import Coinage.Proofs.Consistency
import Coinage.Proofs.Creation
import Coinage.Proofs.Form
import Coinage.Proofs.Precedence
import Coinage.Proofs.Spelling

/-! What accounts have. The ledger takes any integer for an amount and any text for an account or a
denom, but behind a registry it never gets to see such things: whatever was sent, it holds nothing
but positive amounts, at addresses and in denoms that exist under just that name. So an account is
listed with what it has, and a movement fails for want of funds and for nothing else. -/

namespace Coinage

open Registry Book Deed Check Coinage.Except

namespace Ledger

/-- The holding that a movement gives to, and how much it gives. -/
def Movement.credit? : Movement → Option (Holding × Int)
  | .mint denom amount recipient => some (⟨recipient, denom⟩, amount)
  | .burn .. => none
  | .transfer denom amount _ target => some (⟨target, denom⟩, amount)

/-- Nothing is held but positive amounts, and those only where they may be. -/
def HoldsOnly (P : Holding → Prop) (l : Ledger) : Prop :=
  ∀ holding amount, l.amounts.get? holding = some amount → 0 < amount ∧ P holding

variable {P Q : Holding → Prop} {l l' : Ledger}

theorem holdsOnly_empty : HoldsOnly P ∅ := fun _ _ h => by cases h

theorem HoldsOnly.mono (h : l.HoldsOnly P) (hPQ : ∀ holding, P holding → Q holding) :
    l.HoldsOnly Q := fun holding amount hget =>
  ⟨(h holding amount hget).1, hPQ holding (h holding amount hget).2⟩

theorem HoldsOnly.balance_nonneg (h : l.HoldsOnly P) (holding : Holding) :
    0 ≤ l.balance holding := by
  rw [balance]
  cases hget : l.amounts.get? holding with
  | none => exact le_refl 0
  | some amount => exact (h holding amount hget).1.le

/-- Where something is held, it may be held. -/
theorem HoldsOnly.of_balance (h : l.HoldsOnly P) {holding : Holding}
    (hbalance : 0 < l.balance holding) : P holding := by
  rw [balance] at hbalance
  cases hget : l.amounts.get? holding with
  | none =>
      rw [hget] at hbalance
      exact absurd hbalance (lt_irrefl 0)
  | some amount => exact (h holding amount hget).2

theorem HoldsOnly.insert (h : l.HoldsOnly P) {holding : Holding} {amount : Int}
    (hamount : 0 < amount) (hholding : P holding) :
    HoldsOnly P ⟨l.amounts.insert holding amount⟩ := by
  intro holding' amount' hget
  rw [Table.get?_insert] at hget
  split at hget
  · next heq =>
      cases hget
      exact ⟨hamount, heq ▸ hholding⟩
  · exact h holding' amount' hget

theorem HoldsOnly.credit (h : l.HoldsOnly P) {holding : Holding} {amount : Int}
    (hamount : 0 < amount) (hholding : P holding) : (l.credit holding amount).HoldsOnly P :=
  h.insert (Int.add_pos_of_nonneg_of_pos (h.balance_nonneg holding) hamount) hholding

theorem HoldsOnly.debit (h : l.HoldsOnly P) {holding : Holding} {amount : Int}
    (hamount : 0 < amount) (hdebit : l.debit holding amount = .ok l') : l'.HoldsOnly P := by
  rcases debit_cases hdebit with ⟨hpart, rfl⟩ | ⟨-, -, rfl⟩
  · exact h.insert (Int.sub_pos_of_lt hpart) (h.of_balance (hamount.trans hpart))
  · intro holding' amount' hget
    rw [Table.get?_erase] at hget
    split at hget
    · cases hget
    · exact h holding' amount' hget

/-- A movement of a positive amount keeps to where things may be held, if that is where it leads. -/
theorem HoldsOnly.apply (h : l.HoldsOnly P) {m : Movement}
    (hdebit : ∀ holding amount, m.debit? = some (holding, amount) → 0 < amount)
    (hcredit : ∀ holding amount, m.credit? = some (holding, amount) → 0 < amount ∧ P holding)
    (happly : l.apply m = .ok l') : l'.HoldsOnly P := by
  cases m with
  | mint denom amount recipient =>
      cases happly
      obtain ⟨hamount, hrecipient⟩ := hcredit _ _ rfl
      exact h.credit hamount hrecipient
  | burn denom amount holder => exact h.debit (hdebit _ _ rfl) happly
  | transfer denom amount source target =>
      obtain ⟨middle, htaken, rfl⟩ := apply_transfer_eq_ok_iff.mp happly
      obtain ⟨hamount, htarget⟩ := hcredit _ _ rfl
      exact (h.debit (hdebit _ _ rfl) htaken).credit hamount htarget

/-! ### The holdings of an account -/

theorem mem_holdings_iff {address denom : String} {amount : Int} :
    (denom, amount) ∈ l.holdings address ↔ l.amounts.get? ⟨address, denom⟩ = some amount := by
  rw [Table.get?_eq_some_iff, holdings, List.mem_filterMap]
  constructor
  · rintro ⟨⟨holding, amount'⟩, hmem, hsome⟩
    obtain ⟨haddress, heq⟩ := Option.ite_none_right_eq_some.mp hsome
    cases heq
    exact haddress ▸ hmem
  · exact fun hmem => ⟨_, hmem, if_pos rfl⟩

theorem HoldsOnly.mem_holdings_iff (h : l.HoldsOnly P) {address denom : String} {amount : Int} :
    (denom, amount) ∈ l.holdings address ↔ l.balance ⟨address, denom⟩ = amount ∧ amount ≠ 0 := by
  rw [Ledger.mem_holdings_iff, balance]
  cases hget : l.amounts.get? ⟨address, denom⟩ with
  | none => simp [eq_comm]
  | some amount' =>
      have hpositive : 0 < amount' := (h _ _ hget).1
      simp only [Option.some.injEq, Option.getD_some]
      exact ⟨fun heq => ⟨heq, by omega⟩, fun heq => heq.1⟩

/-- The denoms of an account come in the order of their characters, and none comes twice. -/
theorem holdings_increasing (l : Ledger) (address : String) :
    ((l.holdings address).map Prod.fst).Pairwise (· < ·) := by
  rw [List.pairwise_map, holdings]
  refine l.amounts.ordered.filterMap _ ?_
  rintro ⟨holding, amount⟩ ⟨holding', amount'⟩ hprecedes entry hentry entry' hentry'
  obtain ⟨haddress, heq⟩ := Option.ite_none_right_eq_some.mp hentry
  obtain ⟨haddress', heq'⟩ := Option.ite_none_right_eq_some.mp hentry'
  cases heq
  cases heq'
  have hlt : compare holding holding' = .lt := hprecedes
  change (compare holding.address holding'.address).then _ = .lt at hlt
  -- At one address the denoms alone decide the order.
  rw [haddress, haddress', Std.ReflOrd.compare_self, Ordering.eq_then] at hlt
  exact compareOfLessAndEq_eq_lt.mp hlt

end Ledger

namespace Deed

/-- Where something may be held after the deeds: at an address, in a denom that was created and that
its own text leads to. -/
structure Holdable (deeds : List Deed) (holding : Holding) : Prop where
  address : Address.isValid holding.address = true
  denom : ∃ d ∈ creations deeds, '/' ∉ d.subdenom.toList ∧ d.text = holding.denom

variable {deeds : List Deed} {deed : Deed}

theorem Holdable.concat {holding : Holding} (h : Holdable deeds holding) (deed : Deed) :
    Holdable (deeds ++ [deed]) holding where
  address := h.address
  denom := by
    obtain ⟨d, hmem, hd⟩ := h.denom
    rw [creations_concat]
    exact ⟨d, List.mem_append_left _ hmem, hd⟩

variable {failing : Bool} {ledger : Ledger} {sender : String} {command : Command}

/-- What the ledger is given to do, it is given with a positive amount and a place to put it. -/
theorem holdable_of_judge {m : Ledger.Movement}
    (h : (ofDeeds deeds).judge failing ledger sender command = .ok (.moved m)) :
    (∀ holding amount, m.debit? = some (holding, amount) → 0 < amount) ∧
      ∀ holding amount, m.credit? = some (holding, amount) → 0 < amount ∧ Holdable deeds holding := by
  have hexists : ∀ {text : Text} {d : Denom}, Denom.parse text = .ok d →
      (ofDeeds deeds).admin d = some sender →
      ∃ d' ∈ creations deeds, '/' ∉ d'.subdenom.toList ∧ d'.text = d.text := by
    intro text d hd hadmin
    have hthere : ((ofDeeds deeds).admin d).isSome = true := by rw [hadmin]; rfl
    exact ⟨d, isSome_admin_ofDeeds.mp hthere, Denom.noSlash_of_parse hd, rfl⟩
  cases grants_of_judge h with
  | mint hamount hd hadmin hrecipient _ =>
      refine ⟨fun _ _ hnone => (by cases hnone), fun _ _ hsome => ?_⟩
      cases hsome
      exact ⟨hamount, hrecipient, hexists hd hadmin.1⟩
  | burn hamount hd hadmin _ _ =>
      refine ⟨fun _ _ hsome => ?_, fun _ _ hnone => by cases hnone⟩
      cases hsome
      exact hamount
  | transfer hamount hd hadmin _ htarget _ =>
      refine ⟨fun _ _ hsome => ?_, fun _ _ hsome => ?_⟩
      · cases hsome
        exact hamount
      · cases hsome
        exact ⟨hamount, htarget, hexists hd hadmin.1⟩

/-- One more deed. -/
theorem holdsOnly_after (h : ledger.HoldsOnly (Holdable deeds))
    (hjudge : (ofDeeds deeds).judge failing ledger sender command = .ok deed) :
    (ledger.after deed).HoldsOnly (Holdable (deeds ++ [deed])) := by
  refine Ledger.HoldsOnly.mono (P := Holdable deeds) ?_ fun _ hholding => hholding.concat deed
  cases deed with
  | moved m =>
      obtain ⟨l, happly⟩ := apply_of_judge hjudge
      have hafter : ledger.after (.moved m) = l := by
        rw [Ledger.after, happly]
        rfl
      rw [hafter]
      obtain ⟨hdebit, hcredit⟩ := holdable_of_judge hjudge
      exact h.apply hdebit hcredit happly
  | created | handedOver | described => exact h

end Deed

namespace Registry

variable {r : Registry}

/-- The registry has kept what was done, and its ledger holds nothing but what it may. -/
def KeepsSound (r : Registry) : Prop :=
  ∃ deeds, r.Keeps deeds ∧ r.ledger.HoldsOnly (Holdable deeds)

theorem keepsSound_of_empty (hcontents : r.store.contents = ∅) (hledger : r.ledger = ∅) :
    r.KeepsSound :=
  ⟨[], ⟨orderly_nil, hcontents ▸ kept_empty, hledger⟩, hledger ▸ Ledger.holdsOnly_empty⟩

theorem KeepsSound.of_same {t : Registry} (h : r.KeepsSound)
    (hcontents : t.store.contents = r.store.contents) (hledger : t.ledger = r.ledger) :
    t.KeepsSound := by
  obtain ⟨deeds, hkeeps, hholds⟩ := h
  exact ⟨deeds, ⟨hkeeps.orderly, hcontents ▸ hkeeps.kept, hledger.trans hkeeps.ledger⟩,
    hledger ▸ hholds⟩

/-- One message. -/
theorem KeepsSound.execute (h : r.KeepsSound) (sender : String) (message : Submitted Command) :
    (r.execute sender message).2.KeepsSound := by
  obtain ⟨deeds, hkeeps, hholds⟩ := h
  rcases execute_cases hkeeps.kept sender message with
    ⟨-, halike⟩ | ⟨command, deed, rfl, hjudge, -, hdone⟩
  · exact KeepsSound.of_same ⟨deeds, hkeeps, hholds⟩ halike.contents halike.ledger
  · exact ⟨deeds ++ [deed], hkeeps.carried (permits_of_judge hjudge) (canEnter_of_judge hjudge) hdone,
      hdone.ledger ▸ holdsOnly_after hholds hjudge⟩

/-- All messages. -/
theorem Reachable.keepsSound (h : r.Reachable) : r.KeepsSound := by
  induction h with
  | start hempty => exact keepsSound_of_empty hempty rfl
  | execute _ sender message ih => exact ih.execute sender message
  | @setCommandsFail r _ failing ih =>
      refine ih.of_same ?_ rfl
      cases r.store <;> rfl

/-! ### When the ledger fails -/

/-- The fault is none of the ledger. -/
def IsOwn : Fault → Prop
  | .ledger _ => False
  | _ => True

/-- Whichever check does not hold, its fault is none of the ledger. -/
def AreOwn (checks : List Check) : Prop := ∀ check ∈ checks, IsOwn check.fault

theorem exists_of_firstFault? {checks : List Check} {fault : Fault}
    (h : firstFault? checks = some fault) : ∃ check ∈ checks, check.fault = fault := by
  obtain ⟨check, hfind, rfl⟩ := Option.map_eq_some_iff.mp h
  exact ⟨check, List.mem_of_find?_eq_some hfind, rfl⟩

theorem areOwn_append {checks checks' : List Check} (h : AreOwn checks) (h' : AreOwn checks') :
    AreOwn (checks ++ checks') := fun check hcheck =>
  (List.mem_append.mp hcheck).elim (h check) (h' check)

theorem areOwn_found {α : Type} {result : Except Fault α} {checks : α → List Check}
    (hfails : FailsOnly IsOwn result) (hchecks : ∀ a, AreOwn (checks a)) :
    AreOwn (found result checks) := by
  cases result with
  | ok a => exact hchecks a
  | error fault =>
      intro check hcheck
      rw [List.mem_singleton.mp hcheck]
      exact hfails fault rfl

theorem failsOnly_isOwn_lookup (creator subdenom : Text) :
    FailsOnly IsOwn (Denom.lookup creator subdenom) := by
  intro fault hfault
  rcases Denom.lookup_eq_error_iff.mp hfault with ⟨c, s, flaw, -, -, -, rfl⟩ | ⟨-, rfl⟩ <;> trivial

theorem failsOnly_isOwn_parse (text : Text) : FailsOnly IsOwn (Denom.parse text) := by
  intro fault hfault
  rcases Denom.parse_eq_error_iff.mp hfault with ⟨flaw, -, rfl⟩ | ⟨_, _, _, -, -, -, rfl⟩ <;> trivial

theorem areOwn_adminChecks (sender : String) (d : Denom) : AreOwn (r.adminChecks sender d) := by
  simp [AreOwn, adminChecks, IsOwn]

theorem areOwn_addressChecks (text : Text) : AreOwn (addressChecks text) := by
  simp [AreOwn, addressChecks, IsOwn]

theorem areOwn_movementChecks (sender : String) (text : Text) (amount : Int) :
    AreOwn (r.movementChecks sender text amount) :=
  areOwn_append (by simp [AreOwn, amountChecks, IsOwn])
    (areOwn_found (failsOnly_isOwn_parse text) (areOwn_adminChecks sender))

/-- The registry itself does not ask whether there is enough. -/
theorem areOwn_permissions (sender : String) (command : Command) :
    AreOwn (r.permissions sender command) := by
  have hworks : AreOwn [r.lockCheck] := by simp [AreOwn, lockCheck, IsOwn]
  cases command with
  | createDenom subdenom metadata =>
      refine areOwn_found (failsOnly_isOwn_lookup sender subdenom) fun d => ?_
      simp [AreOwn, lockCheck, writableCheck, IsOwn]
  | changeAdmin text newAdmin =>
      refine areOwn_found (failsOnly_isOwn_parse text) fun d =>
        areOwn_append hworks (areOwn_append (areOwn_adminChecks sender d) ?_)
      simp [AreOwn, newAdminChecks, IsOwn]
  | mintTokens text amount recipient =>
      exact areOwn_append (areOwn_movementChecks sender text amount) (areOwn_addressChecks recipient)
  | burnTokens text amount holder =>
      refine areOwn_append (areOwn_movementChecks sender text amount) ?_
      simp [AreOwn, holderChecks, IsOwn]
  | forceTransfer text amount source target =>
      exact areOwn_append (areOwn_movementChecks sender text amount)
        (areOwn_append (areOwn_addressChecks source) (areOwn_addressChecks target))
  | setMetadata text m =>
      refine areOwn_found (failsOnly_isOwn_parse text) fun d =>
        areOwn_append hworks (areOwn_append (areOwn_adminChecks sender d) ?_)
      simp [AreOwn, writableCheck, IsOwn]

/-- The ledger is to blame if the registry has nothing against the command and there is too little
to be taken. -/
theorem firstFault?_checks_eq_ledger_iff {sender : String} {command : Command} {e : Ledger.Error} :
    firstFault? (r.checks sender command) = some (.ledger e) ↔
      (∀ check ∈ r.permissions sender command, check.holds = true) ∧
      ∃ m, command.deed? sender = some (.moved m) ∧ r.ledger.Lacks m e := by
  rw [checks, firstFault?_append]
  cases hpermitted : firstFault? (r.permissions sender command) with
  | some fault =>
      have hown : IsOwn fault := by
        obtain ⟨check, hcheck, rfl⟩ := exists_of_firstFault? hpermitted
        exact areOwn_permissions sender command check hcheck
      have hfirst : fault ≠ .ledger e := by
        rintro rfl
        exact hown
      simp [← firstFault?_eq_none_iff, hpermitted, hfirst]
  | none =>
      rw [Option.none_or, ← firstFault?_eq_none_iff, Ledger.firstFault?_fundsChecks_eq_some_iff]
      simp [hpermitted]

theorem firstFault?_amountChecks {amount : Int} (h : amount ≤ 0) :
    firstFault? (amountChecks amount) =
      some (if amount = 0 then .rejected .zeroAmount else .negativeAmount amount) := by
  by_cases hzero : amount = 0
  · simp [amountChecks, firstFault?, hzero]
  · have hnegative : ¬ 0 ≤ amount := by omega
    simp [amountChecks, firstFault?, hzero, hnegative]

/-- The amount comes first. -/
theorem firstFault?_checks_of_amount {sender : String} {command : Command} {amount : Int}
    {fault : Fault} (hamount : command.amount? = some amount)
    (hfault : firstFault? (amountChecks amount) = some fault) :
    firstFault? (r.checks sender command) = some fault := by
  have hfirst : ∀ rest, firstFault? (amountChecks amount ++ rest) = some fault := by
    intro rest
    rw [firstFault?_append, hfault, Option.some_or]
  cases command with
  | createDenom | changeAdmin | setMetadata => cases hamount
  | mintTokens text amount' | burnTokens text amount' | forceTransfer text amount' =>
      cases hamount
      simp only [checks, permissions, movementChecks, List.append_assoc]
      exact hfirst _

/-- What is true of the ledger behind a registry. -/
structure SoundLedger (r : Registry) : Prop where
  entry : ∀ holding amount, r.ledger.amounts.get? holding = some amount →
    0 < amount ∧ Address.isValid holding.address = true ∧
      Denom.canonical holding.denom = .ok holding.denom ∧
      ∃ d : Denom, d.text = holding.denom ∧
        (r.store.contents.get? (Entry.adminKey d)).isSome = true
  /-- An account is listed with just what it has. -/
  listed : ∀ address denom amount, (denom, amount) ∈ r.ledger.holdings address ↔
    r.ledger.balance ⟨address, denom⟩ = amount ∧ amount ≠ 0
  increasing : ∀ address, ((r.ledger.holdings address).map Prod.fst).Pairwise (· < ·)
  /-- Nothing but a positive amount is ever moved. -/
  amount : ∀ sender (command : Command) amount, command.amount? = some amount → amount ≤ 0 →
    (r.execute sender (.message command)).1 =
      .error (if amount = 0 then .rejected .zeroAmount else .negativeAmount amount)
  /-- The ledger fails if too little is there to be taken, and then only. It tells the balance and the
  amount, unless one of them has too many digits to be told. -/
  fails : ∀ sender command e, (r.execute sender (.message command)).1 = .error (.ledger e) ↔
    (∀ check ∈ r.permissions sender command, check.holds = true) ∧
      ∃ m holding amount, command.deed? sender = some (.moved m) ∧
        m.debit? = some (holding, amount) ∧ r.ledger.balance holding < amount ∧
        e = if (r.ledger.balance holding).natAbs < 10 ^ Numeral.maxDigits ∧
            amount.natAbs < 10 ^ Numeral.maxDigits then
          .insufficientFunds holding (r.ledger.balance holding) amount
        else .overlong

/-- **Whatever was sent, the ledger is sound.** -/
theorem Reachable.soundLedger (h : r.Reachable) : r.SoundLedger := by
  obtain ⟨deeds, hkeeps, hholds⟩ := h.keepsSound
  constructor
  case entry =>
    intro holding amount hget
    obtain ⟨hpositive, haddress, d, hmem, hslash, htext⟩ := hholds holding amount hget
    have hcanonical : Denom.canonical d.text = .ok d.text :=
      Denom.canonical_eq_ok_iff.mpr ⟨d, Denom.parse_text hslash, rfl⟩
    exact ⟨hpositive, haddress, htext ▸ hcanonical, d, htext, (hkeeps.isSome_admin d).mpr hmem⟩
  case listed => exact fun _ _ _ => hholds.mem_holdings_iff
  case increasing => exact r.ledger.holdings_increasing
  case amount =>
    intro sender command amount hamount hle
    rw [decides_execute h sender command]
    exact firstFault?_checks_of_amount hamount (firstFault?_amountChecks hle)
  case fails =>
    intro sender command e
    rw [decides_execute h sender command, firstFault?_checks_eq_ledger_iff]
    simp only [Ledger.Lacks, Ledger.shortage_eq, exists_and_left]

/-- Bob gets two denoms of Alice's, loses one of them to Carol, and gets a part of it back. -/
def givings : List Sent :=
  [⟨"alice", .message (.createDenom "gold" none)⟩,
    ⟨"alice", .message (.createDenom "Gold" none)⟩,
    ⟨"alice", .message (.mintTokens "factory/alice/gold" 10 "bob")⟩,
    ⟨"alice", .message (.mintTokens "factory/alice/Gold" 3 "bob")⟩,
    ⟨"alice", .message (.forceTransfer "factory/alice/gold" 10 "bob" "carol")⟩,
    ⟨"alice", .message (.forceTransfer "Factory/alice/gold" 4 "carol" "bob")⟩,
    ⟨"alice", .message (.forceTransfer "factory/alice/gold" 0 "carol" "bob")⟩]

theorem givings_sound :
    ((start ∅).after givings).Reachable ∧ ((start ∅).after givings).SoundLedger ∧
      ((start ∅).after givings).ledger.holdings "bob" =
        [("factory/alice/Gold", 3), ("factory/alice/gold", 4)] ∧
      (((start ∅).after givings).execute "alice"
        (.message (.forceTransfer "factory/alice/gold" 7 "carol" "bob"))).1 =
        .error (.ledger (.insufficientFunds ⟨"carol", "factory/alice/gold"⟩ 6 7)) := by
  have hreachable : ((start ∅).after givings).Reachable := (Reachable.start rfl).after givings
  exact ⟨hreachable, hreachable.soundLedger, by decide +kernel, by decide +kernel⟩

/-- Not everything that the ledger fails with tells what there is: who asks for an amount with a digit
more than the limit is only told of the limit. -/
theorem overlong_burn_not_told :
    ¬ ∀ r : Registry, r.Reachable → ∀ (sender : String) (command : Command) (e : Ledger.Error),
      (r.execute sender (.message command)).1 = .error (.ledger e) →
        ∃ holding balance amount, e = .insufficientFunds holding balance amount := by
  intro hclaim
  have hreachable : goldCreated.Reachable := (Reachable.start rfl).execute "alice" _
  obtain ⟨holding, balance, amount, htold⟩ := hclaim goldCreated hreachable "alice" _ _ execute_vast_burn
  cases htold

end Registry

end Coinage
