import Coinage.Proofs.Footprint
import Coinage.Proofs.Holdings
import Coinage.Proofs.Supply

/-! Taking things back. Where nothing is held but positive amounts, a ledger is no more than its
balances, so it is restored when they are. A transfer is taken back by a transfer the other way, and a
mint by a burn, down to the entries that were not there before. -/

namespace Coinage

open Registry Book Deed

namespace Ledger

namespace Movement

/-- The movement the other way. -/
def reverse : Movement → Movement
  | .mint denom amount recipient => .burn denom amount recipient
  | .burn denom amount holder => .mint denom amount holder
  | .transfer denom amount source target => .transfer denom amount target source

def amount : Movement → Int
  | .mint _ amount _ | .burn _ amount _ | .transfer _ amount _ _ => amount

variable {m : Movement} {holding : Holding} {x : Int}

theorem amount_reverse (m : Movement) : m.reverse.amount = m.amount := by
  cases m <;> rfl

/-- What a movement gives the reverse one takes. -/
theorem debit?_reverse (m : Movement) : m.reverse.debit? = m.credit? := by
  cases m <;> rfl

theorem change_reverse (m : Movement) (holding : Holding) :
    m.reverse.change holding = -m.change holding := by
  have hneg : ∀ holding' x, changeAt holding' (-x) holding = -changeAt holding' x holding := by
    intro holding' x
    simp only [changeAt]
    split <;> simp
  cases m <;> simp only [reverse, change, hneg] <;> omega

theorem amount_of_debit? (h : m.debit? = some (holding, x)) : x = m.amount := by
  cases m <;> cases h <;> rfl

theorem amount_of_credit? (h : m.credit? = some (holding, x)) : x = m.amount := by
  cases m <;> cases h <;> rfl

end Movement

variable {P Q : Holding → Prop} {l l' : Ledger} {m : Movement}

/-- There is an entry just where there is a balance. -/
theorem HoldsOnly.get?_eq (h : l.HoldsOnly P) (holding : Holding) :
    l.amounts.get? holding =
      if l.balance holding = 0 then none else some (l.balance holding) := by
  rw [balance]
  cases hget : l.amounts.get? holding with
  | none => rfl
  | some amount =>
      have hpositive : 0 < amount := (h holding amount hget).1
      rw [Option.getD_some, if_neg hpositive.ne']

/-- Ledgers of positive amounts with the same balances are the same. -/
theorem HoldsOnly.eq_of_balance (h : l.HoldsOnly P) (h' : l'.HoldsOnly Q)
    (hbalance : ∀ holding, l.balance holding = l'.balance holding) : l = l' := by
  have hentries : l.amounts = l'.amounts :=
    Table.ext_get? fun holding => by rw [h.get?_eq, h'.get?_eq, hbalance]
  cases l
  cases l'
  exact congrArg mk hentries

/-- What a movement has given is there to be taken. -/
theorem HoldsOnly.le_balance_of_apply (h : l.HoldsOnly P) (hpositive : 0 < m.amount)
    (happly : l.apply m = .ok l') {holding : Holding} {amount : Int}
    (hgiven : m.credit? = some (holding, amount)) : amount ≤ l'.balance holding := by
  have hcredited : ∀ middle : Ledger, middle.HoldsOnly P →
      amount ≤ (middle.credit holding amount).balance holding := by
    intro middle hmiddle
    have hnonneg := hmiddle.balance_nonneg holding
    rw [balance_credit, changeAt, if_pos rfl]
    omega
  cases m with
  | burn => cases hgiven
  | mint denom amount recipient =>
      cases hgiven
      cases happly
      exact hcredited l h
  | transfer denom amount source target =>
      cases hgiven
      obtain ⟨middle, hdebit, rfl⟩ := apply_transfer_eq_ok_iff.mp happly
      exact hcredited middle (h.debit hpositive hdebit)

theorem HoldsOnly.apply_of_pos (h : l.HoldsOnly fun _ => True) (hpositive : 0 < m.amount)
    (happly : l.apply m = .ok l') : l'.HoldsOnly fun _ => True :=
  h.apply (fun _ _ htaken => Movement.amount_of_debit? htaken ▸ hpositive)
    (fun _ _ hgiven => ⟨Movement.amount_of_credit? hgiven ▸ hpositive, trivial⟩) happly

/-- **A movement can be taken back, to the entry.** -/
theorem HoldsOnly.apply_reverse (h : l.HoldsOnly P) (hpositive : 0 < m.amount)
    (happly : l.apply m = .ok l') : l'.apply m.reverse = .ok l := by
  have hpositive' : 0 < m.reverse.amount := m.amount_reverse ▸ hpositive
  cases hback : l'.apply m.reverse with
  | error e =>
      have hlacks := (apply_eq_error_iff fun _ _ htaken =>
        Movement.amount_of_debit? htaken ▸ hpositive').mp hback
      obtain ⟨holding, amount, htaken, hless, -⟩ := hlacks
      rw [Movement.debit?_reverse] at htaken
      exact absurd (h.le_balance_of_apply hpositive happly htaken) hless.not_ge
  | ok l'' =>
      have hbefore : l.HoldsOnly fun _ => True := h.mono fun _ _ => trivial
      have hafter := (hbefore.apply_of_pos hpositive happly).apply_of_pos hpositive' hback
      have hrestored : l'' = l := hafter.eq_of_balance hbefore fun holding => by
        rw [balance_of_apply hback, balance_of_apply happly, Movement.change_reverse,
          add_neg_cancel_right]
      rw [hrestored]

end Ledger

namespace Registry

variable {r : Registry} {deeds : List Deed} {sender : String} {command back : Command}

/-- The second command, sent right after the first one, restores what there was before it. Neither of
them writes anything to the store. -/
structure TakesBack (r : Registry) (sender : String) (command back : Command) : Prop where
  succeeds : ((r.execute sender (.message command)).2.execute sender (.message back)).1 =
    .ok back.receipt
  ledger : ((r.execute sender (.message command)).2.execute sender (.message back)).2.ledger = r.ledger
  contents : (r.execute sender (.message command)).2.store.contents = r.store.contents ∧
    ((r.execute sender (.message command)).2.execute sender (.message back)).2.store.contents =
      r.store.contents
  browses : r.Browses ((r.execute sender (.message command)).2.execute sender (.message back)).2

/-- A movement leaves the store as it is, and the ledger as it makes it. -/
theorem Carried.of_moved {b : Book} {r' : Registry} {m : Ledger.Movement} {l : Ledger}
    (h : Carried b (.moved m) r r') (happly : r.ledger.apply m = .ok l) :
    r'.store.contents = r.store.contents ∧ r'.ledger = l := by
  refine ⟨h.contents, ?_⟩
  rw [h.ledger, Ledger.after, happly]
  rfl

/-- A movement is taken back by a command that comes to the reverse movement wherever the ledger can
perform it. -/
theorem Keeps.takesBack_of_judge (h : r.Keeps deeds) {P : Holding → Prop} (hholds : r.ledger.HoldsOnly P)
    {m : Ledger.Movement}
    (hjudge : (ofDeeds deeds).judge r.store.commandsFail r.ledger sender command = .ok (.moved m))
    (hpositive : 0 < m.amount)
    (hback : ∀ ledger : Ledger, (∃ l, ledger.apply m.reverse = .ok l) →
      (ofDeeds deeds).judge r.store.commandsFail ledger sender back = .ok (.moved m.reverse))
    (hquiet : command.transaction? sender = none) (hquiet' : back.transaction? sender = none) :
    r.TakesBack sender command back := by
  obtain ⟨l, happly⟩ := apply_of_judge hjudge
  have hreverse := hholds.apply_reverse hpositive happly
  have hdone := (execute_of_kept h.kept sender command).2 _ hjudge
  obtain ⟨hcontents, hledger⟩ := hdone.of_moved happly
  have hkept : (ofDeeds deeds).Kept (r.execute sender (.message command)).2.store.contents :=
    hcontents ▸ h.kept
  have hjudge' : (ofDeeds deeds).judge (r.execute sender (.message command)).2.store.commandsFail
      (r.execute sender (.message command)).2.ledger sender back = .ok (.moved m.reverse) := by
    rw [hdone.commandsFail, hledger]
    exact hback l ⟨_, hreverse⟩
  obtain ⟨hresult, hdone'⟩ := execute_of_kept hkept sender back
  obtain ⟨hcontents', hledger'⟩ := (hdone' _ hjudge').of_moved (hledger ▸ hreverse)
  rw [hjudge'] at hresult
  exact ⟨hresult, hledger', ⟨hcontents, hcontents'.trans hcontents⟩,
    (browses_execute hquiet r).trans (browses_execute hquiet' _)⟩

/-- **What an admin has moved can be moved back, and what it has minted for itself can be burned**,
wherever messages have led to. Right after a forced transfer the one the other way succeeds, also
where both accounts are the same, and right after a mint for the admin itself a burn. Then the ledger
is as it was, to the last entry, and the store has been as it was all along. -/
theorem Reachable.takesBack (h : r.Reachable) (sender : String) :
    (∀ text amount source target receipt,
      (r.execute sender (.message (.forceTransfer text amount source target))).1 = .ok receipt →
        r.TakesBack sender (.forceTransfer text amount source target)
          (.forceTransfer text amount target source)) ∧
      ∀ text amount (holder : String) receipt, holder = "" ∨ holder = sender →
        (r.execute sender (.message (.mintTokens text amount sender))).1 = .ok receipt →
          r.TakesBack sender (.mintTokens text amount sender) (.burnTokens text amount holder) := by
  obtain ⟨deeds, hkeeps, hholds⟩ := h.keepsSound
  constructor
  · intro text amount source target receipt hresult
    obtain ⟨deed, hjudge⟩ := hkeeps.execute_ok_iff.mp ⟨receipt, hresult⟩
    obtain ⟨d, source', target', hgrounds, ⟨hsource, htarget⟩, -, rfl⟩ :=
      judge_forceTransfer.mp hjudge
    refine hkeeps.takesBack_of_judge hholds hjudge hgrounds.1 (fun ledger hledger => ?_) rfl rfl
    exact judge_forceTransfer.mpr
      ⟨d, target', source', hgrounds, ⟨htarget, hsource⟩, hledger, rfl⟩
  · intro text amount holder receipt hholder hresult
    obtain ⟨deed, hjudge⟩ := hkeeps.execute_ok_iff.mp ⟨receipt, hresult⟩
    obtain ⟨d, address, hgrounds, haddress, -, rfl⟩ := judge_mintTokens.mp hjudge
    obtain rfl : sender = address := Text.ofString_inj.mp (addressOf_eq_ok_iff.mp haddress).1
    refine hkeeps.takesBack_of_judge hholds hjudge hgrounds.1 (fun ledger hledger => ?_) rfl rfl
    exact judge_burnTokens.mpr
      ⟨d, hgrounds, hholder.imp (congrArg _) (congrArg _), hledger, rfl⟩

/-- Dave gets all that Bob has of a denom, and Bob gets it back; Alice mints and burns some of another
one. -/
theorem givings_takesBack :
    ((start ∅).after givings).Reachable ∧
      ((start ∅).after givings).TakesBack "alice"
        (.forceTransfer "factory/alice/gold" 4 "bob" "dave")
        (.forceTransfer "factory/alice/gold" 4 "dave" "bob") ∧
      ((start ∅).after givings).TakesBack "alice" (.mintTokens "factory/alice/Gold" 5 "alice")
        (.burnTokens "factory/alice/Gold" 5 "") := by
  have hreachable : ((start ∅).after givings).Reachable := (Reachable.start rfl).after givings
  obtain ⟨htransfer, hmint⟩ := hreachable.takesBack "alice"
  exact ⟨hreachable,
    htransfer "factory/alice/gold" 4 "bob" "dave" ⟨"force_transfer_tokens", [], none⟩
      (by decide +kernel),
    hmint "factory/alice/Gold" 5 "" ⟨"mint_tokens", [], none⟩ (.inl rfl) (by decide +kernel)⟩

end Registry

end Coinage
