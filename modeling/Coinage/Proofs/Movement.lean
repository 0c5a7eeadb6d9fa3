import Coinage.Proofs.Precedence
import Coinage.Proofs.Supply

/-! What the ledger does for whoever calls it directly. Any integer will do for an amount, so balances
may be negative and entries may be zero. Even so a call fails in two cases only, a failed one changes
nothing, and a transfer takes from one account what it gives to the other one. -/

namespace Coinage

namespace Ledger.Movement

variable {denom source target : String} {amount : Int} {holding : Holding}

theorem change_source (h : source ≠ target) :
    (transfer denom amount source target).change ⟨source, denom⟩ = -amount := by
  simp [change, changeAt, h]

theorem change_target (h : source ≠ target) :
    (transfer denom amount source target).change ⟨target, denom⟩ = amount := by
  simp [change, changeAt, h.symm]

/-- What an account gives to itself it still has. -/
theorem change_self (denom source : String) (amount : Int) (holding : Holding) :
    (transfer denom amount source source).change holding = 0 := by
  simp only [change, changeAt]
  split <;> simp

end Ledger.Movement

open Ledger

namespace Registry

variable {r : Registry} {m : Movement} {e : Ledger.Error}

theorem move_eq_error_iff : (r.move m).1 = .error e ↔ r.ledger.apply m = .error e := by
  rw [move]
  cases r.ledger.apply m with
  | error e' => simp
  | ok l => simp

theorem apply_of_move (h : (r.move m).1 = .ok ()) : r.ledger.apply m = .ok (r.move m).2.ledger := by
  rw [move] at h ⊢
  cases happly : r.ledger.apply m with
  | error e =>
      rw [happly] at h
      cases h
  | ok l => rfl

theorem move_of_error (h : (r.move m).1 = .error e) : (r.move m).2 = r := by
  rw [move, move_eq_error_iff.mp h]

theorem move_eq_ok_iff : (r.move m).1 = .ok () ↔ ∀ e, (r.move m).1 ≠ .error e := by
  cases (r.move m).1 with
  | error e => simp
  | ok u => simp

/-- A call changes only what its accounts have of its denom. -/
theorem get?_move_of_apart {holding : Holding}
    (h : holding.denom = m.denom → holding.address ∉ m.accounts) :
    (r.move m).2.ledger.amounts.get? holding = r.ledger.amounts.get? holding := by
  cases hresult : (r.move m).1 with
  | error e => rw [move_of_error hresult]
  | ok u => exact get?_apply_of_apart (apply_of_move hresult) h

variable {holding : Holding} {amount : Int}

theorem move_of_debit?_eq_none (htaken : m.debit? = none) : (r.move m).1 = .ok () := by
  obtain ⟨l, happly⟩ := exists_apply_of_debit?_eq_none htaken r.ledger
  refine move_eq_ok_iff.mpr fun e herror => ?_
  rw [move_eq_error_iff, happly] at herror
  cases herror

theorem move_eq_error_cases (htaken : m.debit? = some (holding, amount)) :
    (r.move m).1 = .error e ↔
      r.ledger.balance holding < amount ∧
          e = shortage holding (r.ledger.balance holding) amount ∨
        amount = 0 ∧ r.ledger.amounts.get? holding = none ∧ e = .noHolding holding := by
  rw [move_eq_error_iff, apply_eq_error_iff_debit htaken, debit_eq_error_cases]

theorem move_eq_ok_iff_of_debit? (htaken : m.debit? = some (holding, amount)) :
    (r.move m).1 = .ok () ↔ amount ≤ r.ledger.balance holding ∧
      ¬ (amount = 0 ∧ r.ledger.amounts.get? holding = none) := by
  simp only [move_eq_ok_iff, ne_eq, move_eq_error_cases htaken]
  constructor
  · intro hnone
    exact ⟨not_lt.mp fun hless => hnone _ (.inl ⟨hless, rfl⟩),
      fun hmissing => hnone _ (.inr ⟨hmissing.1, hmissing.2, rfl⟩)⟩
  · rintro ⟨henough, hthere⟩ e (⟨hless, -⟩ | ⟨hzero, hmissing, -⟩)
    · exact henough.not_gt hless
    · exact hthere ⟨hzero, hmissing⟩

/-- A transfer as its two accounts and everybody else see it. -/
structure Transfers (l l' : Ledger) (denom : String) (amount : Int) (source target : String) :
    Prop where
  apart : source ≠ target →
    l'.balance ⟨source, denom⟩ = l.balance ⟨source, denom⟩ - amount ∧
      l'.balance ⟨target, denom⟩ = l.balance ⟨target, denom⟩ + amount
  same : source = target → ∀ holding, l'.balance holding = l.balance holding
  finite : (Function.support fun account => l.balance ⟨account, denom⟩).Finite
  total : ∑ᶠ account, l'.balance ⟨account, denom⟩ = ∑ᶠ account, l.balance ⟨account, denom⟩

theorem transfers_of_apply {l l' : Ledger} {denom source target : String}
    (happly : l.apply (.transfer denom amount source target) = .ok l') :
    Transfers l l' denom amount source target := by
  have hbalance := balance_of_apply happly
  refine ⟨fun hne => ⟨?_, ?_⟩, ?_, finite_support_balance l denom, ?_⟩
  · rw [hbalance, Movement.change_source hne, sub_eq_add_neg]
  · rw [hbalance, Movement.change_target hne]
  · rintro rfl holding
    rw [hbalance, Movement.change_self, add_zero]
  · have hsupply := supply_of_apply happly denom
    rwa [Movement.issue, ite_self, add_zero] at hsupply

/-! ### Many calls -/

/-- The registry after calls of its ledger. -/
def moved (r : Registry) (ms : List Movement) : Registry := ms.foldl (fun r m => (r.move m).2) r

/-- The calls that succeed. -/
def performed (r : Registry) : List Movement → List Movement
  | [] => []
  | m :: ms => match (r.move m).1 with
    | .ok _ => m :: (r.move m).2.performed ms
    | .error _ => (r.move m).2.performed ms

/-- One call. -/
theorem balance_move (r : Registry) (m : Movement) (holding : Holding) :
    (r.move m).2.ledger.balance holding =
      r.ledger.balance holding + ((r.performed [m]).map (·.change holding)).sum := by
  rw [performed]
  cases hresult : (r.move m).1 with
  | error e =>
      rw [move_of_error hresult]
      exact (add_zero _).symm
  | ok u =>
      rw [balance_of_apply (apply_of_move hresult)]
      simp [performed]

theorem performed_cons (r : Registry) (m : Movement) (ms : List Movement) :
    r.performed (m :: ms) = r.performed [m] ++ (r.move m).2.performed ms := by
  simp only [performed]
  cases (r.move m).1 <;> rfl

/-- Balances add up: after any calls a balance is what it was before, with all the changes that the
successful ones among them were to make. -/
theorem balance_moved (r : Registry) (ms : List Movement) (holding : Holding) :
    (r.moved ms).ledger.balance holding =
      r.ledger.balance holding + ((r.performed ms).map (·.change holding)).sum := by
  induction ms generalizing r with
  | nil => exact (add_zero _).symm
  | cons m ms ih =>
      have hrest := ih (r.move m).2
      rw [balance_move, add_assoc, ← List.sum_append, ← List.map_append, ← performed_cons] at hrest
      exact hrest

/-- What a call does with a movement of any amount. -/
structure Moves (r : Registry) (m : Movement) : Prop where
  given : m.debit? = none → (r.move m).1 = .ok ()
  /-- Who is short of the amount is told the balance and the amount, unless one of them has too many
  digits to be told. -/
  failed : ∀ holding amount e, m.debit? = some (holding, amount) → ((r.move m).1 = .error e ↔
    r.ledger.balance holding < amount ∧
        e = (if (r.ledger.balance holding).natAbs < 10 ^ Numeral.maxDigits ∧
            amount.natAbs < 10 ^ Numeral.maxDigits then
          .insufficientFunds holding (r.ledger.balance holding) amount
        else .overlong) ∨
      amount = 0 ∧ r.ledger.amounts.get? holding = none ∧ e = .noHolding holding)
  taken : ∀ holding amount, m.debit? = some (holding, amount) → ((r.move m).1 = .ok () ↔
    amount ≤ r.ledger.balance holding ∧ ¬ (amount = 0 ∧ r.ledger.amounts.get? holding = none))
  unchanged : ∀ e, (r.move m).1 = .error e → (r.move m).2 = r
  minted : ∀ denom amount recipient, m = .mint denom amount recipient →
    (r.move m).2.ledger.balance ⟨recipient, denom⟩ =
      r.ledger.balance ⟨recipient, denom⟩ + amount
  burned : ∀ denom amount holder, m = .burn denom amount holder → (r.move m).1 = .ok () →
    (r.move m).2.ledger.balance ⟨holder, denom⟩ = r.ledger.balance ⟨holder, denom⟩ - amount
  transferred : ∀ denom amount source target, m = .transfer denom amount source target →
    (r.move m).1 = .ok () → Transfers r.ledger (r.move m).2.ledger denom amount source target
  /-- Other accounts, and other denoms, are not touched. -/
  apart : ∀ holding, (holding.denom ≠ m.denom ∨ holding.address ∉ m.accounts) →
    (r.move m).2.ledger.amounts.get? holding = r.ledger.amounts.get? holding ∧
      (r.move m).2.ledger.balance holding = r.ledger.balance holding

theorem balance_of_move (h : (r.move m).1 = .ok ()) (holding : Holding) :
    (r.move m).2.ledger.balance holding = r.ledger.balance holding + m.change holding :=
  balance_of_apply (apply_of_move h) holding

theorem moves (r : Registry) (m : Movement) : r.Moves m := by
  constructor
  case given => exact move_of_debit?_eq_none
  case failed =>
    intro holding amount e htaken
    rw [move_eq_error_cases htaken, shortage_eq]
  case taken => exact fun holding amount => move_eq_ok_iff_of_debit?
  case unchanged => exact fun e => move_of_error
  case minted =>
    rintro denom amount recipient rfl
    rw [balance_of_move (move_of_debit?_eq_none rfl)]
    simp [Movement.change, changeAt]
  case burned =>
    rintro denom amount holder rfl hresult
    rw [balance_of_move hresult]
    simp [Movement.change, changeAt, sub_eq_add_neg]
  case transferred =>
    rintro denom amount source target rfl hresult
    exact transfers_of_apply (apply_of_move hresult)
  case apart =>
    intro holding hapart
    have hentry := get?_move_of_apart (r := r) (imp_iff_not_or.mpr hapart)
    exact ⟨hentry, by rw [balance, hentry, balance]⟩

/-- **Direct calls of the ledger**, whatever was in it and whichever integers the amounts are. After any
calls, a balance is what all the successful ones have made of it. One more call fails just if the account
that it takes from has less than the amount, or if the amount is zero and the account has no entry, and
then it changes nothing. A transfer moves exactly the amount and keeps the sum of all balances. -/
theorem move_settles (r : Registry) (ms : List Movement) (m : Movement) :
    (∀ holding, (r.moved ms).ledger.balance holding =
      r.ledger.balance holding + ((r.performed ms).map (·.change holding)).sum) ∧
    (r.moved ms).Moves m :=
  ⟨balance_moved r ms, (r.moved ms).moves m⟩

/-- Alice has got nothing, so that she has an entry that says so. -/
def alms : List Movement := [.mint "gold" 0 "alice"]

/-- To take nothing from Alice succeeds, and to take nothing from Bob, who has no entry, does not. If he
transfers a negative amount to her, her balance is below zero. -/
theorem penniless_settles :
    (((start ∅).moved alms).move (.burn "gold" 0 "alice")).1 = .ok () ∧
      (((start ∅).moved alms).move (.burn "gold" 0 "bob")).1 =
        .error (.noHolding ⟨"bob", "gold"⟩) ∧
      (((start ∅).moved alms).move (.transfer "gold" (-3) "bob" "alice")).2.ledger.balance
        ⟨"alice", "gold"⟩ = -3 := by
  obtain ⟨-, halice⟩ := move_settles (start ∅) alms (.burn "gold" 0 "alice")
  obtain ⟨-, hbob⟩ := move_settles (start ∅) alms (.burn "gold" 0 "bob")
  obtain ⟨hadds, hgift⟩ := move_settles (start ∅) alms (.transfer "gold" (-3) "bob" "alice")
  have hgiven := (hgift.taken ⟨"bob", "gold"⟩ (-3) rfl).mpr (by decide +kernel)
  have hdebt := ((hgift.transferred "gold" (-3) "bob" "alice" rfl hgiven).apart (by decide)).2
  have hnothing : ((start ∅).moved alms).ledger.balance ⟨"alice", "gold"⟩ = 0 := by
    rw [hadds]
    decide +kernel
  refine ⟨(halice.taken ⟨"alice", "gold"⟩ 0 rfl).mpr (by decide +kernel),
    (hbob.failed ⟨"bob", "gold"⟩ 0 _ rfl).mpr (.inr ⟨rfl, by decide +kernel, rfl⟩), ?_⟩
  rw [hdebt, hnothing, zero_add]

/-- Not everybody who is short of an amount is told what there is: an amount with a digit more than the
limit cannot be told. -/
theorem vast_burn_not_told :
    ¬ ∀ (ms : List Movement) (m : Movement) (holding : Holding) (amount : Int),
      m.debit? = some (holding, amount) →
        (((start ∅).moved ms).ledger.balance holding < amount ↔
          ∃ balance, (((start ∅).moved ms).move m).1 =
            .error (.insufficientFunds holding balance amount)) := by
  intro hclaim
  obtain ⟨balance, htold⟩ := (hclaim [] (.burn "gold" Numeral.vast "alice") ⟨"alice", "gold"⟩ _ rfl).mp
    (by decide +kernel)
  have hresult : (((start ∅).moved []).move (.burn "gold" Numeral.vast "alice")).1 =
      .error .overlong := by decide +kernel
  rw [hresult] at htold
  cases htold

end Registry

end Coinage
