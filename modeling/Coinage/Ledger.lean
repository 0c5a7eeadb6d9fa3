import Coinage.Numeral
import Coinage.Table

/-!
Balances of accounts. The ledger performs movements and asks nobody for permission; any integer is
an amount to it. A debit that takes the whole of a holding removes it, so that an account lists what
it has and not what it had.
-/

namespace Coinage

/-- What an account may have of a denom. -/
structure Holding where
  address : String
  denom : String
deriving DecidableEq, Repr

namespace Holding

instance : Ord Holding where
  compare a b := (compare a.address b.address).then (compare a.denom b.denom)

/-- A holding as a pair, which compares the same. -/
private def pair (h : Holding) : String × String := (h.address, h.denom)

private theorem compare_eq_pair (a b : Holding) :
    compare a b = compareLex (compareOn Prod.fst) (compareOn Prod.snd) a.pair b.pair :=
  rfl

instance : Std.LawfulEqOrd Holding where
  compare_self {a} := by simp [compare_eq_pair, compareOn]
  eq_of_compare {a b} h := by
    simp only [compare_eq_pair, compareLex_eq_eq, compareOn, Std.LawfulEqOrd.compare_eq_iff_eq] at h
    cases a; cases b; simp_all [pair]

instance : Std.TransOrd Holding where
  eq_swap {a b} := by
    rw [compare_eq_pair, compare_eq_pair]
    exact Std.OrientedCmp.eq_swap
  isLE_trans {a b c} h h' := by
    rw [compare_eq_pair] at h h' ⊢
    exact Std.TransCmp.isLE_trans h h'

end Holding

structure Ledger where
  amounts : Table Holding Int
deriving DecidableEq

namespace Ledger

instance : EmptyCollection Ledger := ⟨⟨∅⟩⟩

inductive Error where
  | insufficientFunds (holding : Holding) (balance amount : Int)
  /-- There is not enough, and the balance or the amount is too long to be told. -/
  | overlong
  /-- Nothing was to be taken from a holding that is not there. -/
  | noHolding (holding : Holding)
deriving DecidableEq, Repr

def Error.message : Error → String
  | .insufficientFunds holding balance amount =>
    let denom := holding.denom
    s!"insufficient funds: {holding.address} has {balance}{denom}, needs {amount}{denom}"
  | .overlong => Numeral.overlong Numeral.maxDigits none
  | .noHolding holding => holding.denom

def balance (l : Ledger) (holding : Holding) : Int := (l.amounts.get? holding).getD 0

/-- The holdings of an account by denom, in the order of the denoms. -/
def holdings (l : Ledger) (address : String) : List (String × Int) :=
  l.amounts.entries.filterMap fun (holding, amount) =>
    if holding.address = address then some (holding.denom, amount) else none

def credit (l : Ledger) (holding : Holding) (amount : Int) : Ledger :=
  ⟨l.amounts.insert holding (l.balance holding + amount)⟩

/-- What is wrong if a holding is short of an amount. -/
def shortage (holding : Holding) (balance amount : Int) : Error :=
  if Numeral.isWritable balance && Numeral.isWritable amount then
    .insufficientFunds holding balance amount
  else .overlong

def debit (l : Ledger) (holding : Holding) (amount : Int) : Except Error Ledger :=
  let balance := l.balance holding
  if balance < amount then .error (shortage holding balance amount)
  else if balance ≠ amount then .ok ⟨l.amounts.insert holding (balance - amount)⟩
  else if (l.amounts.get? holding).isNone then .error (.noHolding holding)
  else .ok ⟨l.amounts.erase holding⟩

/-- A change of balances in one denom. -/
inductive Movement where
  | mint (denom : String) (amount : Int) (recipient : String)
  | burn (denom : String) (amount : Int) (holder : String)
  | transfer (denom : String) (amount : Int) (source target : String)
deriving DecidableEq, Repr

def Movement.describe : Movement → String
  | .mint denom amount recipient => s!"Mint {amount}{denom} to {recipient}"
  | .burn denom amount holder => s!"Burn {amount}{denom} from {holder}"
  | .transfer denom amount source target => s!"Transfer {amount}{denom} from {source} to {target}"

def apply (l : Ledger) : Movement → Except Error Ledger
  | .mint denom amount recipient => .ok (l.credit ⟨recipient, denom⟩ amount)
  | .burn denom amount holder => l.debit ⟨holder, denom⟩ amount
  | .transfer denom amount source target =>
    (·.credit ⟨target, denom⟩ amount) <$> l.debit ⟨source, denom⟩ amount

end Ledger

end Coinage
