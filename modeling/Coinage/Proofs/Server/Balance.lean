import Coinage.Proofs.Server.Run
import Coinage.Proofs.Server.Sending
import Coinage.Proofs.Supply

/-! What accounts have, over HTTP. A request may move no more than the greatest amount, but what was
given by several requests adds up. So a balance is bounded by what is outstanding of its denom and
by nothing else; it may pass the greatest amount, and then no single request can name it. -/

namespace Coinage

open Registry Ledger Book

/-- No account has more than there is. -/
theorem Ledger.HoldsOnly.balance_le_supply {P : Holding → Prop} {l : Ledger} (h : l.HoldsOnly P)
    (holding : Holding) : l.balance holding ≤ l.supply holding.denom :=
  single_le_finsum holding.address (l.finite_support_balance holding.denom) fun account =>
    h.balance_nonneg ⟨account, holding.denom⟩

namespace Server

/-! ### What requests mint and burn -/

/-- A request and the response to it. -/
structure Exchange where
  request : Request
  response : Response

/-- The exchanges of a run of requests. -/
def exchanges (r : Registry) : List Request → List Exchange
  | [] => []
  | request :: rest => ⟨request, (handle r request).1⟩ :: exchanges (handle r request).2 rest

/-- The denom and the amount of a minting. -/
def minting? : Command → Option (Text × Int)
  | .mintTokens text amount _ => some (text, amount)
  | _ => none

/-- The denom and the amount of a burning. -/
def burning? : Command → Option (Text × Int)
  | .burnTokens text amount _ => some (text, amount)
  | _ => none

/-- How much it is of a denom. -/
def amountOf (denom : String) : Option (Text × Int) → Int
  | some (text, amount) => if (Denom.parse text).map Denom.text = .ok denom then amount else 0
  | none => 0

theorem amountOf_inRange {part : Option (Text × Int)}
    (h : ∀ text amount, part = some (text, amount) → 0 ≤ amount ∧ amount ≤ Form.maxAmount)
    (denom : String) : 0 ≤ amountOf denom part ∧ amountOf denom part ≤ Form.maxAmount := by
  have hnothing : (0 : Int) ≤ 0 ∧ (0 : Int) ≤ Form.maxAmount := by decide
  cases part with
  | none => exact hnothing
  | some part =>
      rw [amountOf]
      split
      · exact h _ _ rfl
      · exact hnothing

theorem amountOf_of_no_denom {denom : String} (h : ∀ d : Denom, d.text ≠ denom) :
    ∀ part, amountOf denom part = 0
  | none => rfl
  | some (text, amount) => if_neg fun hnames => by
      obtain ⟨d, -, hd⟩ := Coinage.Except.map_eq_ok_iff.mp hnames
      exact h d hd

theorem amountOf_text (d : Denom) (text : Text) (amount : Int) :
    amountOf d.text (some (text, amount)) = if Denom.parse text = .ok d then amount else 0 := by
  have hnames : (Denom.parse text).map Denom.text = .ok d.text ↔ Denom.parse text = .ok d := by
    cases Denom.parse text <;> simp [Except.map, Denom.text_inj]
  rw [amountOf]
  exact if_congr hnames rfl rfl

namespace Exchange

/-- The command that was carried out. -/
def done? (e : Exchange) : Option Command :=
  if e.response.status = 200 then e.request.order?.map Form.Order.command else none

/-- How much was minted of a denom. -/
def minted (denom : String) (e : Exchange) : Int := amountOf denom (e.done?.bind minting?)

/-- How much was burned of a denom. -/
def burned (denom : String) (e : Exchange) : Int := amountOf denom (e.done?.bind burning?)

theorem inRange_of_done {e : Exchange} {command : Command} (h : e.done? = some command) : command.InRange := by
  obtain ⟨-, h⟩ := Option.ite_none_right_eq_some.mp h
  obtain ⟨order, horder, rfl⟩ := Option.map_eq_some_iff.mp h
  exact Request.inRange_of_order? horder

/-- No exchange moves more than the greatest amount. -/
theorem inRange_of_part {part : Command → Option (Text × Int)}
    (hpart : ∀ command text amount, part command = some (text, amount) →
      command.amount? = some amount)
    (e : Exchange) (denom : String) :
    0 ≤ amountOf denom (e.done?.bind part) ∧ amountOf denom (e.done?.bind part) ≤ Form.maxAmount := by
  refine amountOf_inRange (fun text amount hsome => ?_) denom
  obtain ⟨command, hdone, hcommand⟩ := Option.bind_eq_some_iff.mp hsome
  exact (inRange_of_done hdone).amount amount (hpart command text amount hcommand)

theorem minted_inRange (e : Exchange) (denom : String) :
    0 ≤ e.minted denom ∧ e.minted denom ≤ Form.maxAmount := by
  refine inRange_of_part (fun command text amount hminting => ?_) e denom
  cases command <;> cases hminting
  rfl

theorem burned_inRange (e : Exchange) (denom : String) :
    0 ≤ e.burned denom ∧ e.burned denom ≤ Form.maxAmount := by
  refine inRange_of_part (fun command text amount hburning => ?_) e denom
  cases command <;> cases hburning
  rfl

end Exchange

open Exchange

/-- What exchanges have minted of a denom less what they have burned of it. -/
def outstanding (denom : String) (es : List Exchange) : Int :=
  (es.map (minted denom)).sum - (es.map (burned denom)).sum

variable {r : Registry} {request : Request}

/-- What was carried out is told by the status. -/
theorem done?_of_order {order : Form.Order} (h : request.order? = some order) :
    done? ⟨request, (handle r request).1⟩ =
      (r.execute order.sender (.message order.command)).1.toOption.map fun _ => order.command := by
  rw [done?, h]
  cases hresult : (r.execute order.sender (.message order.command)).1 with
  | ok receipt =>
      rw [if_pos (status_of_receipt h hresult)]
      rfl
  | error fault =>
      have hfailed : (handle r request).1.status ≠ 200 := by
        intro hstatus
        have htells : Tells Receipt.toJson (.error fault) (handle r request).1 :=
          hresult ▸ tells_of_order h
        obtain ⟨receipt, hreceipt⟩ := htells.exists_of_status hstatus
        cases hreceipt
      rw [if_neg hfailed]
      rfl

theorem done?_of_no_order (h : request.order? = none) :
    done? ⟨request, (handle r request).1⟩ = none := by
  rw [done?, h]
  exact ite_self none

/-- An exchange mints and burns what its message does. -/
theorem amounts_of_order {order : Form.Order} (h : request.order? = some order) (d : Denom) :
    let e : Exchange := ⟨request, (handle r request).1⟩
    let m : Sent := ⟨order.sender, .message order.command⟩
    let o : Outcome := ⟨m, (r.execute m.sender m.message).1⟩
    e.minted d.text = o.minted d ∧ e.burned d.text = o.burned d := by
  intro e m o
  have hdone : e.done? = o.result.toOption.map fun _ => order.command := done?_of_order h
  have hmessage : o.message = .message order.command := rfl
  rw [minted, burned, hdone]
  cases hresult : o.result with
  | error fault =>
      rw [Outcome.minted_of_error hresult, Outcome.burned_of_error hresult]
      exact ⟨rfl, rfl⟩
  | ok receipt =>
      rw [Outcome.minted, Outcome.burned, hmessage, hresult]
      cases order.command with
      | mintTokens text amount recipient => exact ⟨amountOf_text d text amount, rfl⟩
      | burnTokens text amount holder => exact ⟨rfl, amountOf_text d text amount⟩
      | createDenom | changeAdmin | forceTransfer | setMetadata => exact ⟨rfl, rfl⟩

/-- One request: what there is of a denom changes by what the exchange has minted and burned. -/
theorem supply_handle (h : r.KeepsSound) (request : Request) (d : Denom) :
    (handle r request).2.ledger.supply d.text = r.ledger.supply d.text +
      (minted d.text ⟨request, (handle r request).1⟩ -
        burned d.text ⟨request, (handle r request).1⟩) := by
  cases horder : request.order? with
  | none =>
      have hdone : done? ⟨request, (handle r request).1⟩ = none := done?_of_no_order horder
      rw [(handle_alike_of_no_order horder).ledger, minted, burned, hdone]
      exact (add_zero _).symm
  | some order =>
      obtain ⟨hminted, hburned⟩ := amounts_of_order (r := r) horder d
      obtain ⟨deeds, hkeeps, -⟩ := h
      rw [handle_snd_of_order horder, hminted, hburned]
      exact hkeeps.supply_execute ⟨order.sender, .message order.command⟩ d

/-- A run of requests: what there is of a denom changes by what becomes outstanding. -/
theorem supply_after_requests (h : r.KeepsSound) (requests : List Request) (d : Denom) :
    (after r requests).ledger.supply d.text =
      r.ledger.supply d.text + outstanding d.text (exchanges r requests) := by
  induction requests generalizing r with
  | nil => exact (add_zero _).symm
  | cons request rest ih =>
      rw [after_cons, ih (keepsSound_handle h request), supply_handle h request d]
      simp only [outstanding, exchanges, List.map_cons, List.sum_cons]
      omega

/-! ### From the start -/

/-- Of a text that is no denom nothing is outstanding. -/
theorem outstanding_of_no_denom {denom : String} (h : ∀ d : Denom, d.text ≠ denom)
    (es : List Exchange) : outstanding denom es = 0 := by
  have hminted : minted denom = fun _ => 0 := funext fun _ => amountOf_of_no_denom h _
  have hburned : burned denom = fun _ => 0 := funext fun _ => amountOf_of_no_denom h _
  rw [outstanding, hminted, hburned, sub_self]

/-- All that there is of a denom is outstanding. -/
theorem supply_after_start (settings : Settings) (requests : List Request) (denom : String) :
    (after (start settings) requests).ledger.supply denom =
      outstanding denom (exchanges (start settings) requests) := by
  by_cases hdenom : ∃ d : Denom, d.text = denom
  · obtain ⟨d, rfl⟩ := hdenom
    have hsupply := supply_after_requests (keepsSound_start settings) requests d
    rwa [ledger_start, supply_empty, zero_add] at hsupply
  · obtain ⟨deeds, -, hholds⟩ := keepsSound_after (keepsSound_start settings) requests
    rw [outstanding_of_no_denom (not_exists.mp hdenom)]
    refine finsum_eq_zero_of_forall_eq_zero fun account => ?_
    -- Where there is something, it is in a denom.
    by_contra hsome
    have hpositive := lt_of_le_of_ne (hholds.balance_nonneg ⟨account, denom⟩) (Ne.symm hsome)
    obtain ⟨d, -, -, hd⟩ := (hholds.of_balance hpositive).denom
    exact hdenom ⟨d, hd⟩

/-! ### Mintings without end -/

section Minting

variable {b : Book} {sender recipient : String} {text : Text} {d : Denom} {amount : Int}

/-- An admin can always mint. -/
theorem carried_minting (hkept : b.Kept r.store.contents) (hd : Denom.parse text = .ok d)
    (hadmin : b.admin d = some sender) (hsender : sender ≠ "") (hamount : 0 < amount)
    (hrecipient : Address.isValid recipient = true)
    (horder : request.order? = some ⟨sender, .mintTokens text amount recipient⟩) :
    Carried b (.moved (.mint d.text amount recipient)) r (handle r request).2 := by
  have hjudge : b.judge r.store.commandsFail r.ledger sender (.mintTokens text amount recipient) =
      .ok (.moved (.mint d.text amount recipient)) :=
    judge_mintTokens.mpr ⟨d, recipient, ⟨hamount, hd, hadmin, hsender⟩,
      addressOf_ofString hrecipient, ⟨_, rfl⟩, rfl⟩
  rw [handle_snd_of_order horder]
  exact (execute_of_kept hkept sender _).2 _ hjudge

/-- What is minted again and again adds up. -/
theorem balance_after_mintings (hkept : b.Kept r.store.contents) (hd : Denom.parse text = .ok d)
    (hadmin : b.admin d = some sender) (hsender : sender ≠ "") (hamount : 0 < amount)
    (hrecipient : Address.isValid recipient = true)
    (horder : request.order? = some ⟨sender, .mintTokens text amount recipient⟩) (n : Nat) :
    (after r (List.replicate n request)).ledger.balance ⟨recipient, d.text⟩ =
      r.ledger.balance ⟨recipient, d.text⟩ + n * amount := by
  induction n generalizing r with
  | zero => simp [after]
  | succ n ih =>
      have hcarried := carried_minting hkept hd hadmin hsender hamount hrecipient horder
      have hkept' : b.Kept (handle r request).2.store.contents := by
        rw [hcarried.contents]
        exact hkept
      have hbalance : (handle r request).2.ledger.balance ⟨recipient, d.text⟩ =
          r.ledger.balance ⟨recipient, d.text⟩ + amount := by
        rw [hcarried.ledger]
        exact (balance_credit _ _ _ _).trans (congrArg _ (if_pos rfl))
      rw [List.replicate_succ, after_cons, ih hkept', hbalance]
      push_cast
      ring

end Minting

/-- Alice creates her gold. -/
def goldCreation : Request :=
  post "/v1/execute" (orderBody "alice" "create_denom" [("subdenom", .str "gold")])

/-- Alice mints as much as she can for Bob. -/
def goldMinting : Request :=
  post "/v1/execute" (orderBody "alice" "mint_tokens" [("amount", .num Form.maxAmount),
    ("denom", .str "factory/alice/gold"), ("mint_to_address", .str "bob")])

theorem order?_goldCreation : goldCreation.order? = some ⟨"alice", .createDenom "gold" none⟩ := by
  decide +kernel

theorem order?_goldMinting :
    goldMinting.order? = some ⟨"alice", .mintTokens "factory/alice/gold" Form.maxAmount "bob"⟩ := by
  decide +kernel

/-- Bob gets as much as Alice likes. -/
theorem balance_after_goldMintings (n : Nat) :
    (after (start .defaults) (goldCreation :: List.replicate n goldMinting)).ledger.balance
      ⟨"bob", gold.text⟩ = n * Form.maxAmount := by
  let created : Book := (∅ : Book).enter (.created gold none)
  have hcarried : Carried ∅ (.created gold none) (start .defaults)
      (handle (start .defaults) goldCreation).2 := by
    rw [handle_snd_of_order order?_goldCreation]
    exact (execute_of_kept kept_empty "alice" _).2 _ (by decide +kernel)
  have hkept : created.Kept (handle (start .defaults) goldCreation).2.store.contents := by
    rw [hcarried.contents]
    exact kept_empty.enter fun _ h => by cases h
  have hgold : Denom.parse "factory/alice/gold" = .ok gold := rfl
  have hmintings := balance_after_mintings hkept hgold rfl (by decide) (by decide) (by decide)
    order?_goldMinting n
  rw [after_cons, hmintings, hcarried.ledger]
  exact zero_add _

/-! ### Balances -/

/-- **A balance is bounded by what is outstanding of its denom.** Whatever requests a service has
handled since it was started, all accounts together have what the requests that were answered with
status 200 have minted of a denom less what they have burned, under whatever spelling of its name; so
no single one has more, and none has less than nothing. Each of the requests has minted or burned no
more than the greatest amount, and there is a request to burn or to transfer the whole of a balance
just if that is no more than the greatest amount. -/
theorem balance_bounded_by_outstanding (settings : Settings) (requests : List Request)
    (holding : Holding) :
    let run := exchanges (start settings) requests
    let ledger := (after (start settings) requests).ledger
    let balance := ledger.balance holding
    (∀ e ∈ run, (0 ≤ e.minted holding.denom ∧ e.minted holding.denom ≤ Form.maxAmount) ∧
        0 ≤ e.burned holding.denom ∧ e.burned holding.denom ≤ Form.maxAmount) ∧
      ∑ᶠ account : String, ledger.balance ⟨account, holding.denom⟩ =
        outstanding holding.denom run ∧
      0 ≤ balance ∧ balance ≤ outstanding holding.denom run ∧
      ∀ sender target : String, sender ≠ "" →
        ((∃ request : Request, request.order? =
            some ⟨sender, .burnTokens holding.denom balance holding.address⟩) ↔
          balance ≤ Form.maxAmount) ∧
        ((∃ request : Request, request.order? =
            some ⟨sender, .forceTransfer holding.denom balance holding.address target⟩) ↔
          balance ≤ Form.maxAmount) := by
  intro run ledger balance
  obtain ⟨deeds, -, hholds⟩ := keepsSound_after (keepsSound_start settings) requests
  have hsupply : ledger.supply holding.denom = outstanding holding.denom run :=
    supply_after_start settings requests holding.denom
  have hnonneg : 0 ≤ balance := hholds.balance_nonneg holding
  have hbounded : balance ≤ outstanding holding.denom run :=
    (hholds.balance_le_supply holding).trans_eq hsupply
  have hrange : 0 ≤ balance ∧ balance ≤ Form.maxAmount ↔ balance ≤ Form.maxAmount :=
    and_iff_right hnonneg
  exact ⟨fun e _ => ⟨e.minted_inRange _, e.burned_inRange _⟩, hsupply, hnonneg, hbounded,
    fun sender target hsender => ⟨(exists_order?_burn_iff hsender).trans hrange,
      (exists_order?_transfer_iff hsender).trans hrange⟩⟩

/-- What was minted at once can be burned at once. -/
theorem one_goldMinting_nameable :
    (after (start .defaults) [goldCreation, goldMinting]).ledger.balance ⟨"bob", gold.text⟩ =
        Form.maxAmount ∧
      "alice" ≠ "" ∧
      ∃ request : Request,
        request.order? = some ⟨"alice", .burnTokens gold.text Form.maxAmount "bob"⟩ := by
  have hsender : "alice" ≠ "" := by decide
  have hbalance : (after (start .defaults) [goldCreation, goldMinting]).ledger.balance
      ⟨"bob", gold.text⟩ = Form.maxAmount :=
    (balance_after_goldMintings 1).trans (one_mul _)
  obtain ⟨-, -, -, -, hnamed⟩ := balance_bounded_by_outstanding .defaults [goldCreation, goldMinting]
    ⟨"bob", gold.text⟩
  obtain ⟨hburning, -⟩ := hnamed "alice" "carol" hsender
  rw [hbalance] at hburning
  exact ⟨hbalance, hsender, hburning.mpr le_rfl⟩

theorem two_goldMintings_exceed_maxAmount :
    ¬ ∀ (settings : Settings) (requests : List Request) (holding : Holding),
      (after (start settings) requests).ledger.balance holding ≤ Form.maxAmount := by
  intro hclaim
  have hle := hclaim .defaults (goldCreation :: List.replicate 2 goldMinting) ⟨"bob", gold.text⟩
  rw [balance_after_goldMintings] at hle
  revert hle
  decide

end Server

end Coinage
