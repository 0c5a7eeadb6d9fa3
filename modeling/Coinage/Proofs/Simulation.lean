import Coinage.Proofs.Failure
import Coinage.Registry.Answer

/-! Registries side by side. Commands and queries reach for a registry in four ways only: they read a
text, run a transaction, have tokens moved and put something on record. So two registries that answer
each of these alike, and go on doing so, cannot be told apart by any message. -/

namespace Coinage

open Act

namespace Registry

/-- A relation that every step keeps, with the same answer to it on both sides. -/
structure Simulation (R : Registry → Registry → Prop) : Prop where
  get {r t : Registry} (h : R r t) (key : Text) :
    (t.store.get key).1 = (r.store.get key).1 ∧
      R { r with store := (r.store.get key).2 } { t with store := (t.store.get key).2 }
  transact {ε α : Type} {r t : Registry} (h : R r t) (locks : List Text) (script : Script ε α) :
    (t.transact locks script).1 = (r.transact locks script).1 ∧
      R (r.transact locks script).2 (t.transact locks script).2
  move {r t : Registry} (h : R r t) (m : Ledger.Movement) :
    (t.move m).1 = (r.move m).1 ∧ R (r.move m).2 (t.move m).2
  record (r t : Registry) (level : Log.Level) (text : String) (h : R r t) :
    R (r.record level text) (t.record level text)

namespace Simulation

variable {α : Type} {R : Registry → Registry → Prop} (hR : Simulation R)

include hR

/-! ### The steps of an act -/

theorem respects_fetch (key : Text) : (fetch key).Respects R := by
  intro r t h
  obtain ⟨hfound, hafter⟩ := hR.get h key
  exact ⟨congrArg Except.ok hfound, hafter⟩

theorem respects_transaction (locks : List Text) (script : Script Fault α) :
    (transaction locks script).Respects R := by
  intro r t h
  obtain ⟨hresult, hafter⟩ := hR.transact h locks script
  exact ⟨congrArg (Except.mapError faultOfAbort) hresult, hafter⟩

theorem respects_move (m : Ledger.Movement) : (Act.move m).Respects R := by
  intro r t h
  obtain ⟨hresult, hafter⟩ := hR.move h m
  exact ⟨congrArg (Except.mapError Fault.ledger) hresult, hafter⟩

theorem respects_info (text : String) : (info text).Respects R :=
  fun r t h => ⟨rfl, hR.record r t .info text h⟩

theorem respects_transaction_info (locks : List Text) (script : Script Fault Unit) (text : String) :
    (do transaction locks script; info text).Respects R :=
  (hR.respects_transaction locks script).bind fun _ => hR.respects_info text

theorem respects_move_info (m : Ledger.Movement) (text : String) :
    (do Act.move m; info text).Respects R :=
  (hR.respects_move m).bind fun _ => hR.respects_info text

/-! ### The commands -/

theorem respects_authorizeMovement (sender : String) (text : Text) (amount : Int) :
    (authorizeMovement sender text amount).Respects R :=
  (respects_lift _).bind fun _ => (respects_lift _).bind fun _ =>
    (hR.respects_fetch _).bind fun _ => (respects_lift _).bind fun _ => respects_pure _

theorem respects_createDenom (sender : String) (subdenom : Text) (metadata : Option Metadata) :
    (createDenom sender subdenom metadata).Respects R :=
  (respects_lift _).bind fun d => (hR.respects_transaction _ _).bind fun _ =>
    (hR.respects_info _).bind fun _ => respects_pure d

theorem respects_changeAdmin (sender : String) (text newAdmin : Text) :
    (changeAdmin sender text newAdmin).Respects R :=
  (respects_lift _).bind fun _ => hR.respects_transaction_info _ _ _

theorem respects_mintTokens (sender : String) (text : Text) (amount : Int) (recipient : Text) :
    (mintTokens sender text amount recipient).Respects R :=
  (hR.respects_authorizeMovement sender text amount).bind fun _ =>
    (respects_lift _).bind fun _ => hR.respects_move_info _ _

theorem respects_burnTokens (sender : String) (text : Text) (amount : Int) (holder : Text) :
    (burnTokens sender text amount holder).Respects R := by
  refine (hR.respects_authorizeMovement sender text amount).bind fun d => ?_
  split
  · exact hR.respects_move_info _ _
  · exact (respects_reject _).bind fun _ => hR.respects_move_info _ _

theorem respects_forceTransfer (sender : String) (text : Text) (amount : Int)
    (source target : Text) : (forceTransfer sender text amount source target).Respects R :=
  (hR.respects_authorizeMovement sender text amount).bind fun _ => (respects_lift _).bind fun _ =>
    (respects_lift _).bind fun _ => hR.respects_move_info _ _

theorem respects_setMetadata (sender : String) (text : Text) (metadata : Metadata) :
    (setMetadata sender text metadata).Respects R :=
  (respects_lift _).bind fun _ => hR.respects_transaction_info _ _ _

theorem respects_perform (sender : String) (command : Command) :
    (perform sender command).Respects R := by
  have hreceipt : (pure command.receipt : Act Receipt).Respects R := respects_pure _
  cases command with
  | createDenom subdenom metadata =>
      exact (hR.respects_createDenom sender subdenom metadata).bind fun _ =>
        (respects_lift _).bind fun _ => respects_pure _
  | changeAdmin denom newAdmin =>
      exact (hR.respects_changeAdmin sender denom newAdmin).bind fun _ => hreceipt
  | mintTokens denom amount recipient =>
      exact (hR.respects_mintTokens sender denom amount recipient).bind fun _ => hreceipt
  | burnTokens denom amount holder =>
      exact (hR.respects_burnTokens sender denom amount holder).bind fun _ => hreceipt
  | forceTransfer denom amount source target =>
      exact (hR.respects_forceTransfer sender denom amount source target).bind fun _ => hreceipt
  | setMetadata denom metadata =>
      exact (hR.respects_setMetadata sender denom metadata).bind fun _ => hreceipt

theorem respects_look (query : Query) : (look query).Respects R := by
  cases query with
  | fullDenom creator subdenom =>
      exact (respects_lift _).bind fun _ => respects_pure _
  | metadata text =>
      exact (respects_lift _).bind fun _ => (hR.respects_fetch _).bind fun _ =>
        (respects_lift _).bind fun _ => respects_pure _
  | admin text =>
      refine (respects_lift _).bind fun _ => (hR.respects_fetch _).bind fun _ =>
        (respects_lift _).bind fun found => ?_
      cases found with
      | none => exact respects_reject _
      | some admin => exact respects_pure _
  | denomsByCreator creator =>
      exact (hR.respects_fetch _).bind fun _ => (respects_lift _).bind fun _ =>
        respects_pure _
  | params => exact respects_reject _

/-! ### Messages -/

variable {r t : Registry}

/-- **No command tells related registries apart.** -/
theorem execute (h : R r t) (sender : String) (message : Submitted Command) :
    (t.execute sender message).1 = (r.execute sender message).1 ∧
      R (r.execute sender message).2 (t.execute sender message).2 := by
  cases message with
  | other shown => exact ⟨rfl, h⟩
  | message command => exact execute_respects hR.record (hR.respects_perform sender command) h

/-- **No query tells related registries apart.** -/
theorem answer (h : R r t) (query : Submitted Query) :
    (t.answer query).1 = (r.answer query).1 ∧ R (r.answer query).2 (t.answer query).2 := by
  cases query with
  | other shown => exact ⟨rfl, h⟩
  | message query => exact hR.respects_look query r t h

end Simulation

end Registry

end Coinage
