import Coinage.Proofs.Transaction
import Coinage.Registry.Basic

/-! Acts, one step after the other. No act can tell registries apart that differ in their records
only. Beyond that three properties say how an act treats a registry: a quiet act leaves it alike, a
sure act does not fail, and an atomic act leaves it alike if it fails. They pass from the steps of an
act to the whole of it: a step that changes something may come after quiet steps and before sure
ones. -/

namespace Coinage

variable {α β : Type}

namespace Registry

/-- `t` keeps what `r` keeps. Only their records may tell them apart. -/
structure Alike (r t : Registry) : Prop where
  store : r.store.Alike t.store
  ledger : t.ledger = r.ledger

theorem Alike.refl (r : Registry) : r.Alike r := ⟨.refl _, rfl⟩

theorem Alike.trans {r t u : Registry} (h : r.Alike t) (h' : t.Alike u) : r.Alike u :=
  ⟨h.store.trans h'.store, h'.ledger.trans h.ledger⟩

theorem Alike.contents {r t : Registry} (h : r.Alike t) : t.store.contents = r.store.contents :=
  h.store.contents

theorem record_alike (r : Registry) (level : Log.Level) (text : String) :
    r.Alike (r.record level text) := ⟨.refl _, rfl⟩

end Registry

open Registry

namespace Act

theorem on_bind (act : Act α) (next : α → Act β) (r : Registry) :
    (act >>= next).on r =
      match act.on r with
      | (.ok a, r) => (next a).on r
      | (.error fault, r) => (.error fault, r) := by
  simp only [on, ExceptT.run_bind, StateT.run_bind]
  rcases act.run.run r with ⟨result, r'⟩
  cases result <;> rfl

theorem on_bind_ok {act : Act α} {next : α → Act β} {r r' : Registry} {a : α}
    (h : act.on r = (.ok a, r')) : (act >>= next).on r = (next a).on r' := by
  rw [on_bind, h]

theorem on_bind_error {act : Act α} {next : α → Act β} {r r' : Registry} {fault : Fault}
    (h : act.on r = (.error fault, r')) : (act >>= next).on r = (.error fault, r') := by
  rw [on_bind, h]

/-- An act that goes through has gone through step by step. -/
theorem on_bind_eq_ok_iff {act : Act α} {next : α → Act β} {r r' : Registry} {b : β} :
    (act >>= next).on r = (.ok b, r') ↔
      ∃ a r'', act.on r = (.ok a, r'') ∧ (next a).on r'' = (.ok b, r') := by
  rw [on_bind]
  rcases act.on r with ⟨fault | a, r''⟩ <;> simp

@[simp] theorem on_lift (x : Except Fault α) (r : Registry) : (liftM x : Act α).on r = (x, r) := by
  cases x <;> rfl

theorem on_lift_eq_ok_iff {x : Except Fault α} {r r' : Registry} {a : α} :
    (liftM x : Act α).on r = (.ok a, r') ↔ x = .ok a ∧ r = r' := by
  rw [on_lift, Prod.mk.injEq]

theorem on_lift_bind_fst (x : Except Fault α) (next : α → Act β) (r : Registry) :
    ((liftM x >>= next).on r).1 = x >>= fun a => ((next a).on r).1 := by
  rw [on_bind, on_lift]
  cases x <;> rfl

@[simp] theorem on_fetch (key : Text) (r : Registry) :
    (fetch key).on r = (.ok (r.store.contents.get? key), { r with store := (r.store.get key).2 }) := by
  rw [← Store.get_fst]
  rfl

theorem on_transaction (locks : List Text) (script : Script Fault α) (r : Registry) :
    (transaction locks script).on r =
      ((r.store.transact locks script).1.mapError faultOfAbort,
        { r with store := (r.store.transact locks script).2, locks := r.locks ++ [locks] }) := rfl

theorem on_move (m : Ledger.Movement) (r : Registry) :
    (move m).on r =
      match r.ledger.apply m with
      | .error e => (.error (.ledger e), r)
      | .ok ledger => (.ok (), { r with ledger }.record .info ("[LEDGER] " ++ m.describe)) := by
  change ((r.move m).1.mapError Fault.ledger, (r.move m).2) = _
  unfold Registry.move
  cases r.ledger.apply m <;> rfl

/-! ### How an act treats a registry -/

/-- Related registries are answered alike by the act and are related after it. -/
def Respects (R : Registry → Registry → Prop) (act : Act α) : Prop :=
  ∀ r t : Registry, R r t → (act.on t).1 = (act.on r).1 ∧ R (act.on r).2 (act.on t).2

theorem Respects.bind {R : Registry → Registry → Prop} {act : Act α} {next : α → Act β}
    (hact : act.Respects R) (hnext : ∀ a, (next a).Respects R) : (act >>= next).Respects R := by
  intro r t h
  obtain ⟨hresult, hafter⟩ := hact r t h
  rcases hr : act.on r with ⟨fault | a, r'⟩ <;> rcases ht : act.on t with ⟨result, t'⟩ <;>
    rw [hr, ht] at hresult hafter <;> cases hresult
  · rw [on_bind_error hr, on_bind_error ht]
    exact ⟨rfl, hafter⟩
  · rw [on_bind_ok hr, on_bind_ok ht]
    exact hnext a r' t' hafter

theorem respects_lift {R : Registry → Registry → Prop} (x : Except Fault α) :
    (liftM x : Act α).Respects R := by
  intro r t h
  rw [on_lift, on_lift]
  exact ⟨rfl, h⟩

theorem respects_pure {R : Registry → Registry → Prop} (a : α) : (pure a : Act α).Respects R :=
  fun _ _ h => ⟨rfl, h⟩

theorem respects_reject {R : Registry → Registry → Prop} (rejection : Rejection) :
    (reject rejection : Act α).Respects R :=
  fun _ _ h => ⟨rfl, h⟩

/-- The act answers registries alike that are alike, and leaves them alike. -/
def Uniform (act : Act α) : Prop :=
  ∀ r t : Registry, r.Alike t → (act.on t).1 = (act.on r).1 ∧ (act.on r).2.Alike (act.on t).2

theorem Uniform.bind {act : Act α} {next : α → Act β} (hact : act.Uniform)
    (hnext : ∀ a, (next a).Uniform) : (act >>= next).Uniform :=
  Respects.bind hact hnext

/-- A quiet act changes nothing. -/
structure Quiet (act : Act α) : Prop where
  uniform : act.Uniform
  alike : ∀ r : Registry, r.Alike (act.on r).2

/-- A sure act does not fail. -/
structure Sure (act : Act α) : Prop where
  uniform : act.Uniform
  succeeds : ∀ r : Registry, ∃ a, (act.on r).1 = .ok a

/-- An atomic act changes nothing if it fails. -/
structure Atomic (act : Act α) : Prop where
  uniform : act.Uniform
  alike_of_error : ∀ (r : Registry) (fault : Fault),
    (act.on r).1 = .error fault → r.Alike (act.on r).2

theorem quiet_lift (x : Except Fault α) : (liftM x : Act α).Quiet where
  uniform := respects_lift x
  alike r := by
    rw [on_lift]
    exact .refl r

theorem quiet_pure (a : α) : (pure a : Act α).Quiet :=
  ⟨respects_pure a, fun r => .refl r⟩

theorem quiet_reject (rejection : Rejection) : (reject rejection : Act α).Quiet :=
  ⟨respects_reject rejection, fun r => .refl r⟩

theorem quiet_fetch (key : Text) : (fetch key).Quiet where
  uniform r t h := by
    rw [on_fetch, on_fetch, h.contents]
    exact ⟨rfl, Store.get_congr h.store key, h.ledger⟩
  alike r := by
    rw [on_fetch]
    exact ⟨Store.get_alike _ _, rfl⟩

theorem sure_pure (a : α) : (pure a : Act α).Sure := ⟨(quiet_pure a).uniform, fun _ => ⟨a, rfl⟩⟩

theorem sure_lift {x : Except Fault α} {a : α} (h : x = .ok a) : (liftM x : Act α).Sure :=
  ⟨(quiet_lift x).uniform, fun r => ⟨a, by rw [on_lift, h]⟩⟩

theorem sure_info (text : String) : (info text).Sure :=
  ⟨fun _ _ h => ⟨rfl, h.store, h.ledger⟩, fun _ => ⟨(), rfl⟩⟩

theorem atomic_transaction {locks : List Text} {script : Script Fault α} (hstages : script.Stages) :
    (transaction locks script).Atomic where
  uniform r t h := by
    obtain ⟨hresult, hafter⟩ := Store.transact_congr locks h.store hstages
    rw [on_transaction, on_transaction, hresult]
    exact ⟨rfl, hafter, h.ledger⟩
  alike_of_error r fault hfault := by
    rw [on_transaction] at hfault ⊢
    cases habort : (r.store.transact locks script).1 with
    | ok a =>
        rw [habort] at hfault
        cases hfault
    | error abort => exact ⟨Store.transact_alike_of_error hstages habort, rfl⟩

theorem atomic_move (m : Ledger.Movement) : (move m).Atomic where
  uniform r t h := by
    rw [on_move, on_move, h.ledger]
    cases r.ledger.apply m with
    | error e => exact ⟨rfl, h⟩
    | ok ledger => exact ⟨rfl, h.store, rfl⟩
  alike_of_error r fault hfault := by
    rw [on_move] at hfault ⊢
    cases happly : r.ledger.apply m with
    | error e => exact .refl r
    | ok ledger =>
        rw [happly] at hfault
        cases hfault

theorem Quiet.bind {act : Act α} {next : α → Act β} (hact : act.Quiet) (hnext : ∀ a, (next a).Quiet) :
    (act >>= next).Quiet where
  uniform := hact.uniform.bind fun a => (hnext a).uniform
  alike r := by
    have hfirst := hact.alike r
    rcases hstep : act.on r with ⟨fault | a, r'⟩ <;> rw [hstep] at hfirst
    · rw [on_bind_error hstep]
      exact hfirst
    · rw [on_bind_ok hstep]
      exact hfirst.trans ((hnext a).alike r')

theorem Sure.bind {act : Act α} {next : α → Act β} (hact : act.Sure) (hnext : ∀ a, (next a).Sure) :
    (act >>= next).Sure where
  uniform := hact.uniform.bind fun a => (hnext a).uniform
  succeeds r := by
    obtain ⟨a, ha⟩ := hact.succeeds r
    rw [on_bind_ok (Prod.ext ha rfl)]
    exact (hnext a).succeeds _

/-- Before a change there may be steps that change nothing. -/
theorem Quiet.bind_atomic {act : Act α} {next : α → Act β} (hact : act.Quiet)
    (hnext : ∀ a, (next a).Atomic) : (act >>= next).Atomic where
  uniform := hact.uniform.bind fun a => (hnext a).uniform
  alike_of_error r fault hfault := by
    have hfirst := hact.alike r
    rcases hstep : act.on r with ⟨fault' | a, r'⟩ <;> rw [hstep] at hfirst
    · rw [on_bind_error hstep]
      exact hfirst
    · rw [on_bind_ok hstep] at hfault ⊢
      exact hfirst.trans ((hnext a).alike_of_error r' fault hfault)

/-- After a change there may be steps that do not fail. -/
theorem Atomic.bind_sure {act : Act α} {next : α → Act β} (hact : act.Atomic)
    (hnext : ∀ a, (next a).Sure) : (act >>= next).Atomic where
  uniform := hact.uniform.bind fun a => (hnext a).uniform
  alike_of_error r fault hfault := by
    have hfirst := hact.alike_of_error r
    rcases hstep : act.on r with ⟨fault' | a, r'⟩ <;> rw [hstep] at hfirst
    · rw [on_bind_error hstep]
      exact hfirst fault' rfl
    · obtain ⟨b, hb⟩ := (hnext a).succeeds r'
      rw [on_bind_ok hstep, hb] at hfault
      cases hfault

end Act

end Coinage
