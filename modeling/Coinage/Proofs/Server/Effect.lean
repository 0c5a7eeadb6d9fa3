import Coinage.Proofs.Server.Fidelity

/-! Requests without effect. Whatever a request is answered with, it has changed nothing unless it was
an order that was answered with success. This takes nothing for granted about the registry: its store
may hold anything, and the commands of its database may fail or not. -/

namespace Coinage.Server

open Registry Database

variable {r : Registry} {request : Request}

theorem unwritten_handle_of_no_order (h : request.order? = none) :
    Unwritten r.store.journal (handle r request).2.store.journal := by
  rcases handle_snd_of_no_order r h with hsame | ⟨query, -, hquery⟩ | hhealth
  · rw [hsame]
    exact .refl _
  · rw [hquery]
    exact unwritten_answer r query
  · rw [hhealth]
    exact continues_health r request rfl rfl

/-- **Only orders that are answered with status 200 change anything.** Whatever a registry holds, and
whether the commands of its database fail or not: after a request of whatever kind that is not posted
as an order and answered with status 200, the store holds the same texts as before and the ledger the
same balances, nothing is left pending that was not, and the database was sent no rows and no
commit. -/
theorem unanswered_requests_change_nothing (r : Registry) (request : Request)
    (h : ¬ (request.isPost "/v1/execute" = true ∧ (handle r request).1.status = 200)) :
    (handle r request).2.store.contents = r.store.contents ∧
      (handle r request).2.ledger = r.ledger ∧
      (handle r request).2.store.pending ⊆ r.store.pending ∧
      Unwritten r.store.journal (handle r request).2.store.journal := by
  cases horder : request.order? with
  | none =>
      have halike := handle_alike_of_no_order (r := r) horder
      exact ⟨halike.contents, halike.ledger, halike.store.pending,
        unwritten_handle_of_no_order horder⟩
  | some order =>
      have hpost := (Request.order?_eq_some_iff.mp horder).1
      rw [handle_snd_of_order horder]
      cases hresult : (r.execute order.sender (.message order.command)).1 with
      | ok receipt => exact absurd ⟨hpost, status_of_receipt horder hresult⟩ h
      | error fault =>
          have halike := execute_alike_of_error hresult
          exact ⟨halike.contents, halike.ledger, halike.store.pending,
            unwritten_execute_of_error hresult⟩

/-- The first lock is asked for in vain, and the transaction rolled back. -/
theorem lockless_creation_changes_nothing :
    (handle lockless (creation "gold")).1.status = 500 ∧
      (handle lockless (creation "gold")).2.store.contents = lockless.store.contents ∧
      (handle lockless (creation "gold")).2.ledger = lockless.ledger ∧
      Unwritten lockless.store.journal (handle lockless (creation "gold")).2.store.journal := by
  have hstatus : (handle lockless (creation "gold")).1.status = 500 := by
    rw [handle_of_order order?_creation_gold]
    decide +kernel
  have hfailed : (handle lockless (creation "gold")).1.status ≠ 200 :=
    hstatus.symm ▸ Nat.ne_of_beq_eq_false rfl
  obtain ⟨hcontents, hledger, -, hunwritten⟩ := unanswered_requests_change_nothing lockless
    (creation "gold") fun hsuccess => hfailed hsuccess.2
  exact ⟨hstatus, hcontents, hledger, hunwritten⟩

end Coinage.Server
