import Coinage.Proofs.Holdings
import Coinage.Proofs.Server.Request

/-! Runs of requests. Whatever requests a service has handled since it was started, its store keeps a
book, and the only metadata in it are those that some accepted order came with. So what holds of
accepted metadata holds of all that is stored. The ledger holds nothing but what it may, so that nobody
is in debt. -/

namespace Coinage

open Registry

/-- The metadata that a deed enters into the book. -/
def Deed.metadata? : Deed → Option Metadata
  | .created _ metadata => metadata
  | .described _ m => some m
  | .handedOver .. | .moved _ => none

namespace Book

variable {b : Book} {deed : Deed} {d : Denom} {m : Metadata}

theorem metadata_enter (h : (b.enter deed).metadata d = some m) :
    b.metadata d = some m ∨ deed.metadata? = some m := by
  cases deed with
  | created d' metadata =>
      rw [metadata_enter_created] at h
      split at h
      · rcases Option.or_eq_some_iff.mp h with h | ⟨-, h⟩
        · exact .inr h
        · exact .inl h
      · exact .inl h
  | described d' m' =>
      simp only [enter, setMetadata] at h
      split at h
      · exact .inr h
      · exact .inl h
  | handedOver | moved => exact .inl h

/-- A deed enters the metadata that its command came with. -/
theorem metadata?_of_judge {failing : Bool} {ledger : Ledger} {sender : String} {command : Command}
    (h : b.judge failing ledger sender command = .ok deed) : deed.metadata? = command.metadata? := by
  cases grants_of_judge h <;> rfl

end Book

namespace Registry

/-- The store keeps a book, and all metadata in it have the property. -/
def KeepsOnly (P : Metadata → Prop) (r : Registry) : Prop :=
  ∃ b : Book, b.Kept r.store.contents ∧ ∀ d, ∀ m ∈ b.metadata d, P m

variable {P Q : Metadata → Prop} {r t : Registry}

theorem KeepsOnly.mono (h : r.KeepsOnly P) (hPQ : ∀ m, P m → Q m) : r.KeepsOnly Q := by
  obtain ⟨b, hkept, hP⟩ := h
  exact ⟨b, hkept, fun d m hm => hPQ m (hP d m hm)⟩

theorem KeepsOnly.of_contents (h : r.KeepsOnly P) (hcontents : t.store.contents = r.store.contents) :
    t.KeepsOnly P := by
  rwa [KeepsOnly, hcontents]

theorem keepsOnly_of_empty (h : r.store.contents = ∅) : r.KeepsOnly P :=
  ⟨∅, h ▸ Book.kept_empty, fun _ _ hm => by cases hm⟩

/-- No execution makes the commands of a database fail, or succeed again. -/
theorem KeepsOnly.commandsFail_execute (h : r.KeepsOnly P) (sender : String)
    (message : Submitted Command) :
    (r.execute sender message).2.store.commandsFail = r.store.commandsFail := by
  obtain ⟨b, hkept, -⟩ := h
  rcases execute_cases hkept sender message with ⟨-, halike⟩ | ⟨_, _, -, -, -, hcarried⟩
  · exact halike.store.commandsFail
  · exact hcarried.commandsFail

/-- The metadata of a command are all that it may add. -/
theorem KeepsOnly.execute (h : r.KeepsOnly P) (sender : String) {command : Command}
    (hcommand : ∀ m ∈ command.metadata?, P m) :
    (r.execute sender (.message command)).2.KeepsOnly P := by
  obtain ⟨b, hkept, hP⟩ := h
  rcases execute_cases hkept sender (.message command) with
    ⟨-, halike⟩ | ⟨command', deed, hsame, hjudge, -, hcarried⟩
  · exact KeepsOnly.of_contents ⟨b, hkept, hP⟩ halike.contents
  · cases hsame
    refine ⟨b.enter deed, ?_, fun d m hm => ?_⟩
    · rw [hcarried.contents]
      exact hkept.enter (Book.canEnter_of_judge hjudge)
    · rcases Book.metadata_enter hm with hm | hm
      · exact hP d m hm
      · exact hcommand m (Book.metadata?_of_judge hjudge ▸ hm)

end Registry

namespace Server

/-- The request carries an order that comes with the metadata. -/
def Request.Gives (request : Request) (m : Metadata) : Prop :=
  ∃ order, request.order? = some order ∧ order.command.metadata? = some m

/-- Metadata that were given are in range. -/
theorem Request.Gives.inRange {request : Request} {m : Metadata} (h : request.Gives m) : m.InRange := by
  obtain ⟨order, horder, hm⟩ := h
  exact (inRange_of_order? horder).metadata m hm

variable {P : Metadata → Prop} {r : Registry} {request : Request}

theorem keepsOnly_handle (h : r.KeepsOnly P) (hgiven : ∀ m, request.Gives m → P m) :
    (handle r request).2.KeepsOnly P := by
  cases horder : request.order? with
  | none => exact h.of_contents (handle_alike_of_no_order horder).contents
  | some order =>
      rw [handle_snd_of_order horder]
      exact h.execute order.sender fun m hm => hgiven m ⟨order, horder, hm⟩

theorem commandsFail_handle (h : r.KeepsOnly P) (request : Request) :
    (handle r request).2.store.commandsFail = r.store.commandsFail := by
  cases horder : request.order? with
  | none => exact (handle_alike_of_no_order horder).store.commandsFail
  | some order =>
      rw [handle_snd_of_order horder]
      exact h.commandsFail_execute order.sender _

theorem keepsSound_handle (h : r.KeepsSound) (request : Request) :
    (handle r request).2.KeepsSound := by
  cases horder : request.order? with
  | none =>
      have halike := handle_alike_of_no_order (r := r) horder
      exact h.of_same halike.contents halike.ledger
  | some order =>
      rw [handle_snd_of_order horder]
      exact h.execute order.sender _

/-- The registry after a run of requests. -/
def after (r : Registry) (requests : List Request) : Registry :=
  requests.foldl (fun r request => (handle r request).2) r

theorem after_nil (r : Registry) : after r [] = r := rfl

theorem after_cons (r : Registry) (request : Request) (rest : List Request) :
    after r (request :: rest) = after (handle r request).2 rest := by
  rw [after, after, List.foldl_cons]

theorem keepsOnly_after {requests : List Request} (h : r.KeepsOnly P)
    (hgiven : ∀ request ∈ requests, ∀ m, request.Gives m → P m) : (after r requests).KeepsOnly P := by
  induction requests generalizing r with
  | nil => exact h
  | cons request rest ih =>
      obtain ⟨hfirst, hrest⟩ := List.forall_mem_cons.mp hgiven
      rw [after_cons]
      exact ih (keepsOnly_handle h hfirst) hrest

/-- No request makes the commands of a database fail, or succeed again. -/
theorem commandsFail_after (h : r.KeepsOnly fun _ => True) (requests : List Request) :
    (after r requests).store.commandsFail = r.store.commandsFail := by
  induction requests generalizing r with
  | nil => rfl
  | cons request rest ih =>
      rw [after_cons, ih (keepsOnly_handle h fun _ _ => trivial), commandsFail_handle h request]

theorem keepsSound_after (h : r.KeepsSound) (requests : List Request) :
    (after r requests).KeepsSound := by
  induction requests generalizing r with
  | nil => exact h
  | cons request rest ih =>
      rw [after_cons]
      exact ih (keepsSound_handle h request)

/-! ### From the start -/

theorem contents_start (settings : Settings) : (start settings).store.contents = ∅ := by
  rw [start]
  cases settings.storageBackend <;> rfl

theorem ledger_start (settings : Settings) : (start settings).ledger = ∅ := by
  rw [start]
  cases settings.storageBackend <;> rfl

theorem keepsSound_start (settings : Settings) : (start settings).KeepsSound :=
  keepsSound_of_empty (contents_start settings) (ledger_start settings)

theorem commandsFail_start (settings : Settings) : (start settings).store.commandsFail = false := by
  rw [start]
  cases settings.storageBackend <;> rfl

/-- **All that is ever described was given.** -/
theorem keepsOnly_after_start (settings : Settings) (requests : List Request) :
    (after (start settings) requests).KeepsOnly fun m => ∃ request ∈ requests, request.Gives m :=
  keepsOnly_after (keepsOnly_of_empty (contents_start settings)) fun request hrequest _ hm =>
    ⟨request, hrequest, hm⟩

theorem commandsFail_after_start (settings : Settings) (requests : List Request) :
    (after (start settings) requests).store.commandsFail = false := by
  rw [commandsFail_after (keepsOnly_of_empty (contents_start settings)), commandsFail_start]

/-- The registries that requests lead to. In between, the commands of the database may fail and succeed
again. -/
inductive Reachable : Registry → Prop
  | start (settings : Settings) : Reachable (start settings)
  | handle {r : Registry} (h : Reachable r) (request : Request) : Reachable (handle r request).2
  | setCommandsFail {r : Registry} (h : Reachable r) (failing : Bool) :
      Reachable { r with store := r.store.setCommandsFail failing }

theorem Reachable.after (h : Reachable r) (requests : List Request) : Reachable (after r requests) := by
  induction requests generalizing r with
  | nil => exact h
  | cons request rest ih =>
      rw [after_cons]
      exact ih (h.handle request)

/-- **The exponents of all stored metadata are in range.** -/
theorem Reachable.keepsOnly (h : Reachable r) : r.KeepsOnly Metadata.InRange := by
  induction h with
  | start settings => exact keepsOnly_of_empty (contents_start settings)
  | handle _ request ih => exact keepsOnly_handle ih fun m hm => hm.inRange
  | @setCommandsFail r _ failing ih =>
      refine ih.of_contents ?_
      cases r.store <;> rfl

/-- **Nobody is ever in debt.** -/
theorem Reachable.keepsSound (h : Reachable r) : r.KeepsSound := by
  induction h with
  | start settings => exact keepsSound_start settings
  | handle _ request ih => exact keepsSound_handle ih request
  | @setCommandsFail r _ failing ih =>
      refine ih.of_same ?_ rfl
      cases r.store <;> rfl

end Server

end Coinage
