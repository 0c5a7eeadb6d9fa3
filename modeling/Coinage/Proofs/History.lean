import Mathlib.Data.List.Induction
import Mathlib.Data.List.Nodup
import Coinage.Proofs.Execution
import Coinage.Proofs.Run

/-! What a history makes of a book. The deeds of a history are those of its messages that succeeded.
They come in a certain order: a denom is created once, and before it is handed over or described. So
the book at the end of a run can be read off the history of the run without any state in between. -/

namespace Coinage

open Registry Book

/-- The deed that a command comes to if nothing is wrong with it. -/
def Command.deed? (sender : String) : Command → Option Deed
  | .createDenom subdenom metadata => do
    return .created (← (Denom.lookup sender subdenom).toOption) metadata
  | .changeAdmin text newAdmin => do
    return .handedOver (← (Denom.parse text).toOption) (← newAdmin.toString?)
  | .mintTokens text amount recipient => do
    return .moved (.mint (← (Denom.parse text).toOption).text amount (← recipient.toString?))
  | .burnTokens text amount _ => do
    return .moved (.burn (← (Denom.parse text).toOption).text amount sender)
  | .forceTransfer text amount source target => do
    return .moved (.transfer (← (Denom.parse text).toOption).text amount (← source.toString?)
      (← target.toString?))
  | .setMetadata text metadata => do
    return .described (← (Denom.parse text).toOption) metadata

theorem Book.deed?_of_judge {b : Book} {failing : Bool} {ledger : Ledger} {sender : String}
    {command : Command} {deed : Deed} (h : b.judge failing ledger sender command = .ok deed) :
    command.deed? sender = some deed := by
  cases grants_of_judge h with
  | creation hcreator =>
      subst hcreator
      simp only [Command.deed?, Denom.lookup_creator_subdenom]
      rfl
  | handover hd | mint _ hd | burn _ hd | transfer _ hd | description hd =>
      simp only [Command.deed?, hd, Text.toString?_ofString]
      rfl

namespace Outcome

/-- What was done in answer to a message, if it succeeded. -/
def deed? (o : Outcome) : Option Deed :=
  match o.message, o.result with
  | .message command, .ok _ => command.deed? o.sender
  | _, _ => none

/-- What was done in the course of a history. -/
def deeds (history : List Outcome) : List Deed := history.filterMap deed?

theorem deeds_concat (history : List Outcome) (o : Outcome) :
    deeds (history ++ [o]) = deeds history ++ o.deed?.toList := by
  rw [deeds, List.filterMap_append]
  cases h : o.deed? <;> simp [deeds, h]

end Outcome

namespace Deed

def created? : Deed → Option Denom
  | .created d _ => some d
  | _ => none

def metadataGiven? (d : Denom) : Deed → Option Metadata
  | .created d' metadata => if d' = d then metadata else none
  | _ => none

def newAdmin? (d : Denom) : Deed → Option String
  | .handedOver d' newAdmin => if d' = d then some newAdmin else none
  | _ => none

def newMetadata? (d : Denom) : Deed → Option Metadata
  | .described d' m => if d' = d then some m else none
  | _ => none

variable (deeds : List Deed) (d : Denom)

/-- The denoms that were created, in order. -/
def creations : List Denom := deeds.filterMap created?

/-- Who the denom was handed over to last. -/
def lastAdmin : Option String := (deeds.filterMap (newAdmin? d)).getLast?

/-- How the denom was described last. -/
def lastMetadata : Option Metadata := (deeds.filterMap (newMetadata? d)).getLast?

/-- How the denom was described when it was created. -/
def firstMetadata : Option Metadata := deeds.findSome? (metadataGiven? d)

private theorem filterMap_concat {α β : Type} (f : α → Option β) (xs : List α) (x : α) :
    (xs ++ [x]).filterMap f = xs.filterMap f ++ (f x).toList := by
  rw [List.filterMap_append]
  cases h : f x <;> simp [h]

variable (deed : Deed)

theorem creations_concat : creations (deeds ++ [deed]) = creations deeds ++ deed.created?.toList :=
  filterMap_concat created? deeds deed

theorem lastAdmin_concat :
    lastAdmin (deeds ++ [deed]) d = (deed.newAdmin? d).or (lastAdmin deeds d) := by
  rw [lastAdmin, filterMap_concat]
  cases deed.newAdmin? d <;> simp [lastAdmin]

theorem lastMetadata_concat :
    lastMetadata (deeds ++ [deed]) d = (deed.newMetadata? d).or (lastMetadata deeds d) := by
  rw [lastMetadata, filterMap_concat]
  cases deed.newMetadata? d <;> simp [lastMetadata]

theorem firstMetadata_concat :
    firstMetadata (deeds ++ [deed]) d = (firstMetadata deeds d).or (deed.metadataGiven? d) := by
  rw [firstMetadata, List.findSome?_append]
  cases h : deed.metadataGiven? d <;> simp [firstMetadata, h]

end Deed

open Deed

namespace Book

/-- The book that deeds add up to. -/
def ofDeeds (deeds : List Deed) : Book where
  admin d := if d ∈ creations deeds then some ((lastAdmin deeds d).getD d.creator) else none
  metadata d := (lastMetadata deeds d).or (firstMetadata deeds d)
  created c := (creations deeds).filter fun d => d.creator = c

theorem admin_ofDeeds (deeds : List Deed) (d : Denom) : (ofDeeds deeds).admin d =
    if d ∈ creations deeds then some ((lastAdmin deeds d).getD d.creator) else none := rfl

theorem metadata_ofDeeds (deeds : List Deed) (d : Denom) :
    (ofDeeds deeds).metadata d = (lastMetadata deeds d).or (firstMetadata deeds d) := rfl

theorem created_ofDeeds (deeds : List Deed) (c : String) :
    (ofDeeds deeds).created c = (creations deeds).filter fun d => d.creator = c := rfl

theorem admin_ofDeeds_eq_none {deeds : List Deed} {d : Denom} :
    (ofDeeds deeds).admin d = none ↔ d ∉ creations deeds := by
  simp [ofDeeds]

/-- The order that deeds come in. -/
structure Orderly (deeds : List Deed) : Prop where
  nodup : (creations deeds).Nodup
  lastAdmin : ∀ d, d ∉ creations deeds → lastAdmin deeds d = none
  metadata : ∀ d, d ∉ creations deeds → (ofDeeds deeds).metadata d = none

theorem orderly_nil : Orderly [] where
  nodup := List.nodup_nil
  lastAdmin _ _ := rfl
  metadata _ _ := rfl

theorem admin_ofDeeds_concat {deeds : List Deed} (h : Orderly deeds) {deed : Deed}
    (hdeed : (ofDeeds deeds).Permits deed) (d : Denom) :
    (ofDeeds (deeds ++ [deed])).admin d = ((ofDeeds deeds).enter deed).admin d := by
  rw [admin_ofDeeds, creations_concat, lastAdmin_concat]
  cases deed with
  | created d' metadata =>
      have hfresh : d' ∉ creations deeds := admin_ofDeeds_eq_none.mp hdeed
      rw [admin_enter_created, admin_ofDeeds]
      by_cases heq : d = d'
      · subst heq
        simp [created?, newAdmin?, h.lastAdmin d hfresh]
      · simp [created?, newAdmin?, heq]
  | handedOver d' newAdmin =>
      have hthere : d' ∈ creations deeds := not_not.mp (mt admin_ofDeeds_eq_none.mpr hdeed)
      by_cases heq : d = d'
      · subst heq
        simp [created?, newAdmin?, enter, setAdmin, hthere]
      · simp [created?, newAdmin?, enter, setAdmin, admin_ofDeeds, heq, Ne.symm heq]
  | described d' m => simp [created?, newAdmin?, enter, setMetadata, admin_ofDeeds]
  | moved m => simp [created?, newAdmin?, enter, admin_ofDeeds]

theorem metadata_ofDeeds_concat {deeds : List Deed} (h : Orderly deeds) {deed : Deed}
    (hdeed : (ofDeeds deeds).Permits deed) (d : Denom) :
    (ofDeeds (deeds ++ [deed])).metadata d = ((ofDeeds deeds).enter deed).metadata d := by
  rw [metadata_ofDeeds, lastMetadata_concat, firstMetadata_concat]
  cases deed with
  | created d' metadata =>
      have hfresh : d' ∉ creations deeds := admin_ofDeeds_eq_none.mp hdeed
      rw [metadata_enter_created]
      by_cases heq : d = d'
      · subst heq
        have hnone := Option.or_eq_none_iff.mp (h.metadata d hfresh)
        simp [newMetadata?, metadataGiven?, h.metadata d hfresh, hnone]
      · simp [newMetadata?, metadataGiven?, metadata_ofDeeds, heq, Ne.symm heq]
  | handedOver d' newAdmin =>
      simp [newMetadata?, metadataGiven?, enter, setAdmin, metadata_ofDeeds]
  | described d' m =>
      by_cases heq : d = d'
      · subst heq
        simp [newMetadata?, metadataGiven?, enter, setMetadata]
      · simp [newMetadata?, metadataGiven?, enter, setMetadata, metadata_ofDeeds, heq,
          Ne.symm heq]
  | moved m => simp [newMetadata?, metadataGiven?, enter, metadata_ofDeeds]

theorem created_ofDeeds_concat (deeds : List Deed) (deed : Deed) (c : String) :
    (ofDeeds (deeds ++ [deed])).created c = ((ofDeeds deeds).enter deed).created c := by
  rw [created_ofDeeds, creations_concat, List.filter_append]
  cases deed with
  | created d metadata =>
      rw [created_enter_created, created_ofDeeds]
      by_cases heq : c = d.creator
      · simp [created?, heq]
      · simp [created?, heq, Ne.symm heq]
  | handedOver d newAdmin => simp [created?, enter, setAdmin, created_ofDeeds]
  | described d m => simp [created?, enter, setMetadata, created_ofDeeds]
  | moved m => simp [created?, enter, created_ofDeeds]

/-- **One more deed is one more entry in the book.** -/
theorem ofDeeds_concat {deeds : List Deed} (h : Orderly deeds) {deed : Deed}
    (hdeed : (ofDeeds deeds).Permits deed) :
    ofDeeds (deeds ++ [deed]) = (ofDeeds deeds).enter deed := by
  apply Book.ext
  · funext d
    exact admin_ofDeeds_concat h hdeed d
  · funext d
    exact metadata_ofDeeds_concat h hdeed d
  · funext c
    exact created_ofDeeds_concat deeds deed c

theorem Orderly.concat {deeds : List Deed} (h : Orderly deeds) {deed : Deed}
    (hdeed : (ofDeeds deeds).Permits deed) : Orderly (deeds ++ [deed]) where
  nodup := by
    rw [creations_concat]
    cases deed with
    | created d metadata =>
        have hfresh : d ∉ creations deeds := admin_ofDeeds_eq_none.mp hdeed
        exact List.nodup_append.mpr ⟨h.nodup, List.nodup_singleton d, fun x hx y hy heq => by
          rw [List.mem_singleton.mp hy] at heq
          exact hfresh (heq ▸ hx)⟩
    | handedOver | described | moved => simpa [created?] using h.nodup
  lastAdmin d hd := by
    rw [creations_concat, List.mem_append, not_or] at hd
    rw [lastAdmin_concat, h.lastAdmin d hd.1]
    cases deed with
    | handedOver d' newAdmin =>
        have hthere : d' ∈ creations deeds := not_not.mp (mt admin_ofDeeds_eq_none.mpr hdeed)
        have hne : d' ≠ d := fun heq => hd.1 (heq ▸ hthere)
        simp [newAdmin?, hne]
    | created | described | moved => rfl
  metadata d hd := by
    rw [ofDeeds_concat h hdeed]
    rw [creations_concat, List.mem_append, not_or] at hd
    have hnone := h.metadata d hd.1
    cases deed with
    | created d' metadata =>
        have hne : d ≠ d' := fun heq => hd.2 (heq ▸ List.mem_singleton_self d)
        rw [metadata_enter_created, if_neg hne, hnone]
    | described d' m =>
        have hthere : d' ∈ creations deeds := not_not.mp (mt admin_ofDeeds_eq_none.mpr hdeed)
        have hne : d ≠ d' := fun heq => hd.1 (heq ▸ hthere)
        simp [enter, setMetadata, hne, hnone]
    | handedOver | moved => exact hnone

end Book

namespace Registry

/-- What the registry has kept of all that was done. -/
structure Keeps (r : Registry) (deeds : List Deed) : Prop where
  orderly : Orderly deeds
  kept : (ofDeeds deeds).Kept r.store.contents
  ledger : r.ledger = deeds.foldl Ledger.after ∅

theorem keeps_start {store : Store} (hempty : store.contents = ∅) : (start store).Keeps [] where
  orderly := orderly_nil
  kept := by
    change (ofDeeds []).Kept store.contents
    rw [hempty]
    exact kept_empty
  ledger := rfl

theorem Keeps.of_alike {r t : Registry} {deeds : List Deed} (h : r.Keeps deeds) (halike : r.Alike t) :
    t.Keeps deeds where
  orderly := h.orderly
  kept := halike.contents ▸ h.kept
  ledger := halike.ledger.trans h.ledger

variable {r : Registry} {deeds : List Deed}

theorem Keeps.carried {r' : Registry} (h : r.Keeps deeds) {deed : Deed}
    (hpermits : (ofDeeds deeds).Permits deed) (hdeed : CanEnter deed)
    (hcarried : Carried (ofDeeds deeds) deed r r') : r'.Keeps (deeds ++ [deed]) where
  orderly := h.orderly.concat hpermits
  kept := by
    rw [ofDeeds_concat h.orderly hpermits, hcarried.contents]
    exact h.kept.enter hdeed
  ledger := by rw [hcarried.ledger, h.ledger, List.foldl_append, List.foldl_cons, List.foldl_nil]

/-- One message: it adds the deed that it was answered for, if any. -/
theorem Keeps.execute (h : r.Keeps deeds) (m : Sent) :
    (r.execute m.sender m.message).2.Keeps
      (deeds ++ (Outcome.deed? ⟨m, (r.execute m.sender m.message).1⟩).toList) := by
  obtain ⟨sender, message⟩ := m
  rcases execute_cases h.kept sender message with
    ⟨⟨fault, hresult⟩, halike⟩ | ⟨command, deed, rfl, hjudge, hresult, hcarried⟩
  · have hdeed : Outcome.deed? ⟨⟨sender, message⟩, (r.execute sender message).1⟩ = none := by
      rw [hresult]
      cases message <;> rfl
    rw [hdeed, Option.toList_none, List.append_nil]
    exact h.of_alike halike
  · have hdeed : Outcome.deed? ⟨⟨sender, .message command⟩,
        (r.execute sender (.message command)).1⟩ = some deed := by
      rw [hresult]
      exact deed?_of_judge hjudge
    rw [hdeed]
    exact h.carried (permits_of_judge hjudge) (canEnter_of_judge hjudge) hcarried

/-- A command succeeds if the book of all that was done has nothing against it. -/
theorem Keeps.execute_ok_iff (h : r.Keeps deeds) {sender : String} {command : Command} :
    (∃ receipt, (r.execute sender (.message command)).1 = .ok receipt) ↔
      ∃ deed, (ofDeeds deeds).judge r.store.commandsFail r.ledger sender command = .ok deed := by
  rw [(execute_of_kept h.kept sender command).1]
  cases (ofDeeds deeds).judge r.store.commandsFail r.ledger sender command <;> simp [Except.map]

/-- **A run leaves what its history adds up to.** -/
theorem keeps_after {store : Store} (hempty : store.contents = ∅) (ms : List Sent) :
    ((start store).after ms).Keeps (Outcome.deeds ((start store).history ms)) := by
  -- From the end, since the last message is the one whose deed comes last.
  induction ms using List.reverseRecOn with
  | nil => exact keeps_start hempty
  | append_singleton ms m ih =>
      rw [after_concat, history_concat, Outcome.deeds_concat]
      exact ih.execute m

/-- The registries that messages lead to, from an empty store and an empty ledger. In between, the
commands of a database may begin to fail and to work again. -/
inductive Reachable : Registry → Prop
  | start {store : Store} (hempty : store.contents = ∅) : Reachable (start store)
  | execute {r : Registry} (h : r.Reachable) (sender : String) (message : Submitted Command) :
      Reachable (r.execute sender message).2
  | setCommandsFail {r : Registry} (h : r.Reachable) (failing : Bool) :
      Reachable { r with store := r.store.setCommandsFail failing }

theorem Reachable.after (h : r.Reachable) (ms : List Sent) : (r.after ms).Reachable := by
  induction ms generalizing r with
  | nil => exact h
  | cons m rest ih => exact ih (h.execute m.sender m.message)

/-- **What goes on holding with every deed holds behind every registry that can be reached.** The
deeds are added one by one, each as the book and the ledger of those before it allow. -/
theorem Reachable.exists_keeps_of_concat {I : List Deed → Prop} (hnil : I [])
    (hconcat : ∀ deeds failing sender command deed, Orderly deeds → I deeds →
      (ofDeeds deeds).judge failing (deeds.foldl Ledger.after ∅) sender command = .ok deed →
      I (deeds ++ [deed]))
    (h : r.Reachable) : ∃ deeds, r.Keeps deeds ∧ I deeds := by
  induction h with
  | start hempty => exact ⟨[], keeps_start hempty, hnil⟩
  | @execute r _ sender message ih =>
      obtain ⟨deeds, hkeeps, hI⟩ := ih
      rcases execute_cases hkeeps.kept sender message with
        ⟨-, halike⟩ | ⟨command, deed, rfl, hjudge, -, hdone⟩
      · exact ⟨deeds, hkeeps.of_alike halike, hI⟩
      · have hkeeps' : (r.execute sender (.message command)).2.Keeps (deeds ++ [deed]) :=
          hkeeps.carried (permits_of_judge hjudge) (canEnter_of_judge hjudge) hdone
        rw [hkeeps.ledger] at hjudge
        exact ⟨_, hkeeps', hconcat _ _ _ _ _ hkeeps.orderly hI hjudge⟩
  | @setCommandsFail r _ failing ih =>
      obtain ⟨deeds, hkeeps, hI⟩ := ih
      have hcontents : (r.store.setCommandsFail failing).contents = r.store.contents := by
        cases r.store <;> rfl
      exact ⟨deeds, ⟨hkeeps.orderly, hcontents ▸ hkeeps.kept, hkeeps.ledger⟩, hI⟩

theorem Reachable.exists_keeps (h : r.Reachable) : ∃ deeds, r.Keeps deeds := by
  obtain ⟨deeds, hkeeps, -⟩ :=
    h.exists_keeps_of_concat (I := fun _ => True) trivial fun _ _ _ _ _ _ _ _ => trivial
  exact ⟨deeds, hkeeps⟩

end Registry

end Coinage
