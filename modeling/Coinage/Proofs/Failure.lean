import Coinage.Proofs.Act
import Coinage.Proofs.Run

/-! Failed commands. Every command first asks, then makes its one change (a transaction or a
movement), and has nothing left to do then that could fail. So whatever a store holds and wherever a
command fails, it fails before its change or in it, and nothing is different afterwards. -/

namespace Coinage

open Act Entry

namespace Entry

theorem metadataRows_ne_nil {d : Denom} {m : Metadata} {rows : List (Text × String)}
    (h : metadataRows d (some m) = .ok rows) : rows ≠ [] := by
  rw [metadataRows] at h
  split at h
  · cases h
    exact List.cons_ne_nil _ _
  · cases h

end Entry

namespace Wire

/-- The text of any denom fits the field of a reply. -/
theorem Reply.exists_ofDenom (denom : String) : ∃ octets, Reply.ofDenom denom = .ok octets :=
  ⟨_, rfl⟩

end Wire

namespace Registry

theorem stages_createScript (d : Denom) (metadata : Option Metadata) :
    (createScript d metadata).Stages := by
  have hrest : (do
      let created ← (denoms (← Script.read (creatorKey d.creator))).mapError Fault.stored
      let described ← (metadataRows d metadata).mapError Fault.stored
      Script.stage ([(adminKey d, adminText d.creator),
        (creatorKey d.creator, denomsText (created ++ [Text.ofString d.text]))] ++ described) :
        Script Fault Unit).Stages :=
    .of_bind fun _ => .of_bind fun _ => .of_bind fun _ =>
      Script.stages_stage (List.cons_ne_nil _ _)
  refine .of_bind fun _ => .of_bind fun current => ?_
  split
  · exact .of_bind fun _ => hrest
  · exact hrest

theorem stages_handoverScript (sender : String) (d : Denom) (newAdmin : Text) :
    (handoverScript sender d newAdmin).Stages := by
  have hrest : (Script.stage [(adminKey d, adminText newAdmin)] : Script Fault Unit).Stages :=
    Script.stages_stage (List.cons_ne_nil _ _)
  refine .of_bind fun _ => .of_bind fun _ => ?_
  split
  · exact hrest
  · exact .of_bind fun _ => hrest

theorem stages_describeScript (sender : String) (d : Denom) (metadata : Metadata) :
    (describeScript sender d metadata).Stages := by
  refine .of_bind fun _ => .of_bind fun _ => .of_lift_bind fun rows hrows => ?_
  cases hwritten : metadataRows d (some metadata) with
  | error flaw =>
      rw [hwritten] at hrows
      cases hrows
  | ok rows' =>
      rw [hwritten] at hrows
      cases hrows
      exact Script.stages_stage (metadataRows_ne_nil hwritten)

theorem quiet_authorizeMovement (sender : String) (text : Text) (amount : Int) :
    (authorizeMovement sender text amount).Quiet :=
  (quiet_lift _).bind fun _ => (quiet_lift _).bind fun _ => (quiet_fetch _).bind fun _ =>
    (quiet_lift _).bind fun _ => quiet_pure _

theorem atomic_createDenom (sender : String) (subdenom : Text) (metadata : Option Metadata) :
    (createDenom sender subdenom metadata).Atomic :=
  (quiet_lift _).bind_atomic fun d =>
    (atomic_transaction (stages_createScript d metadata)).bind_sure fun _ =>
      (sure_info _).bind fun _ => sure_pure d

theorem atomic_changeAdmin (sender : String) (text newAdmin : Text) :
    (changeAdmin sender text newAdmin).Atomic :=
  (quiet_lift _).bind_atomic fun d =>
    (atomic_transaction (stages_handoverScript sender d newAdmin)).bind_sure fun _ => sure_info _

theorem atomic_setMetadata (sender : String) (text : Text) (metadata : Metadata) :
    (setMetadata sender text metadata).Atomic :=
  (quiet_lift _).bind_atomic fun d =>
    (atomic_transaction (stages_describeScript sender d metadata)).bind_sure fun _ => sure_info _

theorem atomic_mintTokens (sender : String) (text : Text) (amount : Int) (recipient : Text) :
    (mintTokens sender text amount recipient).Atomic :=
  (quiet_authorizeMovement sender text amount).bind_atomic fun _ =>
    (quiet_lift _).bind_atomic fun _ => (atomic_move _).bind_sure fun _ => sure_info _

theorem atomic_burnTokens (sender : String) (text : Text) (amount : Int) (holder : Text) :
    (burnTokens sender text amount holder).Atomic := by
  refine (quiet_authorizeMovement sender text amount).bind_atomic fun d => ?_
  have hrest : (do
      Act.move (.burn d.text amount sender)
      Act.info s!"Burned {amount} {d.text} from {sender}").Atomic :=
    (atomic_move _).bind_sure fun _ => sure_info _
  split
  · exact hrest
  · exact (quiet_reject _).bind_atomic fun _ => hrest

theorem atomic_forceTransfer (sender : String) (text : Text) (amount : Int) (source target : Text) :
    (forceTransfer sender text amount source target).Atomic :=
  (quiet_authorizeMovement sender text amount).bind_atomic fun _ =>
    (quiet_lift _).bind_atomic fun _ => (quiet_lift _).bind_atomic fun _ =>
      (atomic_move _).bind_sure fun _ => sure_info _

theorem atomic_perform (sender : String) (command : Command) : (perform sender command).Atomic := by
  cases command with
  | createDenom subdenom metadata =>
      -- The reply is encoded after the commit, so it must not be able to fail.
      refine (atomic_createDenom sender subdenom metadata).bind_sure fun d => ?_
      obtain ⟨octets, hoctets⟩ := Wire.Reply.exists_ofDenom d.text
      exact (sure_lift (congrArg (Except.mapError Fault.reply) hoctets)).bind fun _ => sure_pure _
  | changeAdmin denom newAdmin =>
      exact (atomic_changeAdmin sender denom newAdmin).bind_sure fun _ => sure_pure _
  | mintTokens denom amount recipient =>
      exact (atomic_mintTokens sender denom amount recipient).bind_sure fun _ => sure_pure _
  | burnTokens denom amount holder =>
      exact (atomic_burnTokens sender denom amount holder).bind_sure fun _ => sure_pure _
  | forceTransfer denom amount source target =>
      exact (atomic_forceTransfer sender denom amount source target).bind_sure fun _ => sure_pure _
  | setMetadata denom metadata =>
      exact (atomic_setMetadata sender denom metadata).bind_sure fun _ => sure_pure _

theorem warnOfRefusal_alike (fault : Fault) (r : Registry) : r.Alike (warnOfRefusal fault r) := by
  unfold warnOfRefusal
  split
  · exact record_alike r .warning _
  · exact .refl r

theorem execute_message_of_ok {r r' : Registry} {sender : String} {command : Command}
    {receipt : Receipt} (h : (perform sender command).on r = (.ok receipt, r')) :
    r.execute sender (.message command) = (.ok receipt, r') := by
  simp only [execute, h]

theorem execute_message_of_error {r r' : Registry} {sender : String} {command : Command}
    {fault : Fault} (h : (perform sender command).on r = (.error fault, r')) :
    r.execute sender (.message command) = (.error fault, warnOfRefusal fault r') := by
  simp only [execute, h]

/-- **A failed message leaves the registry as it was.** -/
theorem execute_alike_of_error {r : Registry} {sender : String} {message : Submitted Command}
    {fault : Fault} (h : (r.execute sender message).1 = .error fault) :
    r.Alike (r.execute sender message).2 := by
  cases message with
  | other shown => exact .refl r
  | message command =>
      have hkept := (atomic_perform sender command).alike_of_error r
      rcases hon : (perform sender command).on r with ⟨fault' | receipt, r'⟩ <;> rw [hon] at hkept
      · rw [execute_message_of_error hon]
        exact (hkept fault' rfl).trans (warnOfRefusal_alike fault' r')
      · rw [execute_message_of_ok hon] at h
        cases h

/-- What the act of a command respects and a further record does, its execution does. -/
theorem execute_respects {R : Registry → Registry → Prop}
    (hrecord : ∀ (r t : Registry) (level : Log.Level) (text : String),
      R r t → R (r.record level text) (t.record level text))
    {sender : String} {command : Command} (hperform : (perform sender command).Respects R)
    {r t : Registry} (h : R r t) :
    (t.execute sender (.message command)).1 = (r.execute sender (.message command)).1 ∧
      R (r.execute sender (.message command)).2 (t.execute sender (.message command)).2 := by
  obtain ⟨hresult, hafter⟩ := hperform r t h
  rcases hr : (perform sender command).on r with ⟨fault | receipt, r'⟩ <;>
    rcases ht : (perform sender command).on t with ⟨result, t'⟩ <;>
    rw [hr, ht] at hresult hafter <;> cases hresult
  · rw [execute_message_of_error hr, execute_message_of_error ht]
    refine ⟨rfl, ?_⟩
    unfold warnOfRefusal
    split
    · exact hrecord r' t' .warning _ hafter
    · exact hafter
  · rw [execute_message_of_ok hr, execute_message_of_ok ht]
    exact ⟨rfl, hafter⟩

theorem execute_congr {r t : Registry} (h : r.Alike t) (sender : String)
    (message : Submitted Command) :
    (t.execute sender message).1 = (r.execute sender message).1 ∧
      (r.execute sender message).2.Alike (t.execute sender message).2 := by
  cases message with
  | other shown => exact ⟨rfl, h⟩
  | message command =>
      exact execute_respects (fun _ _ _ _ h => ⟨h.store, h.ledger⟩)
        (atomic_perform sender command).uniform h

/-- No run tells registries apart that are alike. -/
theorem run_congr {r t : Registry} (h : r.Alike t) (ms : List Sent) :
    t.history ms = r.history ms ∧ (r.after ms).Alike (t.after ms) := by
  induction ms generalizing r t with
  | nil => exact ⟨rfl, h⟩
  | cons m rest ih =>
      obtain ⟨hresult, hafter⟩ := execute_congr h m.sender m.message
      obtain ⟨hhistory, hrest⟩ := ih hafter
      refine ⟨?_, hrest⟩
      simp only [history]
      rw [hresult, hhistory]

/-- **A message that fails has done nothing.** Whatever the store and the ledger hold, be it text
that nobody can read, and whoever sends what: the store holds the same texts as before and the
ledger the same balances, nothing is left pending that was not, and every later run is answered and
ends as it would have been without the message. -/
theorem execute_error_does_nothing (r : Registry) (sender : String) (message : Submitted Command)
    (fault : Fault) (h : (r.execute sender message).1 = .error fault) :
    (r.execute sender message).2.store.contents = r.store.contents ∧
      (r.execute sender message).2.ledger = r.ledger ∧
      (r.execute sender message).2.store.pending ⊆ r.store.pending ∧
      ∀ later : List Sent,
        (r.execute sender message).2.history later = r.history later ∧
        ((r.execute sender message).2.after later).store.contents =
          (r.after later).store.contents ∧
        ((r.execute sender message).2.after later).ledger = (r.after later).ledger := by
  have halike := execute_alike_of_error h
  refine ⟨halike.contents, halike.ledger, halike.store.pending, fun later => ?_⟩
  obtain ⟨hhistory, hafter⟩ := run_congr halike later
  exact ⟨hhistory, hafter.contents, hafter.ledger⟩

/-- A creation that finds its creator's list unreadable, after the denom was found to be new. -/
def unreadableList : Registry :=
  { start (.database (.ofRows (.ofList [(creatorKey "abc", "[")]))) with
    ledger := ⟨.ofList [(⟨"abc", "factory/abc/x"⟩, 5)]⟩ }

theorem unreadableList_refuses_creation :
    (unreadableList.execute "abc" (.message (.createDenom "y" none))).1 =
        .error (.stored (.unread .malformed)) ∧
      (unreadableList.execute "abc" (.message (.createDenom "y" none))).2.store.contents =
        unreadableList.store.contents ∧
      (unreadableList.execute "abc" (.message (.createDenom "y" none))).2.ledger =
        unreadableList.ledger := by
  have hrefused : (unreadableList.execute "abc" (.message (.createDenom "y" none))).1 =
      .error (.stored (.unread .malformed)) := by decide +kernel
  obtain ⟨hcontents, hledger, -⟩ := execute_error_does_nothing unreadableList "abc" _ _ hrefused
  exact ⟨hrefused, hcontents, hledger⟩

end Registry

end Coinage
