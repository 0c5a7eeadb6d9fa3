import Coinage.Proofs.Failure
import Coinage.Proofs.Judgement

/-! How commands are carried out. An act fulfils a verdict if it fails as the verdict says, or does
the deed that the verdict names: the store gets its rows, the ledger its movement. Along the steps of
every command this leads to `execute_of_kept`. -/

namespace Coinage

open Act Entry Registry

variable {α β : Type}

namespace Book

variable {b : Book} {sender : String} {contents : Table Text String}

theorem authorize_of_kept (h : b.Kept contents) (d : Denom) :
    Registry.authorize sender d (contents.get? (adminKey d)) = b.authorize sender d := by
  rw [h.admin, authorize]
  cases b.admin d with
  | none => rfl
  | some admin =>
      simp only [Registry.authorize, Option.map_some, admin_adminText, Text.joined_ofString,
        Except.mapError, bind, Except.bind, Text.ofString_inj, ne_eq]
      rfl

/-! ### What the transactions come to -/

/-- What a script comes to that fails or stages the rows of a deed. -/
def outcome (b : Book) (verdict : Except Fault Deed) : Except Fault Unit × Staged :=
  match verdict with
  | .ok deed => (.ok (), b.rows deed)
  | .error fault => (.error fault, [])

theorem eval_handoverScript (h : b.Kept contents) (d : Denom) (newAdmin : Text) :
    (handoverScript sender d newAdmin).eval contents [] =
      b.outcome (do b.authorize sender d; return .handedOver d (← newAdminOf newAdmin)) := by
  simp only [handoverScript, Script.eval_bind, Script.eval_read, List.lookup_nil, Option.none_or,
    Script.eval_lift, authorize_of_kept h]
  cases b.authorize sender d with
  | error e => rfl
  | ok _ =>
      simp only [newAdminOf]
      split
      · next heq =>
          rw [heq]
          rfl
      · cases haddress : addressOf newAdmin with
        | error e => rfl
        | ok a =>
            rw [(addressOf_eq_ok_iff.mp haddress).1]
            rfl

theorem metadataRows_eq (d : Denom) (metadata : Option Metadata) :
    (metadataRows d metadata).mapError Fault.stored =
      (checkWritable metadata).map fun _ =>
        metadata.toList.map fun m => (metadataKey d, metadataText m) := by
  cases metadata with
  | none => rfl
  | some m =>
      simp only [metadataRows, checkWritable]
      split <;> rfl

theorem eval_describeScript (h : b.Kept contents) (d : Denom) (m : Metadata) :
    (describeScript sender d m).eval contents [] =
      b.outcome (do b.authorize sender d; checkWritable (some m); return .described d m) := by
  simp only [describeScript, Script.eval_bind, Script.eval_read, List.lookup_nil, Option.none_or,
    Script.eval_lift, authorize_of_kept h, metadataRows_eq]
  cases b.authorize sender d with
  | error e => rfl
  | ok _ =>
      cases checkWritable (some m) with
      | error e => rfl
      | ok _ => rfl

theorem denoms_listText (ds : List Denom) :
    denoms (listText ds) = .ok (ds.map fun d => Text.ofString d.text) := by
  cases ds with
  | nil => rfl
  | cons d r =>
      rw [listText, denoms_denomsText, List.map_map]
      · simp only [Function.comp_def, Text.joined_ofString]
      · exact List.cons_ne_nil d r

theorem admin_of_kept (h : b.Kept contents) (d : Denom) :
    Entry.admin (contents.get? (adminKey d)) = .ok ((b.admin d).map Text.ofString) := by
  rw [h.admin]
  cases b.admin d with
  | none => rfl
  | some a => rw [Option.map_some, admin_adminText, Text.joined_ofString, Option.map_some]

theorem putAll_creation (b : Book) (d : Denom) (metadata : Option Metadata) :
    Listing.putAll ([(adminKey d, adminText d.creator),
      (creatorKey d.creator, denomsText ((b.created d.creator).map (fun d => Text.ofString d.text) ++
        [Text.ofString d.text]))] ++
      metadata.toList.map fun m => (metadataKey d, metadataText m)) [] =
      b.rows (.created d metadata) := by
  have hcreator := adminKey_ne_creatorKey d d.creator
  have hmetadata := adminKey_ne_metadataKey d d
  have hcreator' := metadataKey_ne_creatorKey d d.creator
  refine (Listing.ofEntries_of_nodup ?_).trans ?_
  · cases metadata <;> simp [hcreator, hmetadata, hcreator'.symm]
  · rw [rows, List.map_append]
    rfl

theorem eval_createScript (h : b.Kept contents) (d : Denom) (metadata : Option Metadata) :
    (createScript d metadata).eval contents [] =
      b.outcome (do b.checkCreation d metadata; return .created d metadata) := by
  have hrest : (do
      let created ← (denoms (← Script.read (creatorKey d.creator))).mapError Fault.stored
      let described ← (metadataRows d metadata).mapError Fault.stored
      Script.stage ([(adminKey d, adminText d.creator),
        (creatorKey d.creator, denomsText (created ++ [Text.ofString d.text]))] ++ described) :
        Script Fault Unit).eval contents [] =
      b.outcome (do checkWritable metadata; return .created d metadata) := by
    simp only [Script.eval_bind, Script.eval_read, List.lookup_nil, Option.none_or,
      Script.eval_lift, h.created, denoms_listText, metadataRows_eq, Except.mapError_ok]
    cases checkWritable metadata with
    | error e => rfl
    | ok _ =>
        simp only [Except.map, Script.eval_stage, putAll_creation]
        rfl
  rw [createScript]
  simp only [Script.eval_bind, Script.eval_read, List.lookup_nil, Option.none_or,
    Script.eval_lift, admin_of_kept h, checkCreation, Except.mapError_ok]
  cases b.admin d with
  | none => exact hrest
  | some a => rfl

end Book

/-- The ledger after a deed. -/
def Ledger.after (l : Ledger) : Deed → Ledger
  | .moved m => (l.apply m).toOption.getD l
  | _ => l

/-- What a command that came to a deed is answered with. -/
def Command.receiptOf (c : Command) : Deed → Receipt
  | .created d _ =>
    { c.receipt with
      attributes := [("denom", d.text)]
      data := (Wire.Reply.ofDenom d.text).toOption }
  | _ => c.receipt

/-- What a deed makes of a registry that keeps a book. -/
structure Registry.Carried (b : Book) (deed : Deed) (r r' : Registry) : Prop where
  contents : r'.store.contents = r.store.contents.insertAll (b.rows deed)
  commandsFail : r'.store.commandsFail = r.store.commandsFail
  ledger : r'.ledger = r.ledger.after deed

open Registry Entry Book

namespace Act

/-- The act ends as the verdict says, with a value that goes with the deed. -/
def Fulfils (act : Act α) (r : Registry) (b : Book) (verdict : Except Fault Deed)
    (valueOf : Deed → α) : Prop :=
  ∃ r', act.on r = (verdict.map valueOf, r') ∧ ∀ deed, verdict = .ok deed → Carried b deed r r'

variable {r : Registry} {b : Book} {verdict : Except Fault Deed} {valueOf : Deed → α}

theorem fulfils_lift_bind {x : Except Fault β} {next : β → Act α} {verdict : β → Except Fault Deed}
    (h : ∀ a, x = .ok a → (next a).Fulfils r b (verdict a) valueOf) :
    (liftM x >>= next).Fulfils r b (x >>= verdict) valueOf := by
  cases x with
  | error fault => exact ⟨r, on_bind_error (on_lift _ r), fun deed hdeed => by cases hdeed⟩
  | ok a =>
      obtain ⟨r', hon, hcarried⟩ := h a rfl
      exact ⟨r', (on_bind_ok (on_lift _ r)).trans hon, hcarried⟩

theorem fulfils_fetch_bind {key : Text} {next : Option String → Act α}
    (h : ∀ r₁, r.Alike r₁ → (next (r.store.contents.get? key)).Fulfils r₁ b verdict valueOf) :
    (fetch key >>= next).Fulfils r b verdict valueOf := by
  have halike : r.Alike { r with store := (r.store.get key).2 } := ⟨Store.get_alike _ _, rfl⟩
  obtain ⟨r', hon, hcarried⟩ := h _ halike
  refine ⟨r', (on_bind_ok (on_fetch key r)).trans hon, fun deed hdeed => ?_⟩
  have hdone := hcarried deed hdeed
  exact ⟨by rw [hdone.contents, halike.contents], by rw [hdone.commandsFail, halike.store.commandsFail],
    by rw [hdone.ledger, halike.ledger]⟩

/-- Steps that cannot fail and leave the store and the ledger alone may follow. -/
theorem Fulfils.bind {act : Act β} {value : Deed → β} {next : β → Act α}
    (h : act.Fulfils r b verdict value)
    (hnext : ∀ deed, verdict = .ok deed → ∀ r', ∃ r'',
      (next (value deed)).on r' = (.ok (valueOf deed), r'') ∧
      r''.store = r'.store ∧ r''.ledger = r'.ledger) :
    (act >>= next).Fulfils r b verdict valueOf := by
  obtain ⟨r', hon, hcarried⟩ := h
  cases verdict with
  | error fault => exact ⟨r', on_bind_error hon, fun deed hdeed => by cases hdeed⟩
  | ok deed =>
      obtain ⟨r'', hon', hstore, hledger⟩ := hnext deed rfl r'
      refine ⟨r'', (on_bind_ok hon).trans hon', fun deed' hdeed => ?_⟩
      have hdone := hcarried deed' hdeed
      exact ⟨by rw [hstore, hdone.contents], by rw [hstore, hdone.commandsFail],
        by rw [hledger, hdone.ledger]⟩

theorem Fulfils.bind_info {act : Act Unit} (h : act.Fulfils r b verdict fun _ => ())
    (text : String) : (do act; info text).Fulfils r b verdict fun _ => () :=
  h.bind fun _ _ r' => ⟨r'.record .info text, rfl, rfl, rfl⟩

theorem fulfils_transaction {locks : List Text} {script : Script Fault Unit} (hlocks : locks ≠ [])
    (heval : script.eval r.store.contents [] = b.outcome verdict)
    (hrows : ∀ deed, verdict = .ok deed → b.rows deed ≠ [] ∧ r.ledger.after deed = r.ledger) :
    (transaction locks script).Fulfils r b (do checkLocks r.store.commandsFail; verdict)
      fun _ => () := by
  rw [Fulfils, on_transaction]
  cases hworks : r.store.commandsFail with
  | true =>
      have hresult : (r.store.transact locks script).1 = _ :=
        (Store.transact_of_commandsFail script hworks hlocks).1
      rw [hresult]
      exact ⟨_, rfl, fun deed hdeed => by cases hdeed⟩
  | false =>
      cases verdict with
      | error fault =>
          have hresult : (r.store.transact locks script).1 = _ :=
            (Store.transact_raised (.inl hworks) heval).1
          rw [hresult]
          exact ⟨_, rfl, fun deed hdeed => by cases hdeed⟩
      | ok deed =>
          obtain ⟨hsome, hledger⟩ := hrows deed rfl
          have hcommitted : (r.store.transact locks script).1 = _ ∧
              (r.store.transact locks script).2.Settled _ _ :=
            Store.transact_committed (.inl hworks) heval (.inl hsome)
          obtain ⟨hresult, hsettled⟩ := hcommitted
          rw [hresult]
          refine ⟨_, rfl, fun deed' hdeed => ?_⟩
          cases hdeed
          exact ⟨hsettled.contents, hsettled.commandsFail, hledger.symm⟩

theorem fulfils_move (m : Ledger.Movement) :
    (move m).Fulfils r b (settle r.ledger m) fun _ => () := by
  rw [Fulfils, on_move, settle]
  cases happly : r.ledger.apply m with
  | error e => exact ⟨r, rfl, fun deed hdeed => by cases hdeed⟩
  | ok ledger =>
      refine ⟨_, rfl, fun deed hdeed => ?_⟩
      cases hdeed
      refine ⟨rfl, rfl, ?_⟩
      rw [Ledger.after, happly]
      rfl

end Act

namespace Registry

open Act

variable {r : Registry} {b : Book} (hkept : b.Kept r.store.contents) (sender : String)

include hkept

theorem fulfils_authorizeMovement_bind {valueOf : Deed → α} {next : Denom → Act α}
    {verdict : Denom → Except Fault Deed} (text : Text) (amount : Int)
    (h : ∀ (r₁ : Registry) (d : Denom), r.Alike r₁ → (next d).Fulfils r₁ b (verdict d) valueOf) :
    (authorizeMovement sender text amount >>= next).Fulfils r b
      (b.authorizeMovement sender text amount >>= verdict) valueOf := by
  rw [authorizeMovement, Book.authorizeMovement]
  simp only [bind_assoc]
  refine fulfils_lift_bind fun _ _ => fulfils_lift_bind fun d _ => ?_
  refine fulfils_fetch_bind fun r₁ halike => ?_
  rw [authorize_of_kept hkept]
  exact fulfils_lift_bind fun _ _ => h r₁ d halike

theorem fulfils_mintTokens (text : Text) (amount : Int) (recipient : Text) :
    (mintTokens sender text amount recipient).Fulfils r b
      (b.judge r.store.commandsFail r.ledger sender (.mintTokens text amount recipient)) fun _ => () := by
  refine fulfils_authorizeMovement_bind hkept sender text amount fun r₁ d halike => ?_
  refine fulfils_lift_bind fun recipient _ => ?_
  rw [← halike.ledger]
  exact (fulfils_move _).bind_info _

theorem fulfils_burnTokens (text : Text) (amount : Int) (holder : Text) :
    (burnTokens sender text amount holder).Fulfils r b
      (b.judge r.store.commandsFail r.ledger sender (.burnTokens text amount holder)) fun _ => () := by
  refine fulfils_authorizeMovement_bind hkept sender text amount fun r₁ d halike => ?_
  rw [← halike.ledger]
  by_cases hholder : holder = Text.ofString "" ∨ holder = Text.ofString sender
  · rw [if_pos hholder, if_pos hholder]
    exact (fulfils_move _).bind_info _
  · rw [if_neg hholder, if_neg hholder]
    exact fulfils_lift_bind fun _ hnone => by cases hnone

theorem fulfils_forceTransfer (text : Text) (amount : Int) (source target : Text) :
    (forceTransfer sender text amount source target).Fulfils r b
      (b.judge r.store.commandsFail r.ledger sender (.forceTransfer text amount source target))
      fun _ => () := by
  refine fulfils_authorizeMovement_bind hkept sender text amount fun r₁ d halike => ?_
  refine fulfils_lift_bind fun source _ => fulfils_lift_bind fun target _ => ?_
  rw [← halike.ledger]
  exact (fulfils_move _).bind_info _

theorem fulfils_changeAdmin (text newAdmin : Text) :
    (changeAdmin sender text newAdmin).Fulfils r b
      (b.judge r.store.commandsFail r.ledger sender (.changeAdmin text newAdmin)) fun _ => () := by
  refine fulfils_lift_bind fun d _ => ?_
  refine (fulfils_transaction (List.cons_ne_nil _ _)
    (eval_handoverScript hkept d newAdmin) ?_).bind_info _
  intro deed hdeed
  obtain ⟨-, -, hdeed⟩ := Except.bind_eq_ok_iff.mp hdeed
  obtain ⟨a, -, hdeed⟩ := Except.bind_eq_ok_iff.mp hdeed
  cases hdeed
  exact ⟨List.cons_ne_nil _ _, rfl⟩

theorem fulfils_setMetadata (text : Text) (m : Metadata) :
    (setMetadata sender text m).Fulfils r b
      (b.judge r.store.commandsFail r.ledger sender (.setMetadata text m)) fun _ => () := by
  refine fulfils_lift_bind fun d _ => ?_
  refine (fulfils_transaction (List.cons_ne_nil _ _) (eval_describeScript hkept d m) ?_).bind_info _
  intro deed hdeed
  obtain ⟨-, -, hdeed⟩ := Except.bind_eq_ok_iff.mp hdeed
  obtain ⟨-, -, hdeed⟩ := Except.bind_eq_ok_iff.mp hdeed
  cases hdeed
  exact ⟨List.cons_ne_nil _ _, rfl⟩

/-- A creation gives the denom that its deed is about. -/
theorem fulfils_createDenom (subdenom : Text) (metadata : Option Metadata) :
    (createDenom sender subdenom metadata >>= fun d => do
      let octets ← (Wire.Reply.ofDenom d.text).mapError Fault.reply
      return { (Command.createDenom subdenom metadata).receipt with
        attributes := [("denom", d.text)], data := some octets }).Fulfils r b
      (b.judge r.store.commandsFail r.ledger sender (.createDenom subdenom metadata))
      (Command.createDenom subdenom metadata).receiptOf := by
  rw [createDenom]
  simp only [bind_assoc]
  refine fulfils_lift_bind fun d hd => ?_
  refine (fulfils_transaction (List.cons_ne_nil _ _) (eval_createScript hkept d metadata) ?_).bind ?_
  · intro deed hdeed
    obtain ⟨-, -, hdeed⟩ := Except.bind_eq_ok_iff.mp hdeed
    cases hdeed
    exact ⟨List.cons_ne_nil _ _, rfl⟩
  · intro deed hdeed r'
    obtain ⟨-, -, hdeed⟩ := Except.bind_eq_ok_iff.mp hdeed
    obtain ⟨-, -, hdeed⟩ := Except.bind_eq_ok_iff.mp hdeed
    cases hdeed
    exact ⟨r'.record .info _, rfl, rfl, rfl⟩

theorem fulfils_perform (command : Command) :
    (perform sender command).Fulfils r b (b.judge r.store.commandsFail r.ledger sender command)
      command.receiptOf := by
  have hplain : ∀ {act : Act Unit},
      act.Fulfils r b (b.judge r.store.commandsFail r.ledger sender command) (fun _ => ()) →
      (∀ deed, b.judge r.store.commandsFail r.ledger sender command = .ok deed →
        command.receiptOf deed = command.receipt) →
      (act >>= fun _ => pure command.receipt).Fulfils r b
        (b.judge r.store.commandsFail r.ledger sender command) command.receiptOf := by
    intro act hact hreceipt
    refine hact.bind fun deed hdeed r' => ⟨r', ?_, rfl, rfl⟩
    rw [hreceipt deed hdeed]
    rfl
  cases command with
  | createDenom subdenom metadata => exact fulfils_createDenom hkept sender subdenom metadata
  | changeAdmin text newAdmin =>
      refine hplain (fulfils_changeAdmin hkept sender text newAdmin) fun deed hdeed => ?_
      obtain ⟨d, a, -, -, -, -, rfl⟩ := judge_changeAdmin.mp hdeed
      rfl
  | mintTokens text amount recipient =>
      refine hplain (fulfils_mintTokens hkept sender text amount recipient) fun deed hdeed => ?_
      obtain ⟨d, address, -, -, -, rfl⟩ := judge_mintTokens.mp hdeed
      rfl
  | burnTokens text amount holder =>
      refine hplain (fulfils_burnTokens hkept sender text amount holder) fun deed hdeed => ?_
      obtain ⟨d, -, -, -, rfl⟩ := judge_burnTokens.mp hdeed
      rfl
  | forceTransfer text amount source target =>
      refine hplain (fulfils_forceTransfer hkept sender text amount source target)
        fun deed hdeed => ?_
      obtain ⟨d, source', target', -, -, -, rfl⟩ := judge_forceTransfer.mp hdeed
      rfl
  | setMetadata text m =>
      refine hplain (fulfils_setMetadata hkept sender text m) fun deed hdeed => ?_
      obtain ⟨d, -, -, -, -, rfl⟩ := judge_setMetadata.mp hdeed
      rfl

/-- **A registry that keeps a book does what the book judges.** -/
theorem execute_of_kept (command : Command) :
    (r.execute sender (.message command)).1 =
        (b.judge r.store.commandsFail r.ledger sender command).map command.receiptOf ∧
      ∀ deed, b.judge r.store.commandsFail r.ledger sender command = .ok deed →
        Carried b deed r (r.execute sender (.message command)).2 := by
  obtain ⟨r', hon, hcarried⟩ := fulfils_perform hkept sender command
  cases hjudge : b.judge r.store.commandsFail r.ledger sender command with
  | error fault =>
      rw [hjudge] at hon
      rw [execute_message_of_error hon]
      exact ⟨rfl, fun deed hdeed => by cases hdeed⟩
  | ok deed =>
      rw [hjudge] at hon hcarried
      rw [execute_message_of_ok hon]
      exact ⟨rfl, hcarried⟩

/-- A message is answered with a fault and changes nothing, or does its deed. -/
theorem execute_cases (message : Submitted Command) :
    (∃ fault, (r.execute sender message).1 = .error fault) ∧ r.Alike (r.execute sender message).2 ∨
      ∃ command deed, message = .message command ∧
        b.judge r.store.commandsFail r.ledger sender command = .ok deed ∧
        (r.execute sender message).1 = .ok (command.receiptOf deed) ∧
        Carried b deed r (r.execute sender message).2 := by
  cases message with
  | other shown => exact .inl ⟨⟨_, rfl⟩, .refl r⟩
  | message command =>
      obtain ⟨hresult, hcarried⟩ := execute_of_kept hkept sender command
      cases hjudge : b.judge r.store.commandsFail r.ledger sender command with
      | error fault =>
          rw [hjudge] at hresult
          exact .inl ⟨⟨fault, hresult⟩, execute_alike_of_error hresult⟩
      | ok deed =>
          rw [hjudge] at hresult
          exact .inr ⟨command, deed, rfl, hjudge, hresult, hcarried deed hjudge⟩

end Registry

end Coinage
