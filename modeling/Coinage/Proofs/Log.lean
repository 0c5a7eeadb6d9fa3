import Coinage.Proofs.Failure
import Coinage.Proofs.Form
import Coinage.Proofs.History

/-! What the log tells. A command that goes through is put on record once it is done, behind the
movement that the ledger has put on record for it, if there was one; one that fails is put on record by
nobody, except where somebody acted on a denom of somebody else. So the log of a run can be read off its
history, and what was done off the log; most of what was refused is not in it. -/

namespace Coinage

open Registry

variable {α β : Type}

/-- What the ledger puts on record. -/
def Ledger.Movement.record (m : Ledger.Movement) : Log.Record := ⟨.info, "[LEDGER] " ++ m.describe⟩

namespace Deed

/-- The movement that the ledger has performed for a deed. -/
def movement? : Deed → Option Ledger.Movement
  | .moved m => some m
  | _ => none

/-- How the registry tells of a deed. -/
def report (sender : String) : Deed → String
  | .created d _ => s!"Created denom {d.text} (admin {sender})"
  | .handedOver d newAdmin => s!"Changed admin of {d.text} from {sender} to {Text.quoted newAdmin}"
  | .described d _ => s!"Set metadata of {d.text}"
  | .moved (.mint denom amount recipient) => s!"Minted {amount} {denom} to {recipient}"
  | .moved (.burn denom amount holder) => s!"Burned {amount} {denom} from {holder}"
  | .moved (.transfer denom amount source target) =>
    s!"Force transferred {amount} {denom} from {source} to {target}"

/-- What is put on record of a deed: by the ledger if tokens were moved, and by the registry. -/
def records (sender : String) (deed : Deed) : List Log.Record :=
  (deed.movement?.map Ledger.Movement.record).toList ++ [⟨.info, deed.report sender⟩]

end Deed

/-- What is put on record of a fault. -/
def Fault.warnings : Fault → List Log.Record
  | .rejected (.notAdmin denom sender admin) =>
    [⟨.warning, s!"Rejected {sender} acting on {denom} (admin is {Text.quoted admin})"⟩]
  | _ => []

namespace Outcome

/-- What is put on record of what was done in answer to a message. -/
def doings (o : Outcome) : List Log.Record := o.deed?.toList.flatMap (Deed.records o.sender)

/-- What is put on record of what a message was refused for. -/
def warnings (o : Outcome) : List Log.Record :=
  match o.result with
  | .ok _ => []
  | .error fault => fault.warnings

def records (o : Outcome) : List Log.Record := o.doings ++ o.warnings

end Outcome

namespace Act

/-- Nothing was put on record by what has failed, and a deed by what has gone through. -/
inductive Accounted (sender : String) (IsDone : Deed → Prop) (log : List Log.Record) :
    Except Fault α × Registry → Prop
  | failed {fault : Fault} {r : Registry} (hlog : r.log = log) :
      Accounted sender IsDone log (.error fault, r)
  | done {a : α} {r : Registry} {deed : Deed} (hdone : IsDone deed)
      (hlog : r.log = log ++ deed.records sender) : Accounted sender IsDone log (.ok a, r)

/-- Wherever the act is run, what comes of it is on record. -/
def Accounts (act : Act α) (sender : String) (IsDone : Deed → Prop) : Prop :=
  ∀ r : Registry, Accounted sender IsDone r.log (act.on r)

variable {sender : String} {IsDone : Deed → Prop}

theorem accounts_lift_bind {x : Except Fault β} {next : β → Act α}
    (h : ∀ b, x = .ok b → (next b).Accounts sender IsDone) :
    (liftM x >>= next).Accounts sender IsDone := by
  intro r
  cases x with
  | error fault =>
      rw [on_bind_error (on_lift _ r)]
      exact .failed rfl
  | ok b =>
      rw [on_bind_ok (on_lift _ r)]
      exact h b rfl r

theorem accounts_fetch_bind {key : Text} {next : Option String → Act α}
    (h : ∀ text, (next text).Accounts sender IsDone) :
    (fetch key >>= next).Accounts sender IsDone := by
  intro r
  rw [on_bind_ok (on_fetch key r)]
  exact h _ { r with store := (r.store.get key).2 }

/-- A last step that cannot fail and puts nothing on record may follow. -/
theorem Accounts.bind {act : Act β} {next : β → Act α} (h : act.Accounts sender IsDone)
    (hnext : ∀ b, ∃ a, ∀ r, (next b).on r = (.ok a, r)) : (act >>= next).Accounts sender IsDone := by
  intro r
  have hact := h r
  rcases hon : act.on r with ⟨fault | b, r'⟩ <;> rw [hon] at hact
  · rw [on_bind_error hon]
    cases hact with
    | failed hlog => exact .failed hlog
  · obtain ⟨a, ha⟩ := hnext b
    rw [on_bind_ok hon, ha]
    cases hact with
    | done hdone hlog => exact .done hdone hlog

theorem accounts_move_info {m : Ledger.Movement} (h : IsDone (.moved m)) :
    (do move m; info ((Deed.moved m).report sender)).Accounts sender IsDone := by
  intro r
  rw [on_bind, on_move]
  cases r.ledger.apply m with
  | error e => exact .failed rfl
  | ok ledger => exact .done h (List.append_assoc _ _ _)

/-- A transaction puts nothing on record itself. -/
theorem accounts_transaction_info {locks : List Text} {script : Script Fault Unit} {text : String}
    (h : ∀ contents staged, script.eval contents [] = (.ok (), staged) →
      ∃ deed, IsDone deed ∧ deed.records sender = [⟨.info, text⟩]) :
    (do transaction locks script; info text).Accounts sender IsDone := by
  intro r
  rw [on_bind, on_transaction]
  cases hresult : (r.store.transact locks script).1 with
  | error abort => exact .failed rfl
  | ok _ =>
      obtain ⟨staged, heval⟩ := Store.eval_of_transact_ok hresult
      obtain ⟨deed, hdone, hrecords⟩ := h _ staged heval
      exact .done hdone (hrecords ▸ rfl)

end Act

namespace Registry

open Act Entry

variable {sender : String} {IsDone : Deed → Prop}

theorem accounts_authorizeMovement_bind {text : Text} {amount : Int} {next : Denom → Act α}
    (h : ∀ d, Denom.parse text = .ok d → (next d).Accounts sender IsDone) :
    (authorizeMovement sender text amount >>= next).Accounts sender IsDone := by
  rw [authorizeMovement]
  simp only [bind_assoc]
  exact accounts_lift_bind fun _ _ => accounts_lift_bind fun d hd => accounts_fetch_bind fun _ =>
    accounts_lift_bind fun _ _ => h d hd

/-- The deed that a command comes to, if it comes to one. -/
abbrev DeedOf (sender : String) (command : Command) (deed : Deed) : Prop :=
  command.deed? sender = some deed

/-- A denom is handed over to a text that has an encoding. -/
theorem exists_of_eval_handoverScript {d : Denom} {newAdmin : Text} {contents : Table Text String}
    {staged : Staged} (h : (handoverScript sender d newAdmin).eval contents [] = (.ok (), staged)) :
    ∃ a : String, newAdmin = Text.ofString a := by
  by_cases hnobody : newAdmin = Text.ofString ""
  · exact ⟨"", hnobody⟩
  · cases haddress : addressOf newAdmin with
    | ok a => exact ⟨a, (addressOf_eq_ok_iff.mp haddress).1⟩
    | error fault =>
        simp only [handoverScript, Script.eval_bind, Script.eval_read, Script.eval_lift,
          if_neg hnobody, haddress] at h
        split at h <;> cases h

theorem accounts_changeAdmin (text newAdmin : Text) :
    (changeAdmin sender text newAdmin).Accounts sender
      (DeedOf sender (.changeAdmin text newAdmin)) := by
  refine accounts_lift_bind fun d hd => accounts_transaction_info fun contents staged heval => ?_
  obtain ⟨a, rfl⟩ := exists_of_eval_handoverScript heval
  refine ⟨.handedOver d a, ?_, rfl⟩
  simp only [DeedOf, Command.deed?, hd, Text.toString?_ofString]
  rfl

theorem accounts_mintTokens (text : Text) (amount : Int) (recipient : Text) :
    (mintTokens sender text amount recipient).Accounts sender
      (DeedOf sender (.mintTokens text amount recipient)) := by
  refine accounts_authorizeMovement_bind fun d hd => accounts_lift_bind fun address haddress => ?_
  obtain ⟨rfl, -⟩ := addressOf_eq_ok_iff.mp haddress
  refine accounts_move_info ?_
  simp only [DeedOf, Command.deed?, hd, Text.toString?_ofString]
  rfl

theorem accounts_burnTokens (text : Text) (amount : Int) (holder : Text) :
    (burnTokens sender text amount holder).Accounts sender
      (DeedOf sender (.burnTokens text amount holder)) := by
  refine accounts_authorizeMovement_bind fun d hd => ?_
  have hrest : (do
      Act.move (.burn d.text amount sender)
      Act.info s!"Burned {amount} {d.text} from {sender}").Accounts sender
        (DeedOf sender (.burnTokens text amount holder)) := by
    refine accounts_move_info ?_
    simp only [DeedOf, Command.deed?, hd]
    rfl
  split
  · exact hrest
  · exact accounts_lift_bind fun _ hnone => by cases hnone

theorem accounts_forceTransfer (text : Text) (amount : Int) (source target : Text) :
    (forceTransfer sender text amount source target).Accounts sender
      (DeedOf sender (.forceTransfer text amount source target)) := by
  refine accounts_authorizeMovement_bind fun d hd => accounts_lift_bind fun source' hsource =>
    accounts_lift_bind fun target' htarget => ?_
  obtain ⟨rfl, -⟩ := addressOf_eq_ok_iff.mp hsource
  obtain ⟨rfl, -⟩ := addressOf_eq_ok_iff.mp htarget
  refine accounts_move_info ?_
  simp only [DeedOf, Command.deed?, hd, Text.toString?_ofString]
  rfl

theorem accounts_setMetadata (text : Text) (m : Metadata) :
    (setMetadata sender text m).Accounts sender (DeedOf sender (.setMetadata text m)) := by
  refine accounts_lift_bind fun d hd => accounts_transaction_info fun _ _ _ => ?_
  refine ⟨.described d m, ?_, rfl⟩
  simp only [DeedOf, Command.deed?, hd]
  rfl

theorem accounts_createDenom (subdenom : Text) (metadata : Option Metadata) :
    (createDenom sender subdenom metadata).Accounts sender
      (DeedOf sender (.createDenom subdenom metadata)) := by
  refine accounts_lift_bind fun d hd => ?_
  rw [← bind_assoc]
  refine Accounts.bind (accounts_transaction_info fun _ _ _ => ⟨.created d metadata, ?_, rfl⟩)
    fun _ => ⟨d, fun _ => rfl⟩
  simp only [DeedOf, Command.deed?, hd]
  rfl

theorem accounts_perform (sender : String) (command : Command) :
    (perform sender command).Accounts sender (DeedOf sender command) := by
  cases command with
  | createDenom subdenom metadata =>
      refine (accounts_createDenom subdenom metadata).bind fun d => ?_
      obtain ⟨octets, hoctets⟩ := Wire.Reply.exists_ofDenom d.text
      refine ⟨_, fun r => on_bind_ok (a := octets) ?_⟩
      rw [on_lift, hoctets]
      rfl
  | changeAdmin text newAdmin =>
      exact (accounts_changeAdmin text newAdmin).bind fun _ => ⟨_, fun _ => rfl⟩
  | mintTokens text amount recipient =>
      exact (accounts_mintTokens text amount recipient).bind fun _ => ⟨_, fun _ => rfl⟩
  | burnTokens text amount holder =>
      exact (accounts_burnTokens text amount holder).bind fun _ => ⟨_, fun _ => rfl⟩
  | forceTransfer text amount source target =>
      exact (accounts_forceTransfer text amount source target).bind fun _ => ⟨_, fun _ => rfl⟩
  | setMetadata text m => exact (accounts_setMetadata text m).bind fun _ => ⟨_, fun _ => rfl⟩

theorem warnOfRefusal_log (fault : Fault) (r : Registry) :
    (warnOfRefusal fault r).log = r.log ++ fault.warnings := by
  have hsilent : r.log = r.log ++ [] := (List.append_nil _).symm
  cases fault with
  | rejected rejection =>
      cases rejection with
      | notAdmin => rfl
      | _ => exact hsilent
  | _ => exact hsilent

variable {r : Registry}

/-- A command that goes through is put on record by its deed. -/
theorem log_of_ok {command : Command} {receipt : Receipt}
    (h : (r.execute sender (.message command)).1 = .ok receipt) :
    ∃ deed, command.deed? sender = some deed ∧
      (r.execute sender (.message command)).2.log = r.log ++ deed.records sender := by
  rcases hon : (perform sender command).on r with ⟨fault | receipt', r'⟩
  · rw [execute_message_of_error hon] at h
    cases h
  · rw [execute_message_of_ok hon]
    have haccounted := accounts_perform sender command r
    rw [hon] at haccounted
    cases haccounted with
    | done hdone hlog => exact ⟨_, hdone, hlog⟩

/-- A message that fails is put on record by its fault. -/
theorem log_of_error {message : Submitted Command} {fault : Fault}
    (h : (r.execute sender message).1 = .error fault) :
    (r.execute sender message).2.log = r.log ++ fault.warnings := by
  cases message with
  | other shown =>
      cases h
      exact (List.append_nil _).symm
  | message command =>
      rcases hon : (perform sender command).on r with ⟨fault' | receipt, r'⟩
      · rw [execute_message_of_error hon] at h ⊢
        cases h
        have haccounted := accounts_perform sender command r
        rw [hon] at haccounted
        cases haccounted with
        | failed hlog => rw [warnOfRefusal_log, hlog]
      · rw [execute_message_of_ok hon] at h
        cases h

/-- One message is put on record by its outcome. -/
theorem execute_log (r : Registry) (m : Sent) :
    (r.execute m.sender m.message).2.log =
      r.log ++ Outcome.records ⟨m, (r.execute m.sender m.message).1⟩ := by
  obtain ⟨sender, message⟩ := m
  cases hresult : (r.execute sender message).1 with
  | error fault =>
      have hnothing : Outcome.deed? ⟨⟨sender, message⟩, .error fault⟩ = none := by
        cases message <;> rfl
      simp only [log_of_error hresult, Outcome.records, Outcome.doings, Outcome.warnings, hnothing,
        Option.toList_none, List.flatMap_nil, List.nil_append]
  | ok receipt =>
      cases message with
      | other shown => cases hresult
      | message command =>
          obtain ⟨deed, hdeed, hlog⟩ := log_of_ok hresult
          have hdone : Outcome.deed? ⟨⟨sender, .message command⟩, .ok receipt⟩ = some deed := hdeed
          simp only [hlog, Outcome.records, Outcome.doings, Outcome.warnings, hdone,
            Option.toList_some, List.flatMap_singleton, List.append_nil]

/-- **The log of a run can be read off its history.** -/
theorem after_log (r : Registry) (ms : List Sent) :
    (r.after ms).log = r.log ++ (r.history ms).flatMap Outcome.records := by
  induction ms generalizing r with
  | nil => exact (List.append_nil _).symm
  | cons m rest ih =>
      rw [after, history, ih, execute_log, List.flatMap_cons, List.append_assoc]

end Registry

/-! ### What was done, and what was refused -/

theorem Command.isSome_movement? {sender : String} {command : Command} {deed : Deed}
    (h : command.deed? sender = some deed) : deed.movement?.isSome = command.amount?.isSome := by
  cases command <;>
    simp only [Command.deed?, Option.bind_eq_bind, Option.bind_eq_some_iff, Option.pure_def,
      Option.some.injEq] at h
  case createDenom =>
    obtain ⟨_, -, _, -, rfl⟩ := h
    rfl
  case changeAdmin =>
    obtain ⟨_, -, _, -, rfl⟩ := h
    rfl
  case mintTokens =>
    obtain ⟨_, -, _, -, rfl⟩ := h
    rfl
  case burnTokens | setMetadata =>
    obtain ⟨_, -, rfl⟩ := h
    rfl
  case forceTransfer =>
    obtain ⟨_, -, _, -, _, -, rfl⟩ := h
    rfl

theorem Deed.level_of_mem_records {sender : String} {deed : Deed} {record : Log.Record}
    (h : record ∈ deed.records sender) : record.level = .info := by
  rcases List.mem_append.mp h with hmovement | hreport
  · rw [Option.mem_toList, Option.map_eq_some_iff] at hmovement
    obtain ⟨m, -, rfl⟩ := hmovement
    rfl
  · rw [List.mem_singleton.mp hreport]

theorem Fault.level_of_mem_warnings {fault : Fault} {record : Log.Record}
    (h : record ∈ fault.warnings) : record.level = .warning := by
  unfold Fault.warnings at h
  split at h
  · rw [List.mem_singleton.mp h]
  · cases h

theorem Log.filter_level {level : Level} {records : List Record}
    (h : ∀ record ∈ records, record.level = level) (wanted : Level) :
    records.filter (·.level = wanted) = if level = wanted then records else [] := by
  split
  · next heq => exact List.filter_eq_self.mpr fun record hrecord => by simp [h record hrecord, heq]
  · next hne => exact List.filter_eq_nil_iff.mpr fun record hrecord => by simp [h record hrecord, hne]

namespace Outcome

/-- Of what is put on record of an outcome, what was done stands at one level, what was refused at
another. -/
theorem filter_records (o : Outcome) :
    o.records.filter (·.level = .info) = o.doings ∧
      o.records.filter (·.level = .warning) = o.warnings := by
  have hdoings : ∀ record ∈ o.doings, record.level = .info := by
    intro record hrecord
    obtain ⟨deed, -, hdeed⟩ := List.mem_flatMap.mp hrecord
    exact Deed.level_of_mem_records hdeed
  have hwarnings : ∀ record ∈ o.warnings, record.level = .warning := by
    intro record hrecord
    rw [warnings] at hrecord
    split at hrecord
    · cases hrecord
    · exact Fault.level_of_mem_warnings hrecord
  simp only [records, List.filter_append, Log.filter_level hdoings, Log.filter_level hwarnings]
  exact ⟨List.append_nil _, rfl⟩

end Outcome

namespace Registry

/-- **The log accounts for what was done.** Whatever the store holds: a command that goes through is put
on record once by the registry, behind one record of the ledger if it mints, burns or transfers. One
that fails has changed nothing, and is put on record with a warning if somebody acted on a denom of
somebody else, and not at all otherwise. So over a run the log grows by the records of its outcomes in
their order, by those of what was done at one level and by those warnings at another. -/
theorem log_accounts_for_run (r : Registry) :
    (∀ sender command receipt, (r.execute sender (.message command)).1 = .ok receipt →
      ∃ deed, command.deed? sender = some deed ∧
        deed.movement?.isSome = command.amount?.isSome ∧
        (r.execute sender (.message command)).2.log = r.log ++ deed.records sender) ∧
    (∀ sender message fault, (r.execute sender message).1 = .error fault →
      (r.execute sender message).2.store.contents = r.store.contents ∧
        (r.execute sender message).2.ledger = r.ledger ∧
        (r.execute sender message).2.log = r.log ++ fault.warnings) ∧
    ∀ ms : List Sent, ∃ written, (r.after ms).log = r.log ++ written ∧
      written = (r.history ms).flatMap Outcome.records ∧
      written.filter (·.level = .info) = (r.history ms).flatMap Outcome.doings ∧
      written.filter (·.level = .warning) = (r.history ms).flatMap Outcome.warnings := by
  refine ⟨fun sender command receipt h => ?_, fun sender message fault h => ?_, fun ms => ?_⟩
  · obtain ⟨deed, hdeed, hlog⟩ := log_of_ok h
    exact ⟨deed, hdeed, Command.isSome_movement? hdeed, hlog⟩
  · have halike := execute_alike_of_error h
    exact ⟨halike.contents, halike.ledger, log_of_error h⟩
  · refine ⟨_, after_log r ms, rfl, ?_, ?_⟩ <;> rw [List.filter_flatMap]
    · exact List.flatMap_congr fun o _ => o.filter_records.1
    · exact List.flatMap_congr fun o _ => o.filter_records.2

/-- Carol has created a denom. -/
def opened : Registry := (start ∅).after [⟨"carol", .message (.createDenom "gold" none)⟩]

/-- Somebody wants five units of it. -/
def minting (sender : String) : Sent :=
  ⟨sender, .message (.mintTokens "factory/carol/gold" 5 sender)⟩

/-- Carol gets what she wants and Dora does not, and the log has it all. -/
theorem mintings_accounted :
    (opened.execute "carol" (minting "carol").message).1 = .ok ⟨"mint_tokens", [], none⟩ ∧
      (opened.execute "carol" (minting "carol").message).2.log = opened.log ++
        [⟨.info, "[LEDGER] Mint 5factory/carol/gold to carol"⟩,
          ⟨.info, "Minted 5 factory/carol/gold to carol"⟩] ∧
      (opened.execute "dora" (minting "dora").message).1 =
        .error (.rejected (.notAdmin "factory/carol/gold" "dora" "carol")) ∧
      (opened.execute "dora" (minting "dora").message).2.ledger = opened.ledger ∧
      (opened.execute "dora" (minting "dora").message).2.log = opened.log ++
        [⟨.warning, "Rejected dora acting on factory/carol/gold (admin is 'carol')"⟩] ∧
      ((opened.after [minting "dora", minting "carol"]).log.map Log.Record.level) =
        [.info, .warning, .info, .info] := by
  have hminted : (opened.execute "carol" (minting "carol").message).1 =
      .ok ⟨"mint_tokens", [], none⟩ := by decide +kernel
  have hrefused : (opened.execute "dora" (minting "dora").message).1 =
      .error (.rejected (.notAdmin "factory/carol/gold" "dora" "carol")) := by decide +kernel
  have hmoved : (Command.mintTokens "factory/carol/gold" 5 "carol").deed? "carol" =
      some (.moved (.mint "factory/carol/gold" 5 "carol")) := by decide +kernel
  simp only [minting] at hminted hrefused ⊢
  obtain ⟨hok, herror, hrun⟩ := log_accounts_for_run opened
  obtain ⟨deed, hdeed, -, hlog⟩ := hok _ _ _ hminted
  rw [hmoved] at hdeed
  cases hdeed
  obtain ⟨-, hledger, hwarned⟩ := herror _ _ _ hrefused
  obtain ⟨written, hafter, hwritten, -⟩ := hrun [minting "dora", minting "carol"]
  refine ⟨hminted, hlog, hrefused, hledger, hwarned, ?_⟩
  simp only [minting] at hafter hwritten
  rw [hafter, hwritten]
  decide +kernel

/-- Carol creates the denom again, and then gives amiss what she wants minted: the denom, another
denom, the amount, and the recipient. -/
def mistakes : List Sent :=
  [⟨"carol", .message (.createDenom "gold" none)⟩,
    ⟨"carol", .message (.mintTokens "gold" 5 "carol")⟩,
    ⟨"carol", .message (.mintTokens "factory/carol/silver" 5 "carol")⟩,
    ⟨"carol", .message (.mintTokens "factory/carol/gold" 0 "carol")⟩,
    ⟨"carol", .message (.mintTokens "factory/carol/gold" 5 "")⟩]

/-- What is wrong with a request is not put on record, unless it is who sent it. -/
theorem mistakes_unrecorded :
    (opened.history mistakes).map Outcome.result =
        [.error (.rejected (.denomAlreadyExists "factory/carol/gold")),
          .error (.rejected (.invalidDenom "gold" (.partCount 1))),
          .error (.rejected (.unknownDenom "factory/carol/silver")),
          .error (.rejected .zeroAmount),
          .error (.rejected (.invalidAddress "" "invalid address"))] ∧
      (opened.after mistakes).log = opened.log ∧
      ¬ ∀ (r : Registry) (sender : String) (command : Command) (rejection : Rejection),
        (r.execute sender (.message command)).1 = .error (.rejected rejection) →
          ∃ record ∈ (r.execute sender (.message command)).2.log.drop r.log.length,
            record.level = .warning := by
  refine ⟨by decide +kernel, by decide +kernel, fun hwarned => ?_⟩
  have hsame : (opened.execute "carol"
      (.message (.mintTokens "factory/carol/silver" 5 "carol"))).2.log = opened.log := by
    decide +kernel
  obtain ⟨record, hrecord, -⟩ := hwarned opened "carol"
    (.mintTokens "factory/carol/silver" 5 "carol") (.unknownDenom "factory/carol/silver")
    (by decide +kernel)
  rw [hsame, List.drop_length] at hrecord
  cases hrecord

end Registry

end Coinage
