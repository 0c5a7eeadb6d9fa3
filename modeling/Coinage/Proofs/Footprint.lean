import Coinage.Proofs.Failure
import Coinage.Proofs.Judgement

/-! What a command uses in the store. A command asks for one transaction at most, with locks that are
settled before anything is read, and everything it does to the store it does in there. Not every key
that it stages is among its locks, but always the one for the admin of its denom: so two commands that
use the same key have a lock in common. -/

namespace Coinage

open Act Entry Registry

variable {ε α β : Type}

/-- What is done to a key inside a transaction. -/
inductive Access where
  | read (key : Text)
  | stage (key : Text)

def Access.key : Access → Text
  | .read key | .stage key => key

namespace Script

/-- The script comes to the access in some course that it can take. How it goes on depends on what it
finds, which may be anything. -/
inductive CanMake (access : Access) : Script ε α → Prop
  | read {key : Text} {next : Option String → Script ε α} (h : access = .read key) :
      CanMake access (.readThen key next)
  | stage {batch : List (Text × String)} {next : Script ε α} {row : Text × String}
      (hrow : row ∈ batch) (h : access = .stage row.1) : CanMake access (.stageThen batch next)
  | afterRead {key : Text} {next : Option String → Script ε α} (found : Option String)
      (h : CanMake access (next found)) : CanMake access (.readThen key next)
  | afterPeek {key : Text} {next : Option String → Script ε α} (found : Option String)
      (h : CanMake access (next found)) : CanMake access (.peekThen key next)
  | afterStage {batch : List (Text × String)} {next : Script ε α} (h : CanMake access next) :
      CanMake access (.stageThen batch next)

/-- Whatever the script does inside its transaction has the property. -/
def Makes (P : Access → Prop) (script : Script ε α) : Prop :=
  ∀ access, script.CanMake access → P access

variable {P : Access → Prop}

theorem makes_fail (fault : ε) : (fail fault : Script ε α).Makes P := fun _ h => by cases h

theorem makes_lift (x : Except ε α) : (liftM x : Script ε α).Makes P := by
  intro access h
  cases x <;> cases h

theorem makes_read {key : Text} (h : P (.read key)) : (read key : Script ε _).Makes P := by
  intro access hmake
  cases hmake with
  | read heq => exact heq ▸ h
  | afterRead found hmake => cases hmake

theorem makes_stage {batch : List (Text × String)} (h : ∀ row ∈ batch, P (.stage row.1)) :
    (stage batch : Script ε Unit).Makes P := by
  intro access hmake
  cases hmake with
  | stage hrow heq => exact heq ▸ h _ hrow
  | afterStage hmake => cases hmake

theorem CanMake.of_bind {access : Access} {script : Script ε α} {next : α → Script ε β}
    (h : (script >>= next).CanMake access) : script.CanMake access ∨ ∃ a, (next a).CanMake access := by
  change (script.bind next).CanMake access at h
  induction script with
  | done a => exact .inr ⟨a, h⟩
  | fail fault => cases h
  | readThen key more ih =>
      cases h with
      | read heq => exact .inl (.read heq)
      | afterRead found h => exact (ih found h).imp_left (.afterRead found)
  | peekThen key more ih =>
      cases h with
      | afterPeek found h => exact (ih found h).imp_left (.afterPeek found)
  | stageThen batch more ih =>
      cases h with
      | stage hrow heq => exact .inl (.stage hrow heq)
      | afterStage h => exact (ih h).imp_left .afterStage

theorem Makes.bind {script : Script ε α} {next : α → Script ε β} (h : script.Makes P)
    (hnext : ∀ a, (next a).Makes P) : (script >>= next).Makes P := by
  intro access hmake
  rcases hmake.of_bind with hmake | ⟨a, hmake⟩
  · exact h access hmake
  · exact hnext a access hmake

theorem Makes.discard {script : Script ε α} (h : script.Makes P) :
    (discard script : Script ε PUnit).Makes P :=
  h.bind fun _ _ hmake => by cases hmake

theorem Makes.lift_bind {x : Except ε α} {next : α → Script ε β}
    (h : ∀ a, x = .ok a → (next a).Makes P) : (liftM x >>= next).Makes P := by
  cases x with
  | error fault => exact makes_fail fault
  | ok a => exact h a rfl

end Script

/-- A transaction as it is asked for. -/
structure Transaction where
  locks : List Text
  script : Script Fault Unit

/-- The transaction that a command asks for, once its denom is known. -/
def Command.transaction? (sender : String) : Command → Option Transaction
  | .createDenom subdenom metadata => do
    let d ← (Denom.lookup sender subdenom).toOption
    return ⟨[adminKey d, creatorKey sender], createScript d metadata⟩
  | .changeAdmin text newAdmin => do
    let d ← (Denom.parse text).toOption
    return ⟨[adminKey d], handoverScript sender d newAdmin⟩
  | .setMetadata text m => do
    let d ← (Denom.parse text).toOption
    return ⟨[adminKey d, metadataKey d], describeScript sender d m⟩
  | .mintTokens .. | .burnTokens .. | .forceTransfer .. => none

/-! ### What is used -/

/-- The transaction is about the denom: it locks its admin, and uses no keys but those that go with
the denom, and the list of its creator only under a lock. -/
structure Transaction.IsAbout (t : Transaction) (d : Denom) : Prop where
  lock : adminKey d ∈ t.locks
  makes : t.script.Makes fun access => access.key = adminKey d ∨ access.key = metadataKey d ∨
    access.key = creatorKey d.creator ∧ creatorKey d.creator ∈ t.locks

namespace Registry

open Script

variable {P : Access → Prop} {d : Denom} {sender : String}

theorem metadataRows_key {metadata : Option Metadata} {rows : List (Text × String)}
    (h : metadataRows d metadata = .ok rows) : ∀ row ∈ rows, row.1 = metadataKey d := by
  cases metadata with
  | none =>
      cases h
      exact fun _ hrow => by cases hrow
  | some m =>
      simp only [metadataRows] at h
      split at h
      · cases h
        simp
      · cases h

theorem makes_createScript {metadata : Option Metadata} (hadmin : P (.read (adminKey d)))
    (hlist : P (.read (creatorKey d.creator))) (hadmin' : P (.stage (adminKey d)))
    (hlist' : P (.stage (creatorKey d.creator))) (hmetadata' : P (.stage (metadataKey d))) :
    (createScript d metadata).Makes P := by
  have hrest : (do
      let created ← (denoms (← Script.read (creatorKey d.creator))).mapError Fault.stored
      let described ← (metadataRows d metadata).mapError Fault.stored
      Script.stage ([(adminKey d, adminText d.creator),
        (creatorKey d.creator, denomsText (created ++ [Text.ofString d.text]))] ++ described) :
        Script Fault Unit).Makes P := by
    refine (makes_read hlist).bind fun _ => (makes_lift _).bind fun _ => ?_
    refine .lift_bind fun rows hrows => makes_stage fun row hrow => ?_
    simp only [List.cons_append, List.nil_append, List.mem_cons] at hrow
    rcases hrow with rfl | rfl | hrow
    · exact hadmin'
    · exact hlist'
    · rw [metadataRows_key (Except.mapError_eq_ok_iff.mp hrows) row hrow]
      exact hmetadata'
  refine (makes_read hadmin).bind fun _ => (makes_lift _).bind fun _ => ?_
  split
  · exact (makes_fail _).bind fun _ => hrest
  · exact hrest

theorem makes_handoverScript {newAdmin : Text} (hread : P (.read (adminKey d)))
    (hstage : P (.stage (adminKey d))) : (handoverScript sender d newAdmin).Makes P := by
  have hrest : (Script.stage [(adminKey d, adminText newAdmin)] : Script Fault Unit).Makes P :=
    makes_stage (by simpa using hstage)
  refine (makes_read hread).bind fun _ => (makes_lift _).bind fun _ => ?_
  split
  · exact hrest
  · exact (makes_lift _).discard.bind fun _ => hrest

theorem makes_describeScript {m : Metadata} (hread : P (.read (adminKey d)))
    (hstage : P (.stage (metadataKey d))) : (describeScript sender d m).Makes P := by
  refine (makes_read hread).bind fun _ => (makes_lift _).bind fun _ => ?_
  refine .lift_bind fun rows hrows => makes_stage fun row hrow => ?_
  rw [metadataRows_key (Except.mapError_eq_ok_iff.mp hrows) row hrow]
  exact hstage

/-- **The transaction of a command is about its denom.** -/
theorem exists_isAbout {command : Command} {t : Transaction}
    (h : command.transaction? sender = some t) : ∃ d, t.IsAbout d := by
  cases command with
  | createDenom subdenom metadata =>
      obtain ⟨d, hd, h⟩ := Option.bind_eq_some_iff.mp h
      cases h
      obtain ⟨hcreator, -⟩ := Denom.lookup_eq_ok_iff.mp (Except.toOption_eq_some_iff.mp hd)
      obtain rfl := Text.ofString_inj.mp hcreator
      have hlist : creatorKey d.creator ∈ [adminKey d, creatorKey d.creator] :=
        List.mem_cons_of_mem _ List.mem_cons_self
      exact ⟨d, List.mem_cons_self, makes_createScript (.inl rfl) (.inr (.inr ⟨rfl, hlist⟩))
        (.inl rfl) (.inr (.inr ⟨rfl, hlist⟩)) (.inr (.inl rfl))⟩
  | changeAdmin text newAdmin =>
      obtain ⟨d, -, h⟩ := Option.bind_eq_some_iff.mp h
      cases h
      exact ⟨d, List.mem_cons_self, makes_handoverScript (.inl rfl) (.inl rfl)⟩
  | setMetadata text m =>
      obtain ⟨d, -, h⟩ := Option.bind_eq_some_iff.mp h
      cases h
      exact ⟨d, List.mem_cons_self, makes_describeScript (.inl rfl) (.inr (.inl rfl))⟩
  | mintTokens | burnTokens | forceTransfer => cases h

end Registry

/-- Transactions that use the same key have a lock in common. -/
theorem Transaction.IsAbout.exists_shared_lock {t t' : Transaction} {d d' : Denom}
    (h : t.IsAbout d) (h' : t'.IsAbout d') {access access' : Access}
    (hmake : t.script.CanMake access) (hmake' : t'.script.CanMake access')
    (hkey : access.key = access'.key) :
    ∃ lock ∈ t.locks, lock ∈ t'.locks := by
  have hsame : d = d' → ∃ lock ∈ t.locks, lock ∈ t'.locks := by
    rintro rfl
    exact ⟨adminKey d, h.lock, h'.lock⟩
  rcases h.makes access hmake with hadmin | hmetadata | ⟨hlist, hlock⟩ <;>
    rcases h'.makes access' hmake' with hadmin' | hmetadata' | ⟨hlist', hlock'⟩
  · exact hsame (adminKey_inj.mp (hadmin.symm.trans (hkey.trans hadmin')))
  · exact absurd (hadmin.symm.trans (hkey.trans hmetadata')) (adminKey_ne_metadataKey d d')
  · exact absurd (hadmin.symm.trans (hkey.trans hlist')) (adminKey_ne_creatorKey d _)
  · exact absurd (hadmin'.symm.trans (hkey.symm.trans hmetadata)) (adminKey_ne_metadataKey d' d)
  · exact hsame (metadataKey_inj.mp (hmetadata.symm.trans (hkey.trans hmetadata')))
  · exact absurd (hmetadata.symm.trans (hkey.trans hlist')) (metadataKey_ne_creatorKey d _)
  · exact absurd (hadmin'.symm.trans (hkey.symm.trans hlist)) (adminKey_ne_creatorKey d' _)
  · exact absurd (hmetadata'.symm.trans (hkey.symm.trans hlist)) (metadataKey_ne_creatorKey d' _)
  · rw [hlist.symm.trans (hkey.trans hlist')] at hlock
    exact ⟨creatorKey d'.creator, hlock, hlock'⟩

/-! ### What is asked for -/

namespace Registry

/-- What was done to the registry is the one transaction, on the store as it was. It goes through
just if the transaction does. -/
structure Opens (r : Registry) (t : Transaction) (done : Except Fault α × Registry) : Prop where
  locks : done.2.locks = r.locks ++ [t.locks]
  store : done.2.store = (r.store.transact t.locks t.script).2
  isOk : done.1.isOk = (r.store.transact t.locks t.script).1.isOk

/-- `r'` comes after `r` without a transaction. All that the store was asked for is texts. -/
structure Browses (r r' : Registry) : Prop where
  locks : r'.locks = r.locks
  journal : ∃ keys : List Text, r'.store.journal = r.store.journal ++ keys.map .get

theorem Browses.refl (r : Registry) : r.Browses r := ⟨rfl, [], (List.append_nil _).symm⟩

theorem Browses.trans {r r' r'' : Registry} (h : r.Browses r') (h' : r'.Browses r'') :
    r.Browses r'' := by
  obtain ⟨keys, hkeys⟩ := h.journal
  obtain ⟨keys', hkeys'⟩ := h'.journal
  exact ⟨h'.locks.trans h.locks, keys ++ keys', by rw [hkeys', hkeys, List.map_append,
    List.append_assoc]⟩

end Registry

namespace Act

/-- All that the act asks the store for is texts. -/
def Browses (act : Act α) : Prop := ∀ r : Registry, r.Browses (act.on r).2

theorem Browses.bind {act : Act α} {next : α → Act β} (h : act.Browses)
    (hnext : ∀ a, (next a).Browses) : (act >>= next).Browses := by
  intro r
  have hfirst := h r
  rcases hstep : act.on r with ⟨fault | a, r'⟩ <;> rw [hstep] at hfirst
  · rw [on_bind_error hstep]
    exact hfirst
  · rw [on_bind_ok hstep]
    exact hfirst.trans (hnext a r')

theorem browses_lift (x : Except Fault α) : (liftM x : Act α).Browses := by
  intro r
  rw [on_lift]
  exact .refl r

theorem browses_lift_bind {x : Except Fault α} {next : α → Act β}
    (h : ∀ a, x = .ok a → (next a).Browses) : (liftM x >>= next).Browses := by
  cases x with
  | error fault => exact browses_lift (.error fault)
  | ok a => exact h a rfl

theorem browses_fetch (key : Text) : (fetch key).Browses := by
  intro r
  rw [on_fetch]
  refine ⟨rfl, ?_⟩
  cases hstore : r.store with
  | memory entries => exact ⟨[], rfl⟩
  | database db => exact ⟨[key], rfl⟩

theorem browses_move (m : Ledger.Movement) : (move m).Browses := by
  intro r
  rw [on_move]
  cases r.ledger.apply m with
  | error e => exact .refl r
  | ok ledger => exact ⟨rfl, [], (List.append_nil _).symm⟩

theorem browses_info (text : String) : (info text).Browses := fun _ =>
  ⟨rfl, [], (List.append_nil _).symm⟩

variable {r : Registry} {t : Transaction}

theorem opens_transaction (r : Registry) (locks : List Text) (script : Script Fault Unit) :
    r.Opens ⟨locks, script⟩ ((transaction locks script).on r) := by
  rw [on_transaction]
  refine ⟨rfl, rfl, ?_⟩
  cases (r.store.transact locks script).1 <;> rfl

theorem opens_lift_bind {x : Except Fault β} {a : β} {next : β → Act α} (hx : x = .ok a)
    (h : r.Opens t ((next a).on r)) : r.Opens t ((liftM x >>= next).on r) := by
  rw [on_bind_ok ((on_lift x r).trans (congrArg (·, r) hx))]
  exact h

/-- Steps that cannot fail and leave the store alone may follow. -/
theorem opens_bind {act : Act β} {next : β → Act α} (h : r.Opens t (act.on r))
    (hnext : ∀ b r', ∃ a r'', (next b).on r' = (.ok a, r'') ∧ r''.store = r'.store ∧
      r''.locks = r'.locks) : r.Opens t ((act >>= next).on r) := by
  rcases hstep : act.on r with ⟨fault | b, r'⟩ <;> rw [hstep] at h
  · rw [on_bind_error hstep]
    exact ⟨h.locks, h.store, h.isOk⟩
  · obtain ⟨a, r'', hon, hstore, hlocks⟩ := hnext b r'
    rw [on_bind_ok hstep, hon]
    exact ⟨hlocks.trans h.locks, hstore.trans h.store, h.isOk⟩

end Act

namespace Registry

open Act

variable {sender : String} {command : Command} {t : Transaction}

theorem opens_perform (h : command.transaction? sender = some t) (r : Registry) :
    r.Opens t ((perform sender command).on r) := by
  have hinfo : ∀ (text : String) (_ : Unit) (r' : Registry), ∃ a r'',
      (info text).on r' = (.ok a, r'') ∧ r''.store = r'.store ∧ r''.locks = r'.locks :=
    fun text _ r' => ⟨(), r'.record .info text, rfl, rfl, rfl⟩
  cases command with
  | createDenom subdenom metadata =>
      obtain ⟨d, hd, h⟩ := Option.bind_eq_some_iff.mp h
      cases h
      have hd := Except.toOption_eq_some_iff.mp hd
      refine opens_bind (opens_lift_bind hd <| opens_bind (opens_transaction r _ _) ?_)
        fun d r' => ⟨_, r', rfl, rfl, rfl⟩
      exact fun _ r' => ⟨d, r'.record .info _, rfl, rfl, rfl⟩
  | changeAdmin text newAdmin =>
      obtain ⟨d, hd, h⟩ := Option.bind_eq_some_iff.mp h
      cases h
      have hd := Except.toOption_eq_some_iff.mp hd
      exact opens_bind (opens_lift_bind hd <| opens_bind (opens_transaction r _ _) (hinfo _))
        fun _ r' => ⟨_, r', rfl, rfl, rfl⟩
  | setMetadata text m =>
      obtain ⟨d, hd, h⟩ := Option.bind_eq_some_iff.mp h
      cases h
      have hd := Except.toOption_eq_some_iff.mp hd
      exact opens_bind (opens_lift_bind hd <| opens_bind (opens_transaction r _ _) (hinfo _))
        fun _ r' => ⟨_, r', rfl, rfl, rfl⟩
  | mintTokens | burnTokens | forceTransfer => cases h

theorem browses_authorizeMovement (sender : String) (text : Text) (amount : Int) :
    (authorizeMovement sender text amount).Browses :=
  (browses_lift _).bind fun _ => (browses_lift _).bind fun _ => (browses_fetch _).bind fun _ =>
    (browses_lift _).bind fun d => browses_lift (.ok d)

theorem browses_mintTokens (sender : String) (text : Text) (amount : Int) (recipient : Text) :
    (mintTokens sender text amount recipient).Browses :=
  (browses_authorizeMovement sender text amount).bind fun _ => (browses_lift _).bind fun _ =>
    (browses_move _).bind fun _ => browses_info _

theorem browses_burnTokens (sender : String) (text : Text) (amount : Int) (holder : Text) :
    (burnTokens sender text amount holder).Browses := by
  refine (browses_authorizeMovement sender text amount).bind fun d => ?_
  have hrest : (do
      Act.move (.burn d.text amount sender)
      Act.info s!"Burned {amount} {d.text} from {sender}").Browses :=
    (browses_move _).bind fun _ => browses_info _
  split
  · exact hrest
  · exact Browses.bind (browses_lift (.error _)) fun _ => hrest

theorem browses_forceTransfer (sender : String) (text : Text) (amount : Int) (source target : Text) :
    (forceTransfer sender text amount source target).Browses :=
  (browses_authorizeMovement sender text amount).bind fun _ => (browses_lift _).bind fun _ =>
    (browses_lift _).bind fun _ => (browses_move _).bind fun _ => browses_info _

/-- A command that asks for no transaction has none. -/
theorem browses_perform (h : command.transaction? sender = none) :
    (perform sender command).Browses := by
  cases command with
  | createDenom subdenom metadata =>
      refine Browses.bind (browses_lift_bind fun d hd => ?_)
        fun _ => browses_lift_bind fun _ _ => browses_lift (.ok _)
      rw [Command.transaction?, Except.toOption_eq_some_iff.mpr hd] at h
      cases h
  | changeAdmin text newAdmin =>
      refine Browses.bind (browses_lift_bind fun d hd => ?_) fun _ => browses_lift (.ok _)
      rw [Command.transaction?, Except.toOption_eq_some_iff.mpr hd] at h
      cases h
  | setMetadata text m =>
      refine Browses.bind (browses_lift_bind fun d hd => ?_) fun _ => browses_lift (.ok _)
      rw [Command.transaction?, Except.toOption_eq_some_iff.mpr hd] at h
      cases h
  | mintTokens text amount recipient =>
      exact (browses_mintTokens sender text amount recipient).bind fun _ => browses_lift (.ok _)
  | burnTokens text amount holder =>
      exact (browses_burnTokens sender text amount holder).bind fun _ => browses_lift (.ok _)
  | forceTransfer text amount source target =>
      exact (browses_forceTransfer sender text amount source target).bind fun _ => browses_lift (.ok _)

theorem opens_execute (h : command.transaction? sender = some t) (r : Registry) :
    r.Opens t (r.execute sender (.message command)) := by
  have hopens := opens_perform h r
  rcases hon : (perform sender command).on r with ⟨fault | receipt, r'⟩ <;> rw [hon] at hopens
  · rw [execute_message_of_error hon]
    unfold warnOfRefusal
    split <;> exact ⟨hopens.locks, hopens.store, hopens.isOk⟩
  · rw [execute_message_of_ok hon]
    exact hopens

theorem browses_execute (h : command.transaction? sender = none) (r : Registry) :
    r.Browses (r.execute sender (.message command)).2 := by
  have hbrowses := browses_perform h r
  rcases hon : (perform sender command).on r with ⟨fault | receipt, r'⟩ <;> rw [hon] at hbrowses
  · rw [execute_message_of_error hon]
    unfold warnOfRefusal
    split <;> exact ⟨hbrowses.locks, hbrowses.journal⟩
  · rw [execute_message_of_ok hon]
    exact hbrowses

theorem exists_transaction_of_locks {r : Registry}
    (h : (r.execute sender (.message command)).2.locks ≠ r.locks) :
    ∃ t, command.transaction? sender = some t := by
  cases hnone : command.transaction? sender with
  | none => exact absurd (browses_execute hnone r).locks h
  | some t => exact ⟨t, rfl⟩

/-- **Commands that conflict share a lock.** Two commands ask for locks, of whomever they come and
whatever the registries hold that carry them out. Then each does so for one transaction, and if one of
them can stage a key there that the other can read or stage, they have a lock in common. -/
theorem conflicting_commands_share_lock (r r' : Registry) (sender sender' : String)
    (c c' : Command) (h : (r.execute sender (.message c)).2.locks ≠ r.locks)
    (h' : (r'.execute sender' (.message c')).2.locks ≠ r'.locks) :
    ∃ t t', (c.transaction? sender = some t ∧ r.Opens t (r.execute sender (.message c))) ∧
      (c'.transaction? sender' = some t' ∧ r'.Opens t' (r'.execute sender' (.message c'))) ∧
      ∀ key, t.script.CanMake (.stage key) →
        t'.script.CanMake (.read key) ∨ t'.script.CanMake (.stage key) →
        ∃ lock ∈ t.locks, lock ∈ t'.locks := by
  obtain ⟨t, ht⟩ := exists_transaction_of_locks h
  obtain ⟨t', ht'⟩ := exists_transaction_of_locks h'
  obtain ⟨d, habout⟩ := exists_isAbout ht
  obtain ⟨d', habout'⟩ := exists_isAbout ht'
  refine ⟨t, t', ⟨ht, opens_execute ht r⟩, ⟨ht', opens_execute ht' r'⟩, ?_⟩
  rintro key hstage (hread' | hstage')
  · exact habout.exists_shared_lock habout' hstage hread' rfl
  · exact habout.exists_shared_lock habout' hstage hstage' rfl

/-- Dora's copper, which Bob describes as she creates it. -/
def copper : Denom := ⟨"dora", "copper", by decide, by decide, by decide⟩

def plain : Metadata := ⟨none, [], none, none, none, none⟩

/-- The row that both write is locked by one of them only. -/
theorem creation_and_description_share_lock :
    ((start ∅).execute "dora" (.message (.createDenom "copper" (some plain)))).2.locks ≠ [] ∧
      ((start ∅).execute "bob" (.message (.setMetadata "factory/dora/copper" plain))).2.locks ≠ [] ∧
      ∃ t t', (Command.createDenom "copper" (some plain)).transaction? "dora" = some t ∧
        (Command.setMetadata "factory/dora/copper" plain).transaction? "bob" = some t' ∧
        (t.script.CanMake (.stage (metadataKey copper)) ∧ metadataKey copper ∉ t.locks) ∧
        t'.script.CanMake (.stage (metadataKey copper)) ∧ ∃ lock ∈ t.locks, lock ∈ t'.locks := by
  have hlocks : ((start ∅).execute "dora"
      (.message (.createDenom "copper" (some plain)))).2.locks ≠ [] := by decide +kernel
  have hlocks' : ((start ∅).execute "bob"
      (.message (.setMetadata "factory/dora/copper" plain))).2.locks ≠ [] := by decide +kernel
  obtain ⟨t, t', ⟨ht, -⟩, ⟨ht', -⟩, hshare⟩ := conflicting_commands_share_lock (start ∅) (start ∅)
    "dora" "bob" _ _ hlocks hlocks'
  have hcreation : t = ⟨[adminKey copper, creatorKey "dora"], createScript copper (some plain)⟩ := by
    have hlookup : Denom.lookup "dora" "copper" = .ok copper := Denom.lookup_creator_subdenom copper
    rw [Command.transaction?, hlookup] at ht
    exact (Option.some.inj ht).symm
  have hdescription : t' = ⟨[adminKey copper, metadataKey copper],
      describeScript "bob" copper plain⟩ := by
    have hdenom : Denom.parse "factory/dora/copper" = .ok copper := by decide +kernel
    rw [Command.transaction?, hdenom] at ht'
    exact (Option.some.inj ht').symm
  have hrow := List.mem_singleton_self (metadataKey copper, metadataText plain)
  have hstage : t.script.CanMake (.stage (metadataKey copper)) := by
    rw [hcreation]
    exact .afterRead none (.afterRead none
      (.stage (List.mem_cons_of_mem _ (List.mem_cons_of_mem _ hrow)) rfl))
  have hstage' : t'.script.CanMake (.stage (metadataKey copper)) := by
    rw [hdescription]
    exact .afterRead (adminText "bob") (.stage hrow rfl)
  refine ⟨hlocks, hlocks', t, t', ht, ht', ⟨hstage, ?_⟩, hstage', hshare _ hstage (.inr hstage')⟩
  rw [hcreation]
  decide

end Registry

end Coinage
