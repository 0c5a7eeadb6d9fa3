import Coinage.Proofs.Journal
import Coinage.Proofs.Json.Printing
import Coinage.Proofs.Spelling

/-! What texts a database is handed. A database takes texts that have an encoding and no U+0000 in
them; of others it need not take any. Whatever is in a message, its values are handed over in printable
characters, so that it comes down to the keys, and in a key there is nothing but the name of a denom or
of an account. -/

namespace Coinage

open Act Entry Registry

variable {ε α β : Type}

namespace Text

variable {s t : Text}

/-- U+0000 is not in the text. -/
def NulFree (t : Text) : Prop := Element.char '\x00' ∉ t.elements

/-- A text that a database takes. -/
def IsPlain (t : Text) : Prop := t.IsWellFormed ∧ t.NulFree

instance : DecidablePred NulFree := fun _ => inferInstanceAs (Decidable (¬ _))

instance : DecidablePred IsPlain := fun _ => inferInstanceAs (Decidable (_ ∧ _))

@[simp] theorem nulFree_append_iff : (s ++ t).NulFree ↔ s.NulFree ∧ t.NulFree := by
  simp only [NulFree, elements_append, List.mem_append, not_or]

@[simp] theorem isPlain_append_iff : (s ++ t).IsPlain ↔ s.IsPlain ∧ t.IsPlain := by
  simp only [IsPlain, isWellFormed_append_iff, nulFree_append_iff]
  tauto

theorem isPlain_ofString_iff {s : String} : (ofString s).IsPlain ↔ '\x00' ∉ s.toList := by
  rw [IsPlain, and_iff_right (isWellFormed_ofString s), NulFree, char_mem_elements_ofString]

/-- What is written as JSON is plain. -/
theorem isPlain_compact (v : Json) : (ofString v.compact).IsPlain := by
  rw [isPlain_ofString_iff, Json.compact, String.toList_ofList]
  intro hmem
  have hprintable := (Json.printable_compactChars v _ hmem).1
  exact absurd hprintable (by decide)

end Text

namespace Denom

theorem isPlain_text_iff {d : Denom} : (Text.ofString d.text).IsPlain ↔
    (Text.ofString d.creator).NulFree ∧ (Text.ofString d.subdenom).NulFree := by
  have hprefix : (Text.ofString namespacePrefix).NulFree := by decide
  have hslash : (Text.ofString "/").NulFree := by decide
  rw [Text.IsPlain, and_iff_right (Text.isWellFormed_ofString _), ofString_text, candidate, assemble]
  simp only [Text.nulFree_append_iff, hprefix, hslash, true_and, and_true]

/-- The text of a denom is plain if the text that led to it is. -/
theorem isPlain_of_parse {text : Text} {d : Denom} (h : parse text = .ok d) (htext : text.NulFree) :
    (Text.ofString d.text).IsPlain := by
  obtain ⟨first, hsplits, -⟩ := parse_eq_ok_iff.mp h
  rw [hsplits.text, assemble] at htext
  simp only [Text.nulFree_append_iff] at htext
  exact isPlain_text_iff.mpr ⟨htext.1.1.2, htext.2⟩

theorem isPlain_of_lookup {creator subdenom : Text} {d : Denom} (h : lookup creator subdenom = .ok d)
    (hcreator : creator.NulFree) (hsubdenom : subdenom.NulFree) :
    (Text.ofString d.text).IsPlain := by
  obtain ⟨rfl, rfl⟩ := lookup_eq_ok_iff.mp h
  exact isPlain_text_iff.mpr ⟨hcreator, hsubdenom⟩

end Denom

namespace Entry

variable {d : Denom}

theorem isPlain_adminKey (h : (Text.ofString d.text).IsPlain) : (adminKey d).IsPlain :=
  Text.isPlain_append_iff.mpr ⟨by decide, h⟩

theorem isPlain_metadataKey (h : (Text.ofString d.text).IsPlain) : (metadataKey d).IsPlain :=
  Text.isPlain_append_iff.mpr ⟨by decide, h⟩

theorem isPlain_creatorKey {creator : Text} (h : creator.IsPlain) : (creatorKey creator).IsPlain :=
  Text.isPlain_append_iff.mpr ⟨by decide, h⟩

end Entry

/-! ### What is handed over -/

namespace Database

/-- The texts that a statement comes with. -/
def Event.texts : Event → List Text
  | .lock key | .get key => [key]
  | .upsert rows => rows.flatMap fun row => [row.1, .ofString row.2]
  | .opened .. | .migrate | .ping | .commit | .rollback => []

/-- The statement comes with no texts but those with the property. -/
def Event.Conveys (R : Text → Prop) (event : Event) : Prop := ∀ text ∈ event.texts, R text

end Database

open Database

variable {R : Text → Prop}

theorem Database.conveys_key {key : Text} :
    (Event.get key).Conveys R ↔ R key := by
  simp [Event.Conveys, Event.texts]

theorem Database.conveys_upsert_iff {rows : List (Text × String)} :
    (Event.upsert rows).Conveys R ↔ ∀ row ∈ rows, R row.1 ∧ R (.ofString row.2) := by
  simp only [Event.Conveys, Event.texts, List.forall_mem_flatMap, List.forall_mem_cons,
    List.not_mem_nil, false_imp_iff, implies_true, and_true]

namespace Script

/-- Whatever the script finds, it asks for no keys but those with the property, and stages no other
texts. -/
def Conveys (R : Text → Prop) : Script ε α → Prop
  | .done _ | .fail _ => True
  | .readThen key next | .peekThen key next => R key ∧ ∀ found, (next found).Conveys R
  | .stageThen batch next => (Event.upsert batch).Conveys R ∧ next.Conveys R

theorem conveys_lift (x : Except ε α) : (liftM x : Script ε α).Conveys R := by
  cases x <;> exact trivial

theorem conveys_read {key : Text} (h : R key) : (read key : Script ε _).Conveys R :=
  ⟨h, fun _ => trivial⟩

theorem conveys_stage {batch : List (Text × String)}
    (h : ∀ row ∈ batch, R row.1 ∧ R (.ofString row.2)) : (stage batch : Script ε Unit).Conveys R :=
  ⟨conveys_upsert_iff.mpr h, trivial⟩

theorem Conveys.bind {script : Script ε α} {next : α → Script ε β} (h : script.Conveys R)
    (hnext : ∀ a, (next a).Conveys R) : (script >>= next).Conveys R := by
  change (script.bind next).Conveys R
  induction script with
  | done a => exact hnext a
  | fail fault => exact trivial
  | readThen key more ih | peekThen key more ih =>
      exact ⟨h.1, fun found => ih found (h.2 found)⟩
  | stageThen batch more ih => exact ⟨h.1, ih h.2⟩

theorem Conveys.discard {script : Script ε α} (h : script.Conveys R) :
    (discard script : Script ε PUnit).Conveys R :=
  h.bind fun _ => trivial

theorem Conveys.lift_bind {x : Except ε α} {next : α → Script ε β}
    (h : ∀ a, x = .ok a → (next a).Conveys R) : (liftM x >>= next).Conveys R := by
  cases x with
  | error fault => exact trivial
  | ok a => exact h a rfl

end Script

namespace Listing

theorem mem_or_eq_of_mem_put {κ γ : Type} [BEq κ] {k : κ} {a : γ} {e : κ × γ}
    {listing : List (κ × γ)} (h : e ∈ put k a listing) : e = (k, a) ∨ e ∈ listing := by
  induction listing with
  | nil => exact .inl (List.mem_singleton.mp h)
  | cons first rest ih =>
      rw [put] at h
      split at h
      · exact (List.mem_cons.mp h).imp_right (List.mem_cons_of_mem first)
      · rcases List.mem_cons.mp h with rfl | h
        · exact .inr List.mem_cons_self
        · exact (ih h).imp_right (List.mem_cons_of_mem first)

theorem mem_or_mem_of_mem_putAll {κ γ : Type} [BEq κ] {e : κ × γ} {es listing : List (κ × γ)}
    (h : e ∈ putAll es listing) : e ∈ es ∨ e ∈ listing := by
  induction es generalizing listing with
  | nil => exact .inr h
  | cons first rest ih =>
      rcases ih h with h | h
      · exact .inl (List.mem_cons_of_mem first h)
      · rcases mem_or_eq_of_mem_put h with rfl | h
        · exact .inl List.mem_cons_self
        · exact .inr h

end Listing

namespace Database

/-- A script hands over what it conveys, and so does the batch that it has staged by its end. -/
theorem conveys_perform {script : Script ε α} (h : script.Conveys R) (db : Database) {staged : Staged}
    (hstaged : (Event.upsert staged).Conveys R) :
    Continues (Event.Conveys R) db.journal (db.perform staged script).2.2.journal ∧
      (Event.upsert (db.perform staged script).2.1).Conveys R := by
  induction script generalizing db staged with
  | done | fail => exact ⟨.refl _, hstaged⟩
  | readThen key next ih =>
      simp only [perform]
      split
      · exact ih _ (h.2 _) db hstaged
      · obtain ⟨hjournal, hbatch⟩ := ih (db.get key).1 (h.2 _) (db.get key).2 hstaged
        exact ⟨(db.continues_note (conveys_key.mpr h.1)).trans hjournal, hbatch⟩
  | peekThen key next ih =>
      obtain ⟨hjournal, hbatch⟩ := ih (db.get key).1 (h.2 _) (db.get key).2 hstaged
      exact ⟨(db.continues_note (conveys_key.mpr h.1)).trans hjournal, hbatch⟩
  | stageThen batch next ih =>
      refine ih h.2 db (conveys_upsert_iff.mpr fun row hrow => ?_)
      rcases Listing.mem_or_mem_of_mem_putAll hrow with hrow | hrow
      · exact conveys_upsert_iff.mp h.1 row hrow
      · exact conveys_upsert_iff.mp hstaged row hrow

theorem conveys_upsert_commit (db : Database) {staged : Staged}
    (h : (Event.upsert staged).Conveys R) :
    Continues (Event.Conveys R) db.journal (db.upsert staged).commit.journal := by
  have hcommit : Event.commit.Conveys R := List.forall_mem_nil _
  rw [upsert]
  split
  · exact db.continues_note hcommit
  · exact (db.continues_note h).trans (continues_note _ hcommit)

/-- A transaction hands over its locks and what its script conveys. -/
theorem conveys_transact (db : Database) {locks : List Text} {script : Script ε α}
    (hlocks : ∀ key ∈ locks, R key) (h : script.Conveys R) :
    Continues (Event.Conveys R) db.journal (db.transact locks script).2.journal := by
  have hrollback : Event.rollback.Conveys R := List.forall_mem_nil _
  have hlocked : Continues (Event.Conveys R) db.journal
      (db.lockWhere (fun _ => db.commandsFail) (lockOrder locks)).2.journal :=
    db.continues_lockWhere _ fun key hkey => conveys_key.mpr (hlocks key (mem_lockOrder.mp hkey))
  rw [transact, transactWhere]
  rcases hlock : db.lockWhere (fun _ => db.commandsFail) (lockOrder locks) with ⟨_ | _, db'⟩ <;>
    rw [hlock] at hlocked
  · exact hlocked.trans (continues_note db' hrollback)
  · obtain ⟨hjournal, hbatch⟩ := conveys_perform h db' (conveys_upsert_iff.mpr (List.forall_mem_nil _))
    rcases hperform : db'.perform [] script with ⟨_ | _, staged, db''⟩ <;>
      simp only [hperform] at hjournal hbatch ⊢
    · exact (hlocked.trans hjournal).trans (continues_note db'' hrollback)
    · exact (hlocked.trans hjournal).trans (conveys_upsert_commit db'' hbatch)

end Database

namespace Act

/-- On every registry, the act hands over no texts but those with the property. -/
def Conveys (R : Text → Prop) (act : Act α) : Prop :=
  ∀ r : Registry, Continues (Event.Conveys R) r.store.journal (act.on r).2.store.journal

theorem Conveys.bind {act : Act α} {next : α → Act β} (h : act.Conveys R)
    (hnext : ∀ a, (next a).Conveys R) : (act >>= next).Conveys R := by
  intro r
  have hfirst := h r
  rcases hstep : act.on r with ⟨fault | a, r'⟩ <;> rw [hstep] at hfirst
  · rw [on_bind_error hstep]
    exact hfirst
  · rw [on_bind_ok hstep]
    exact hfirst.trans (hnext a r')

theorem conveys_lift (x : Except Fault α) : (liftM x : Act α).Conveys R := by
  intro r
  rw [on_lift]
  exact .refl _

theorem conveys_lift_bind {x : Except Fault α} {next : α → Act β}
    (h : ∀ a, x = .ok a → (next a).Conveys R) : (liftM x >>= next).Conveys R := by
  cases x with
  | error fault => exact conveys_lift (.error fault)
  | ok a => exact h a rfl

theorem conveys_fetch {key : Text} (h : R key) : (fetch key).Conveys R := by
  intro r
  rw [on_fetch]
  cases hstore : r.store with
  | memory entries => exact .refl _
  | database db => exact db.continues_note (conveys_key.mpr h)

theorem conveys_transaction {locks : List Text} {script : Script Fault α}
    (hlocks : ∀ key ∈ locks, R key) (h : script.Conveys R) : (transaction locks script).Conveys R := by
  intro r
  rw [on_transaction]
  cases hstore : r.store with
  | memory entries =>
      simp only [Store.transact]
      split <;> exact .refl _
  | database db => exact db.conveys_transact hlocks h

theorem conveys_info (text : String) : (info text).Conveys R := fun _ => .refl _

theorem conveys_move_info (m : Ledger.Movement) (text : String) :
    (do move m; info text).Conveys R := by
  refine Conveys.bind (fun r => ?_) fun _ => conveys_info text
  rw [on_move]
  cases r.ledger.apply m <;> exact .refl _

end Act

namespace Registry

/-! ### The texts of messages -/

section Scripts

variable {d : Denom} (hd : (Text.ofString d.text).IsPlain)

include hd

theorem isPlain_metadataRows {metadata : Option Metadata} {rows : List (Text × String)}
    (h : metadataRows d metadata = .ok rows) :
    ∀ row ∈ rows, row.1.IsPlain ∧ (Text.ofString row.2).IsPlain := by
  cases metadata with
  | none =>
      cases h
      exact List.forall_mem_nil _
  | some m =>
      simp only [metadataRows] at h
      split at h <;> cases h
      exact List.forall_mem_singleton.mpr ⟨isPlain_metadataKey hd, Text.isPlain_compact _⟩

theorem conveys_createScript (hcreator : (Text.ofString d.creator).IsPlain)
    (metadata : Option Metadata) : (createScript d metadata).Conveys Text.IsPlain := by
  have hrest : (do
      let created ← (denoms (← Script.read (creatorKey d.creator))).mapError Fault.stored
      let described ← (metadataRows d metadata).mapError Fault.stored
      Script.stage ([(adminKey d, adminText d.creator),
        (creatorKey d.creator, denomsText (created ++ [Text.ofString d.text]))] ++ described) :
        Script Fault Unit).Conveys Text.IsPlain := by
    refine (Script.conveys_read (isPlain_creatorKey hcreator)).bind fun _ =>
      (Script.conveys_lift _).bind fun created => .lift_bind fun rows hrows => ?_
    refine Script.conveys_stage (List.forall_mem_append.mpr ⟨?_, ?_⟩)
    · rw [List.forall_mem_cons, List.forall_mem_singleton]
      exact ⟨⟨isPlain_adminKey hd, Text.isPlain_compact _⟩,
        isPlain_creatorKey hcreator, Text.isPlain_compact _⟩
    · exact isPlain_metadataRows hd (Except.mapError_eq_ok_iff.mp hrows)
  refine (Script.conveys_read (isPlain_adminKey hd)).bind fun _ =>
    (Script.conveys_lift _).bind fun _ => ?_
  split
  · exact Script.Conveys.bind trivial fun _ => hrest
  · exact hrest

theorem conveys_handoverScript (sender : String) (newAdmin : Text) :
    (handoverScript sender d newAdmin).Conveys Text.IsPlain := by
  have hrest : (Script.stage [(adminKey d, adminText newAdmin)] : Script Fault Unit).Conveys
      Text.IsPlain := Script.conveys_stage <|
    List.forall_mem_singleton.mpr ⟨isPlain_adminKey hd, Text.isPlain_compact _⟩
  refine (Script.conveys_read (isPlain_adminKey hd)).bind fun _ =>
    (Script.conveys_lift _).bind fun _ => ?_
  split
  · exact hrest
  · exact (Script.conveys_lift _).discard.bind fun _ => hrest

theorem conveys_describeScript (sender : String) (m : Metadata) :
    (describeScript sender d m).Conveys Text.IsPlain :=
  (Script.conveys_read (isPlain_adminKey hd)).bind fun _ => (Script.conveys_lift _).bind fun _ =>
    .lift_bind fun _ hrows =>
      Script.conveys_stage (isPlain_metadataRows hd (Except.mapError_eq_ok_iff.mp hrows))

end Scripts

end Registry

/-- What a command calls its denom. -/
def Command.name : Command → Text
  | .createDenom subdenom _ => subdenom
  | .changeAdmin denom _ | .mintTokens denom .. | .burnTokens denom .. | .forceTransfer denom ..
  | .setMetadata denom _ => denom

/-- What a query is looked up by. -/
def Query.names : Query → List Text
  | .metadata denom | .admin denom => [denom]
  | .denomsByCreator creator => [creator]
  | .fullDenom .. | .params => []

namespace Registry

theorem conveys_authorizeMovement_bind (sender : String) {text : Text} (htext : text.NulFree)
    (amount : Int) {next : Denom → Act α} (h : ∀ d, (next d).Conveys Text.IsPlain) :
    (authorizeMovement sender text amount >>= next).Conveys Text.IsPlain := by
  refine Conveys.bind ((conveys_lift _).bind fun _ => conveys_lift_bind fun d hd => ?_) h
  have hplain := Denom.isPlain_of_parse hd htext
  exact (conveys_fetch (isPlain_adminKey hplain)).bind fun _ => (conveys_lift _).bind fun _ =>
    conveys_lift (.ok d)

theorem conveys_perform {sender : String} (hsender : (Text.ofString sender).IsPlain)
    {command : Command} (hname : command.name.NulFree) :
    (perform sender command).Conveys Text.IsPlain := by
  cases command with
  | createDenom subdenom metadata =>
      refine Conveys.bind (conveys_lift_bind fun d hd => ?_) fun _ => (conveys_lift _).bind fun _ =>
        conveys_lift (.ok _)
      have hplain := Denom.isPlain_of_lookup hd hsender.2 hname
      have hcreator : Text.ofString sender = .ofString d.creator := (Denom.lookup_eq_ok_iff.mp hd).1
      refine (conveys_transaction ?_ (conveys_createScript hplain (hcreator ▸ hsender) metadata)).bind
        fun _ => (conveys_info _).bind fun _ => conveys_lift (.ok d)
      rw [List.forall_mem_cons, List.forall_mem_singleton]
      exact ⟨isPlain_adminKey hplain, isPlain_creatorKey hsender⟩
  | changeAdmin text newAdmin =>
      refine Conveys.bind (conveys_lift_bind fun d hd => ?_) fun _ => conveys_lift (.ok _)
      have hplain := Denom.isPlain_of_parse hd hname
      exact (conveys_transaction (List.forall_mem_singleton.mpr (isPlain_adminKey hplain))
        (conveys_handoverScript hplain sender newAdmin)).bind fun _ => conveys_info _
  | setMetadata text m =>
      refine Conveys.bind (conveys_lift_bind fun d hd => ?_) fun _ => conveys_lift (.ok _)
      have hplain := Denom.isPlain_of_parse hd hname
      refine (conveys_transaction ?_ (conveys_describeScript hplain sender m)).bind
        fun _ => conveys_info _
      rw [List.forall_mem_cons, List.forall_mem_singleton]
      exact ⟨isPlain_adminKey hplain, isPlain_metadataKey hplain⟩
  | mintTokens text amount recipient =>
      refine Conveys.bind ?_ fun _ => conveys_lift (.ok _)
      exact conveys_authorizeMovement_bind sender hname amount fun d => (conveys_lift _).bind fun _ =>
        conveys_move_info _ _
  | burnTokens text amount holder =>
      refine Conveys.bind ?_ fun _ => conveys_lift (.ok _)
      refine conveys_authorizeMovement_bind sender hname amount fun d => ?_
      split
      · exact conveys_move_info _ _
      · exact Conveys.bind (conveys_lift (.error _)) fun _ => conveys_move_info _ _
  | forceTransfer text amount source target =>
      refine Conveys.bind ?_ fun _ => conveys_lift (.ok _)
      exact conveys_authorizeMovement_bind sender hname amount fun d => (conveys_lift _).bind fun _ =>
        (conveys_lift _).bind fun _ => conveys_move_info _ _

/-- **A command hands over plain texts only,** if its sender and what it calls its denom are plain. -/
theorem conveys_execute {sender : String} (hsender : (Text.ofString sender).IsPlain)
    {command : Command} (hname : command.name.NulFree) (r : Registry) :
    Continues (Event.Conveys Text.IsPlain) r.store.journal
      (r.execute sender (.message command)).2.store.journal := by
  have hperform := conveys_perform hsender hname r
  rcases hon : (perform sender command).on r with ⟨fault | receipt, r'⟩ <;> rw [hon] at hperform
  · rw [execute_message_of_error hon]
    unfold warnOfRefusal
    split <;> exact hperform
  · rw [execute_message_of_ok hon]
    exact hperform

/-- **A query hands over plain texts only,** if what it is looked up by is plain. -/
theorem conveys_look {query : Query} (h : ∀ name ∈ query.names, name.IsPlain) :
    (look query).Conveys Text.IsPlain := by
  cases query with
  | fullDenom creator subdenom => exact (conveys_lift _).bind fun _ => conveys_lift (.ok _)
  | metadata text =>
      refine conveys_lift_bind fun d hd => ?_
      have hplain := Denom.isPlain_of_parse hd (h text List.mem_cons_self).2
      exact (conveys_fetch (isPlain_metadataKey hplain)).bind fun _ => (conveys_lift _).bind
        fun _ => conveys_lift (.ok _)
  | admin text =>
      refine conveys_lift_bind fun d hd => ?_
      have hplain := Denom.isPlain_of_parse hd (h text List.mem_cons_self).2
      refine (conveys_fetch (isPlain_adminKey hplain)).bind fun _ => (conveys_lift _).bind fun a => ?_
      cases a with
      | none => exact conveys_lift (.error _)
      | some a => exact conveys_lift (.ok _)
  | denomsByCreator creator =>
      exact (conveys_fetch (isPlain_creatorKey (h creator List.mem_cons_self))).bind fun _ =>
        (conveys_lift _).bind fun _ => conveys_lift (.ok _)
  | params => exact conveys_lift (.error _)

end Registry

end Coinage
