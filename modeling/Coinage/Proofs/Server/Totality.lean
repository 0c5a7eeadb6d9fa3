import Coinage.Proofs.Server.Fidelity
import Coinage.Proofs.Traffic

/-! Every request that is accepted gets a proper answer, whatever requests came before it. A fault of
the service itself does not come up: what could cause one is kept out by the bounds of the forms and
by what the store holds in between. There is one exception. A record that was accepted with half a
character in it is stored, and cannot be sent when somebody asks for it. -/

namespace Coinage.Server

open Database Registry Response

/-- A value is answered with success, a refusal with its own status and text; there is nothing else. -/
def Settles {α : Type} (result : Except Fault α) (response : Response) : Prop :=
  (∃ a, result = .ok a ∧ response.status = 200) ∨
  (∃ rejection, result = .error (.rejected rejection) ∧
    response = ⟨statusOf rejection, .json (.obj [("detail", .str rejection.message)])⟩) ∨
  ∃ holding balance amount,
    result = .error (.ledger (.insufficientFunds holding balance amount)) ∧
    response = ⟨422, .json (.obj
      [("detail", .str (Ledger.Error.insufficientFunds holding balance amount).message)])⟩

/-- The result is a record with texts that have no encoding, as an earlier order came with it. -/
def HoldsTorn (requests : List Request) (result : Except Fault Answer) : Prop :=
  ∃ earlier ∈ requests, ∃ m, earlier.Gives m ∧ (∃ t ∈ m.allTexts, ¬ t.IsWellFormed) ∧
    result = .ok (.metadata (some m.joined)) ∧ ∃ t ∈ m.joined.allTexts, ¬ t.IsWellFormed

/-- What is told of a value that can be sent, or of a refusal that is about texts with encodings, settles
the matter. -/
theorem Tells.settles {α : Type} {toJson : α → Json} {result : Except Fault α} {response : Response}
    (h : Tells toJson result response)
    (hvalue : ∀ a, result = .ok a → (toJson a).isWritable = true) {texts : List Text}
    (hconcerns : Except.FailsOnly (Fault.Concerns false texts) result)
    (htexts : ∀ t ∈ texts, t.IsWellFormed) : Settles result response := by
  cases result with
  | ok a =>
      refine .inl ⟨a, rfl, ?_⟩
      rw [h.value a rfl, if_pos (hvalue a rfl)]
  | error fault =>
      cases (hconcerns fault rfl).isRefusal htexts with
      | rejected rejection => exact .inr (.inl ⟨rejection, rfl, h.detail hconcerns htexts rfl⟩)
      | insufficientFunds holding balance amount =>
          exact .inr (.inr ⟨holding, balance, amount, rfl,
            h.insufficientFunds holding balance amount rfl⟩)

variable {P : Metadata → Prop} {r : Registry} {request : Request}

/-- A record that is answered was stored with the property, but for surrogates that are joined. -/
theorem exists_metadata_of_answer (hkeeps : r.KeepsOnly P) {query : Query} {m : Metadata}
    (h : (r.answer (.message query)).1 = .ok (.metadata (some m))) : ∃ m', P m' ∧ m = m'.joined := by
  obtain ⟨b, hkept, hP⟩ := hkeeps
  rw [answer_of_kept hkept] at h
  obtain ⟨d, m', hm', rfl⟩ := Book.exists_metadata_of_reply h
  exact ⟨m', hP d m' hm', rfl⟩

/-! ### What the database is handed -/

/-- The names that an order or a query of a request is about. -/
def Request.names (request : Request) : List Text :=
  (request.order?.toList.flatMap fun order => [.ofString order.sender, order.command.name]) ++
    request.query?.toList.flatMap Query.names

theorem Request.names_of_order? {order : Form.Order} (h : request.order? = some order) :
    .ofString order.sender ∈ request.names ∧ order.command.name ∈ request.names := by
  simp [names, h]

theorem Request.names_of_query? {query : Query} (h : request.query? = some query) {name : Text}
    (hname : name ∈ query.names) : name ∈ request.names := by
  simp [names, h, hname]

/-- **A request hands over plain texts only,** if its names are plain. -/
theorem conveys_handle (h : ∀ name ∈ request.names, name.IsPlain) (r : Registry) :
    Continues (Event.Conveys Text.IsPlain) r.store.journal (handle r request).2.store.journal := by
  cases horder : request.order? with
  | some order =>
      obtain ⟨hsender, hname⟩ := Request.names_of_order? horder
      rw [handle_snd_of_order horder]
      exact conveys_execute (h _ hsender) (h _ hname).2 r
  | none =>
      rcases handle_snd_of_no_order r horder with hsame | ⟨query, hquery, hsame⟩ | hhealth
      · rw [hsame]
        exact .refl _
      · rw [hsame]
        exact conveys_look (fun name hname => h name (Request.names_of_query? hquery hname)) r
      · rw [hhealth]
        exact continues_health r request (List.forall_mem_nil _) (List.forall_mem_nil _)

/-- **Accepted requests are answered.** Whatever requests a service has handled since it was started
with a store whose commands succeed, an order that is accepted can only fail with a refusal, or for a
text of its own that has no encoding, and so can a query; every stored record is one that a client
could have sent. If all its texts have an encoding, the request is answered with success or with the status
of a refusal, except that a query may ask for a record that has half a character in it. A database is
taken to accept all texts that have an encoding and no U+0000 in them, and of a request whose names are
such texts it is handed nothing that it does not accept. (A request with other names, that it may refuse,
then leaves it as it was; the earlier requests are those that it has not refused.) -/
theorem accepted_requests_answered (settings : Settings) (accepts : Text → Prop)
    (haccepts : ∀ text : Text, text.IsWellFormed → text.NulFree → accepts text)
    (requests : List Request) (request : Request)
    (hnames : settings.storageBackend = .database → ∀ name ∈ request.names, name.NulFree) :
    let r := after (start settings) requests
    (∀ order, request.order? = some order →
      (∀ fault, (r.execute order.sender (.message order.command)).1 = .error fault →
        Fault.Concerns false order.command.allTexts fault) ∧
      ((∀ t ∈ order.command.allTexts, t.IsWellFormed) →
        Settles (r.execute order.sender (.message order.command)).1 (handle r request).1)) ∧
    (∀ query, request.query? = some query →
      (∀ fault, (r.answer (.message query)).1 = .error fault →
        Fault.Concerns false query.allTexts fault) ∧
      (∀ m, (r.answer (.message query)).1 = .ok (.metadata (some m)) → isPresentable m = true) ∧
      ((∀ t ∈ query.allTexts, t.IsWellFormed) →
        Settles (r.answer (.message query)).1 (handle r request).1 ∨
        HoldsTorn requests (r.answer (.message query)).1)) ∧
    (settings.storageBackend = .database → (∀ name ∈ request.names, name.IsWellFormed) →
      Continues (Event.Conveys accepts) r.store.journal (handle r request).2.store.journal) := by
  intro r
  have hgiven := keepsOnly_after_start settings requests
  have hreachable := (Reachable.start settings).after requests
  have hworks := commandsFail_after_start settings requests
  change r.KeepsOnly _ at hgiven
  change Reachable r at hreachable
  change r.store.commandsFail = false at hworks
  clear_value r
  have hrange := hreachable.keepsOnly
  have hsound := hreachable.keepsSound
  refine ⟨fun order horder => ?_, fun query hquery => ⟨concerns_of_query hsound query,
    fun m hm => ?_, fun htexts => ?_⟩, fun hdatabase hwell => ?_⟩
  · have hconcerns := concerns_of_order hsound horder
    rw [hworks] at hconcerns
    exact ⟨hconcerns, fun htexts => (tells_of_order horder).settles
      (fun receipt _ => receipt.isWritable_toJson) hconcerns htexts⟩
  · obtain ⟨m', hm', rfl⟩ := exists_metadata_of_answer hrange hm
    exact isPresentable_iff.mpr (Metadata.inRange_joined hm')
  · by_cases htorn : ∃ m, (r.answer (.message query)).1 = .ok (.metadata (some m)) ∧
        ∃ t ∈ m.allTexts, ¬ t.IsWellFormed
    · obtain ⟨m, hm, t, ht, hill⟩ := htorn
      obtain ⟨m', ⟨earlier, hearlier, hgives⟩, rfl⟩ := exists_metadata_of_answer hgiven hm
      refine .inr ⟨earlier, hearlier, m', hgives, ?_, hm, t, ht, hill⟩
      by_contra hnone
      simp only [not_exists, not_and, not_not] at hnone
      rw [Metadata.joined_of_isWritable (Metadata.isWritable_toJson_iff.mpr hnone)] at ht
      exact hill (hnone t ht)
    · simp only [not_exists, not_and, not_not] at htorn
      refine .inl ((tells_of_query hrange hquery).settles (fun answer hanswer => ?_)
        (concerns_of_query hsound query) htexts)
      refine isWritable_of_answer hgiven hanswer fun m hm => ?_
      subst hm
      exact htorn m hanswer
  · exact (conveys_handle (fun name hname => ⟨hwell name hname, hnames hdatabase name hname⟩) r).mono
      fun event hevent text htext => haccepts text (hevent text htext).1 (hevent text htext).2

/-- Settings that keep texts in a database. -/
def databaseSettings : Settings := { Settings.defaults with storageBackend := .database }

theorem whole_name_answered :
    (∀ text : Text, text.IsWellFormed → text.NulFree → text.IsPlain) ∧
      (databaseSettings.storageBackend = .database →
        ∀ name ∈ metadataQuery.names, name.NulFree) ∧
      Settles ((after (start databaseSettings) [creation "gold"]).answer
          (.message (.metadata "factory/alice/b"))).1
        (handle (after (start databaseSettings) [creation "gold"]) metadataQuery).1 ∧
      Continues (Event.Conveys Text.IsPlain)
        (after (start databaseSettings) [creation "gold"]).store.journal
        (handle (after (start databaseSettings) [creation "gold"]) metadataQuery).2.store.journal := by
  have haccepts : ∀ text : Text, text.IsWellFormed → text.NulFree → text.IsPlain :=
    fun _ hwell hnul => ⟨hwell, hnul⟩
  have hplain : ∀ name ∈ metadataQuery.names, name.IsPlain := by
    rw [Request.names, Request.order?_of_query? query?_metadataQuery, query?_metadataQuery]
    decide
  have hnames : databaseSettings.storageBackend = .database →
      ∀ name ∈ metadataQuery.names, name.NulFree := fun _ name hname => (hplain name hname).2
  obtain ⟨-, hqueries, hconveys⟩ := accepted_requests_answered databaseSettings Text.IsPlain haccepts
    [creation "gold"] metadataQuery hnames
  obtain ⟨-, -, hsettles⟩ := hqueries _ query?_metadataQuery
  refine ⟨haccepts, hnames, (hsettles (by decide)).resolve_right ?_,
    hconveys rfl fun name hname => (hplain name hname).1⟩
  rintro ⟨earlier, hearlier, m, ⟨order, horder, hm⟩, ⟨t, ht, hill⟩, -⟩
  -- The one earlier request came with a name that has an encoding.
  obtain rfl := List.mem_singleton.mp hearlier
  obtain rfl := Option.some.inj (order?_creation_gold.symm.trans horder)
  cases hm
  have hwhole : ∀ t ∈ (nameOnly "gold").allTexts, t.IsWellFormed := by decide
  exact hill (hwhole t ht)

/-- A name that is half a character is stored, and then nobody gets to see it. -/
theorem torn_name_unanswered :
    ¬ ∀ (settings : Settings) (requests : List Request) (request : Request) (query : Query),
      request.query? = some query → (∀ t ∈ query.allTexts, t.IsWellFormed) →
      (handle (after (start settings) requests) request).1.status ≠ 500 := by
  intro hclaim
  refine hclaim Settings.defaults [creation half] metadataQuery _ query?_metadataQuery (by decide) ?_
  rw [after_cons, after_nil, handle_snd_of_order order?_creation_half,
    handle_of_query query?_metadataQuery]
  decide +kernel

end Coinage.Server
