import Coinage.Proofs.Server.Response

/-! Orders and queries over HTTP are the messages that they carry. An order changes just what its
command changes, and the answer says what the command comes to; a query changes nothing and is
answered with what it comes to. The one thing that HTTP has no form for is text without an encoding. -/

namespace Coinage.Server

open Registry Response

/-- The answer says what the result of a message says. Of a value or a rejection that cannot be sent,
and of a fault that is no refusal, it says nothing. -/
structure Tells {α : Type} (toJson : α → Json) (result : Except Fault α) (response : Response) :
    Prop where
  value : ∀ a, result = .ok a →
    response = if (toJson a).isWritable then ⟨200, .json (toJson a)⟩
      else ⟨500, .text "Internal Server Error"⟩
  rejected : ∀ rejection, result = .error (.rejected rejection) →
    response = if rejection.message.IsWellFormed then
        ⟨statusOf rejection, .json (.obj [("detail", .str rejection.message)])⟩
      else ⟨500, .text "Internal Server Error"⟩
  insufficientFunds : ∀ holding balance amount,
    result = .error (.ledger (.insufficientFunds holding balance amount)) →
    response = ⟨422, .json (.obj
      [("detail", .str (Ledger.Error.insufficientFunds holding balance amount).message)])⟩
  failed : ∀ fault, result = .error fault → ¬ fault.IsRefusal →
    response = ⟨500, .text "Internal Server Error"⟩

theorem ofRejection_eq (rejection : Rejection) :
    ofRejection rejection = if rejection.message.IsWellFormed then
        ⟨statusOf rejection, .json (.obj [("detail", .str rejection.message)])⟩
      else ⟨500, .text "Internal Server Error"⟩ :=
  if_congr Json.isWritableText_iff rfl rfl

variable {r : Registry} {request : Request}

theorem tells_ofFault {α : Type} {toJson : α → Json} (fault : Fault) :
    Tells toJson (.error fault) (ofFault fault) where
  value a h := by cases h
  rejected rejection h := by
    cases h
    exact ofRejection_eq rejection
  insufficientFunds holding balance amount h := by
    cases h
    rfl
  failed fault' h hfault := by
    cases h
    exact ofFault_of_not_isRefusal hfault

theorem tells_ok {α : Type} {toJson : α → Json} {a : α} {response : Response}
    (h : response = if (toJson a).isWritable then ⟨200, .json (toJson a)⟩ else internalError) :
    Tells toJson (.ok a) response where
  value a' ha := by
    cases ha
    exact h
  rejected _ h := by cases h
  insufficientFunds _ _ _ h := by cases h
  failed _ h := by cases h

/-- An order is answered with the result of its command. -/
theorem tells_of_order {order : Form.Order} (h : request.order? = some order) :
    Tells Receipt.toJson (r.execute order.sender (.message order.command)).1 (handle r request).1 := by
  rw [handle_of_order h]
  rcases r.execute order.sender (.message order.command) with ⟨fault | receipt, r'⟩
  · exact tells_ofFault fault
  · refine tells_ok ?_
    rw [if_pos receipt.isWritable_toJson]
    exact ofReceipt_eq receipt

/-- An order that goes through is answered with status 200. -/
theorem status_of_receipt {order : Form.Order} (h : request.order? = some order) {receipt : Receipt}
    (hresult : (r.execute order.sender (.message order.command)).1 = .ok receipt) :
    (handle r request).1.status = 200 := by
  rw [(tells_of_order h).value receipt hresult, if_pos receipt.isWritable_toJson]

/-- A query is answered with its result, if the records that are stored can be presented. -/
theorem tells_of_query (hkeeps : r.KeepsOnly Metadata.InRange) {query : Query}
    (h : request.query? = some query) :
    Tells Answer.toJson (r.answer (.message query)).1 (handle r request).1 := by
  obtain ⟨b, hkept, hrange⟩ := hkeeps
  have hreply := answer_of_kept hkept query
  rw [handle_of_query h]
  rcases hanswer : r.answer (.message query) with ⟨fault | answer, r'⟩
  · exact tells_ofFault fault
  · rw [hanswer] at hreply
    refine tells_ok (ofAnswer_eq fun m hm => ?_)
    subst hm
    obtain ⟨d, m', hm', rfl⟩ := Book.exists_metadata_of_reply hreply.symm
    exact Metadata.inRange_joined (hrange d m' hm')

theorem statusOf_ne_ok (rejection : Rejection) : statusOf rejection ≠ 200 := by
  cases rejection <;> exact Nat.ne_of_beq_eq_false rfl

/-- No fault is answered with the status of success. -/
theorem Tells.exists_of_status {α : Type} {toJson : α → Json} {result : Except Fault α}
    {response : Response} (h : Tells toJson result response) (hstatus : response.status = 200) :
    ∃ a, result = .ok a := by
  cases result with
  | ok a => exact ⟨a, rfl⟩
  | error fault =>
      exfalso
      by_cases hfault : fault.IsRefusal
      · cases hfault with
        | rejected rejection =>
            rw [h.rejected rejection rfl] at hstatus
            split at hstatus
            · exact statusOf_ne_ok rejection hstatus
            · cases hstatus
        | insufficientFunds holding balance amount =>
            rw [h.insufficientFunds holding balance amount rfl] at hstatus
            cases hstatus
      · rw [h.failed fault rfl hfault] at hstatus
        cases hstatus

/-- A creation that succeeds is answered with its denom twice, in the clear and in the reply. -/
theorem reply_of_creation {order : Form.Order} (h : request.order? = some order) {subdenom : Text}
    {metadata : Option Metadata} (hcommand : order.command = .createDenom subdenom metadata)
    (hstatus : (handle r request).1.status = 200) :
    ∃ (denom data : String) (octets : List UInt8),
      (handle r request).1.content = .json (.obj [("method", .str "create_denom"),
        ("attributes", .obj [("denom", .str denom)]), ("data", .str data)]) ∧
      Base64.decode data = some octets ∧ Wire.Reply.denom octets = .ok denom := by
  have htells : Tells Receipt.toJson _ (handle r request).1 := tells_of_order h
  obtain ⟨receipt, hreceipt⟩ := htells.exists_of_status hstatus
  have hresponse := htells.value receipt hreceipt
  rw [if_pos receipt.isWritable_toJson] at hresponse
  rw [hcommand] at hreceipt
  obtain ⟨d, octets, -, rfl, hreply⟩ := reply_of_createDenom (Prod.ext hreceipt rfl)
  rw [hresponse]
  exact ⟨d.text, Base64.encode octets, octets, rfl, Base64.decode_encode octets, hreply⟩

/-- What can be wrong with an order that was accepted. -/
theorem concerns_of_order (hkeeps : r.KeepsSound) {order : Form.Order}
    (h : request.order? = some order) :
    Except.FailsOnly (Fault.Concerns r.store.commandsFail order.command.allTexts)
      (r.execute order.sender (.message order.command)).1 := by
  obtain ⟨deeds, hkeeps, hholds⟩ := hkeeps
  exact failsOnly_execute hkeeps.kept hholds.balance_nonneg (Request.inRange_of_order? h)

/-- What can be wrong with a query. -/
theorem concerns_of_query (hkeeps : r.KeepsSound) (query : Query) :
    Except.FailsOnly (Fault.Concerns false query.allTexts) (r.answer (.message query)).1 := by
  obtain ⟨deeds, hkeeps, -⟩ := hkeeps
  exact failsOnly_answer hkeeps.kept query

/-- A rejection can be sent if it is about texts that have encodings. -/
theorem Tells.detail {α : Type} {toJson : α → Json} {result : Except Fault α} {response : Response}
    (h : Tells toJson result response) {failing : Bool} {texts : List Text}
    (hconcerns : Except.FailsOnly (Fault.Concerns failing texts) result)
    (htexts : ∀ t ∈ texts, t.IsWellFormed) {rejection : Rejection}
    (hrejected : result = .error (.rejected rejection)) :
    response = ⟨statusOf rejection, .json (.obj [("detail", .str rejection.message)])⟩ := by
  rw [h.rejected rejection hrejected,
    if_pos ((hconcerns _ hrejected).isWellFormed_message htexts)]

/-- **HTTP is faithful to the messages.** Whatever requests came before, and whether the commands of
the database fail or not: an accepted order does what its command does and is answered with the result,
and the reply to a creation leads back to the denom; an accepted query is answered with its result and
does nothing. Only a record that holds a text without an encoding cannot be sent, nor what is said
about such a text of a request. -/
theorem handle_faithful (hr : Reachable r) (request : Request) :
    (∀ order, request.order? = some order →
      (handle r request).2 = (r.execute order.sender (.message order.command)).2 ∧
      Tells Receipt.toJson (r.execute order.sender (.message order.command)).1
        (handle r request).1 ∧
      (∀ receipt, (r.execute order.sender (.message order.command)).1 = .ok receipt →
        (handle r request).1 = ⟨200, .json receipt.toJson⟩) ∧
      (∀ rejection, (r.execute order.sender (.message order.command)).1 = .error (.rejected rejection) →
        (∀ t ∈ order.command.allTexts, t.IsWellFormed) →
        (handle r request).1 =
          ⟨statusOf rejection, .json (.obj [("detail", .str rejection.message)])⟩) ∧
      ∀ subdenom metadata, order.command = .createDenom subdenom metadata →
        (handle r request).1.status = 200 →
        ∃ (denom data : String) (octets : List UInt8),
          (handle r request).1.content = .json (.obj [("method", .str "create_denom"),
            ("attributes", .obj [("denom", .str denom)]), ("data", .str data)]) ∧
          Base64.decode data = some octets ∧ Wire.Reply.denom octets = .ok denom) ∧
    ∀ query, request.query? = some query →
      (handle r request).2.store.contents = r.store.contents ∧
      (handle r request).2.ledger = r.ledger ∧
      Tells Answer.toJson (r.answer (.message query)).1 (handle r request).1 ∧
      (∀ rejection, (r.answer (.message query)).1 = .error (.rejected rejection) →
        (∀ t ∈ query.allTexts, t.IsWellFormed) →
        (handle r request).1 =
          ⟨statusOf rejection, .json (.obj [("detail", .str rejection.message)])⟩) ∧
      ∀ answer, (r.answer (.message query)).1 = .ok answer →
        (∀ m, answer = .metadata (some m) → ∀ t ∈ m.allTexts, t.IsWellFormed) →
        (handle r request).1 = ⟨200, .json answer.toJson⟩ := by
  refine ⟨fun order horder => ⟨handle_snd_of_order horder, tells_of_order horder,
    fun receipt hreceipt => ?_, fun rejection hrejected htexts => ?_,
    fun _ _ => reply_of_creation horder⟩, fun query hquery => ?_⟩
  · rw [(tells_of_order horder).value receipt hreceipt, if_pos receipt.isWritable_toJson]
  · exact (tells_of_order horder).detail (concerns_of_order hr.keepsSound horder) htexts hrejected
  · have htells := tells_of_query hr.keepsOnly hquery
    have halike := handle_alike_of_no_order (r := r) (Request.order?_of_query? hquery)
    refine ⟨halike.contents, halike.ledger, htells, fun rejection hrejected htexts =>
      htells.detail (concerns_of_query hr.keepsSound query) htexts hrejected,
      fun answer hanswer hwell => ?_⟩
    rw [htells.value answer hanswer, if_pos (isWritable_of_answer hr.keepsOnly hanswer hwell)]

/-! ### A record that cannot be sent -/

/-- A request with JSON for a place of the service. -/
def post (place : String) (body : Json) : Request :=
  ⟨"POST", place, some "application/json", Text.Utf8.encode body.compact⟩

/-- A record with nothing but a name. -/
def nameOnly (name : Text) : Metadata := ⟨none, [], none, none, some name, none⟩

/-- Alice creates a denom with a name. -/
def creation (name : Text) : Request :=
  post "/v1/execute" (.obj [("sender", .str "alice"), ("msg", .obj [("create_denom", .obj
    [("subdenom", .str "b"), ("metadata", .obj [("name", .str name)])])])])

def metadataQuery : Request :=
  post "/v1/query" (.obj [("metadata", .obj [("denom", .str "factory/alice/b")])])

/-- The first half of a character, which has no encoding. -/
def half : Text := ⟨[.ofCode 0xD83D]⟩

theorem order?_creation_half : (creation half).order? =
    some ⟨"alice", .createDenom "b" (some (nameOnly half))⟩ := by decide +kernel

theorem order?_creation_gold : (creation "gold").order? =
    some ⟨"alice", .createDenom "b" (some (nameOnly "gold"))⟩ := by decide +kernel

theorem query?_metadataQuery : metadataQuery.query? = some (.metadata "factory/alice/b") := by
  decide +kernel

theorem torn_name_not_sent :
    ¬ ∀ (r : Registry) (request : Request) (query : Query) (answer : Answer), Reachable r →
      request.query? = some query → (r.answer (.message query)).1 = .ok answer →
      (handle r request).1.status = 200 := by
  intro hclaim
  have hstart : Reachable (start Settings.defaults) := .start _
  have hstatus := hclaim _ metadataQuery _ (.metadata (some (nameOnly half)))
    (hstart.handle (creation half)) query?_metadataQuery
  rw [handle_snd_of_order order?_creation_half, handle_of_query query?_metadataQuery] at hstatus
  revert hstatus
  decide +kernel

theorem whole_name_sent :
    Reachable (start Settings.defaults) ∧
      (∃ (denom data : String) (octets : List UInt8),
        (handle (start Settings.defaults) (creation "gold")).1.content =
          .json (.obj [("method", .str "create_denom"), ("attributes", .obj [("denom", .str denom)]),
            ("data", .str data)]) ∧
        Base64.decode data = some octets ∧ Wire.Reply.denom octets = .ok denom) ∧
      (handle (handle (start Settings.defaults) (creation "gold")).2 metadataQuery).1 =
        ⟨200, .json (Answer.metadata (some (nameOnly "gold"))).toJson⟩ := by
  have hstart : Reachable (start Settings.defaults) := .start _
  obtain ⟨-, -, -, -, hcreation⟩ :=
    (handle_faithful hstart (creation "gold")).1 _ order?_creation_gold
  obtain ⟨-, -, -, -, hanswer⟩ := (handle_faithful (hstart.handle (creation "gold")) metadataQuery).2 _
    query?_metadataQuery
  refine ⟨hstart, hcreation _ _ rfl ?_, hanswer _ ?_ ?_⟩
  · rw [handle_of_order order?_creation_gold]
    decide +kernel
  · rw [handle_snd_of_order order?_creation_gold]
    decide +kernel
  · rintro m ⟨⟩
    decide

end Coinage.Server
