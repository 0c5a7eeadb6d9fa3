import Coinage.Proofs.Journal
import Coinage.Proofs.Refusal
import Coinage.Server.App

/-! What a request comes to. Of all requests only those count that are posted to one of two places
with a body that is accepted: they carry an order or a query. An order is carried out just as it
stands, and no other request changes anything. -/

namespace Coinage

open Registry Act

namespace Registry

/-- Queries change nothing. -/
theorem quiet_look (query : Query) : (look query).Quiet := by
  cases query with
  | fullDenom creator subdenom =>
      exact (quiet_lift _).bind fun _ => quiet_pure _
  | metadata text =>
      exact (quiet_lift _).bind fun _ => (quiet_fetch _).bind fun _ => (quiet_lift _).bind fun _ =>
        quiet_pure _
  | admin text =>
      refine (quiet_lift _).bind fun d => (quiet_fetch _).bind fun _ => (quiet_lift _).bind fun a => ?_
      cases a with
      | none => exact quiet_reject _
      | some a => exact quiet_pure _
  | denomsByCreator creator =>
      exact (quiet_fetch _).bind fun _ => (quiet_lift _).bind fun _ => quiet_pure _
  | params => exact quiet_reject _

theorem answer_alike (r : Registry) (query : Query) : r.Alike (r.answer (.message query)).2 :=
  (quiet_look query).alike r

end Registry

/-- A statement that answers nothing leaves a store alike. -/
theorem Store.send_alike (s : Store) (event : Database.Event) : s.Alike (s.send event).2 := by
  cases s with
  | memory entries => exact .refl _
  | database db =>
      cases hfailing : db.commandsFail with
      | false =>
          simp only [send, Database.send, Database.note, hfailing]
          exact ⟨rfl, hfailing.symm, List.Subset.refl _⟩
      | true =>
          simp only [send, Database.send, Database.note, hfailing]
          exact ⟨rfl, hfailing.symm, List.nil_subset _⟩

namespace Server

/-! ### Orders and queries -/

/-- Whether a request is posted to a place of the service. -/
def Request.isPost (request : Request) (place : String) : Bool :=
  request.verb == "POST" && Target.place (Target.path request.target) == place

/-- The order that a request carries. -/
def Request.order? (request : Request) : Option Form.Order :=
  if request.isPost "/v1/execute" then
    (readBody Form.order request.mediaType request.body).toOption
  else none

/-- The query that a request carries. -/
def Request.query? (request : Request) : Option Query :=
  if request.isPost "/v1/query" then
    (readBody Form.query request.mediaType request.body).toOption
  else none

theorem Request.isPost_iff {request : Request} {place : String} : request.isPost place = true ↔
    request.verb = "POST" ∧ Target.place (Target.path request.target) = place := by
  simp [isPost]

theorem Request.order?_eq_some_iff {request : Request} {order : Form.Order} :
    request.order? = some order ↔ request.isPost "/v1/execute" = true ∧
      readBody Form.order request.mediaType request.body = .ok order := by
  rw [order?]
  cases request.isPost "/v1/execute" <;>
    cases readBody Form.order request.mediaType request.body <;> simp [Except.toOption]

theorem Request.query?_eq_some_iff {request : Request} {query : Query} :
    request.query? = some query ↔ request.isPost "/v1/query" = true ∧
      readBody Form.query request.mediaType request.body = .ok query := by
  rw [query?]
  cases request.isPost "/v1/query" <;>
    cases readBody Form.query request.mediaType request.body <;> simp [Except.toOption]

/-- No request carries both. -/
theorem Request.order?_of_query? {request : Request} {query : Query}
    (h : request.query? = some query) : request.order? = none := by
  obtain ⟨-, hquery⟩ := isPost_iff.mp (query?_eq_some_iff.mp h).1
  have hother : request.isPost "/v1/execute" = false := by
    rw [isPost, hquery, Bool.and_eq_false_iff]
    exact .inr (by decide)
  rw [order?, hother]
  rfl

/-- The JSON value that octets spell. -/
def jsonOf? (octets : List UInt8) : Option Json :=
  (Text.Encoding.decode octets).bind fun text => (Json.parseText .standard text).toOption

theorem jsonOf?_eq_some {octets : List UInt8} {text : Text} {v : Json}
    (hdecode : Text.Encoding.decode octets = some text)
    (hparse : Json.parseText .standard text = .ok v) : jsonOf? octets = some v := by
  rw [jsonOf?, hdecode, Option.bind_some, hparse]
  rfl

/-- A body that is accepted spells a value that its reader accepts. -/
theorem exists_accepted_of_readBody {α : Type} {read : Form.Reader α} {mediaType : Option String}
    {octets : List UInt8} {a : α} (h : readBody read mediaType octets = .ok a) :
    ∃ v, jsonOf? octets = some v ∧ read bodyPath v = .accepted a := by
  -- All but the last of the cases refuse the body.
  simp only [readBody] at h
  split at h
  · cases h
  split at h
  · cases h
  split at h
  · cases h
  next text hdecode =>
  split at h
  · cases h
  · cases h
  · next v hparse =>
      split at h
      · next hread =>
          cases h
          exact ⟨v, jsonOf?_eq_some hdecode hparse, hread⟩
      · cases h

/-- The numbers of an order are in range. -/
theorem Request.inRange_of_order? {request : Request} {order : Form.Order}
    (h : request.order? = some order) : order.command.InRange := by
  obtain ⟨v, -, hread⟩ := exists_accepted_of_readBody (order?_eq_some_iff.mp h).2
  exact Form.ensures_order _ v order hread

/-! ### How requests are handled -/

variable {r : Registry} {request : Request}

theorem handle_snd (r : Registry) (request : Request) :
    (handle r request).2 = (dispatch r request).2 := by
  rw [handle]

theorem handle_of_isPost {place : String} (h : request.isPost place = true) (route : Route)
    (hroute : routes.find? (·.path == place) = some route) (hmethod : route.method = "POST") :
    handle r request = route.handle r request := by
  obtain ⟨hverb, hplace⟩ := Request.isPost_iff.mp h
  simp only [handle, dispatch, hplace, hroute, hverb, hmethod, if_true]
  rw [if_neg (by decide)]

theorem handle_of_order {order : Form.Order} (h : request.order? = some order) :
    handle r request =
      match r.execute order.sender (.message order.command) with
      | (.ok receipt, r) => (.ofReceipt receipt, r)
      | (.error fault, r) => (.ofFault fault, r) := by
  obtain ⟨hpost, hbody⟩ := Request.order?_eq_some_iff.mp h
  rw [handle_of_isPost hpost ⟨"/v1/execute", "POST", execute⟩ rfl rfl]
  rcases hresult : r.execute order.sender (.message order.command) with ⟨fault | receipt, r'⟩ <;>
    simp only [execute, hbody, hresult]

theorem handle_of_query {query : Query} (h : request.query? = some query) :
    handle r request =
      match r.answer (.message query) with
      | (.ok answer, r) => (.ofAnswer answer, r)
      | (.error fault, r) => (.ofFault fault, r) := by
  obtain ⟨hpost, hbody⟩ := Request.query?_eq_some_iff.mp h
  rw [handle_of_isPost hpost ⟨"/v1/query", "POST", Server.query⟩ rfl rfl]
  rcases hresult : r.answer (.message query) with ⟨fault | answer, r'⟩ <;>
    simp only [Server.query, hbody, hresult]

/-- An order is carried out as it stands. -/
theorem handle_snd_of_order {order : Form.Order} (h : request.order? = some order) :
    (handle r request).2 = (r.execute order.sender (.message order.command)).2 := by
  rw [handle_of_order h]
  rcases r.execute order.sender (.message order.command) with ⟨_ | _, r'⟩ <;> rfl

/-- A query is answered as it stands. -/
theorem handle_snd_of_query {query : Query} (h : request.query? = some query) :
    (handle r request).2 = (r.answer (.message query)).2 := by
  rw [handle_of_query h]
  rcases r.answer (.message query) with ⟨_ | _, r'⟩ <;> rfl

theorem health_alike (r : Registry) (request : Request) : r.Alike (health r request).2 := by
  have halike := Store.send_alike r.store .ping
  simp only [health]
  rcases hsend : r.store.send .ping with ⟨_ | _, store⟩ <;> rw [hsend] at halike <;>
    exact ⟨halike, rfl⟩

theorem continues_health {P : Database.Event → Prop} (r : Registry) (request : Request)
    (hping : P .ping) (hrollback : P .rollback) :
    Database.Continues P r.store.journal (health r request).2.store.journal := by
  have hsent := r.store.continues_send hping hrollback
  simp only [health]
  rcases hsend : r.store.send .ping with ⟨_ | _, store⟩ <;> rw [hsend] at hsent <;> exact hsent

theorem execute_of_no_order (r : Registry) (hpost : request.isPost "/v1/execute" = true)
    (h : request.order? = none) : (execute r request).2 = r := by
  rw [execute]
  cases hbody : readBody Form.order request.mediaType request.body with
  | error e => rfl
  | ok order =>
      rw [Request.order?_eq_some_iff.mpr ⟨hpost, hbody⟩] at h
      cases h

theorem query_of_no_query (r : Registry) (hpost : request.isPost "/v1/query" = true)
    (h : request.query? = none) : (Server.query r request).2 = r := by
  rw [Server.query]
  cases hbody : readBody Form.query request.mediaType request.body with
  | error e => rfl
  | ok query =>
      rw [Request.query?_eq_some_iff.mpr ⟨hpost, hbody⟩] at h
      cases h

/-- All that is done without an order is to answer a query or to give the sign of health. -/
theorem handle_snd_of_no_order (r : Registry) (h : request.order? = none) :
    (handle r request).2 = r ∨
      (∃ query, request.query? = some query ∧
        (handle r request).2 = (r.answer (.message query)).2) ∨
      (handle r request).2 = (health r request).2 := by
  cases hquery : request.query? with
  | some query => exact .inr (.inl ⟨query, rfl, handle_snd_of_query hquery⟩)
  | none =>
      rw [handle_snd]
      cases hroute : routes.find? (·.path == Target.place (Target.path request.target)) with
      | none =>
          simp only [dispatch, hroute]
          exact .inl trivial
      | some route =>
          simp only [dispatch, hroute]
          split
          · next hmethod =>
              have hplace := List.find?_some hroute
              have hmem := List.mem_of_find?_eq_some hroute
              simp only [routes, List.mem_cons, List.not_mem_nil, or_false] at hmem
              -- The places in the order of the table: orders, queries, the sign of health.
              rcases hmem with rfl | rfl | rfl
              · refine .inl (execute_of_no_order r (Request.isPost_iff.mpr ⟨hmethod, ?_⟩) h)
                exact (beq_iff_eq.mp hplace).symm
              · refine .inl (query_of_no_query r (Request.isPost_iff.mpr ⟨hmethod, ?_⟩) hquery)
                exact (beq_iff_eq.mp hplace).symm
              · exact .inr (.inr rfl)
          · exact .inl rfl

/-- **No request changes anything but for its order.** -/
theorem handle_alike_of_no_order (h : request.order? = none) : r.Alike (handle r request).2 := by
  rcases handle_snd_of_no_order r h with hsame | ⟨query, -, hquery⟩ | hhealth
  · rw [hsame]
    exact .refl r
  · rw [hquery]
    exact answer_alike r query
  · rw [hhealth]
    exact health_alike r request

end Server

end Coinage
