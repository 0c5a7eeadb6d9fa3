import Coinage.Proofs.Independence
import Coinage.Proofs.NormalForm
import Coinage.Proofs.Server.Fidelity

/-! Metadata from one request to another. A record that was accepted with an order stays what is said
about its denom until the denom is described again, whatever else is asked for in the meantime. It
comes back in normal form, and so unchanged as far as it could be sent at all. -/

namespace Coinage

open Registry

namespace Book

/-- The denom is there, and the record is what is said about it. -/
def Describes (b : Book) (d : Denom) (m : Metadata) : Prop := b.admin d ≠ none ∧ b.metadata d = some m

variable {b : Book} {d : Denom} {m : Metadata} {deed : Deed}

/-- A deed with a record leaves its denom described by it. -/
theorem describes_enter (hpermits : b.Permits deed) (hdenom : deed.denom = d.text)
    (hm : deed.metadata? = some m) : (b.enter deed).Describes d m := by
  cases deed with
  | created d' metadata =>
      obtain rfl := Denom.text_inj.mp hdenom
      obtain rfl : metadata = some m := hm
      simp [Describes]
  | described d' m' =>
      obtain rfl := Denom.text_inj.mp hdenom
      obtain rfl := Option.some.inj hm
      exact ⟨hpermits, if_pos rfl⟩
  | handedOver | moved => cases hm

/-- What is said about a denom is said until something else is said about it. -/
theorem Describes.enter (h : b.Describes d m) (hpermits : b.Permits deed)
    (hother : ∀ m', deed ≠ .described d m') : (b.enter deed).Describes d m := by
  obtain ⟨hadmin, hm⟩ := h
  cases deed with
  | created d' metadata =>
      have hne : d ≠ d' := by
        rintro rfl
        exact hadmin hpermits
      simp [Describes, hne, hadmin, hm]
  | described d' m' =>
      have hne : d ≠ d' := by
        rintro rfl
        exact hother m' rfl
      exact ⟨hadmin, (if_neg hne).trans hm⟩
  | handedOver d' a =>
      refine ⟨?_, hm⟩
      simp only [Book.enter, setAdmin]
      split
      · exact Option.some_ne_none a
      · exact hadmin
  | moved => exact ⟨hadmin, hm⟩

end Book

namespace Registry

/-- The registry keeps the record for the denom. -/
def Describes (r : Registry) (d : Denom) (m : Metadata) : Prop :=
  ∃ b : Book, b.Kept r.store.contents ∧ b.Describes d m

variable {r t : Registry} {b : Book} {d : Denom} {m : Metadata} {sender : String} {command : Command}

theorem Describes.of_contents (h : r.Describes d m) (hcontents : t.store.contents = r.store.contents) :
    t.Describes d m := by
  rwa [Describes, hcontents]

/-- A command that succeeds leaves its denom described as it says. -/
theorem describes_of_execute (hkept : b.Kept r.store.contents) {receipt : Receipt}
    (hresult : (r.execute sender (.message command)).1 = .ok receipt)
    (hdenom : command.denom? sender = some d) (hm : command.metadata? = some m) :
    (r.execute sender (.message command)).2.Describes d m := by
  rcases execute_cases hkept sender (.message command) with
    ⟨⟨fault, hfault⟩, -⟩ | ⟨command', deed, hsame, hjudge, -, hdone⟩
  · rw [hresult] at hfault
    cases hfault
  · cases hsame
    refine ⟨b.enter deed, ?_, Book.describes_enter (Book.permits_of_judge hjudge)
      (Book.denom_of_judge hjudge hdenom) ((Book.metadata?_of_judge hjudge).trans hm)⟩
    rw [hdone.contents]
    exact hkept.enter (Book.canEnter_of_judge hjudge)

/-- Nothing but another description changes what is said about a denom. -/
theorem Describes.execute (h : r.Describes d m) (sender : String) (command : Command)
    (hother : ∀ text m', command = .setMetadata text m' → Denom.parse text = .ok d →
      ∀ receipt, (r.execute sender (.message command)).1 ≠ .ok receipt) :
    (r.execute sender (.message command)).2.Describes d m := by
  obtain ⟨b, hkept, hdescribes⟩ := h
  rcases execute_cases hkept sender (.message command) with
    ⟨-, halike⟩ | ⟨command', deed, hsame, hjudge, hresult, hdone⟩
  · exact Describes.of_contents ⟨b, hkept, hdescribes⟩ halike.contents
  · cases hsame
    refine ⟨b.enter deed, ?_, hdescribes.enter (Book.permits_of_judge hjudge) fun m' hdeed => ?_⟩
    · rw [hdone.contents]
      exact hkept.enter (Book.canEnter_of_judge hjudge)
    · subst hdeed
      cases Book.grants_of_judge hjudge with
      | description hd => exact hother _ _ rfl hd _ hresult

end Registry

namespace Server

open Response

variable {r t : Registry} {request : Request} {d : Denom} {m : Metadata}

/-- `t` comes after `r` without another description of the denom: requests were handled, and the
commands of the database may have failed meanwhile. -/
inductive Undisturbed (d : Denom) (r : Registry) : Registry → Prop
  | refl : Undisturbed d r r
  | handle {t : Registry} (h : Undisturbed d r t) (request : Request)
      (hother : ∀ order text m, request.order? = some order → order.command = .setMetadata text m →
        Denom.parse text = .ok d → (handle t request).1.status ≠ 200) :
      Undisturbed d r (handle t request).2
  | setCommandsFail {t : Registry} (h : Undisturbed d r t) (failing : Bool) :
      Undisturbed d r { t with store := t.store.setCommandsFail failing }

theorem Undisturbed.reachable (h : Undisturbed d r t) (hr : Reachable r) : Reachable t := by
  induction h with
  | refl => exact hr
  | handle _ request _ ih => exact ih.handle request
  | setCommandsFail _ failing ih => exact ih.setCommandsFail failing

theorem Undisturbed.describes (h : Undisturbed d r t) (hr : r.Describes d m) : t.Describes d m := by
  induction h with
  | refl => exact hr
  | handle _ request hother ih =>
      cases horder : request.order? with
      | none => exact ih.of_contents (handle_alike_of_no_order horder).contents
      | some order =>
          rw [handle_snd_of_order horder]
          refine ih.execute order.sender order.command fun text m' hcommand hd receipt hresult => ?_
          exact hother order text m' horder hcommand hd (status_of_receipt horder hresult)
  | @setCommandsFail t _ failing ih =>
      refine ih.of_contents ?_
      cases t.store <;> rfl

/-- What a query for the metadata of a denom is answered with. -/
theorem handle_of_describes (hr : Reachable r) (h : r.Describes d m) {text : Text}
    (hquery : request.query? = some (.metadata text)) (htext : Denom.parse text = .ok d) :
    (handle r request).1 = if m.joined.toJson.isWritable then
        ⟨200, .json (.obj [("metadata", m.joined.toJson)])⟩
      else ⟨500, .text "Internal Server Error"⟩ := by
  obtain ⟨b, hkept, -, hm⟩ := h
  have hanswer := answer_metadata hkept htext
  rw [hm] at hanswer
  rw [(tells_of_query hr.keepsOnly hquery).value _ hanswer]
  simp [Answer.toJson]

/-- **Metadata survive.** An order came with a record for a denom and was answered with status 200, in
whatever state. Whatever requests are handled from then on, as long as none of them describes the denom
anew: a query for the metadata of the denom, however it spells its name, is answered with the normal
form of the record, if all texts in that have an encoding. Otherwise neighbouring surrogates come back
joined; and if half a character is left then, there is no answer. -/
theorem metadata_survive (hr : Reachable r) {order : Form.Order} (horder : request.order? = some order)
    (hdenom : order.command.denom? order.sender = some d) {body record : Json}
    (hbody : jsonOf? request.body = some body) (hrecord : body.HasRecord record)
    (hstatus : (handle r request).1.status = 200) (hlater : Undisturbed d (handle r request).2 t)
    {query : Request} {text : Text} (hquery : query.query? = some (.metadata text))
    (htext : Denom.parse text = .ok d) :
    (record.normalRecord.isWritable = true →
      (handle t query).1 = ⟨200, .json (.obj [("metadata", record.normalRecord)])⟩) ∧
    ∃ m : Metadata, m.toJson = record.normalRecord ∧
      (handle t query).1 = if m.joined.toJson.isWritable then
          ⟨200, .json (.obj [("metadata", m.joined.toJson)])⟩
        else ⟨500, .text "Internal Server Error"⟩ := by
  have hworks : Reachable t := hlater.reachable (hr.handle request)
  obtain ⟨v, hv, hread⟩ := exists_accepted_of_readBody (Request.order?_eq_some_iff.mp horder).2
  cases hbody.symm.trans hv
  obtain ⟨m, hm, hnormal⟩ := Form.exists_metadata_of_order hread hrecord
  have hdescribes : (handle r request).2.Describes d m := by
    obtain ⟨b, hkept, -⟩ := hr.keepsOnly
    obtain ⟨receipt, hresult⟩ := (tells_of_order horder).exists_of_status hstatus
    rw [handle_snd_of_order horder]
    exact describes_of_execute hkept hresult hdenom hm
  have hanswer := handle_of_describes hworks (hlater.describes hdescribes) hquery htext
  refine ⟨fun hwritable => ?_, m, hnormal, hanswer⟩
  rw [← hnormal] at hwritable ⊢
  rw [hanswer, Metadata.joined_of_isWritable hwritable, if_pos hwritable]

/-! ### A record that comes back, and one that does not -/

/-- The body of the request by which Alice creates a denom with a name. -/
def creationBody (name : Text) : Json :=
  .obj [("msg", .obj [("create_denom", .obj
    [("metadata", .obj [("name", .str name)]), ("subdenom", .str "b")])]), ("sender", .str "alice")]

theorem hasRecord_creationBody (name : Text) :
    (creationBody name).HasRecord (.obj [("name", .str name)]) :=
  .inr ⟨rfl, Json.noConfusion⟩

open Json in
theorem parse_creationBody (name : Text) :
    Json.parse (creationBody name).compact = .ok (creationBody name.joined) := by
  have hoperands : (["metadata", "subdenom"].map Text.ofString).Pairwise (compare · · = .lt) := by
    decide
  have hmembers : (["msg", "sender"].map Text.ofString).Pairwise (compare · · = .lt) := by decide
  have hname : Reads 0 (compactChars (.str name)) (.str name.joined) := reads_quoted name
  have hoperation : Reads 2
      (compactChars (.obj [("metadata", .obj [("name", .str name)]), ("subdenom", .str "b")]))
      (.obj [("metadata", .obj [("name", .str name.joined)]), ("subdenom", .str "b")]) :=
    reads_record hoperands <| .cons ⟨"metadata", rfl, rfl, reads_member hname⟩ <|
      .cons ⟨"subdenom", rfl, rfl, (reads_quoted "b").mono (by decide)⟩ .nil
  have hbody : Reads 4 (compactChars (creationBody name)) (creationBody name.joined) :=
    reads_record hmembers <| .cons ⟨"msg", rfl, rfl, reads_member hoperation⟩ <|
      .cons ⟨"sender", rfl, rfl, (reads_quoted "alice").mono (by decide)⟩ .nil
  exact hbody.parse (by decide)

theorem jsonOf?_creation_gold : jsonOf? (creation "gold").body = some (creationBody "gold") := by
  have hdecode : Text.Encoding.decode (creation "gold").body =
      some (creationBody "gold").compact := by decide +kernel
  exact jsonOf?_eq_some hdecode (parse_creationBody "gold")

theorem jsonOf?_creation_half : jsonOf? (creation half).body = some (creationBody half) := by
  have hdecode : Text.Encoding.decode (creation half).body = some (creationBody half).compact := by
    decide +kernel
  exact jsonOf?_eq_some hdecode (parse_creationBody half)

theorem exists_denom_creation : ∃ d : Denom, Denom.parse "factory/alice/b" = .ok d ∧
    ∀ metadata, (Command.createDenom "b" metadata).denom? "alice" = some d := by
  refine ⟨⟨"alice", "b", by decide, by decide, by decide⟩, by decide +kernel, fun metadata => ?_⟩
  rw [Command.denom?]
  decide +kernel

/-- The same creation once more is refused, and the record is still there. -/
theorem whole_record_survives :
    Reachable (start Settings.defaults) ∧
      (handle (start Settings.defaults) (creation "gold")).1.status = 200 ∧
      (handle (after (start Settings.defaults) [creation "gold", creation "gold"]) metadataQuery).1 =
        ⟨200, .json (.obj [("metadata", (Json.obj [("name", .str "gold")]).normalRecord)])⟩ := by
  have hstart : Reachable (start Settings.defaults) := .start _
  have hstatus : (handle (start Settings.defaults) (creation "gold")).1.status = 200 := by
    rw [handle_of_order order?_creation_gold]
    decide +kernel
  obtain ⟨d, hd, hdenom⟩ := exists_denom_creation
  have hlater : Undisturbed d (handle (start Settings.defaults) (creation "gold")).2
      (after (start Settings.defaults) [creation "gold", creation "gold"]) := by
    refine .handle .refl (creation "gold") fun order text m horder hcommand => ?_
    cases Option.some.inj (order?_creation_gold.symm.trans horder)
    cases hcommand
  obtain ⟨hwhole, -⟩ := metadata_survive hstart order?_creation_gold (hdenom _) jsonOf?_creation_gold
    (hasRecord_creationBody "gold") hstatus hlater query?_metadataQuery hd
  exact ⟨hstart, hstatus, hwhole (by decide +kernel)⟩

/-- Half a character is accepted in a record, and then the record is never seen again. -/
theorem torn_record_lost :
    ¬ ∀ (r t : Registry) (request query : Request) (order : Form.Order) (d : Denom)
      (body record : Json) (text : Text), Reachable r → request.order? = some order →
      order.command.denom? order.sender = some d → jsonOf? request.body = some body →
      body.HasRecord record → (handle r request).1.status = 200 →
      Undisturbed d (handle r request).2 t → query.query? = some (.metadata text) →
      Denom.parse text = .ok d →
      (handle t query).1 = ⟨200, .json (.obj [("metadata", record.normalRecord)])⟩ := by
  intro hclaim
  have hstatus : (handle (start Settings.defaults) (creation half)).1.status = 200 := by
    rw [handle_of_order order?_creation_half]
    decide +kernel
  obtain ⟨d, hd, hdenom⟩ := exists_denom_creation
  have hanswer := hclaim _ _ (creation half) metadataQuery _ d _ _ _ (.start Settings.defaults)
    order?_creation_half (hdenom _) jsonOf?_creation_half (hasRecord_creationBody half) hstatus .refl
    query?_metadataQuery hd
  have hfailed := congrArg Response.status hanswer
  rw [handle_snd_of_order order?_creation_half, handle_of_query query?_metadataQuery] at hfailed
  revert hfailed
  decide +kernel

end Server

end Coinage
