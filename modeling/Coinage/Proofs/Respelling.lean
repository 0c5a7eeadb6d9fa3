import Coinage.Proofs.Refusal
import Coinage.Proofs.Run
import Coinage.Proofs.Spelling

/-! Commands and queries about a denom whose prefix is spelled in another way. A text is made into a
denom before anything is looked up, locked, written or moved by it, and two spellings make the same
denom. Only a refusal of the text itself tells them apart, by quoting it. -/

namespace Coinage

open Act Registry Text

variable {α β : Type}

/-! ### Results that differ in a text only -/

/-- The same fault for the second text as the first one is for the first text. -/
inductive Fault.Counterpart (text text' : Text) : Fault → Fault → Prop
  | same (fault : Fault) : Counterpart text text' fault fault
  | invalidDenom (flaw : Denom.Flaw) : Counterpart text text' (.rejected (.invalidDenom text flaw))
        (.rejected (.invalidDenom text' flaw))

/-- The same result, or faults for the same reason. -/
inductive Counterpart (text text' : Text) : Except Fault α → Except Fault α → Prop
  | ok (a : α) : Counterpart text text' (.ok a) (.ok a)
  | error {fault fault' : Fault} (h : fault.Counterpart text text' fault') :
      Counterpart text text' (.error fault) (.error fault')

variable {text text' : Text}

theorem Counterpart.refl (text text' : Text) (result : Except Fault α) :
    Counterpart text text' result result := by
  cases result with
  | ok a => exact .ok a
  | error fault => exact .error (.same fault)

namespace Act

/-- Acts that leave every registry the same, with results that differ in a text only. -/
def Matches (text text' : Text) (act act' : Act α) : Prop :=
  ∀ r : Registry, (act'.on r).2 = (act.on r).2 ∧ Counterpart text text' (act.on r).1 (act'.on r).1

theorem Matches.refl (text text' : Text) (act : Act α) : Matches text text' act act :=
  fun _ => ⟨rfl, .refl _ _ _⟩

theorem Matches.bind {act act' : Act α} {next next' : α → Act β} (h : Matches text text' act act')
    (hnext : ∀ a, Matches text text' (next a) (next' a)) :
    Matches text text' (act >>= next) (act' >>= next') := by
  intro r
  obtain ⟨hafter, hresult⟩ := h r
  rcases hact : act.on r with ⟨result, r₁⟩
  rcases hact' : act'.on r with ⟨result', r₂⟩
  rw [hact, hact'] at hafter hresult
  obtain rfl : r₂ = r₁ := hafter
  cases hresult with
  | ok a =>
      rw [on_bind_ok hact, on_bind_ok hact']
      exact hnext a r₂
  | error hfault =>
      rw [on_bind_error hact, on_bind_error hact']
      exact ⟨rfl, .error hfault⟩

theorem Matches.bind_same {act act' : Act α} (h : Matches text text' act act') (next : α → Act β) :
    Matches text text' (act >>= next) (act' >>= next) :=
  h.bind fun _ => .refl _ _ _

theorem matches_lift {x x' : Except Fault α} (h : Counterpart text text' x x') :
    Matches text text' (liftM x : Act α) (liftM x' : Act α) := by
  intro r
  rw [on_lift, on_lift]
  exact ⟨rfl, h⟩

end Act

/-! ### The denom of a text -/

/-- The texts differ in how the prefix is spelled in small and capital letters, and in nothing else. -/
inductive Denom.Respelled : Text → Text → Prop
  | intro {first first' : String} (hfirst : IsCasing "factory" first)
      (hfirst' : IsCasing "factory" first') (rest : Text) :
      Respelled (ofString (first ++ "/") ++ rest) (ofString (first' ++ "/") ++ rest)

namespace Denom

/-- The spelling of the prefix is not among the parts that are looked up. -/
theorem flawOrParts_respelled (h : Respelled text text') : flawOrParts text = flawOrParts text' := by
  obtain ⟨hfirst, hfirst', rest⟩ := h
  rename_i first first'
  have hprefix : IsPrefix (ofString first) := ⟨first, rfl, hfirst⟩
  have hprefix' : IsPrefix (ofString first') := ⟨first', rfl, hfirst'⟩
  rw [flawOrParts, flawOrParts, ← ofString_append, ← ofString_append, parts_append hprefix.noSlash,
    parts_append hprefix'.noSlash]
  rcases parts rest with _ | ⟨creator, _ | ⟨subdenom, _ | ⟨extra, others⟩⟩⟩
  · rfl
  · rfl
  · simp only [isPrefixSpelling_iff.mpr hprefix, isPrefixSpelling_iff.mpr hprefix', if_true]
  · rfl

/-- What a lookup fails with is about the text if it is a rejection, and about the parts otherwise. -/
theorem counterpart_attributeTo (text text' : Text) (fault : Fault) :
    (attributeTo text fault).Counterpart text text' (attributeTo text' fault) := by
  cases fault with
  | rejected rejection => exact .invalidDenom (.ofRejection rejection)
  | _ => exact .same _

theorem counterpart_parse (h : Respelled text text') :
    Counterpart text text' (parse text) (parse text') := by
  rw [parse, parse, parseWith, parseWith, flawOrParts_respelled h]
  cases flawOrParts text' with
  | error flaw => exact .error (.invalidDenom flaw)
  | ok parts =>
      dsimp only
      cases lookup parts.1 parts.2 with
      | ok d => exact .ok d
      | error fault => exact .error (counterpart_attributeTo text text' fault)

end Denom

/-! ### Commands and queries -/

/-- The same command for the denom of a text, if it is one that names a denom. -/
def Command.withDenom (text : Text) : Command → Command
  | .createDenom subdenom metadata => .createDenom subdenom metadata
  | .changeAdmin _ newAdmin => .changeAdmin text newAdmin
  | .mintTokens _ amount recipient => .mintTokens text amount recipient
  | .burnTokens _ amount holder => .burnTokens text amount holder
  | .forceTransfer _ amount source target => .forceTransfer text amount source target
  | .setMetadata _ metadata => .setMetadata text metadata

/-- The same query for the denom of a text, if it is one that names a denom. -/
def Query.withDenom (text : Text) : Query → Query
  | .fullDenom creator subdenom => .fullDenom creator subdenom
  | .metadata _ => .metadata text
  | .admin _ => .admin text
  | .denomsByCreator creator => .denomsByCreator creator
  | .params => .params

namespace Registry

theorem matches_parse (h : Denom.Respelled text text') :
    Matches text text' (liftM (Denom.parse text) : Act Denom) (liftM (Denom.parse text')) :=
  matches_lift (Denom.counterpart_parse h)

theorem matches_authorizeMovement (h : Denom.Respelled text text') (sender : String) (amount : Int) :
    Matches text text' (authorizeMovement sender text amount)
      (authorizeMovement sender text' amount) :=
  (Matches.refl _ _ _).bind fun _ => (matches_parse h).bind_same _

theorem matches_perform (h : Denom.Respelled text text') (sender : String) (command : Command) :
    Matches text text' (perform sender (command.withDenom text))
      (perform sender (command.withDenom text')) := by
  cases command with
  | createDenom subdenom metadata => exact .refl _ _ _
  | changeAdmin _ newAdmin => exact ((matches_parse h).bind_same _).bind_same _
  | mintTokens _ amount recipient =>
      exact ((matches_authorizeMovement h sender amount).bind_same _).bind_same _
  | burnTokens _ amount holder =>
      exact ((matches_authorizeMovement h sender amount).bind_same _).bind_same _
  | forceTransfer _ amount source target =>
      exact ((matches_authorizeMovement h sender amount).bind_same _).bind_same _
  | setMetadata _ metadata => exact ((matches_parse h).bind_same _).bind_same _

theorem matches_look (h : Denom.Respelled text text') (query : Query) :
    Matches text text' (look (query.withDenom text)) (look (query.withDenom text')) := by
  cases query with
  | metadata _ => exact (matches_parse h).bind_same _
  | admin _ => exact (matches_parse h).bind_same _
  | _ => exact .refl _ _ _

/-- Only a refusal for lack of a right is put on record, and it is one of the faults that stay the
same. -/
theorem warnOfRefusal_counterpart {fault fault' : Fault} (h : fault.Counterpart text text' fault')
    (r : Registry) : warnOfRefusal fault' r = warnOfRefusal fault r := by
  cases h <;> rfl

theorem execute_respelled (h : Denom.Respelled text text') (r : Registry) (sender : String)
    (command : Command) :
    (r.execute sender (.message (command.withDenom text'))).2 =
        (r.execute sender (.message (command.withDenom text))).2 ∧
      Counterpart text text' (r.execute sender (.message (command.withDenom text))).1
        (r.execute sender (.message (command.withDenom text'))).1 := by
  obtain ⟨hafter, hresult⟩ := matches_perform h sender command r
  rcases hon : (perform sender (command.withDenom text)).on r with ⟨result, r₁⟩
  rcases hon' : (perform sender (command.withDenom text')).on r with ⟨result', r₂⟩
  rw [hon, hon'] at hafter hresult
  obtain rfl : r₂ = r₁ := hafter
  cases hresult with
  | ok receipt =>
      rw [execute_message_of_ok hon, execute_message_of_ok hon']
      exact ⟨rfl, .ok receipt⟩
  | error hfault =>
      rw [execute_message_of_error hon, execute_message_of_error hon']
      exact ⟨warnOfRefusal_counterpart hfault r₂, .error hfault⟩

theorem answer_respelled (h : Denom.Respelled text text') (r : Registry) (query : Query) :
    (r.answer (.message (query.withDenom text'))).2 =
        (r.answer (.message (query.withDenom text))).2 ∧
      Counterpart text text' (r.answer (.message (query.withDenom text))).1
        (r.answer (.message (query.withDenom text'))).1 :=
  matches_look h query r

end Registry

/-- The same message, or the same command with another spelling of the prefix. -/
inductive Sent.Respelled : Sent → Sent → Prop
  | same (m : Sent) : Respelled m m
  | command {text text' : Text} (h : Denom.Respelled text text') (sender : String)
      (command : Command) : Respelled ⟨sender, .message (command.withDenom text)⟩
        ⟨sender, .message (command.withDenom text')⟩

namespace Registry

theorem execute_snd_respelled {m m' : Sent} (h : m.Respelled m') (r : Registry) :
    (r.execute m'.sender m'.message).2 = (r.execute m.sender m.message).2 := by
  cases h with
  | same m => rfl
  | command h sender command => exact (execute_respelled h r sender command).1

/-- However the messages of a run spell the prefix, the run ends in the same place. -/
theorem after_respelled {ms ms' : List Sent} (h : List.Forall₂ Sent.Respelled ms ms')
    (r : Registry) : r.after ms' = r.after ms := by
  induction h generalizing r with
  | nil => rfl
  | cons hm _ ih =>
      rw [after, after, execute_snd_respelled hm, ih]

/-- **The spelling of the prefix never matters.** Whatever there is in the registry and whoever asks:
with one text or the other for its denom, a command or a query ends in the very same registry, be it
what is kept, what is held, what has been locked or what is on record. It has the same result, and if
it fails, it fails with the same fault; only a refusal of the text as a denom quotes the text that was
given, with the same words around it. So a whole run may spell the prefix as it likes. -/
theorem respelled_alike {text text' : Text} (h : Denom.Respelled text text') :
    (∀ (r : Registry) (sender : String) (command : Command),
      (r.execute sender (.message (command.withDenom text'))).2 =
          (r.execute sender (.message (command.withDenom text))).2 ∧
        Counterpart text text' (r.execute sender (.message (command.withDenom text))).1
          (r.execute sender (.message (command.withDenom text'))).1) ∧
      (∀ (r : Registry) (query : Query),
        (r.answer (.message (query.withDenom text'))).2 =
            (r.answer (.message (query.withDenom text))).2 ∧
          Counterpart text text' (r.answer (.message (query.withDenom text))).1
            (r.answer (.message (query.withDenom text'))).1) ∧
      (∀ (denom : Text) (flaw : Denom.Flaw), (Fault.rejected (.invalidDenom denom flaw)).message =
        ofString "invalid denom '" ++ denom ++ ofString "': " ++ flaw.message) ∧
      ∀ (r : Registry) (ms ms' : List Sent), List.Forall₂ Sent.Respelled ms ms' →
        r.after ms' = r.after ms :=
  ⟨execute_respelled h, answer_respelled h, fun _ _ => rfl, fun r _ _ hms => after_respelled hms r⟩

/-- A registry with one denom in it. -/
def withGold : Registry := (start (.memory ∅)).after [⟨"alice", .message (.createDenom "gold" none)⟩]

/-- Its tokens are minted by any spelling; and of a text that names nothing, either spelling is
refused in its own name. -/
theorem mint_respelled :
    (withGold.execute "alice" (.message (.mintTokens "FacTory/alice/gold" 5 "bob"))).2 =
        (withGold.execute "alice" (.message (.mintTokens "factory/alice/gold" 5 "bob"))).2 ∧
      (withGold.execute "alice" (.message (.mintTokens "FacTory/alice/gold" 5 "bob"))).1 =
        .ok ⟨"mint_tokens", [], none⟩ ∧
      Counterpart (ofString "factory/gold") (ofString "FACTORY/gold")
        (withGold.answer (.message (.admin "factory/gold"))).1
        (withGold.answer (.message (.admin "FACTORY/gold"))).1 ∧
      (withGold.answer (.message (.admin "FACTORY/gold"))).1 =
        .error (.rejected (.invalidDenom "FACTORY/gold" (.partCount 2))) := by
  have hplain : IsCasing "factory" "factory" := Denom.isCasing_of_isPrefixSpelling (by decide)
  have hmixed : IsCasing "factory" "FacTory" := Denom.isCasing_of_isPrefixSpelling (by decide)
  have hcapital : IsCasing "factory" "FACTORY" := Denom.isCasing_of_isPrefixSpelling (by decide)
  have hnames : Denom.Respelled (ofString "factory/alice/gold") (ofString "FacTory/alice/gold") :=
    .intro hplain hmixed "alice/gold"
  have hnamesNot : Denom.Respelled (ofString "factory/gold") (ofString "FACTORY/gold") :=
    .intro hplain hcapital "gold"
  have hmint := (respelled_alike hnames).1 withGold "alice" (.mintTokens "" 5 "bob")
  have hask := (respelled_alike hnamesNot).2.1 withGold (.admin "")
  exact ⟨hmint.1, by decide +kernel, hask.2, by decide +kernel⟩

end Registry

end Coinage
