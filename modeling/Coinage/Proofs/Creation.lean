import Coinage.Proofs.Answer
import Coinage.Proofs.Authority

/-! What becomes of a denom that was created. Without a separator in its subdenom its creator can do
with it whatever an admin may do. With one it is there, but its own text has too many parts, and no
other text leads to it either: nobody can ask for it or act on it, and nothing about it will ever be
different. -/

namespace Coinage

open Registry Book Deed Entry

namespace Registry

/-- What every mention of the text of a denom is answered with that has separators in its subdenom. -/
def lockedOut (d : Denom) : Fault :=
  .rejected (.invalidDenom d.text (.partCount (d.subdenom.toList.count '/' + 3)))

variable {r : Registry} {deeds : List Deed} {sender : String} {d : Denom}

theorem noSlash_of_denom? {command : Command} (hcommand : command.isCreation = false)
    (hd : command.denom? sender = some d) : '/' ∉ d.subdenom.toList := by
  have hnamed : ∀ text, (Denom.parse text).toOption = some d → '/' ∉ d.subdenom.toList := by
    intro text hsome
    cases htext : Denom.parse text with
    | error fault =>
        rw [htext] at hsome
        cases hsome
    | ok d' =>
        rw [htext] at hsome
        cases hsome
        exact Denom.noSlash_of_parse htext
  cases command with
  | createDenom => cases hcommand
  | changeAdmin text | mintTokens text | burnTokens text | forceTransfer text | setMetadata text =>
      exact hnamed text hd

/-- A denom that exists is touched by no message unless some text leads to it. -/
theorem not_touches_execute (hkeeps : r.Keeps deeds) (hd : d ∈ creations deeds)
    (hslash : '/' ∈ d.subdenom.toList) (m : Sent) :
    ¬ r.Touches (r.execute m.sender m.message).2 d := by
  intro htouches
  obtain ⟨command, deed, -, hwarrant, -⟩ := exists_warrant_of_touches hkeeps htouches
  cases hcreation : command.isCreation with
  | true => exact admin_ofDeeds_eq_none.mp (hwarrant.creation hcreation).1 hd
  | false => exact noSlash_of_denom? hcreation hwarrant.denom hslash

theorem Touches.split {t : Registry} (h : r.Touches t d) (s : Registry) :
    r.Touches s d ∨ s.Touches t d := by
  by_contra hno
  rw [not_or] at hno
  simp only [Touches, not_or, not_exists, ne_eq, not_not] at hno
  obtain ⟨⟨hadmin, hmetadata, hbalance⟩, hadmin', hmetadata', hbalance'⟩ := hno
  rcases h with h | h | ⟨account, h⟩
  · exact h (hadmin'.trans hadmin)
  · exact h (hmetadata'.trans hmetadata)
  · exact h ((hbalance' account).trans (hbalance account))

/-- What no message touches and what keeps it so, no run touches. -/
theorem not_touches_after_of_step {P : Registry → Prop}
    (hstep : ∀ r, P r → ∀ m : Sent,
      ¬ r.Touches (r.execute m.sender m.message).2 d ∧ P (r.execute m.sender m.message).2)
    (h : P r) (ms : List Sent) : ¬ r.Touches (r.after ms) d ∧ P (r.after ms) := by
  induction ms generalizing r with
  | nil =>
      refine ⟨?_, h⟩
      rintro (h | h | ⟨account, h⟩) <;> exact h rfl
  | cons m rest ih =>
      obtain ⟨hfirst, hkept⟩ := hstep r h m
      obtain ⟨hrest, hend⟩ := ih hkept
      exact ⟨fun htouches => (htouches.split _).elim hfirst hrest, hend⟩

/-- **A denom that no text leads to stays as it is.** -/
theorem not_touches_after (hkeeps : r.Keeps deeds) (hd : d ∈ creations deeds)
    (hslash : '/' ∈ d.subdenom.toList) (ms : List Sent) : ¬ r.Touches (r.after ms) d := by
  -- The denom goes on being created, so every message of the run finds it locked again.
  have hstep : ∀ r : Registry, (∃ deeds, r.Keeps deeds ∧ d ∈ creations deeds) → ∀ m : Sent,
      ¬ r.Touches (r.execute m.sender m.message).2 d ∧
        ∃ deeds, (r.execute m.sender m.message).2.Keeps deeds ∧ d ∈ creations deeds := by
    rintro r ⟨deeds, hkeeps, hd⟩ m
    refine ⟨not_touches_execute hkeeps hd hslash m, _, hkeeps.execute m, ?_⟩
    rw [creations, List.filterMap_append]
    exact List.mem_append_left _ hd
  exact (not_touches_after_of_step hstep ⟨deeds, hkeeps, hd⟩ ms).1

/-- What a creation that succeeded has left. -/
theorem exists_of_created (hkeeps : r.Keeps deeds) {subdenom : Text} {metadata : Option Metadata}
    {receipt : Receipt}
    (hcreated : (r.execute sender (.message (.createDenom subdenom metadata))).1 = .ok receipt) :
    ∃ d : Denom, d.creator = sender ∧ subdenom = d.subdenom ∧
      receipt.attributes = [("denom", d.text)] ∧ d ∉ creations deeds ∧
      (r.execute sender (.message (.createDenom subdenom metadata))).2.store.commandsFail = false ∧
      (r.execute sender (.message (.createDenom subdenom metadata))).2.Keeps
        (deeds ++ [.created d metadata]) := by
  rcases execute_cases hkeeps.kept sender (.message (.createDenom subdenom metadata)) with
    ⟨⟨fault, hfault⟩, -⟩ | ⟨command, deed, hcommand, hjudge, hresult, hdone⟩
  · rw [hfault] at hcreated
    cases hcreated
  · cases hcommand
    rw [hresult] at hcreated
    obtain ⟨d, hcreator, hsubdenom, hworks, hnew, hstorable, rfl⟩ := judge_createDenom.mp hjudge
    cases hcreated
    exact ⟨d, hcreator, hsubdenom, rfl, admin_ofDeeds_eq_none.mp hnew,
      hdone.commandsFail.trans hworks, hkeeps.carried hnew hstorable hdone⟩

theorem execute_error_of_judge (hkeeps : r.Keeps deeds) {command : Command} {fault : Fault}
    (hjudge : (ofDeeds deeds).judge r.store.commandsFail r.ledger sender command = .error fault) :
    (r.execute sender (.message command)).1 = .error fault := by
  obtain ⟨hresult, -⟩ := execute_of_kept hkeeps.kept sender command
  rw [hresult, hjudge]
  rfl

theorem newAdminOf_ofString {admin : String} (h : admin = "" ∨ Address.isValid admin = true) :
    newAdminOf admin = .ok admin := by
  rw [newAdminOf]
  split
  · next heq => rw [Text.ofString_inj.mp heq]
  · next hne =>
      have hvalid : Address.isValid admin = true :=
        h.resolve_left fun heq => hne (congrArg Text.ofString heq)
      exact addressOf_ofString hvalid

/-- Everything an admin may do that the text of a denom leads to. -/
structure Usable (r : Registry) (sender : String) (d : Denom) (metadata : Option Metadata) :
    Prop where
  admin : (r.answer (.message (.admin d.text))).1 = .ok (.admin sender)
  metadata : (r.answer (.message (.metadata d.text))).1 =
    .ok (.metadata (metadata.map Metadata.joined))
  changeAdmin : ∀ newAdmin : String, newAdmin = "" ∨ Address.isValid newAdmin = true →
    ∃ receipt, (r.execute sender (.message (.changeAdmin d.text newAdmin))).1 = .ok receipt
  setMetadata : ∀ m : Metadata, isWritable Json.Limits.standard.digits m = true →
    ∃ receipt, (r.execute sender (.message (.setMetadata d.text m))).1 = .ok receipt
  mintTokens : ∀ (amount : Int) (recipient : String), 0 < amount →
    Address.isValid recipient = true →
    ∃ receipt, (r.execute sender (.message (.mintTokens d.text amount recipient))).1 = .ok receipt

theorem usable_of_noSlash (hkeeps : r.Keeps deeds) (hworks : r.store.commandsFail = false)
    (hsender : sender ≠ "")
    (hadmin : (ofDeeds deeds).admin d = some sender) (hslash : '/' ∉ d.subdenom.toList) :
    r.Usable sender d ((ofDeeds deeds).metadata d) where
  admin := by
    rw [answer_admin hkeeps.kept (Denom.parse_text hslash), hadmin]
  metadata := answer_metadata hkeeps.kept (Denom.parse_text hslash)
  changeAdmin newAdmin hnewAdmin :=
    hkeeps.execute_ok_iff.mpr ⟨_, judge_changeAdmin.mpr
      ⟨d, newAdmin, Denom.parse_text hslash, hworks, ⟨hadmin, hsender⟩,
        newAdminOf_ofString hnewAdmin, rfl⟩⟩
  setMetadata m hm :=
    hkeeps.execute_ok_iff.mpr ⟨_, judge_setMetadata.mpr
      ⟨d, Denom.parse_text hslash, hworks, ⟨hadmin, hsender⟩,
        fun _ hmem => Option.some.inj hmem ▸ hm, rfl⟩⟩
  mintTokens amount recipient hamount hrecipient :=
    hkeeps.execute_ok_iff.mpr ⟨_, judge_mintTokens.mpr
      ⟨d, recipient, ⟨hamount, Denom.parse_text hslash, hadmin, hsender⟩,
        addressOf_ofString hrecipient, ⟨_, rfl⟩, rfl⟩⟩

/-- All the good that the text of a denom is, whoever uses it. -/
structure LockedOut (r : Registry) (d : Denom) : Prop where
  admin : (r.answer (.message (.admin d.text))).1 = .error (lockedOut d)
  metadata : (r.answer (.message (.metadata d.text))).1 = .error (lockedOut d)
  changeAdmin : ∀ (sender : String) (newAdmin : Text),
    (r.execute sender (.message (.changeAdmin d.text newAdmin))).1 = .error (lockedOut d)
  setMetadata : ∀ (sender : String) (m : Metadata),
    (r.execute sender (.message (.setMetadata d.text m))).1 = .error (lockedOut d)
  mintTokens : ∀ (sender : String) (amount : Int) (recipient : Text), 0 < amount →
    (r.execute sender (.message (.mintTokens d.text amount recipient))).1 = .error (lockedOut d)

theorem lockedOut_of_slash (hkeeps : r.Keeps deeds) (hslash : '/' ∈ d.subdenom.toList) :
    r.LockedOut d where
  admin := by
    simp only [answer, look, Act.on_bind, Act.on_lift, Denom.parse_text_of_slash hslash, lockedOut]
  metadata := by
    simp only [answer, look, Act.on_bind, Act.on_lift, Denom.parse_text_of_slash hslash, lockedOut]
  changeAdmin sender newAdmin := by
    refine execute_error_of_judge hkeeps ?_
    rw [judge, Denom.parse_text_of_slash hslash]
    rfl
  setMetadata sender m := by
    refine execute_error_of_judge hkeeps ?_
    rw [judge, Denom.parse_text_of_slash hslash]
    rfl
  mintTokens sender amount recipient hamount := by
    have hpositive : checkAmount amount = .ok () := checkAmount_eq_ok_iff.mpr hamount
    refine execute_error_of_judge hkeeps ?_
    rw [judge, Book.authorizeMovement, hpositive, Denom.parse_text_of_slash hslash]
    rfl

/-- **A denom that was created can be administered unless there is a separator in its subdenom.**
Without one its text leads to the denom, its creator is told to be the admin, and may do what an
admin may do. With one its text is refused wherever it is named, no other text leads to the denom,
and no later message by whomever touches it: it is locked for good. -/
theorem createDenom_usable_iff_noSlash {r r' : Registry} (h : r.Reachable) {sender : String}
    (hsender : sender ≠ "") {subdenom : Text} {metadata : Option Metadata} {receipt : Receipt}
    (hcreated : r.execute sender (.message (.createDenom subdenom metadata)) = (.ok receipt, r')) :
    ∃ d : Denom, d.creator = sender ∧ subdenom = d.subdenom ∧
      receipt.attributes = [("denom", d.text)] ∧
      (Denom.parse d.text = .ok d ↔ '/' ∉ d.subdenom.toList) ∧
      ('/' ∉ d.subdenom.toList → r'.Usable sender d metadata) ∧
      ((∀ m ∈ metadata, m.toJson.isWritable = true) → metadata.map Metadata.joined = metadata) ∧
      ('/' ∈ d.subdenom.toList → r'.LockedOut d ∧ (∀ text, Denom.parse text ≠ .ok d) ∧
        ∀ later : List Sent, ¬ r'.Touches (r'.after later) d) := by
  obtain ⟨deeds, hkeeps⟩ := h.exists_keeps
  obtain ⟨d, hcreator, hsubdenom, hattributes, hfresh, hworks, hkeeps'⟩ :=
    exists_of_created hkeeps (congrArg Prod.fst hcreated)
  rw [hcreated] at hworks hkeeps'
  have hthere : d ∈ creations (deeds ++ [.created d metadata]) := by
    rw [creations_concat]
    exact List.mem_append_right _ List.mem_cons_self
  have hpermits : (ofDeeds deeds).Permits (.created d metadata) :=
    admin_ofDeeds_eq_none.mpr hfresh
  have hadmin : (ofDeeds (deeds ++ [.created d metadata])).admin d = some sender := by
    rw [ofDeeds_concat hkeeps.orderly hpermits, admin_enter_created, if_pos rfl, hcreator]
  have hmetadata : (ofDeeds (deeds ++ [.created d metadata])).metadata d = metadata := by
    rw [ofDeeds_concat hkeeps.orderly hpermits, metadata_enter_created, if_pos rfl,
      hkeeps.orderly.metadata d hfresh, Option.or_none]
  refine ⟨d, hcreator, hsubdenom, hattributes, ⟨Denom.noSlash_of_parse, Denom.parse_text⟩,
    fun hslash => ?_, fun hwritable => ?_, fun hslash => ⟨lockedOut_of_slash hkeeps' hslash, ?_, ?_⟩⟩
  · rw [← hmetadata]
    exact usable_of_noSlash hkeeps' hworks hsender hadmin hslash
  · cases metadata with
    | none => rfl
    | some m => rw [Option.map_some, Metadata.joined_of_isWritable (hwritable m rfl)]
  · exact fun text htext => Denom.noSlash_of_parse htext hslash
  · exact not_touches_after hkeeps' hthere hslash

/-- A denom of carol with a separator in its subdenom. -/
def slashed : Denom := ⟨"carol", "a/b", by decide, by decide, by decide⟩

def slashedReceipt : Receipt := (Command.createDenom "a/b" none).receiptOf (.created slashed none)

/-- Just after its creation. -/
def slashedCreated : Registry := ((start ∅).execute "carol" (.message (.createDenom "a/b" none))).2

theorem slashed_created :
    (start ∅).execute "carol" (.message (.createDenom "a/b" none)) =
      (.ok slashedReceipt, slashedCreated) :=
  Prod.ext (by decide +kernel) rfl

theorem slashed_locked :
    slashedCreated.LockedOut slashed ∧
      ∀ later : List Sent, ¬ slashedCreated.Touches (slashedCreated.after later) slashed := by
  have hreachable : (start ∅).Reachable := .start rfl
  obtain ⟨d, hcreator, hsubdenom, -, -, -, -, hlocked⟩ :=
    createDenom_usable_iff_noSlash hreachable (by decide : "carol" ≠ "") slashed_created
  obtain rfl : d = slashed :=
    Denom.ext_parts hcreator (Text.ofString_inj.mp hsubdenom).symm
  obtain ⟨hrefused, -, huntouched⟩ := hlocked (by decide)
  exact ⟨hrefused, huntouched⟩

/-- Not every denom that was created is known by its text, or has an admin to be asked for. -/
theorem slashed_has_no_use :
    ¬ ∀ (r r' : Registry) (sender : String) (subdenom : Text) (metadata : Option Metadata)
        (receipt : Receipt) (denom : String), r.Reachable → sender ≠ "" →
      r.execute sender (.message (.createDenom subdenom metadata)) = (.ok receipt, r') →
      receipt.attributes = [("denom", denom)] →
      (∃ d, Denom.parse denom = .ok d ∧ d.text = denom) ∧
        (r'.answer (.message (.admin denom))).1 = .ok (.admin sender) := by
  intro hclaim
  have hreachable : (start ∅).Reachable := .start rfl
  have hadmin := (hclaim _ _ "carol" "a/b" none _ "factory/carol/a/b" hreachable (by decide)
    slashed_created (by decide +kernel)).2
  have hrefused : (slashedCreated.answer (.message (.admin "factory/carol/a/b"))).1 =
      .error (.rejected (.invalidDenom "factory/carol/a/b" (.partCount 4))) := by decide +kernel
  rw [hrefused] at hadmin
  cases hadmin

end Registry

end Coinage
