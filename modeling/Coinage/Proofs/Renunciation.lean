import Coinage.Proofs.Consistency
import Coinage.Proofs.Creation

/-! Denoms without an admin. The empty text is who the admin is then, and no sender is equal to it as
far as authority goes, not even one with the empty name. So nobody gets through with a message about
such a denom, and none is left to change that: the denom is frozen for good. -/

namespace Coinage

open Registry Book Deed Entry

namespace Registry

/-- Nobody is the admin of a denom that there is. -/
def Renounced (r : Registry) (d : Denom) : Prop :=
  r.store.contents.get? (adminKey d) = some (adminText "")

/-- What is the same about a denom in `r'` as it was in `r`, and who can do what about it then. -/
structure Frozen (r r' : Registry) (d : Denom) : Prop where
  admin : r'.Renounced d
  metadata : r'.store.contents.get? (metadataKey d) = r.store.contents.get? (metadataKey d)
  balance : ∀ account, r'.ledger.balance ⟨account, d.text⟩ = r.ledger.balance ⟨account, d.text⟩
  listed : Text.ofString d.text ∈ listed r'.store.contents d.creator
  /-- A creation finds that the denom exists, unless it does not get its locks. -/
  creation : ∀ (sender : String) (subdenom : Text) (metadata : Option Metadata),
    (Command.createDenom subdenom metadata).denom? sender = some d →
    (r'.execute sender (.message (.createDenom subdenom metadata))).1 =
      .error (if r'.store.commandsFail then .commandFailed else .rejected (.denomAlreadyExists d.text))
  refused : ∀ (sender : String) (command : Command), command.isCreation = false →
    command.denom? sender = some d →
    ∃ fault, (r'.execute sender (.message command)).1 = .error fault

variable {r : Registry} {deeds : List Deed} {d : Denom} {sender : String} {command : Command}
  {deed : Deed}

theorem Keeps.admin_of_renounced (hkeeps : r.Keeps deeds) (h : r.Renounced d) :
    (ofDeeds deeds).admin d = some "" := by
  rw [Renounced, hkeeps.kept.admin] at h
  obtain ⟨a, ha, htext⟩ := Option.map_eq_some_iff.mp h
  rw [ha, adminText_inj.mp htext]

/-- Nobody has the authority for anything about such a denom. -/
theorem Keeps.not_warrant (hkeeps : r.Keeps deeds) (h : r.Renounced d) :
    ¬ (ofDeeds deeds).Warrant sender command deed d := by
  intro hwarrant
  have hnobody := hkeeps.admin_of_renounced h
  cases hcreation : command.isCreation with
  | true =>
      have hnew := (hwarrant.creation hcreation).1
      rw [hnobody] at hnew
      cases hnew
  | false =>
      obtain ⟨hadmin, hsender⟩ := hwarrant.admin hcreation
      rw [hnobody, Option.some.injEq] at hadmin
      exact hsender hadmin.symm

theorem Renounced.not_touches_execute (h : r.Renounced d) (hkeeps : r.Keeps deeds) (m : Sent) :
    ¬ r.Touches (r.execute m.sender m.message).2 d := by
  intro htouches
  obtain ⟨command, deed, -, hwarrant, -⟩ := exists_warrant_of_touches hkeeps htouches
  exact hkeeps.not_warrant h hwarrant

theorem Renounced.of_not_touches (h : r.Renounced d) {r' : Registry} (hno : ¬ r.Touches r' d) :
    r'.Renounced d := by
  rw [Touches, not_or, ne_eq, not_not] at hno
  exact hno.1.trans h

/-- No run touches a denom without an admin, and it has none afterwards. -/
theorem Renounced.after (h : r.Renounced d) (hreachable : r.Reachable) (ms : List Sent) :
    ¬ r.Touches (r.after ms) d ∧ (r.after ms).Reachable ∧ (r.after ms).Renounced d := by
  have hstep : ∀ r : Registry, r.Reachable ∧ r.Renounced d → ∀ m : Sent,
      ¬ r.Touches (r.execute m.sender m.message).2 d ∧
        (r.execute m.sender m.message).2.Reachable ∧
        (r.execute m.sender m.message).2.Renounced d := by
    rintro r ⟨hreachable, h⟩ m
    obtain ⟨deeds, hkeeps⟩ := hreachable.exists_keeps
    have huntouched := h.not_touches_execute hkeeps m
    exact ⟨huntouched, hreachable.execute m.sender m.message, h.of_not_touches huntouched⟩
  exact not_touches_after_of_step hstep ⟨hreachable, h⟩ ms

theorem Renounced.refused (h : r.Renounced d) (hkeeps : r.Keeps deeds)
    (hd : command.denom? sender = some d) :
    ∃ fault, (r.execute sender (.message command)).1 = .error fault := by
  rcases execute_cases hkeeps.kept sender (.message command) with
    ⟨hfault, -⟩ | ⟨command', deed, hcommand, hjudge, -, -⟩
  · exact hfault
  · cases hcommand
    obtain ⟨d', hwarrant⟩ := exists_warrant hjudge
    obtain rfl : d' = d := Option.some.inj (hwarrant.denom.symm.trans hd)
    exact absurd hwarrant (hkeeps.not_warrant h)

theorem eq_of_denom?_createDenom {subdenom : Text} {metadata : Option Metadata}
    (hd : (Command.createDenom subdenom metadata).denom? sender = some d) :
    sender = d.creator ∧ subdenom = Text.ofString d.subdenom := by
  rw [← Text.ofString_inj]
  exact Denom.lookup_eq_ok_iff.mp (Except.toOption_eq_some_iff.mp hd)

/-- A denom that exists is not created again. -/
theorem Keeps.createDenom_exists (hkeeps : r.Keeps deeds) {a : String}
    (hadmin : (ofDeeds deeds).admin d = some a) {subdenom : Text} {metadata : Option Metadata}
    (hd : (Command.createDenom subdenom metadata).denom? sender = some d) :
    (r.execute sender (.message (.createDenom subdenom metadata))).1 =
      .error (if r.store.commandsFail then .commandFailed
        else .rejected (.denomAlreadyExists d.text)) := by
  obtain ⟨rfl, rfl⟩ := eq_of_denom?_createDenom hd
  have hcheck : (ofDeeds deeds).checkCreation d metadata =
      .error (.rejected (.denomAlreadyExists d.text)) := by
    rw [checkCreation, hadmin]
    rfl
  refine execute_error_of_judge hkeeps ?_
  rw [judge, Denom.lookup_creator_subdenom, Except.ok_bind, hcheck]
  cases r.store.commandsFail <;> rfl

/-- **A denom without an admin is frozen for good.** After any later run, whoever has sent it, nobody
is its admin still, and what is said about it and what everybody has of it is what it was. It stands in
the list of its creator; it cannot be created again, and no message about it succeeds. -/
theorem frozen_after_renunciation (h : r.Reachable) (hrenounced : r.Renounced d)
    (later : List Sent) : r.Frozen (r.after later) d := by
  obtain ⟨huntouched, hreachable, hrenounced'⟩ := hrenounced.after h later
  obtain ⟨deeds, hkeeps⟩ := hreachable.exists_keeps
  have hadmin := hkeeps.admin_of_renounced hrenounced'
  rw [Touches, not_or, not_or, not_exists] at huntouched
  obtain ⟨-, hmetadata, hbalance⟩ := huntouched
  constructor
  case admin => exact hrenounced'
  case metadata => exact not_not.mp hmetadata
  case balance => exact fun account => not_not.mp (hbalance account)
  case listed =>
    have hthere : d ∈ creations deeds := isSome_admin_ofDeeds.mp (by rw [hadmin]; rfl)
    rw [hkeeps.listed]
    exact mem_createdBy.mpr ⟨hthere, rfl⟩
  case creation => exact fun _ _ _ hd => hkeeps.createDenom_exists hadmin hd
  case refused => exact fun _ _ _ hd => hrenounced'.refused hkeeps hd

/-- Alice mints gold for Bob and leaves it without an admin. -/
def renunciation : List Sent :=
  [⟨"alice", .message (.createDenom "gold" none)⟩,
    ⟨"alice", .message (.mintTokens "factory/alice/gold" 10 "bob")⟩,
    ⟨"alice", .message (.changeAdmin "factory/alice/gold" "")⟩]

/-- Attempts to get it back, one of them by a sender without a name. -/
def reclaims : List Sent :=
  [⟨"alice", .message (.createDenom "gold" none)⟩,
    ⟨"", .message (.changeAdmin "factory/alice/gold" "alice")⟩,
    ⟨"", .message (.forceTransfer "FACTORY/alice/gold" 10 "bob" "alice")⟩]

theorem reclaims_find_gold_frozen :
    ((start ∅).after renunciation).Renounced gold ∧
      ((start ∅).after renunciation).Frozen (((start ∅).after renunciation).after reclaims) gold ∧
      (((start ∅).after renunciation).after reclaims).ledger.balance ⟨"bob", gold.text⟩ = 10 := by
  have hreachable : ((start ∅).after renunciation).Reachable := (Reachable.start rfl).after _
  have hrenounced : ((start ∅).after renunciation).Renounced gold := by
    rw [Renounced]
    decide +kernel
  have hfrozen := frozen_after_renunciation hreachable hrenounced reclaims
  refine ⟨hrenounced, hfrozen, ?_⟩
  rw [hfrozen.balance]
  decide +kernel

end Registry

end Coinage
