import Coinage.Proofs.Answer
import Coinage.Proofs.History
import Coinage.Proofs.Numeral

/-! Answers as the history has it. Whatever was sent to a registry that was empty, no creation gets
through twice and none is refused because of what else was sent; and what is asked afterwards is
answered from the history alone: from the last handover of a denom, its last description, and the
creations of a creator in their order. -/

namespace Coinage

open Registry Book Deed

namespace Deed

/-- The denoms that somebody has created, by their texts and in order. -/
def createdBy (deeds : List Deed) (creator : Text) : List Text :=
  ((creations deeds).filter fun d => Text.ofString d.creator = creator).map fun d =>
    Text.ofString d.text

theorem nodup_createdBy {deeds : List Deed} (h : (creations deeds).Nodup) (creator : Text) :
    (createdBy deeds creator).Nodup := by
  refine (h.filter _).map fun d d' heq => ?_
  exact Denom.text_inj.mp (Text.ofString_inj.mp heq)

theorem createdBy_ofDeeds (deeds : List Deed) (creator : Text) :
    (ofDeeds deeds).createdBy creator = createdBy deeds creator := by
  rw [Book.createdBy, createdBy]
  cases hcreator : creator.toString? with
  | some c =>
      rw [Text.toString?_eq_some_iff.mp hcreator]
      simp only [created_ofDeeds, Text.ofString_inj]
  | none =>
      have hnobody : ∀ d : Denom, Text.ofString d.creator ≠ creator := by
        intro d heq
        rw [← heq, Text.toString?_ofString] at hcreator
        cases hcreator
      simp [hnobody]

end Deed

/-- Only a creation is a deed that creates. -/
theorem Command.created?_deed? {sender : String} {command : Command} {d : Denom} :
    (command.deed? sender).bind created? = some d ↔
      sender = d.creator ∧ ∃ metadata, command = .createDenom d.subdenom metadata := by
  cases command with
  | createDenom subdenom metadata =>
      have hlookup : (Denom.lookup sender subdenom).toOption = some d ↔
          sender = d.creator ∧ subdenom = d.subdenom := by
        rw [Except.toOption_eq_some_iff, Denom.lookup_eq_ok_iff, Text.ofString_inj]
      simp [Command.deed?, created?, Option.bind_eq_some_iff, hlookup]
  | changeAdmin | mintTokens | burnTokens | forceTransfer | setMetadata =>
      simp [Command.deed?, created?, Option.bind_assoc]

namespace Outcome

/-- The message was sent by `sender` to create a denom, and did. -/
def Created (o : Outcome) (sender : String) (subdenom : Text) : Prop :=
  o.sender = sender ∧ (∃ metadata, o.message = .message (.createDenom subdenom metadata)) ∧
    ∃ receipt, o.result = .ok receipt

theorem created?_deed? {o : Outcome} {d : Denom} :
    o.deed?.bind created? = some d ↔ o.Created d.creator d.subdenom := by
  obtain ⟨⟨sender, message⟩, result⟩ := o
  cases message with
  | other shown => simp [deed?, Created]
  | message command =>
      cases result with
      | error fault => simp [deed?, Created]
      | ok receipt => simpa [deed?, Created] using Command.created?_deed?

theorem mem_creations_deeds {history : List Outcome} {d : Denom} :
    d ∈ creations (deeds history) ↔ ∃ o ∈ history, o.Created d.creator d.subdenom := by
  rw [creations, deeds, List.filterMap_filterMap, List.mem_filterMap]
  simp only [created?_deed?]

end Outcome

namespace Registry

/-- What is asked of a registry is answered as its history has it. -/
structure Recalls (r : Registry) (history : List Outcome) : Prop where
  /-- Who creates a denom gets through if it is one, nobody has created it before, and the store gives
  its locks and can take what is said about the denom. -/
  creation : ∀ (sender : String) (subdenom : Text) (metadata : Option Metadata),
    (∃ receipt, (r.execute sender (.message (.createDenom subdenom metadata))).1 = .ok receipt) ↔
      r.store.commandsFail = false ∧
        (∃ d, Denom.lookup sender subdenom = .ok d) ∧
        (∀ o ∈ history, ¬ o.Created sender subdenom) ∧ Storable metadata
  denomsByCreator : ∀ creator, (r.answer (.message (.denomsByCreator creator))).1 =
    .ok (.denoms (createdBy (Outcome.deeds history) creator))
  nodup : ∀ creator, (createdBy (Outcome.deeds history) creator).Nodup
  admin : ∀ text d, Denom.parse text = .ok d → (r.answer (.message (.admin text))).1 =
    if d ∈ creations (Outcome.deeds history) then
      .ok (.admin ((lastAdmin (Outcome.deeds history) d).getD d.creator))
    else .error (.rejected (.unknownDenom d.text))
  /-- The last description as it was stored, or else the first one. -/
  metadata : ∀ text d, Denom.parse text = .ok d → (r.answer (.message (.metadata text))).1 =
    .ok (.metadata ((lastMetadata (Outcome.deeds history) d).or
      (firstMetadata (Outcome.deeds history) d) |>.map Metadata.joined))
  /-- Nothing is different about a description whose texts all have an encoding. -/
  intact : ∀ text d m, Denom.parse text = .ok d →
    (lastMetadata (Outcome.deeds history) d).or (firstMetadata (Outcome.deeds history) d) = some m →
    m.toJson.isWritable = true → (r.answer (.message (.metadata text))).1 = .ok (.metadata (some m))

theorem Keeps.creation_iff {r : Registry} {history : List Outcome}
    (h : r.Keeps (Outcome.deeds history)) (sender : String) (subdenom : Text)
    (metadata : Option Metadata) :
    (∃ receipt, (r.execute sender (.message (.createDenom subdenom metadata))).1 = .ok receipt) ↔
      r.store.commandsFail = false ∧
        (∃ d, Denom.lookup sender subdenom = .ok d) ∧
        (∀ o ∈ history, ¬ o.Created sender subdenom) ∧ Storable metadata := by
  have hnew : ∀ d : Denom, (ofDeeds (Outcome.deeds history)).admin d = none ↔
      ∀ o ∈ history, ¬ o.Created d.creator d.subdenom := by
    intro d
    rw [admin_ofDeeds_eq_none, Outcome.mem_creations_deeds]
    simp only [not_exists, not_and]
  simp only [h.execute_ok_iff, judge_createDenom, Denom.lookup_eq_ok_iff, Text.ofString_inj, hnew]
  constructor
  · rintro ⟨deed, d, rfl, rfl, hworks, hfresh, hstorable, -⟩
    exact ⟨hworks, ⟨d, rfl, rfl⟩, hfresh, hstorable⟩
  · rintro ⟨hworks, ⟨d, rfl, rfl⟩, hfresh, hstorable⟩
    exact ⟨_, d, rfl, rfl, hworks, hfresh, hstorable, rfl⟩

/-- **After a run everything is as the history of the run has it.** -/
theorem after_recalls {store : Store} (hempty : store.contents = ∅) (ms : List Sent) :
    ((start store).after ms).Recalls ((start store).history ms) := by
  have hkeeps := keeps_after hempty ms
  constructor
  case creation => exact hkeeps.creation_iff
  case denomsByCreator =>
    intro creator
    rw [answer_denomsByCreator hkeeps.kept, createdBy_ofDeeds]
  case nodup => exact nodup_createdBy hkeeps.orderly.nodup
  case admin =>
    intro text d hd
    rw [answer_admin hkeeps.kept hd, admin_ofDeeds]
    by_cases hmem : d ∈ creations (Outcome.deeds ((start store).history ms))
    · simp only [if_pos hmem]
    · simp only [if_neg hmem]
  case metadata =>
    intro text d hd
    rw [answer_metadata hkeeps.kept hd, metadata_ofDeeds]
  case intact =>
    intro text d m hd hm hwritable
    rw [answer_metadata hkeeps.kept hd, metadata_ofDeeds, hm, Option.map_some,
      Metadata.joined_of_isWritable hwritable]

/-- Alice creates a denom and hands it over, and tries to do so once more. -/
def handovers : List Sent :=
  [⟨"alice", .message (.createDenom "gold" none)⟩,
    ⟨"alice", .message (.changeAdmin "FACTORY/alice/gold" "bob")⟩,
    ⟨"alice", .message (.changeAdmin "factory/alice/gold" "carol")⟩]

theorem handovers_recalled :
    (∅ : Store).contents = ∅ ∧
      ((start ∅).after handovers).Recalls ((start ∅).history handovers) ∧
      (((start ∅).after handovers).answer (.message (.admin "factory/alice/gold"))).1 =
        .ok (.admin "bob") :=
  ⟨rfl, after_recalls rfl handovers, by decide +kernel⟩

/-- A description by two surrogates that are one character when they are joined. -/
def torn : Metadata where
  description := some ⟨[.surrogate ⟨0x3D, by decide⟩, .surrogate ⟨0x600, by decide⟩]⟩
  units := []
  base := none
  display := none
  name := none
  symbol := none

/-- The exponent has one digit too many to be written. -/
def overlong : Metadata :=
  { torn with units := [⟨"gold", 10 ^ Json.Limits.standard.digits, []⟩] }

theorem isWritable_of_long {digits : Nat} {m : Metadata} {u : DenomUnit} (hu : u ∈ m.units)
    (hdigits : 0 < digits) (hlong : u.exponent = 10 ^ digits) : Entry.isWritable digits m = false := by
  rw [Entry.isWritable, List.all_eq_false]
  refine ⟨u, hu, ?_⟩
  rw [hlong, Numeral.isWithin_iff hdigits, Int.natAbs_pow]
  exact lt_irrefl _

/-- Neither is metadata always given back as it was received, nor does every creation get through
that is the first one of its denom. -/
theorem torn_and_overlong_not_recalled :
    (¬ ∀ (ms : List Sent) (text : Text) (d : Denom), Denom.parse text = .ok d →
      (((start ∅).after ms).answer (.message (.metadata text))).1 =
        .ok (.metadata ((lastMetadata (Outcome.deeds ((start ∅).history ms)) d).or
          (firstMetadata (Outcome.deeds ((start ∅).history ms)) d)))) ∧
      ¬ ∀ (sender : String) (subdenom : Text) (metadata : Option Metadata),
        (∃ d, Denom.lookup sender subdenom = .ok d) →
        ∃ receipt, ((start ∅).execute sender (.message (.createDenom subdenom metadata))).1 =
          .ok receipt := by
  constructor
  · intro hexact
    have hgiven := hexact [⟨"alice", .message (.createDenom "gold" (some torn))⟩]
      "factory/alice/gold" ⟨"alice", "gold", by decide, by decide, by decide⟩ (by decide +kernel)
    revert hgiven
    decide +kernel
  · intro hfirst
    have hparts : ∃ d, Denom.lookup "alice" "gold" = .ok d :=
      ⟨⟨"alice", "gold", by decide, by decide, by decide⟩, by decide +kernel⟩
    have hkeeps : (start ∅).Keeps (Outcome.deeds []) := keeps_start rfl
    have hcreated := (hkeeps.creation_iff "alice" "gold" (some overlong)).mp
      (hfirst "alice" "gold" (some overlong) hparts)
    have hwritable := hcreated.2.2.2 overlong rfl
    rw [isWritable_of_long List.mem_cons_self (by decide) rfl] at hwritable
    cases hwritable

end Registry

end Coinage
