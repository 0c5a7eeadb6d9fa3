import Coinage.Proofs.Chronicle

/-! What the three kinds of rows have to do with each other. Every row that messages have written can
be read, and it says what rows of its kind say. A denom has an admin if and only if it is listed,
and it is listed once, for its creator and for nobody else; only denoms that are there are described.
An admin is the creator, nobody, or an address. -/

namespace Coinage

open Registry Book Deed Entry

namespace Entry

/-- The texts that are listed for a creator; what is no list at all lists none. -/
def listed (contents : Table Text String) (creator : Text) : List Text :=
  (denoms (contents.get? (creatorKey creator))).toOption.getD []

/-- Texts that say something, each under a key of its kind. -/
inductive IsRow : Text → String → Prop
  | ofAdmin {d : Denom} {text a : String} (hread : admin (some text) = .ok (some (Text.ofString a)))
      (hvalid : a = "" ∨ a = d.creator ∨ Address.isValid a = true) : IsRow (adminKey d) text
  | ofMetadata {d : Denom} {text : String} {m : Metadata}
      (hread : metadata (some text) = .ok (some m)) : IsRow (metadataKey d) text
  | ofDenoms {c text : String} {ds : List Text} (hread : denoms (some text) = .ok ds)
      (hsome : ds ≠ []) : IsRow (creatorKey (Text.ofString c)) text

/-- What the rows of a store say, one by one and together. -/
structure Consistent (contents : Table Text String) : Prop where
  row : ∀ key text, contents.get? key = some text → IsRow key text
  admin_iff_listed : ∀ d : Denom, (contents.get? (adminKey d)).isSome = true ↔
    ∃ creator, Text.ofString d.text ∈ listed contents creator
  /-- Out of all lists a denom stands in the one of its creator, and there once. -/
  once : ∀ d : Denom, (contents.get? (adminKey d)).isSome = true →
    ∃ c s : String, Denom.lookup c s = .ok d ∧ ∀ creator : Text,
      (listed contents creator).count (Text.ofString d.text) = if creator = c then 1 else 0
  /-- Nothing is listed but denoms. -/
  denom : ∀ creator text, text ∈ listed contents creator → ∃ d : Denom, text = d.text
  described : ∀ d : Denom, (contents.get? (metadataKey d)).isSome = true →
    (contents.get? (adminKey d)).isSome = true

end Entry

namespace Deed

/-- Every handover leaves a denom to nobody or to an address. -/
def HandedToAddresses (deeds : List Deed) : Prop :=
  ∀ (d : Denom) (a : String), handedOver d a ∈ deeds → a = "" ∨ Address.isValid a = true

theorem mem_of_lastAdmin {deeds : List Deed} {d : Denom} {a : String}
    (h : lastAdmin deeds d = some a) : handedOver d a ∈ deeds := by
  obtain ⟨deed, hdeed, hadmin⟩ := List.mem_filterMap.mp (List.mem_of_getLast? h)
  cases deed with
  | handedOver d' a' =>
      by_cases heq : d' = d
      · rw [newAdmin?, if_pos heq, Option.some.injEq] at hadmin
        rwa [← heq, ← hadmin]
      · rw [newAdmin?, if_neg heq] at hadmin
        cases hadmin
  | created | described | moved => cases hadmin

theorem HandedToAddresses.concat {deeds : List Deed} (h : HandedToAddresses deeds) {b : Book}
    {failing : Bool} {ledger : Ledger} {sender : String} {command : Command} {deed : Deed}
    (hjudge : b.judge failing ledger sender command = .ok deed) :
    HandedToAddresses (deeds ++ [deed]) := by
  intro d a hmem
  rcases List.mem_append.mp hmem with hold | hnew
  · exact h d a hold
  · obtain rfl := List.mem_singleton.mp hnew
    exact valid_of_judge hjudge

end Deed

namespace Book

variable {deeds : List Deed}

theorem admin_ofDeeds_valid (h : HandedToAddresses deeds) {d : Denom} {a : String}
    (hadmin : (ofDeeds deeds).admin d = some a) :
    a = "" ∨ a = d.creator ∨ Address.isValid a = true := by
  rw [admin_ofDeeds] at hadmin
  split at hadmin
  · obtain rfl := Option.some.inj hadmin
    cases hlast : lastAdmin deeds d with
    | none => exact .inr (.inl rfl)
    | some a => exact (h d a (mem_of_lastAdmin hlast)).imp_right .inr
  · cases hadmin

theorem isSome_admin_ofDeeds {d : Denom} :
    ((ofDeeds deeds).admin d).isSome = true ↔ d ∈ creations deeds := by
  rw [← not_iff_not, Bool.not_eq_true, Option.isSome_eq_false_iff, Option.isNone_iff_eq_none,
    admin_ofDeeds_eq_none]

end Book

theorem Deed.mem_createdBy {deeds : List Deed} {creator : Text} {d : Denom} :
    Text.ofString d.text ∈ createdBy deeds creator ↔
      d ∈ creations deeds ∧ creator = Text.ofString d.creator := by
  simp only [createdBy, List.mem_map, List.mem_filter, decide_eq_true_eq, Text.ofString_inj,
    Denom.text_inj]
  constructor
  · rintro ⟨d', ⟨hmem, hcreator⟩, rfl⟩
    exact ⟨hmem, hcreator.symm⟩
  · rintro ⟨hmem, hcreator⟩
    exact ⟨d, ⟨hmem, hcreator.symm⟩, rfl⟩

namespace Registry

variable {r : Registry} {deeds : List Deed}

theorem Keeps.listed (h : r.Keeps deeds) (creator : Text) :
    listed r.store.contents creator = createdBy deeds creator := by
  rw [Entry.listed, denoms_of_kept h.kept, createdBy_ofDeeds]
  rfl

theorem Keeps.isSome_admin (h : r.Keeps deeds) (d : Denom) :
    (r.store.contents.get? (adminKey d)).isSome = true ↔ d ∈ creations deeds := by
  rw [h.kept.admin, Option.isSome_map, isSome_admin_ofDeeds]

theorem Keeps.isRow (h : r.Keeps deeds) (hvalid : HandedToAddresses deeds) {key : Text}
    {text : String} (hget : r.store.contents.get? key = some text) : IsRow key text := by
  rcases h.kept.key key text hget with ⟨d, rfl⟩ | ⟨d, rfl⟩ | ⟨c, rfl⟩
  · have hread := admin_of_kept h.kept d
    rw [hget] at hread
    rw [h.kept.admin] at hget
    obtain ⟨a, ha, -⟩ := Option.map_eq_some_iff.mp hget
    rw [ha, Option.map_some] at hread
    exact .ofAdmin hread (admin_ofDeeds_valid hvalid ha)
  · have hread := metadata_of_kept h.kept d
    rw [hget] at hread
    rw [h.kept.metadata] at hget
    obtain ⟨m, hm, -⟩ := Option.map_eq_some_iff.mp hget
    rw [hm, Option.map_some] at hread
    exact .ofMetadata hread
  · have hread := denoms_of_kept h.kept (Text.ofString c)
    rw [hget, Book.createdBy, Text.toString?_ofString] at hread
    rw [h.kept.created] at hget
    refine .ofDenoms hread fun hnone => ?_
    rw [List.map_eq_nil_iff.mp hnone] at hget
    cases hget

theorem Keeps.consistent (h : r.Keeps deeds) (hvalid : HandedToAddresses deeds) :
    Consistent r.store.contents where
  row key text hget := h.isRow hvalid hget
  admin_iff_listed d := by
    simp only [h.isSome_admin, h.listed, mem_createdBy]
    exact ⟨fun hmem => ⟨d.creator, hmem, rfl⟩, fun ⟨_, hmem, _⟩ => hmem⟩
  once d hadmin := by
    have hmem := (h.isSome_admin d).mp hadmin
    refine ⟨d.creator, d.subdenom, Denom.lookup_creator_subdenom d, fun creator => ?_⟩
    rw [h.listed]
    split
    · next heq =>
        exact List.count_eq_one_of_mem (nodup_createdBy h.orderly.nodup creator)
          (mem_createdBy.mpr ⟨hmem, heq⟩)
    · next hne => exact List.count_eq_zero.mpr fun hlisted => hne (mem_createdBy.mp hlisted).2
  denom creator text hlisted := by
    rw [h.listed, Deed.createdBy] at hlisted
    obtain ⟨d, -, htext⟩ := List.mem_map.mp hlisted
    exact ⟨d, htext.symm⟩
  described d hdescribed := by
    rw [h.kept.metadata, Option.isSome_map] at hdescribed
    rw [h.isSome_admin]
    by_contra habsent
    rw [h.orderly.metadata d habsent] at hdescribed
    cases hdescribed

/-- **Whatever is sent to a registry that was empty, its store stays consistent.** -/
theorem Reachable.store_consistent (h : r.Reachable) : Consistent r.store.contents := by
  obtain ⟨deeds, hkeeps, hvalid⟩ := h.exists_keeps_of_concat (I := HandedToAddresses)
    (fun _ _ hmem => absurd hmem List.not_mem_nil) fun _ _ _ _ _ _ hvalid hjudge =>
      hvalid.concat hjudge
  exact hkeeps.consistent hvalid

/-- Somebody with an odd name creates two denoms, one of which has odd parts as well and is described;
the other one is left without an admin. -/
def oddities : List Sent :=
  [⟨"a:\"é", .message (.createDenom "x/y" (some ⟨some "odd", [⟨"x", 6, ["y"]⟩], none, none, none, none⟩))⟩,
    ⟨"a:\"é", .message (.createDenom "z" none)⟩,
    ⟨"a:\"é", .message (.changeAdmin "Factory/a:\"é/z" "")⟩]

theorem oddities_consistent :
    ((start ∅).after oddities).Reachable ∧
      Consistent ((start ∅).after oddities).store.contents ∧
      Entry.listed ((start ∅).after oddities).store.contents "a:\"é" =
        ["factory/a:\"é/x/y", "factory/a:\"é/z"] := by
  have hreachable : ((start ∅).after oddities).Reachable := (Reachable.start rfl).after oddities
  exact ⟨hreachable, hreachable.store_consistent, by decide +kernel⟩

end Registry

end Coinage
