import Coinage.Form.Request

/-! What can be said of input that was accepted. A check that is put together from others lets a value
through if all of them do, so the bounds of a single number hold wherever the number ends up in an
order: no amount and no exponent in it is out of range. -/

namespace Coinage.Form

variable {α β : Type}

namespace Checked

theorem map_eq_accepted_iff {f : α → β} {c : Checked α} {b : β} :
    f <$> c = .accepted b ↔ ∃ a, c = .accepted a ∧ f a = b := by
  cases c <;> simp [Functor.map, Checked.map]

theorem seq_eq_accepted_iff {f : Checked (α → β)} {c : Checked α} {b : β} :
    f <*> c = .accepted b ↔ ∃ g a, f = .accepted g ∧ c = .accepted a ∧ g a = b := by
  cases f <;> cases c <;> simp [Seq.seq, Checked.seq]

theorem andThen_eq_accepted_iff {c : Checked α} {f : α → Checked β} {b : β} :
    c.andThen f = .accepted b ↔ ∃ a, c = .accepted a ∧ f a = .accepted b := by
  cases c <;> simp [andThen]

theorem pure_eq_accepted_iff {a b : α} : (pure a : Checked α) = .accepted b ↔ a = b := by
  simp [pure]

theorem issue_ne_accepted {path : Path} {kind : Issue.Kind} {found : Json} {a : α} :
    issue path kind found ≠ .accepted a := by
  simp [issue]

/-- What is accepted side by side has been accepted one by one. -/
theorem all_eq_accepted_iff {cs : List (Checked α)} {as : List α} :
    all cs = .accepted as ↔ cs = as.map .accepted := by
  induction cs generalizing as with
  | nil => cases as <;> simp [all, pure_eq_accepted_iff]
  | cons c r ih =>
      simp only [all, seq_eq_accepted_iff, map_eq_accepted_iff, ih]
      constructor
      · rintro ⟨-, rest, ⟨a, rfl, rfl⟩, rfl, rfl⟩
        rfl
      · intro h
        cases as with
        | nil => cases h
        | cons a rest =>
            obtain ⟨rfl, rfl⟩ := List.cons.inj h
            exact ⟨_, rest, ⟨a, rfl, rfl⟩, rfl, rfl⟩

theorem exists_mem_of_all {cs : List (Checked α)} {as : List α} (h : all cs = .accepted as) {a : α}
    (ha : a ∈ as) : .accepted a ∈ cs :=
  all_eq_accepted_iff.mp h ▸ List.mem_map_of_mem ha

end Checked

open Checked

namespace Reader

variable {read : Reader α} {path : Path} {v : Json}

/-- Whatever the reader accepts, wherever it stands, has the property. -/
def Ensures (read : Reader α) (P : α → Prop) : Prop :=
  ∀ path v a, read path v = .accepted a → P a

theorem ensures_integer (least most : Int) :
    (integer least most).Ensures fun n => least ≤ n ∧ n ≤ most := by
  intro path v n h
  obtain ⟨n', -, h⟩ := andThen_eq_accepted_iff.mp h
  split at h
  · exact absurd h issue_ne_accepted
  · split at h
    · exact absurd h issue_ne_accepted
    · cases h
      omega

theorem Ensures.list {P : α → Prop} (h : read.Ensures P) :
    (list read).Ensures fun as => ∀ a ∈ as, P a := by
  intro path v as has a ha
  cases v with
  | arr items =>
      obtain ⟨i, hi, hread⟩ := List.mem_mapIdx.mp (exists_mem_of_all has ha)
      exact h _ _ a hread
  | _ => exact absurd has issue_ne_accepted

theorem Ensures.nullable {P : α → Prop} (h : read.Ensures P) :
    (nullable read).Ensures fun given => ∀ a ∈ given, P a := by
  intro path v given hgiven a ha
  unfold Reader.nullable at hgiven
  split at hgiven
  · cases hgiven
    cases ha
  · obtain ⟨a', hread, rfl⟩ := map_eq_accepted_iff.mp hgiven
    cases ha
    exact h _ _ a hread

theorem ensures_object {read : Object → Checked α} {P : α → Prop}
    (h : ∀ o a, read o = .accepted a → P a) : (object read).Ensures P := by
  intro path v a ha
  cases v with
  | obj members => exact h _ a ha
  | _ => exact absurd ha issue_ne_accepted

namespace Object

theorem required_eq_accepted_iff {o : Object} {key : Text} {a : α} :
    o.required key read = .accepted a ↔
      ∃ v, Json.get? o.members key = some v ∧ read (o.pathTo key) v = .accepted a := by
  rw [required]
  cases Json.get? o.members key <;> simp [issue, issue_ne_accepted]

theorem of_required {o : Object} {key : Text} {a : α} {P : α → Prop} (h : read.Ensures P)
    (ha : o.required key read = .accepted a) : P a := by
  obtain ⟨v, -, hread⟩ := required_eq_accepted_iff.mp ha
  exact h _ v a hread

theorem of_optional {o : Object} {key : Text} {default a : α} {P : α → Prop} (h : read.Ensures P)
    (hdefault : P default) (ha : o.optional key default read = .accepted a) : P a := by
  rw [optional] at ha
  split at ha
  · exact h _ _ a ha
  · cases ha
    exact hdefault

end Object

/-- A tagged value is the value of one of its tags. -/
theorem ensures_tagged {tags : List (Text × Reader α)} {P : α → Prop}
    (h : ∀ tag ∈ tags, tag.2.Ensures P) : (tagged tags).Ensures P := by
  refine ensures_object fun o a ha => ?_
  obtain ⟨given, hgiven, ha⟩ := andThen_eq_accepted_iff.mp ha
  obtain ⟨_, _, hconst, -, rfl⟩ := seq_eq_accepted_iff.mp hgiven
  obtain ⟨given, hall, rfl⟩ := map_eq_accepted_iff.mp hconst
  simp only [Function.const_apply] at ha
  split at ha
  · next hone =>
      cases ha
      have hmem : some a ∈ given := by
        have hfound : a ∈ given.filterMap id := hone ▸ List.mem_singleton_self a
        obtain ⟨_, hsome, rfl⟩ := List.mem_filterMap.mp hfound
        exact hsome
      obtain ⟨⟨tag, read⟩, htag, hread⟩ := List.mem_map.mp (exists_mem_of_all hall hmem)
      exact Object.of_optional (h _ htag).nullable (fun _ hnone => by cases hnone) hread a rfl
  · exact absurd ha issue_ne_accepted

end Reader

end Form

open Form Reader Object Checked

/-- The exponents of a record that clients may send. -/
def Metadata.InRange (m : Metadata) : Prop :=
  ∀ u ∈ m.units, 0 ≤ u.exponent ∧ u.exponent ≤ maxExponent

namespace Command

/-- The amount that a command moves. -/
def amount? : Command → Option Int
  | .mintTokens _ amount _ | .burnTokens _ amount _ | .forceTransfer _ amount _ _ => some amount
  | _ => none

/-- The metadata that come with a command. -/
def metadata? : Command → Option Metadata
  | .createDenom _ metadata => metadata
  | .setMetadata _ m => some m
  | _ => none

/-- The numbers of a command that clients may send. -/
structure InRange (c : Command) : Prop where
  amount : ∀ n ∈ c.amount?, 0 ≤ n ∧ n ≤ maxAmount
  metadata : ∀ m ∈ c.metadata?, m.InRange

variable {c : Command}

/-- A command that moves nothing has no numbers but those of its metadata. -/
theorem inRange_of_unmoved (hamount : c.amount? = none) (hmetadata : ∀ m ∈ c.metadata?, m.InRange) :
    c.InRange where
  amount n hn := by
    rw [hamount] at hn
    cases hn
  metadata := hmetadata

theorem inRange_of_moved {n : Int} (hamount : c.amount? = some n) (hmetadata : c.metadata? = none)
    (hn : 0 ≤ n ∧ n ≤ maxAmount) : c.InRange where
  amount n' hn' := by
    rw [hamount] at hn'
    cases hn'
    exact hn
  metadata m hm := by
    rw [hmetadata] at hm
    cases hm

end Command

namespace Form

open Command

theorem ensures_unit : unit.Ensures fun u => 0 ≤ u.exponent ∧ u.exponent ≤ maxExponent := by
  refine ensures_object fun o u hu => ?_
  simp only [seq_eq_accepted_iff, map_eq_accepted_iff] at hu
  obtain ⟨_, aliases, ⟨_, exponent, ⟨denom, -, rfl⟩, hexponent, rfl⟩, -, rfl⟩ := hu
  have hrange := of_optional (ensures_integer 0 maxExponent) (by decide) hexponent
  exact hrange

theorem ensures_metadata : metadata.Ensures Metadata.InRange := by
  refine ensures_object fun o m hm => ?_
  simp only [seq_eq_accepted_iff, map_eq_accepted_iff] at hm
  obtain ⟨_, symbol, ⟨_, name, ⟨_, display, ⟨_, base, ⟨_, units, ⟨description, -, rfl⟩, hunits, rfl⟩,
    -, rfl⟩, -, rfl⟩, -, rfl⟩, -, rfl⟩ := hm
  have hrange := of_optional ensures_unit.list (fun _ hnone => by cases hnone) hunits
  exact hrange

theorem of_amount {o : Object} {n : Int} (h : amount o = .accepted n) : 0 ≤ n ∧ n ≤ maxAmount := by
  have hrange := of_required (ensures_integer 0 maxAmount) h
  exact hrange

/-- **The numbers of a command that was accepted are in range.** -/
theorem ensures_command : command.Ensures Command.InRange := by
  refine ensures_tagged ?_
  simp only [List.forall_mem_cons, List.not_mem_nil, false_implies, implies_true, and_true]
  refine ⟨?createDenom, ?changeAdmin, ?mintTokens, ?burnTokens, ?forceTransfer, ?setMetadata⟩ <;>
    refine ensures_object fun o c hc => ?_ <;>
    simp only [seq_eq_accepted_iff, map_eq_accepted_iff] at hc
  case createDenom =>
    obtain ⟨_, metadata, ⟨subdenom, -, rfl⟩, hmetadata, rfl⟩ := hc
    exact inRange_of_unmoved rfl
      (of_optional ensures_metadata.nullable (fun _ hnone => by cases hnone) hmetadata)
  case changeAdmin =>
    obtain ⟨_, newAdmin, ⟨denom, -, rfl⟩, -, rfl⟩ := hc
    exact inRange_of_unmoved rfl fun _ hnone => by cases hnone
  case mintTokens =>
    obtain ⟨_, recipient, ⟨_, n, ⟨denom, -, rfl⟩, hn, rfl⟩, -, rfl⟩ := hc
    exact inRange_of_moved rfl rfl (of_amount hn)
  case burnTokens =>
    obtain ⟨_, holder, ⟨_, n, ⟨denom, -, rfl⟩, hn, rfl⟩, -, rfl⟩ := hc
    exact inRange_of_moved rfl rfl (of_amount hn)
  case forceTransfer =>
    obtain ⟨_, target, ⟨_, source, ⟨_, n, ⟨denom, -, rfl⟩, hn, rfl⟩, -, rfl⟩, -, rfl⟩ := hc
    exact inRange_of_moved rfl rfl (of_amount hn)
  case setMetadata =>
    obtain ⟨_, m, ⟨denom, -, rfl⟩, hm, rfl⟩ := hc
    refine inRange_of_unmoved rfl fun m' hm' => ?_
    cases hm'
    exact of_required ensures_metadata hm

theorem ensures_order : order.Ensures fun o => o.command.InRange := by
  refine ensures_object fun o order horder => ?_
  simp only [seq_eq_accepted_iff, map_eq_accepted_iff] at horder
  obtain ⟨_, command, ⟨sender, -, rfl⟩, hcommand, rfl⟩ := horder
  exact of_required ensures_command hcommand

end Form

end Coinage
