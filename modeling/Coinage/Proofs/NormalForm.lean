import Coinage.Proofs.Form.Message

/-! Records in normal form. The JSON that a record was read from and the JSON that it is written as
differ in form only: every field is there, in the order of the names, what was left out has its
default, and what nobody asked for is gone. So the normal form of a record can be told from the JSON
that was sent, without reading it. -/

namespace Coinage

open Form Reader Object Checked

namespace Json

/-- The value of a member in its normal form, or a default where there is none. -/
def field (members : List (Text × Json)) (key : Text) (default : Json) (normal : Json → Json) : Json :=
  ((get? members key).map normal).getD default

/-- An array with all its items in normal form. -/
def normalItems (normal : Json → Json) : Json → Json
  | .arr items => .arr (items.map normal)
  | v => v

/-- An integer, or what is read as one. -/
def normalInteger (v : Json) : Json :=
  match anyInteger [] v with
  | .accepted n => .num n
  | .refused _ => v

def normalUnit : Json → Json
  | .obj members =>
    .obj [("aliases", field members "aliases" (.arr []) id),
      ("denom", field members "denom" .null id),
      ("exponent", field members "exponent" (.num 0) normalInteger)]
  | v => v

/-- The normal form of the JSON of a record. -/
def normalRecord : Json → Json
  | .obj members =>
    .obj [("base", field members "base" .null id),
      ("denom_units", field members "denom_units" (.arr []) (normalItems normalUnit)),
      ("description", field members "description" .null id),
      ("display", field members "display" .null id),
      ("name", field members "name" .null id),
      ("symbol", field members "symbol" .null id)]
  | v => v

end Json

namespace Form

variable {α : Type}

namespace Reader

/-- What the reader accepts is written as the normal form of what it was read from. -/
def Renders (read : Reader α) (write : α → Json) (normal : Json → Json) : Prop :=
  ∀ path v a, read path v = .accepted a → write a = normal v

variable {read : Reader α} {write : α → Json} {normal : Json → Json}

theorem renders_string : string.Renders .str id := by
  intro path v text h
  cases v with
  | str => exact congrArg Json.str (Checked.accepted.inj h).symm
  | _ => exact absurd h issue_ne_accepted

theorem renders_nullable_string : (nullable string).Renders .ofOption id := by
  intro path v given h
  cases v with
  | null =>
      cases h
      rfl
  | str =>
      cases h
      rfl
  | _ =>
      obtain ⟨a, h, -⟩ := map_eq_accepted_iff.mp h
      exact absurd h issue_ne_accepted

theorem renders_integer (least most : Int) : (integer least most).Renders .num Json.normalInteger := by
  intro path v n h
  obtain ⟨hn, -⟩ := (accepts_integer least most _ _ _).mp h
  rw [Json.normalInteger, (accepts_anyInteger _ _ _).mpr hn]

theorem map_of_all_mapIdx {check : Nat → Json → Checked α}
    (h : ∀ i v a, check i v = .accepted a → write a = normal v) {items : List Json} {as : List α}
    (has : all (items.mapIdx check) = .accepted as) : as.map write = items.map normal := by
  induction items generalizing check as with
  | nil =>
      cases has
      rfl
  | cons v r ih =>
      rw [List.mapIdx_cons] at has
      simp only [all, seq_eq_accepted_iff, map_eq_accepted_iff] at has
      obtain ⟨-, rest, ⟨first, hfirst, rfl⟩, hrest, rfl⟩ := has
      rw [List.map_cons, List.map_cons, h 0 v first hfirst, ih (fun i => h (i + 1)) hrest]

theorem Renders.list (h : read.Renders write normal) :
    (list read).Renders (fun as => .arr (as.map write)) (Json.normalItems normal) := by
  intro path v as has
  cases v with
  | arr items => exact congrArg Json.arr (map_of_all_mapIdx (fun i v a => h _ v a) has)
  | _ => exact absurd has issue_ne_accepted

theorem renders_list_string : (Reader.list string).Renders .ofTexts id := by
  intro path v texts h
  have hitems := renders_string.list path v texts h
  cases v with
  | arr items => rwa [Json.normalItems, List.map_id] at hitems
  | _ => exact absurd h issue_ne_accepted

theorem Renders.required (h : read.Renders write normal) {o : Object} {key : Text} {a : α}
    {default : Json} (ha : o.required key read = .accepted a) :
    write a = Json.field o.members key default normal := by
  obtain ⟨v, hv, hread⟩ := required_eq_accepted_iff.mp ha
  rw [Json.field, hv, h _ v a hread]
  rfl

theorem Renders.optional (h : read.Renders write normal) {o : Object} {key : Text} {default a : α}
    (ha : o.optional key default read = .accepted a) :
    write a = Json.field o.members key (write default) normal := by
  rw [Object.optional] at ha
  rw [Json.field]
  cases hv : Json.get? o.members key with
  | none =>
      rw [hv] at ha
      rw [← Checked.accepted.inj ha]
      rfl
  | some v =>
      rw [hv] at ha
      exact h _ v a ha

end Reader

open Json

theorem renders_unit : unit.Renders DenomUnit.toJson normalUnit := by
  intro path v u h
  cases v with
  | obj members =>
      simp only [unit, object, seq_eq_accepted_iff, map_eq_accepted_iff] at h
      obtain ⟨_, aliases, ⟨_, exponent, ⟨denom, hdenom, rfl⟩, hexponent, rfl⟩, haliases, rfl⟩ := h
      simp only [DenomUnit.toJson, normalUnit]
      have hdenom : Json.str denom = field members "denom" .null id :=
        renders_string.required hdenom
      rw [renders_list_string.optional haliases, hdenom,
        (renders_integer 0 maxExponent).optional hexponent]
      rfl
  | _ => exact absurd h issue_ne_accepted

/-- **A record is written as the normal form of what it was read from.** -/
theorem renders_metadata : metadata.Renders Metadata.toJson normalRecord := by
  intro path v m h
  cases v with
  | obj members =>
      simp only [metadata, object, seq_eq_accepted_iff, map_eq_accepted_iff] at h
      obtain ⟨_, symbol, ⟨_, name, ⟨_, display, ⟨_, base, ⟨_, units, ⟨description, hdescription, rfl⟩,
        hunits, rfl⟩, hbase, rfl⟩, hdisplay, rfl⟩, hname, rfl⟩, hsymbol, rfl⟩ := h
      have hlist := renders_unit.list.optional hunits
      simp only [Metadata.toJson, normalRecord, hlist, renders_nullable_string.optional hbase,
        renders_nullable_string.optional hdescription, renders_nullable_string.optional hdisplay,
        renders_nullable_string.optional hname, renders_nullable_string.optional hsymbol]
      rfl
  | _ => exact absurd h issue_ne_accepted

/-! ### What an order comes with -/

end Form

namespace Json

/-- The value of a key, if there is an object that has it. -/
def member? (key : Text) : Json → Option Json
  | .obj members => get? members key
  | _ => none

/-- What is found by one key after the other. -/
def at? : List Text → Json → Option Json
  | [], v => some v
  | key :: rest, v => (v.member? key).bind (at? rest)

/-- The JSON of an order has the JSON of a record in the place that its operation has for one. -/
def HasRecord (v record : Json) : Prop :=
  v.at? ["msg", "set_metadata", "metadata"] = some record ∨
    v.at? ["msg", "create_denom", "metadata"] = some record ∧ record ≠ .null

end Json

namespace Form

theorem nullable_of_ne {v : Json} (h : v ≠ .null) (read : Reader α) (path : Path) :
    nullable read path v = some <$> read path v := by
  cases v with
  | null => exact absurd rfl h
  | _ => rfl

/-- A tagged value is what stands at the tag. -/
theorem accepted_of_tagged {tags : List (Text × Reader α)} {path : Path} {v : Json} {a : α}
    (h : tagged tags path v = .accepted a) {tag : Text} {read : Reader α}
    (htag : (tag, read) ∈ tags) {w : Json} (hw : v.member? tag = some w) (hnull : w ≠ .null) :
    read (path ++ [.key tag]) w = .accepted a := by
  obtain ⟨members, given, rfl, -, hgiven, hone⟩ := tagged_eq_accepted_iff.mp h
  have hmem := hgiven ▸ List.mem_map_of_mem htag
  obtain ⟨found, hfound, htagged⟩ := List.mem_map.mp hmem
  have hw : Json.get? members tag = some w := hw
  simp only [Object.optional, hw, nullable_of_ne hnull] at htagged
  obtain ⟨a', hread, rfl⟩ := map_eq_accepted_iff.mp htagged.symm
  have hone' : a' ∈ given.filterMap id := List.mem_filterMap.mpr ⟨some a', hfound, rfl⟩
  rw [hone, List.mem_singleton] at hone'
  exact hone' ▸ hread

theorem exists_of_bind_at? {rest : List Text} {key : Text} {v found : Json}
    (h : v.at? (key :: rest) = some found) : ∃ w, v.member? key = some w ∧ w.at? rest = some found :=
  Option.bind_eq_some_iff.mp h

/-- What an object with required members was read from. -/
theorem accepted_of_required {members : List (Text × Json)} {path : Path} {key : Text}
    {read : Reader α} {a : α} (h : (Object.mk path members).required key read = .accepted a)
    {w : Json} (hw : (Json.obj members).member? key = some w) :
    read (path ++ [.key key]) w = .accepted a := by
  obtain ⟨v, hv, hread⟩ := required_eq_accepted_iff.mp h
  cases hv.symm.trans hw
  exact hread

theorem command_of_order {path : Path} {v msg : Json} {o : Order} (h : order path v = .accepted o)
    (hmsg : v.member? "msg" = some msg) : command (path ++ [.key "msg"]) msg = .accepted o.command := by
  cases v with
  | obj members =>
      simp only [order, object, seq_eq_accepted_iff, map_eq_accepted_iff] at h
      obtain ⟨_, command, ⟨sender, -, rfl⟩, hcommand, rfl⟩ := h
      exact accepted_of_required hcommand hmsg
  | _ => cases hmsg

/-- **The metadata of an order are written as the normal form of what it has in their place.** -/
theorem exists_metadata_of_order {path : Path} {v record : Json} {o : Order}
    (h : order path v = .accepted o) (hrecord : v.HasRecord record) :
    ∃ m, o.command.metadata? = some m ∧ m.toJson = record.normalRecord := by
  rcases hrecord with hset | ⟨hcreate, hnull⟩
  · obtain ⟨msg, hmsg, hset⟩ := exists_of_bind_at? hset
    obtain ⟨operation, htag, hset⟩ := exists_of_bind_at? hset
    obtain ⟨found, hfound, hset⟩ := exists_of_bind_at? hset
    cases hset
    cases operation with
    | obj members =>
        have hread := accepted_of_tagged (command_of_order h hmsg)
          (.tail _ (.tail _ (.tail _ (.tail _ (.tail _ (.head _)))))) htag Json.noConfusion
        simp only [object, seq_eq_accepted_iff, map_eq_accepted_iff] at hread
        obtain ⟨_, m, ⟨denom, -, rfl⟩, hm, hcommand⟩ := hread
        rw [← hcommand]
        exact ⟨m, rfl, renders_metadata _ _ m (accepted_of_required hm hfound)⟩
    | _ => cases hfound
  · obtain ⟨msg, hmsg, hcreate⟩ := exists_of_bind_at? hcreate
    obtain ⟨operation, htag, hcreate⟩ := exists_of_bind_at? hcreate
    obtain ⟨found, hfound, hcreate⟩ := exists_of_bind_at? hcreate
    cases hcreate
    cases operation with
    | obj members =>
        have hread := accepted_of_tagged (command_of_order h hmsg) (.head _) htag Json.noConfusion
        simp only [object, seq_eq_accepted_iff, map_eq_accepted_iff] at hread
        obtain ⟨_, given, ⟨subdenom, -, rfl⟩, hgiven, hcommand⟩ := hread
        have hfound : Json.get? members "metadata" = some record := hfound
        simp only [Object.optional, hfound, nullable_of_ne hnull] at hgiven
        obtain ⟨m, hm, rfl⟩ := map_eq_accepted_iff.mp hgiven
        rw [← hcommand]
        exact ⟨m, rfl, renders_metadata _ _ m hm⟩
    | _ => cases hfound

end Form

end Coinage
