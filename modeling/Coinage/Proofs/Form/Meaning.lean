import Mathlib.Data.List.Forall2
import Coinage.Proofs.Entry
import Coinage.Proofs.Form

/-! What messages mean. A JSON value may stand for a value of the domain, and for which one can be said
without reading it: by what its members are, wherever they stand and whatever else there is. The readers
of the forms accept just the JSON values that stand for something, as what they stand for. -/

namespace Coinage.Form

variable {α : Type}

/-- Which values of the domain a JSON value stands for. -/
abbrev Meaning (α : Type) := Json → α → Prop

namespace Meaning

def IsString : Meaning Text := fun v t => v = .str t

/-- An integer is given as it is, as a truth value, as a text that is read as a whole number, or as a
number of 64 bits that is written with a fraction or an exponent and is whole. -/
inductive IsInteger : Meaning Int
  | num (n : Int) : IsInteger (.num n) n
  | bool (b : Bool) : IsInteger (.bool b) b.toInt
  | text {s : String} {n : Int} (h : Text.Whole.parse s = .ok n) : IsInteger (.str s) n
  | real {mantissa exponent n : Int} (h : Binary64.roundDecimal mantissa exponent = .whole n)
      (hshort : Reader.isShort n = true) : IsInteger (.real mantissa exponent) n

def IsIntegerWithin (least most : Int) : Meaning Int := fun v n =>
  IsInteger v n ∧ least ≤ n ∧ n ≤ most

def IsListOf (item : Meaning α) : Meaning (List α) := fun v as =>
  ∃ items, v = .arr items ∧ List.Forall₂ item items as

def IsNullOr (m : Meaning α) : Meaning (Option α)
  | v, none => v = .null
  | v, some a => v ≠ .null ∧ m v a

/-- There is a member with this key, and it stands for the value. -/
def Requires (members : List (Text × Json)) (key : Text) (m : Meaning α) (a : α) : Prop :=
  ∃ v, Json.get? members key = some v ∧ m v a

/-- The member with this key stands for the value, which is the default if there is none. -/
def Allows (members : List (Text × Json)) (key : Text) (default : α) (m : Meaning α) (a : α) : Prop :=
  Json.get? members key = none ∧ a = default ∨ Requires members key m a

def IsDenomUnit : Meaning DenomUnit := fun v u =>
  ∃ members, v = .obj members ∧ Requires members "denom" IsString u.denom ∧
    Allows members "exponent" 0 (IsIntegerWithin 0 maxExponent) u.exponent ∧
    Allows members "aliases" [] (IsListOf IsString) u.aliases

def IsRecord : Meaning Metadata := fun v m =>
  ∃ members, v = .obj members ∧ Allows members "description" none (IsNullOr IsString) m.description ∧
    Allows members "denom_units" [] (IsListOf IsDenomUnit) m.units ∧
    Allows members "base" none (IsNullOr IsString) m.base ∧
    Allows members "display" none (IsNullOr IsString) m.display ∧
    Allows members "name" none (IsNullOr IsString) m.name ∧
    Allows members "symbol" none (IsNullOr IsString) m.symbol

/-! ### What is written stands for itself -/

theorem isIntegerWithin_num {least most n : Int} (h : least ≤ n ∧ n ≤ most) :
    IsIntegerWithin least most (.num n) n :=
  ⟨.num n, h⟩

theorem isListOf_map {item : Meaning α} {write : α → Json} {as : List α}
    (h : ∀ a ∈ as, item (write a) a) : IsListOf item (.arr (as.map write)) as :=
  ⟨_, rfl, List.forall₂_map_left_iff.mpr (List.forall₂_same.mpr h)⟩

theorem isListOf_ofTexts (ts : List Text) : IsListOf IsString (.ofTexts ts) ts :=
  isListOf_map fun _ _ => rfl

theorem isNullOr_ofOption : ∀ t, IsNullOr IsString (.ofOption t) t
  | none => rfl
  | some _ => ⟨Json.noConfusion, rfl⟩

theorem isDenomUnit_toJson {u : DenomUnit} (h : 0 ≤ u.exponent ∧ u.exponent ≤ maxExponent) :
    IsDenomUnit u.toJson u :=
  ⟨_, rfl, ⟨_, rfl, rfl⟩, .inr ⟨_, rfl, isIntegerWithin_num h⟩,
    .inr ⟨_, rfl, isListOf_ofTexts u.aliases⟩⟩

theorem isRecord_toJson {m : Metadata} (h : m.InRange) : IsRecord m.toJson m :=
  ⟨_, rfl, .inr ⟨_, rfl, isNullOr_ofOption m.description⟩,
    .inr ⟨_, rfl, isListOf_map fun u hu => isDenomUnit_toJson (h u hu)⟩,
    .inr ⟨_, rfl, isNullOr_ofOption m.base⟩, .inr ⟨_, rfl, isNullOr_ofOption m.display⟩,
    .inr ⟨_, rfl, isNullOr_ofOption m.name⟩, .inr ⟨_, rfl, isNullOr_ofOption m.symbol⟩⟩

end Meaning

open Meaning

/-! ### Readers and what they accept -/

open Checked

namespace Reader

/-- The reader accepts what has the meaning, as what it means, wherever it stands. -/
def Accepts (read : Reader α) (m : Meaning α) : Prop :=
  ∀ path v a, read path v = .accepted a ↔ m v a

variable {read : Reader α} {m : Meaning α}

theorem accepts_string : string.Accepts IsString := by
  intro path v t
  cases v with
  | str s => simp [string, IsString]
  | _ => simp [string, IsString, issue_ne_accepted]

theorem encodableString_eq_accepted_iff {path : Path} {v : Json} {s : String} :
    encodableString path v = .accepted s ↔ v = .str s := by
  simp only [encodableString, andThen_eq_accepted_iff, accepts_string _ _ _, IsString]
  constructor
  · rintro ⟨t, rfl, h⟩
    cases hs : t.toString? with
    | none =>
        rw [hs] at h
        exact absurd h issue_ne_accepted
    | some s' =>
        rw [hs] at h
        cases h
        rw [Text.toString?_eq_some_iff.mp hs]
  · rintro rfl
    exact ⟨s, rfl, by rw [Text.toString?_ofString]⟩

theorem wholeText_eq_accepted_iff {path : Path} {s : String} {n : Int} :
    wholeText path s = .accepted n ↔ Text.Whole.parse s = .ok n := by
  rw [wholeText]
  rcases Text.Whole.parse s with (_ | _) | n' <;> simp [issue_ne_accepted]

theorem accepts_anyInteger : anyInteger.Accepts IsInteger := by
  intro path v n
  constructor
  · intro h
    cases v with
    | num n' =>
        cases h
        exact .num n
    | bool b =>
        cases h
        exact .bool b
    | real mantissa exponent =>
        simp only [anyInteger] at h
        split at h
        · next n' hround =>
            split at h
            · next hshort =>
                cases h
                exact .real hround hshort
            · exact absurd h issue_ne_accepted
        · exact absurd h issue_ne_accepted
        · exact absurd h issue_ne_accepted
    | str t =>
        simp only [anyInteger, andThen_eq_accepted_iff, encodableString_eq_accepted_iff,
          wholeText_eq_accepted_iff] at h
        obtain ⟨s, hs, hparse⟩ := h
        cases hs
        exact .text hparse
    | null | nonFinite | arr | obj => exact absurd h issue_ne_accepted
  · intro h
    cases h with
    | num | bool => rfl
    | text hparse =>
        simp only [anyInteger, andThen_eq_accepted_iff, encodableString_eq_accepted_iff,
          wholeText_eq_accepted_iff]
        exact ⟨_, rfl, hparse⟩
    | real hround hshort => simp only [anyInteger, hround, hshort, if_true]

theorem accepts_integer (least most : Int) :
    (integer least most).Accepts (IsIntegerWithin least most) := by
  intro path v n
  simp only [integer, andThen_eq_accepted_iff, accepts_anyInteger _ _ _, IsIntegerWithin]
  constructor
  · rintro ⟨n', hn', h⟩
    split at h
    · exact absurd h issue_ne_accepted
    · split at h
      · exact absurd h issue_ne_accepted
      · cases h
        exact ⟨hn', by omega, by omega⟩
  · rintro ⟨hn, hleast, hmost⟩
    exact ⟨n, hn, by rw [if_neg (by omega), if_neg (by omega)]⟩

theorem mapIdx_eq_map_accepted_iff {check : Nat → Json → Checked α}
    (h : ∀ i v a, check i v = .accepted a ↔ m v a) {items : List Json} {as : List α} :
    items.mapIdx check = as.map .accepted ↔ List.Forall₂ m items as := by
  induction items generalizing check as with
  | nil => cases as <;> simp
  | cons v r ih =>
      rw [List.mapIdx_cons]
      cases as with
      | nil => simp
      | cons a rest =>
          rw [List.map_cons, List.cons.injEq, List.forall₂_cons, h, ih fun i => h (i + 1)]

theorem Accepts.list (h : read.Accepts m) : (list read).Accepts (IsListOf m) := by
  intro path v as
  cases v with
  | arr items =>
      simp only [Reader.list, all_eq_accepted_iff, mapIdx_eq_map_accepted_iff fun i => h _,
        IsListOf, Json.arr.injEq, exists_eq_left']
  | _ => simp [Reader.list, IsListOf, issue_ne_accepted]

theorem Accepts.nullable (h : read.Accepts m) : (nullable read).Accepts (IsNullOr m) := by
  intro path v given
  cases v with
  | null => cases given <;> simp [Reader.nullable, IsNullOr]
  | _ =>
      cases given <;>
        simp [Reader.nullable, IsNullOr, map_eq_accepted_iff, h _ _ _]

theorem object_eq_accepted_iff {read : Object → Checked α} {path : Path} {v : Json} {a : α} :
    object read path v = .accepted a ↔
      ∃ members, v = .obj members ∧ read ⟨path, members⟩ = .accepted a := by
  cases v <;> simp [object, issue_ne_accepted]

theorem Accepts.required (h : read.Accepts m) {o : Object} {key : Text} {a : α} :
    o.required key read = .accepted a ↔ Requires o.members key m a := by
  simp only [Object.required_eq_accepted_iff, Requires, h _ _ _]

theorem Accepts.optional (h : read.Accepts m) {o : Object} {key : Text} {default a : α} :
    o.optional key default read = .accepted a ↔ Allows o.members key default m a := by
  rw [Object.optional, Allows, Requires]
  cases Json.get? o.members key with
  | none => simp [eq_comm]
  | some v => simp [h _ _ _]

end Reader

open Reader

theorem accepts_unit : unit.Accepts IsDenomUnit := by
  intro path v u
  simp only [unit, object_eq_accepted_iff, seq_eq_accepted_iff, map_eq_accepted_iff,
    accepts_string.required, (accepts_integer 0 maxExponent).optional, accepts_string.list.optional,
    IsDenomUnit]
  constructor
  · rintro ⟨members, rfl, _, aliases, ⟨_, exponent, ⟨denom, hdenom, rfl⟩, hexponent, rfl⟩, haliases,
      rfl⟩
    exact ⟨members, rfl, hdenom, hexponent, haliases⟩
  · rintro ⟨members, rfl, hdenom, hexponent, haliases⟩
    exact ⟨members, rfl, _, _, ⟨_, _, ⟨_, hdenom, rfl⟩, hexponent, rfl⟩, haliases, rfl⟩

theorem accepts_metadata : metadata.Accepts IsRecord := by
  intro path v m
  simp only [metadata, object_eq_accepted_iff, seq_eq_accepted_iff, map_eq_accepted_iff,
    accepts_string.nullable.optional, accepts_unit.list.optional, IsRecord]
  constructor
  · rintro ⟨members, rfl, _, symbol, ⟨_, name, ⟨_, display, ⟨_, base, ⟨_, units,
      ⟨description, hdescription, rfl⟩, hunits, rfl⟩, hbase, rfl⟩, hdisplay, rfl⟩, hname, rfl⟩,
      hsymbol, rfl⟩
    exact ⟨members, rfl, hdescription, hunits, hbase, hdisplay, hname, hsymbol⟩
  · rintro ⟨members, rfl, hdescription, hunits, hbase, hdisplay, hname, hsymbol⟩
    exact ⟨members, rfl, _, _, ⟨_, _, ⟨_, _, ⟨_, _, ⟨_, _, ⟨_, hdescription, rfl⟩, hunits, rfl⟩,
      hbase, rfl⟩, hdisplay, rfl⟩, hname, rfl⟩, hsymbol, rfl⟩

end Coinage.Form
