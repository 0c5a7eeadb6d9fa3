import Coinage.Json.Basic

/-!
What clients are told about a denom: how it is called, and in which units it is counted. The JSON
form of a record lists every field, in the order of the field names.
-/

namespace Coinage

/-- A unit of `10 ^ exponent` base units. -/
structure DenomUnit where
  denom : Text
  exponent : Int
  aliases : List Text
deriving DecidableEq, Repr

structure Metadata where
  description : Option Text
  units : List DenomUnit
  base : Option Text
  display : Option Text
  name : Option Text
  symbol : Option Text
deriving DecidableEq, Repr

def DenomUnit.toJson (u : DenomUnit) : Json :=
  .obj [("aliases", .ofTexts u.aliases), ("denom", .str u.denom), ("exponent", .num u.exponent)]

namespace Metadata

def toJson (m : Metadata) : Json :=
  .obj [("base", .ofOption m.base), ("denom_units", .arr (m.units.map DenomUnit.toJson)),
    ("description", .ofOption m.description), ("display", .ofOption m.display),
    ("name", .ofOption m.name), ("symbol", .ofOption m.symbol)]

/-- Why a JSON value is the form of no record. -/
inductive Flaw where
  | missingKey (key : String)
  | wrongShape
deriving DecidableEq, Repr

def text? : Json → Option Text
  | .str text => some text
  | _ => none

/-- An array of strings, empty where there is no value. -/
def texts (value : Option Json) : Except Flaw (List Text) :=
  match value with
  | none => .ok []
  | some (.arr items) =>
    match items.mapM text? with
    | some texts => .ok texts
    | none => .error .wrongShape
  | some _ => .error .wrongShape

/-- A text that may be `null` or left out. -/
def optionalText (value : Option Json) : Except Flaw (Option Text) :=
  match value with
  | none | some .null => .ok none
  | some (.str text) => .ok (some text)
  | some _ => .error .wrongShape

end Metadata

/-- A unit always names its denom; it is the base unit and has no aliases unless it says more. -/
def DenomUnit.ofJson : Json → Except Metadata.Flaw DenomUnit
  | .obj members =>
    match Json.get? members "denom" with
    | none => .error (.missingKey "denom")
    | some (.str denom) =>
      match Json.get? members "exponent" with
      | none => (⟨denom, 0, ·⟩) <$> Metadata.texts (Json.get? members "aliases")
      | some (.num n) => (⟨denom, n, ·⟩) <$> Metadata.texts (Json.get? members "aliases")
      | some _ => .error .wrongShape
    | some _ => .error .wrongShape
  | _ => .error .wrongShape

/-- Reads a record; fields that are left out are empty and unknown ones are passed over. -/
def Metadata.ofJson : Json → Except Metadata.Flaw Metadata
  | .obj members => do
    let units ← match Json.get? members "denom_units" with
      | none => .ok []
      | some (.arr items) => items.mapM DenomUnit.ofJson
      | some _ => .error .wrongShape
    return {
      description := ← optionalText (Json.get? members "description")
      units
      base := ← optionalText (Json.get? members "base")
      display := ← optionalText (Json.get? members "display")
      name := ← optionalText (Json.get? members "name")
      symbol := ← optionalText (Json.get? members "symbol") }
  | _ => .error .wrongShape

end Coinage
