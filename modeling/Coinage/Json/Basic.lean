import Coinage.Text.Basic

/-!
JSON values. A number written without a fraction and an exponent is an integer of any size; every
other number is kept as the decimal that was written. Text can also name a number that is not
finite, of which a value says only that much.
-/

namespace Coinage

inductive Json where
  | null
  | bool (value : Bool)
  | num (value : Int)
  /-- `mantissa * 10 ^ exponent` -/
  | real (mantissa exponent : Int)
  | nonFinite
  | str (value : Text)
  | arr (items : List Json)
  | obj (members : List (Text × Json))
deriving Inhabited

namespace Json

/-- The value of a key; an object lists a key once. -/
def get? (members : List (Text × Json)) (key : Text) : Option Json := members.lookup key

def ofTexts (texts : List Text) : Json := .arr (texts.map .str)

/-- A string, or `null` where there is none. -/
def ofOption : Option Text → Json
  | none => .null
  | some text => .str text

end Json

end Coinage
