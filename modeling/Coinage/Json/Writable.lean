import Coinage.Binary64
import Coinage.Json.Basic

/-!
Values that can be sent as JSON text again: every string in them has an encoding, and every number
is finite, also as a 64-bit binary number. A value that is quoted leaves out what is private in it.
-/

namespace Coinage.Json

def isWritableText (text : Text) : Bool := text.toString?.isSome

mutual

def isWritable : Json → Bool
  | .nonFinite => false
  | .str text => isWritableText text
  | .real mantissa exponent => Binary64.roundDecimal mantissa exponent != .infinite
  | .arr items => allWritable items
  | .obj members => membersWritable members
  | _ => true

def allWritable : List Json → Bool
  | [] => true
  | v :: r => isWritable v && allWritable r

def membersWritable : List (Text × Json) → Bool
  | [] => true
  | (k, v) :: r => isWritableText k && isWritable v && membersWritable r

end

/-- Whether a member is private, by its key. -/
def isPrivateKey (key : Text) : Bool := (Text.ofString "_sa").elements.isPrefixOf key.elements

mutual

/-- A value without the private members of the objects in it. -/
def quotation : Json → Json
  | .arr items => .arr (quotations items)
  | .obj members => .obj (publicMembers members)
  | v => v

def quotations : List Json → List Json
  | [] => []
  | v :: r => quotation v :: quotations r

def publicMembers : List (Text × Json) → List (Text × Json)
  | [] => []
  | (k, v) :: r =>
    if isPrivateKey k then publicMembers r else (k, quotation v) :: publicMembers r

end

end Coinage.Json
