import Coinage.Text.Basic

/-!
Names of denoms. A name has the canonical form `factory/<creator>/<subdenom>`; a `Denom` is a pair
of parts that meets the rules for one. Only the creator is kept free of the separator, so the text
of a denom still determines both of its parts.
-/

namespace Coinage

/-- Why a text or a pair of parts names no denom. -/
inductive Denom.Flaw where
  | partCount (parts : Nat)
  | wrongPrefix (found : Text)
  | totalLength (octets : Nat)
  | slashInCreator
  | longSubdenom
  | longCreator
  /-- The lookup of the parts failed for a reason of its own. -/
  | refused (reason : Text)
deriving DecidableEq, Repr

namespace Denom

def namespacePrefix : String := "factory"

def minLength : Nat := 3
def maxLength : Nat := 128
def maxCreatorLength : Nat := 75
def maxSubdenomLength : Nat := 44

def Flaw.message : Flaw → Text
  | .partCount parts => .ofString s!"denom must have 3 parts separated by /, had {parts}"
  | .wrongPrefix found => .ofString s!"prefix must be '{namespacePrefix}', was " ++ found
  | .totalLength octets =>
    .ofString s!"length must be between {minLength} and {maxLength}, was {octets}"
  | .slashInCreator => .ofString "creator must not contain '/'"
  | .longSubdenom => .ofString s!"subdenom longer than {maxSubdenomLength} bytes"
  | .longCreator => .ofString s!"creator longer than {maxCreatorLength} bytes"
  | .refused reason => reason

/-- Three parts in one text, with separators between them. -/
def assemble (first creator subdenom : Text) : Text :=
  first ++ .ofString "/" ++ creator ++ .ofString "/" ++ subdenom

/-- The text that a pair of parts would have as a denom. -/
def candidate (creator subdenom : Text) : Text :=
  assemble (.ofString namespacePrefix) creator subdenom

end Denom

/-- All lengths count octets of UTF-8. -/
structure Denom where
  creator : String
  subdenom : String
  creator_noSlash : '/' ∉ creator.toList
  subdenom_length : subdenom.utf8ByteSize ≤ Denom.maxSubdenomLength
  creator_length : creator.utf8ByteSize ≤ Denom.maxCreatorLength
deriving DecidableEq

namespace Denom

/-- The canonical form of a pair of parts. -/
def canonicalText (creator subdenom : String) : String :=
  namespacePrefix ++ "/" ++ creator ++ "/" ++ subdenom

/-- The canonical form, under which everything about the denom is kept. -/
def text (d : Denom) : String := canonicalText d.creator d.subdenom

/-- The denom of a pair of parts; of several violated rules the first one counts. -/
def ofParts (creator subdenom : String) : Except Flaw Denom :=
  let octets := (canonicalText creator subdenom).utf8ByteSize
  if octets < minLength ∨ maxLength < octets then .error (.totalLength octets)
  else if noSlash : '/' ∈ creator.toList then .error .slashInCreator
  else if short : maxSubdenomLength < subdenom.utf8ByteSize then .error .longSubdenom
  else if short' : maxCreatorLength < creator.utf8ByteSize then .error .longCreator
  else .ok ⟨creator, subdenom, noSlash, Nat.le_of_not_lt short, Nat.le_of_not_lt short'⟩

end Denom

end Coinage
