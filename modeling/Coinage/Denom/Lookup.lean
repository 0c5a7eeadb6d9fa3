import Coinage.Fault

/-!
From the names that requests carry to denoms. A pair of parts is looked up as it stands; an
assembled text is taken apart, its prefix is accepted in any ASCII case, and a lookup confirms the
two parts that remain. Every rejection is about the text that was given; what else a lookup fails
with, such as parts without an encoding, is about the parts.
-/

namespace Coinage.Denom

/-- The denom of a pair of parts. The name that they make has to have an encoding before any rule for
it is looked at, and has one just if both parts have. -/
def lookup (creator subdenom : Text) : Except Fault Denom :=
  let name := candidate creator subdenom
  match creator.toString?, subdenom.toString? with
  | some creator, some subdenom =>
    (ofParts creator subdenom).mapError fun flaw => .rejected (.invalidDenom name flaw)
  | _, _ => .error (.illFormed name)

/-- A rejection of the parts, as a flaw of the text that they are parts of. -/
def Flaw.ofRejection : Rejection → Flaw
  | .invalidDenom _ flaw => flaw
  | rejection => .refused rejection.message

/-- What a lookup of parts failed with, told about the text that they are parts of. -/
def attributeTo (text : Text) : Fault → Fault
  | .rejected rejection => .rejected (.invalidDenom text (.ofRejection rejection))
  | fault => fault

def separator : Text.Element := .char '/'

/-- The parts of an assembled text between its separators. -/
def parts (text : Text) : List Text := (text.elements.splitOn separator).map Text.mk

/-- Whether a first part differs from the prefix at most in the case of its ASCII letters. -/
def isPrefixSpelling (part : Text) : Bool :=
  part.toString?.any fun s => s.toList.map Char.toLower == namespacePrefix.toList

def flawOrParts (text : Text) : Except Flaw (Text × Text) :=
  match parts text with
  | [first, creator, subdenom] =>
    if isPrefixSpelling first then .ok (creator, subdenom) else .error (.wrongPrefix first)
  | others => .error (.partCount others.length)

/-- The denom that a text names, as `lookup` resolves its parts. -/
def parseWith {α : Type} (lookup : Text → Text → Except Fault α) (text : Text) : Except Fault α :=
  match flawOrParts text with
  | .error flaw => .error (.rejected (.invalidDenom text flaw))
  | .ok (creator, subdenom) => (lookup creator subdenom).mapError (attributeTo text)

def parse (text : Text) : Except Fault Denom := parseWith lookup text

end Coinage.Denom
