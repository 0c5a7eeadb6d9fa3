import Coinage.Json.Writable

/-!
Checking input in such a way that everything that is wrong with it comes to light at once. A check
either accepts a value or lists its issues; where several checks go into one value, the issues of
all of them are listed in order.
-/

namespace Coinage.Form

/-- A step from a value to a part of it. -/
inductive Step where
  | key (name : Text)
  | index (i : Nat)
deriving DecidableEq, Repr

abbrev Path := List Step

inductive Issue.Kind where
  | missing
  | notObject
  | extraForbidden
  | notString
  | notUnicode
  | emptyString
  | notList
  | notInteger
  | unreadableInteger
  | overlongInteger
  | fractionalInteger
  | infiniteInteger
  | belowMinimum
  | aboveMaximum
  | notAChoice
  | invalidJson
  | operationCount (given : Nat)
deriving DecidableEq, Repr

structure Issue where
  kind : Issue.Kind
  path : Path
  /-- Whether an answer can quote the value that it is about. -/
  quotable : Bool
deriving DecidableEq, Repr

def Issue.Kind.name : Issue.Kind → String
  | .missing => "missing"
  | .notObject => "model_attributes_type"
  | .extraForbidden => "extra_forbidden"
  | .notString => "string_type"
  | .notUnicode => "string_unicode"
  | .emptyString => "string_too_short"
  | .notList => "list_type"
  | .notInteger => "int_type"
  | .unreadableInteger => "int_parsing"
  | .overlongInteger => "int_parsing_size"
  | .fractionalInteger => "int_from_float"
  | .infiniteInteger => "finite_number"
  | .belowMinimum => "greater_than_equal"
  | .aboveMaximum => "less_than_equal"
  | .notAChoice => "literal_error"
  | .invalidJson => "json_invalid"
  | .operationCount _ => "value_error"

/-- What an issue says beyond its name. -/
def Issue.Kind.note : Issue.Kind → Option String
  | .operationCount given => some s!"Value error, exactly one operation must be given, got {given}"
  | _ => none

def Step.isWritable : Step → Bool
  | .key name => Json.isWritableText name
  | .index _ => true

/-- An issue with the value that was found at a path. Values are quoted without what is private. -/
def Issue.about (path : Path) (kind : Issue.Kind) (found : Json) : Issue :=
  ⟨kind, path, path.all Step.isWritable && found.quotation.isWritable⟩

inductive Checked (α : Type) where
  | accepted (value : α)
  | refused (issues : List Issue)
deriving DecidableEq, Repr

namespace Checked

variable {α β : Type}

/-- One issue, with the value that was found. -/
def issue (path : Path) (kind : Issue.Kind) (found : Json) : Checked α :=
  .refused [.about path kind found]

def issues : Checked α → List Issue
  | .accepted _ => []
  | .refused is => is

protected def map (f : α → β) : Checked α → Checked β
  | .accepted a => .accepted (f a)
  | .refused is => .refused is

protected def seq : Checked (α → β) → Checked α → Checked β
  | .accepted f, .accepted a => .accepted (f a)
  | .accepted _, .refused is => .refused is
  | .refused is, c => .refused (is ++ c.issues)

instance : Applicative Checked where
  pure := .accepted
  map := Checked.map
  seq f c := f.seq (c ())

/-- A further check of a value that passed the first one. -/
def andThen (c : Checked α) (f : α → Checked β) : Checked β :=
  match c with
  | .accepted a => f a
  | .refused is => .refused is

/-- Values that are checked side by side. -/
def all : List (Checked α) → Checked (List α)
  | [] => pure []
  | c :: r => (· :: ·) <$> c <*> all r

end Checked

end Coinage.Form
