import Coinage.Binary64
import Coinage.Form.Checked
import Coinage.Json.Basic
import Coinage.Text.Whole

/-!
Readers turn a JSON value into a value of the domain and check it on the way. They are lenient about
how an integer is given and about members that they do not know.
-/

namespace Coinage.Form

/-- Reads the value that stands at a path. -/
abbrev Reader (α : Type) := Path → Json → Checked α

namespace Reader

variable {α : Type}

def string : Reader Text
  | _, .str text => .accepted text
  | path, v => .issue path .notString v

/-- A string that has an encoding. -/
def encodableString : Reader String := fun path v =>
  (string path v).andThen fun text =>
    match text.toString? with
    | some s => .accepted s
    | none => .issue path .notUnicode v

def nonEmptyString : Reader String := fun path v =>
  (encodableString path v).andThen fun s =>
    if s.isEmpty then .issue path .emptyString v else .accepted s

/-- A text that is read as a whole number. -/
def wholeText (path : Path) (text : String) : Checked Int :=
  match Text.Whole.parse text with
  | .ok n => .accepted n
  | .error .unreadable => .issue path .unreadableInteger (.str text)
  | .error .tooLong => .issue path .overlongInteger (.str text)

/-- The whole numbers of 64 bits, without the least one. -/
def isShort (n : Int) : Bool := -0x8000000000000000 < n && n < 0x8000000000000000

/-- An integer, or what has the value of one: a truth value, a text, and a number of 64 bits that is
written with a fraction or an exponent. -/
def anyInteger : Reader Int
  | _, .num n => .accepted n
  | _, .bool b => .accepted b.toInt
  | path, .real mantissa exponent =>
    match Binary64.roundDecimal mantissa exponent with
    | .whole n =>
      if isShort n then .accepted n else .issue path .overlongInteger (.real mantissa exponent)
    | .fractional => .issue path .fractionalInteger (.real mantissa exponent)
    | .infinite => .issue path .infiniteInteger .nonFinite
  | path, .nonFinite => .issue path .infiniteInteger .nonFinite
  | path, .str text => (encodableString path (.str text)).andThen (wholeText path)
  | path, v => .issue path .notInteger v

def integer (least most : Int) : Reader Int := fun path v =>
  (anyInteger path v).andThen fun n =>
    if n < least then .issue path .belowMinimum v
    else if most < n then .issue path .aboveMaximum v
    else .accepted n

def list (item : Reader α) : Reader (List α)
  | path, .arr items => .all (items.mapIdx fun i v => item (path ++ [.index i]) v)
  | path, v => .issue path .notList v

def nullable (read : Reader α) : Reader (Option α)
  | _, .null => .accepted none
  | path, v => some <$> read path v

/-- The members of an object, and where it stands. -/
structure Object where
  path : Path
  members : List (Text × Json)

def object (read : Object → Checked α) : Reader α
  | path, .obj members => read ⟨path, members⟩
  | path, v => .issue path .notObject v

namespace Object

def pathTo (o : Object) (key : Text) : Path := o.path ++ [.key key]

/-- An issue with the object as a whole. -/
def issue (o : Object) (path : Path) (kind : Issue.Kind) : Checked α :=
  .issue path kind (.obj o.members)

def required (o : Object) (key : Text) (read : Reader α) : Checked α :=
  match Json.get? o.members key with
  | some v => read (o.pathTo key) v
  | none => o.issue (o.pathTo key) .missing

def optional (o : Object) (key : Text) (default : α) (read : Reader α) : Checked α :=
  match Json.get? o.members key with
  | some v => read (o.pathTo key) v
  | none => .accepted default

/-- Finds an issue with every member that is not among the known ones. -/
def nothingBut (o : Object) (known : List Text) : Checked Unit :=
  match o.members.filter fun m => !known.contains m.1 with
  | [] => .accepted ()
  | extra => .refused (extra.map fun m => .about (o.pathTo m.1) .extraForbidden m.2)

end Object

/-- An object that says by its one member what it means. Other members may be there if they are
`null`; how many there are is counted only where nothing else is wrong. -/
def tagged (tags : List (Text × Reader α)) : Reader α :=
  object fun o =>
    let given := Checked.all (tags.map fun (tag, read) => o.optional tag none (nullable read))
    (Function.const Unit <$> given <*> o.nothingBut (tags.map (·.1))).andThen fun given =>
      match given.filterMap id with
      | [a] => .accepted a
      | others => o.issue o.path (.operationCount others.length)

end Reader

end Coinage.Form
