import Coinage.Denom.Basic
import Coinage.Json.Parser
import Coinage.Json.Printer
import Coinage.Metadata

/-!
How the registry keeps what it knows in a store of texts: the admin and the metadata of a denom, and
the denoms of a creator. Each of the three has keys of its own, and a text is the JSON of its value.

Only shapes that the registry writes itself are read, and `null` for an admin. JSON of any other shape,
which only somebody else can have stored, is a flaw here, even where it could pass for a value: an admin
that is a number or a list, denoms that are the characters of a text or the keys of an object, and
metadata with parts of other kinds.
-/

namespace Coinage.Entry

def adminKey (d : Denom) : Text := "admin:" ++ d.text

def metadataKey (d : Denom) : Text := "metadata:" ++ d.text

def creatorKey (creator : Text) : Text := "denoms_by_creator:" ++ creator

def adminText (admin : Text) : String := (Json.str admin).compact

def metadataText (metadata : Metadata) : String := metadata.toJson.compact

def denomsText (denoms : List Text) : String := (Json.ofTexts denoms).compact

/-- Why a stored text is none that the registry would have written, or a value has none. -/
inductive Flaw where
  | unread (flaw : Json.Flaw)
  | metadata (flaw : Metadata.Flaw)
  | wrongShape
deriving DecidableEq, Repr

/-- Whether every exponent can be written within a limit of digits. -/
def isWritable (digits : Nat) (metadata : Metadata) : Bool :=
  metadata.units.all fun u => Numeral.isWithin digits u.exponent

/-- The row of a denom for what is said about it, if anything is. -/
def metadataRows (d : Denom) : Option Metadata → Except Flaw (List (Text × String))
  | none => .ok []
  | some metadata =>
    let most := Json.Limits.standard.digits
    if isWritable most metadata then .ok [(metadataKey d, metadataText metadata)]
    else .error (.unread (.tooManyDigits most none))

def parse (text : String) : Except Flaw Json := (Json.parse text).mapError .unread

/-- The admin that a text names; nothing stored and a stored `null` are no admin at all. -/
def admin : Option String → Except Flaw (Option Text)
  | none => .ok none
  | some text => do
    match ← parse text with
    | .null => .ok none
    | .str admin => .ok (some admin)
    | _ => .error .wrongShape

def metadata : Option String → Except Flaw (Option Metadata)
  | none => .ok none
  | some text => do some <$> (Metadata.ofJson (← parse text)).mapError .metadata

def denoms : Option String → Except Flaw (List Text)
  | none => .ok []
  | some text => do
    match ← parse text with
    | .arr items =>
      match items.mapM Metadata.text? with
      | some denoms => .ok denoms
      | none => .error .wrongShape
    | _ => .error .wrongShape

end Coinage.Entry
