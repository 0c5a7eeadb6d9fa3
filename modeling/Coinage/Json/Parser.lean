import Coinage.Json.Basic
import Coinage.Listing
import Coinage.Numeral

/-!
Reading JSON text. Blanks may stand around every value; a member that an object repeats takes its
last value and keeps its first place; the three numbers that are not finite may be named. A text is
read from its beginning to its end, and the first fault in it decides. Besides what is no JSON these
are integers and nestings that are too large for the reader's limits.
-/

namespace Coinage.Json

open Text (Element)

/-- How many digits an integer may have, and how many arrays and objects may be open at once. -/
structure Limits where
  digits : Nat
  depth : Nat
deriving DecidableEq, Repr

/-- The limits for bodies of requests and for stored texts. The first one is also for writing. -/
def Limits.standard : Limits := ⟨Numeral.maxDigits, 969⟩

inductive Container where
  | array
  | object
deriving DecidableEq, Repr

def Container.name : Container → String
  | .array => "array"
  | .object => "object"

/-- Why a text is not read, or a value not written. -/
inductive Flaw where
  | malformed
  /-- The digits of an integer are only counted where it stands in a text. -/
  | tooManyDigits (most : Nat) (digits : Option Nat)
  | tooDeep (container : Container)
deriving DecidableEq, Repr

def Flaw.message : Flaw → String
  | .malformed => "no JSON text"
  | .tooManyDigits most digits => Numeral.overlong most digits
  | .tooDeep container =>
    s!"maximum recursion depth exceeded while decoding a JSON {container.name} "
      ++ "from a unicode string"

/-- A text that is being read. -/
abbrev Source := List Element

def isBlankChar (c : Char) : Bool := c = ' ' || c = '\t' || c = '\n' || c = '\r'

def isBlank (e : Element) : Bool := e.char?.any isBlankChar

def skipBlanks (s : Source) : Source := s.dropWhile isBlank

def hexValue (c : Char) : Option Nat :=
  if '0' ≤ c ∧ c ≤ '9' then some (c.toNat - '0'.toNat)
  else if 'a' ≤ c ∧ c ≤ 'f' then some (c.toNat - 'a'.toNat + 10)
  else if 'A' ≤ c ∧ c ≤ 'F' then some (c.toNat - 'A'.toNat + 10)
  else none

/-- What one element of a quoted text was written as: as itself, or as the number of a UTF-16
unit. -/
inductive Piece where
  | plain (e : Element)
  | unit (n : Nat)

/-- The character that a backslash and `c` stand for. -/
def shortEscape? (c : Char) : Option Char :=
  if c = '"' then some '"'
  else if c = '\\' then some '\\'
  else if c = '/' then some '/'
  else if c = 'b' then some '\x08'
  else if c = 'f' then some '\x0c'
  else if c = 'n' then some '\n'
  else if c = 'r' then some '\r'
  else if c = 't' then some '\t'
  else none

/-- The pieces up to the closing quote, and what follows it. -/
def pieces : Source → Option (List Piece × Source)
  | [] => none
  | .char '"' :: r => some ([], r)
  | .char '\\' :: .char 'u' :: .char a :: .char b :: .char c :: .char d :: r => do
    let n := 4096 * (← hexValue a) + 256 * (← hexValue b) + 16 * (← hexValue c) + (← hexValue d)
    let (ps, rest) ← pieces r
    some (.unit n :: ps, rest)
  | .char '\\' :: .char c :: r => do
    let e ← shortEscape? c
    let (ps, rest) ← pieces r
    some (.plain (.char e) :: ps, rest)
  | .char '\\' :: _ => none
  | e :: r =>
    if e.char?.any (· < ' ') then none
    else do
      let (ps, rest) ← pieces r
      some (.plain e :: ps, rest)

def isHigh (unit : Nat) : Bool := 0xD800 ≤ unit && unit < 0xDC00

def isLow (unit : Nat) : Bool := 0xDC00 ≤ unit && unit < 0xE000

def ofPair (high low : Nat) : Char :=
  Char.ofNat (0x10000 + (high - 0xD800) * 0x400 + (low - 0xDC00))

/-- The elements of a quoted text. Two numbered units that make up a surrogate pair are one
character; no other surrogate finds a partner. -/
def joinPieces : List Piece → List Element
  | [] => []
  | .plain e :: r => e :: joinPieces r
  | .unit high :: .unit low :: r =>
    if isHigh high && isLow low then .char (ofPair high low) :: joinPieces r
    else .ofCode high :: joinPieces (.unit low :: r)
  | .unit n :: r => .ofCode n :: joinPieces r

/-- A text after its opening quote. -/
def quotedText (s : Source) : Except Flaw (Text × Source) :=
  match pieces s with
  | some (ps, rest) => .ok (⟨joinPieces ps⟩, rest)
  | none => .error .malformed

/-- The longest run of digits at the front, and what follows it. -/
def digits : Source → List Char × Source
  | .char c :: r => if c.isDigit then (c :: (digits r).1, (digits r).2) else ([], .char c :: r)
  | r => ([], r)

def sign : Source → Bool × Source
  | .char '-' :: r => (true, r)
  | r => (false, r)

def withSign (negative : Bool) (n : Nat) : Int := if negative then -n else n

/-- The digits in front of a decimal point; a zero stands alone. -/
def wholePart : Source → List Char × Source
  | .char '0' :: r => (['0'], r)
  | r => digits r

/-- A decimal point with the digits behind it. -/
def fraction (s : Source) : List Char × Source :=
  match s with
  | .char '.' :: r => if (digits r).1.isEmpty then ([], s) else digits r
  | _ => ([], s)

def exponentSign : Source → Bool × Source
  | .char '+' :: r => (false, r)
  | r => sign r

/-- The power of ten after a mantissa, `none` where none is written. -/
def exponent (s : Source) : Option Int × Source :=
  match s with
  | .char c :: r =>
    let (negative, r) := exponentSign r
    let (ds, rest) := digits r
    if (c = 'e' ∨ c = 'E') ∧ ds ≠ [] then
      (some (withSign negative (Nat.ofDigitChars 10 ds 0)), rest)
    else (none, s)
  | _ => (none, s)

/-- The longest number at the front. -/
def number (limits : Limits) (s : Source) : Except Flaw (Json × Source) :=
  let (negative, r) := sign s
  let (whole, r) := wholePart r
  let (part, r) := fraction r
  let (power, r) := exponent r
  let mantissa := withSign negative (Nat.ofDigitChars 10 (whole ++ part) 0)
  if whole.isEmpty then .error .malformed
  else if !part.isEmpty || power.isSome then
    .ok (.real mantissa (power.getD 0 - part.length), r)
  else if limits.digits < whole.length then .error (.tooManyDigits limits.digits (some whole.length))
  else .ok (.num mantissa, r)

/-- What follows a word at the front of a text. -/
def afterWord (word : String) (s : Source) : Option Source :=
  let elements := (Text.ofString word).elements
  if elements.isPrefixOf s then some (s.drop elements.length) else none

/-- The values that are written as words. -/
def words : List (String × Json) :=
  [("null", .null), ("true", .bool true), ("false", .bool false), ("NaN", .nonFinite),
    ("Infinity", .nonFinite), ("-Infinity", .nonFinite)]

def word (s : Source) : Option (Json × Source) :=
  words.findSome? fun (w, v) => (afterWord w s).map (v, ·)

mutual

/-- A value at the front of a text, with room for so many open arrays and objects. -/
def value (limits : Limits) (room fuel : Nat) (s : Source) : Except Flaw (Json × Source) :=
  match fuel with
  | 0 => .error .malformed
  | fuel + 1 =>
    match s with
    | .char '"' :: r => (quotedText r).map fun (t, rest) => (.str t, rest)
    | .char '[' :: r =>
      if room = 0 then .error (.tooDeep .array)
      else
        match skipBlanks r with
        | .char ']' :: rest => .ok (.arr [], rest)
        | r => (items limits (room - 1) fuel r).map fun (vs, rest) => (.arr vs, rest)
    | .char '{' :: r =>
      if room = 0 then .error (.tooDeep .object)
      else
        match skipBlanks r with
        | .char '}' :: rest => .ok (.obj [], rest)
        | r =>
          (members limits (room - 1) fuel r).map fun (ms, rest) =>
            (.obj (Listing.ofEntries ms), rest)
    | s =>
      match word s with
      | some found => .ok found
      | none => number limits s

/-- The items of an array that is not empty, up to its closing bracket. -/
def items (limits : Limits) (room fuel : Nat) (s : Source) :
    Except Flaw (List Json × Source) :=
  match fuel with
  | 0 => .error .malformed
  | fuel + 1 => do
    let (v, r) ← value limits room fuel s
    match skipBlanks r with
    | .char ',' :: r =>
      (items limits room fuel (skipBlanks r)).map fun (vs, rest) => (v :: vs, rest)
    | .char ']' :: rest => .ok ([v], rest)
    | _ => .error .malformed

/-- The members of an object that is not empty, up to its closing brace. -/
def members (limits : Limits) (room fuel : Nat) (s : Source) :
    Except Flaw (List (Text × Json) × Source) :=
  match fuel, s with
  | fuel + 1, .char '"' :: r => do
    let (key, r) ← quotedText r
    match skipBlanks r with
    | .char ':' :: r => do
      let (v, r) ← value limits room fuel (skipBlanks r)
      match skipBlanks r with
      | .char ',' :: r =>
        (members limits room fuel (skipBlanks r)).map fun (ms, rest) => ((key, v) :: ms, rest)
      | .char '}' :: rest => .ok ([(key, v)], rest)
      | _ => .error .malformed
    | _ => .error .malformed
  | _, _ => .error .malformed

end

/-- The value that a text is written for. Every step of the reader goes along with an element that
is read or is the first of its kind on an element, so twice the length is fuel enough. -/
def parseText (limits : Limits) (text : Text) : Except Flaw Json := do
  let s := text.elements
  let (v, rest) ← value limits limits.depth (2 * s.length + 2) (skipBlanks s)
  if (skipBlanks rest).isEmpty then .ok v else .error .malformed

def parse (text : String) : Except Flaw Json := parseText .standard text

end Coinage.Json
