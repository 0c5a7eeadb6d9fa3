import Coinage.Json.Parser

/-!
What the target of a request names. A target is a reference, which is resolved against the root of
the service. In front of its path it may have a scheme and an authority, which decide no more than
how the path is resolved; a query and a fragment behind it count for nothing. Escapes are undone
twice, by the client that sends the request and by the service, and only after the segments `.` and
`..` have been resolved.
-/

namespace Coinage.Server.Target

/-- What stands between two slashes and the path: a user, a host and a port, each of them empty
where it is not given. -/
structure Authority where
  user : List Char
  host : List Char
  port : List Char
deriving DecidableEq, Repr

def Authority.isEmpty (a : Authority) : Bool := a.user.isEmpty && a.host.isEmpty && a.port.isEmpty

/-- What stands in front of the last occurrence of a character, and what follows it. Where it does
not occur, everything follows. -/
def splitLast (c : Char) (cs : List Char) : List Char × List Char :=
  let rest := (cs.reverse.takeWhile (· != c)).reverse
  (cs.take (cs.length - rest.length - 1), rest)

/-- A host, and the port after it. A host in brackets may have colons. -/
def splitHost (cs : List Char) : List Char × List Char :=
  if cs.head? = some '[' ∧ ']' ∈ cs then
    let (inside, r) := splitLast ']' cs
    (inside ++ [']'], r)
  else (cs.takeWhile (· != ':'), cs.dropWhile (· != ':'))

def Authority.parse (cs : List Char) : Authority :=
  let (user, r) := splitLast '@' cs
  let (host, port) := splitHost r
  ⟨user, host, if port.head? = some ':' then port.drop 1 else port⟩

/-- A reference up to its query and its fragment. -/
structure Reference where
  scheme : List Char
  authority : Authority
  path : List Char
deriving DecidableEq, Repr

def isSchemeChar (c : Char) : Bool := c.isAlphanum || c == '+' || c == '-' || c == '.'

/-- Takes apart a scheme, which may be empty, and what follows its colon. -/
def splitScheme (cs : List Char) : List Char × List Char :=
  let scheme := cs.takeWhile isSchemeChar
  match cs.drop scheme.length with
  | ':' :: r => if scheme.head?.all Char.isAlpha then (scheme, r) else ([], cs)
  | _ => ([], cs)

def Reference.parse (target : List Char) : Reference :=
  let (scheme, r) := splitScheme (target.takeWhile fun c => c != '?' && c != '#')
  match r with
  | '/' :: '/' :: r =>
    ⟨scheme, Authority.parse (r.takeWhile (· != '/')), r.dropWhile (· != '/')⟩
  | path => ⟨scheme, Authority.parse [], path⟩

/-- One segment further: `.` stays, and `..` goes back by one, but not beyond the root. -/
def enter (above : List (List Char)) (segment : List Char) : List (List Char) :=
  if segment = ['.'] then above
  else if segment = ['.', '.'] then if above = [[]] then above else above.dropLast
  else above ++ [segment]

def withoutDots (path : List Char) : List Char :=
  List.intercalate ['/'] ((path.splitOn '/').foldl enter [])

/-- The path from the root of the service. With a scheme and a host it is the path as written; any
other path starts at the root with one slash, however many are in front of it. -/
def Reference.resolve (ref : Reference) : List Char :=
  let path := if ref.scheme = [] ∧ ref.authority.isEmpty then ref.path else withoutDots ref.path
  if ref.scheme ≠ [] ∧ ref.authority.host ≠ [] then path
  else withoutDots ('/' :: path.dropWhile (· == '/'))

/-- A percent sign with two hexadecimal digits stands for the octet of that number. -/
def unescape : List Char → List Char
  | '%' :: a :: b :: r =>
    match Json.hexValue a, Json.hexValue b with
    | some high, some low => Char.ofNat (16 * high + low) :: unescape r
    | _, _ => '%' :: unescape (a :: b :: r)
  | c :: r => c :: unescape r
  | [] => []

def path (target : String) : List Char :=
  unescape (unescape (Reference.parse target.toList).resolve)

/-- A path in the spelling of a place. Slashes at its end do not tell places apart, nor does a line
feed behind its name. -/
def place (path : List Char) : String :=
  match path.reverse.dropWhile (· == '/') with
  | '\n' :: r => String.ofList r.reverse
  | r => String.ofList r.reverse

end Coinage.Server.Target
