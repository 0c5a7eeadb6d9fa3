import Coinage.Form.Reader
import Coinage.Json.Parser
import Coinage.Text.Encoding
import Coinage.Text.Lowercase

/-!
The body of a request, from octets to a value that passed a reader. What counts as JSON is decided
by the declared media type; a body of any other type has no members to offer.
-/

namespace Coinage.Server

open Form

/-- Whether a media type is `application/json` or `application/*+json`, whatever its parameters. -/
def isJsonType (mediaType : String) : Bool :=
  let name := Text.trim Text.isBlank (mediaType.toList.takeWhile (· != ';'))
  match (Text.lowercaseChars name).splitOn '/' with
  | [kind, subtype] =>
    kind == "application".toList
      && (subtype == "json".toList || "+json".toList.isSuffixOf subtype)
  | _ => false

inductive BodyError where
  /-- The octets encode no text, or one that is too large in its parts. -/
  | unreadable
  | invalid (issues : List Issue)
deriving DecidableEq, Repr

def bodyPath : Path := [.key "body"]

/-- Reads a body that was sent with a media type, or with none. One that is not JSON by its media
type is quoted as the text that its octets encode, if there is one. -/
def readBody {α : Type} (read : Reader α) (mediaType : Option String) (octets : List UInt8) :
    Except BodyError α :=
  let invalid (kind : Issue.Kind) (quotable : Bool) : Except BodyError α :=
    .error (.invalid [⟨kind, bodyPath, quotable⟩])
  if octets.isEmpty then invalid .missing true
  else if !mediaType.any isJsonType then invalid .notObject (Text.Utf8.decode octets).isOk
  else
    match Text.Encoding.decode octets with
    | none => .error .unreadable
    | some text =>
      match Json.parseText .standard text with
      | .error .malformed => invalid .invalidJson true
      | .error _ => .error .unreadable
      | .ok v =>
        match read bodyPath v with
        | .accepted a => .ok a
        | .refused issues => .error (.invalid issues)

end Coinage.Server
