import Coinage.Base64
import Coinage.Form.Request
import Coinage.Registry.Basic
import Coinage.Server.Body

/-!
The answers of the service. Every kind of refusal has a status of its own; a fault that is nobody's
mistake but the service's own shows no more than that there was one.
-/

namespace Coinage.Server

inductive Content where
  | json (value : Json)
  | text (text : String)

structure Response where
  status : Nat
  content : Content

namespace Response

def internalError : Response := ⟨500, .text "Internal Server Error"⟩

/-- An answer with content, which has to be writable. -/
def ok (value : Json) : Response := if value.isWritable then ⟨200, .json value⟩ else internalError

def detail (status : Nat) (detail : Json) : Response := ⟨status, .json (.obj [("detail", detail)])⟩

def notFound : Response := detail 404 (.str "Not Found")

def methodNotAllowed : Response := detail 405 (.str "Method Not Allowed")

def ofStep : Form.Step → Json
  | .key name => .str name
  | .index i => .num i

def ofIssue (issue : Form.Issue) : Json :=
  let note : List (Text × Json) := issue.kind.note.toList.map fun (s : String) => ("msg", .str s)
  .obj (("type", .str issue.kind.name) :: ("loc", .arr (issue.path.map ofStep)) :: note)

/-- The answer to a body that was not accepted. Issues are listed with what they are about, and
there is no answer for what cannot be quoted. -/
def ofBodyError : BodyError → Response
  | .unreadable => detail 400 (.str "There was an error parsing the body")
  | .invalid issues =>
    if issues.all (·.quotable) then detail 422 (.arr (issues.map ofIssue)) else internalError

/-- The status of a rejection. -/
def statusOf : Rejection → Nat
  | .invalidDenom .. => 400
  | .invalidAddress .. => 400
  | .zeroAmount => 400
  | .notAdmin .. => 403
  | .unknownDenom _ => 404
  | .denomAlreadyExists _ => 409
  | .unimplemented _ => 501

/-- The answer to a rejection, whose text has to be writable. -/
def ofRejection (rejection : Rejection) : Response :=
  if Json.isWritableText rejection.message then
    detail (statusOf rejection) (.str rejection.message)
  else internalError

def ofFault : Fault → Response
  | .rejected rejection => ofRejection rejection
  | .ledger error@(.insufficientFunds ..) => detail 422 (.str error.message)
  | _ => internalError

def ofReceipt (receipt : Receipt) : Response :=
  ok (.obj [("method", .str receipt.method),
    ("attributes", .obj (receipt.attributes.map fun (name, text) => (.ofString name, .str text))),
    ("data", .ofOption (receipt.data.map fun octets => .ofString (Base64.encode octets)))])

/-- Whether a record is one that a client could have sent. -/
def isPresentable (metadata : Metadata) : Bool :=
  metadata.units.all fun u => 0 ≤ u.exponent && u.exponent ≤ Form.maxExponent

def ofAnswer : Answer → Response
  | .denom denom => ok (.obj [("denom", .str denom)])
  | .admin admin => ok (.obj [("admin", .str admin)])
  | .denoms denoms => ok (.obj [("denoms", .ofTexts denoms)])
  | .metadata none => ok (.obj [("metadata", .null)])
  | .metadata (some m) =>
    if isPresentable m then ok (.obj [("metadata", m.toJson)]) else internalError

end Response

end Coinage.Server
