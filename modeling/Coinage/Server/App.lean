import Coinage.Registry.Answer
import Coinage.Registry.Execute
import Coinage.Registry.Migration
import Coinage.Server.Response
import Coinage.Server.Target
import Coinage.Settings
import Coinage.Text.Capital

/-!
The service: commands and queries of the registry over HTTP, and a sign of health. Only a command
that is answered with status 200 has changed anything.
-/

namespace Coinage.Server

structure Request where
  /-- The name of a method, in small or capital letters. -/
  method : String
  /-- The path, and a query after a question mark. -/
  target : String
  mediaType : Option String
  body : List UInt8
deriving DecidableEq, Repr

/-- The method as it is called in capital letters. -/
def Request.verb (request : Request) : String := Text.capitals request.method

/-- The registry of a service that is being set up; a database is opened and given its table. -/
def start (settings : Settings) : Registry :=
  match settings.storageBackend with
  | .memory => Registry.start (.memory ∅)
  | .database =>
    let opened := .opened settings.databaseUrl settings.poolMinSize settings.poolMaxSize
    (Migration.run (Registry.start (.database ((Database.ofRows ∅).note opened)))).2

def execute (r : Registry) (request : Request) : Response × Registry :=
  match readBody Form.order request.mediaType request.body with
  | .error e => (.ofBodyError e, r)
  | .ok order =>
    match r.execute order.sender (.message order.command) with
    | (.ok receipt, r) => (.ofReceipt receipt, r)
    | (.error fault, r) => (.ofFault fault, r)

def query (r : Registry) (request : Request) : Response × Registry :=
  match readBody Form.query request.mediaType request.body with
  | .error e => (.ofBodyError e, r)
  | .ok query =>
    match r.answer (.message query) with
    | (.ok answer, r) => (.ofAnswer answer, r)
    | (.error fault, r) => (.ofFault fault, r)

def health (r : Registry) (_ : Request) : Response × Registry :=
  match r.store.send .ping with
  | (.ok (), store) => (.ok (.obj [("status", .str "healthy")]), { r with store })
  | (.error _, store) => (.internalError, { r with store })

/-- A place of the service, with the one method that it has. -/
structure Route where
  path : String
  method : String
  handle : Registry → Request → Response × Registry

/-- The places that the service is for. The pages that describe its interface, `/docs`, `/redoc` and
`/openapi.json`, are left out: they hang on nothing that the registry keeps, and change nothing. -/
def routes : List Route :=
  [⟨"/v1/execute", "POST", execute⟩, ⟨"/v1/query", "POST", query⟩, ⟨"/health", "GET", health⟩]

def dispatch (r : Registry) (request : Request) : Response × Registry :=
  match routes.find? (·.path == Target.place (Target.path request.target)) with
  | none => (.notFound, r)
  | some route =>
    if request.verb = route.method then route.handle r request else (.methodNotAllowed, r)

/-- Answers a request; one that asks for the head alone gets no content. -/
def handle (r : Registry) (request : Request) : Response × Registry :=
  let (response, r) := dispatch r request
  (if request.verb = "HEAD" then { response with content := .text "" } else response, r)

end Coinage.Server
