import Coinage.Registry.Basic
import Coinage.Registry.Message

/-!
The queries of the registry. They read what is committed and change nothing.
-/

namespace Coinage.Registry

open Entry

def look : Query → Act Answer
  | .fullDenom creator subdenom => return .denom (← Denom.lookup creator subdenom).text
  | .metadata text => do
    let d ← Denom.parse text
    return .metadata (← (metadata (← Act.fetch (metadataKey d))).mapError Fault.stored)
  | .admin text => do
    let d ← Denom.parse text
    match ← (admin (← Act.fetch (adminKey d))).mapError Fault.stored with
    | none => Act.reject (.unknownDenom d.text)
    | some admin => return .admin admin
  | .denomsByCreator creator => do
    return .denoms (← (denoms (← Act.fetch (creatorKey creator))).mapError Fault.stored)
  | .params => Act.reject (.unimplemented "params query")

def answer (r : Registry) : Submitted Query → Except Fault Answer × Registry
  | .other shown => (.error (.unsupported "query" shown), r)
  | .message query => (look query).on r

end Coinage.Registry
