-- SUMMARY: The embedding service: the request for the vector of a text and the vector in its reply.
import MemoryGraph.Embedding.Embedder
import MemoryGraph.Json.Printer
import MemoryGraph.Json.Reader

/-!
# Embedding service

A service answers a request that names a model and a text with a list of
vectors, of which the first counts. A key, when there is one, is sent along. How
a request travels is not said here: it is a function from requests to replies
that may fail.
-/
namespace MemoryGraph

open Text

/-- Where vectors come from. -/
structure EmbeddingService where
  endpoint : String
  model : String
  apiKey : Option String := none
  timeoutSeconds : Nat := 30
  deriving DecidableEq, Repr

/-- A request to a service. -/
structure VectorRequest where
  endpoint : String
  authorization : Option String
  body : String
  deriving DecidableEq, Repr

/-- A reply of a service. -/
structure VectorReply where
  status : Nat
  body : String
  deriving DecidableEq, Repr

/-- What carries requests to a service and its replies back. -/
abbrev Transport := VectorRequest → Option VectorReply

namespace EmbeddingService

/-- Whether a text can stand in a header: it has no control characters but tabs. -/
def isHeaderText (text : String) : Bool :=
  text.toList.all fun c => (0x20 ≤ c.toNat && c.toNat ≠ 0x7f) || c = '\t'

/-- Whether an endpoint is an address that can be asked. -/
def isAddress (endpoint : String) : Bool :=
  let address := trim endpoint
  ["http://", "https://"].any fun scheme =>
    address.startsWith scheme && scheme.length < address.length

/-- The request for the vector of a text, when one can be made. -/
def request? (service : EmbeddingService) (text : String) : Option VectorRequest :=
  let key := service.apiKey.filter (fun key => !allBlank key)
  if isAddress service.endpoint && key.all isHeaderText then
    some
      { endpoint := service.endpoint
        authorization := key.map ("Bearer " ++ ·)
        body := (Json.object [("model", .string service.model), ("input", .string text)]).compact }
  else none

/-- The single of a number: an integer is rounded once, any other number by way of its double. -/
def single? : Json → Option Single
  | .number (.integer n) => some (.ofInt n)
  | j => j.double?.map .ofFloat

/-- The only field of a key; a repeated one is refused. -/
def onlyField? (key : String) (fields : List (String × Json)) : Option Json :=
  match fields.filter (fun field => field.1 = key) with
  | [field] => some field.2
  | _ => none

/-- The only value of a record that has one field, given as an object or an array. -/
def recordField? (key : String) : Json → Option Json
  | .object fields => onlyField? key fields
  | .array [j] => some j
  | _ => none

/-- The vector of an item of a reply. -/
def itemVector? (item : Json) : Option Embedding := do
  let items ← (← recordField? "embedding" item).array?
  items.mapM single?

/-- The vector in the body of a reply. Every item must be well formed, and the first one counts. -/
def bodyVector? (body : String) : Option Embedding := do
  let j ← (Json.read body).toOption
  let items ← (← recordField? "data" j).array?
  let vectors ← items.mapM itemVector?
  vectors.head?.filter (fun v => !v.isEmpty)

/-- The vector in a reply. Only replies of success with a body have one. -/
def replyVector? (reply : VectorReply) : Option Embedding :=
  if 200 ≤ reply.status ∧ reply.status < 300 ∧ reply.status ≠ 204 then bodyVector? reply.body
  else none

/-- Whether a service can be asked for vectors at all. -/
def isEnabled (service : EmbeddingService) : Bool := !allBlank service.endpoint

/-- The embedder that asks a service. -/
def embedder (service : EmbeddingService) (send : Transport) : Embedder :=
  if service.isEnabled then
    .answering fun text => do replyVector? (← send (← service.request? text))
  else .disabled

end EmbeddingService
end MemoryGraph
