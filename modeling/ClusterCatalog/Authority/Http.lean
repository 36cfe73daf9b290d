import ClusterCatalog.Authority.Question
import ClusterCatalog.Json.Reader
import ClusterCatalog.Text.Bytes
import ClusterCatalog.Wire.Domain
/-!
An authority that is asked over HTTP. Every question is one attempt; a failed one is left to the
next pass.
-/
namespace ClusterCatalog

open Json Wire

structure HttpResponse where
  status : Nat
  reason : String
  body : Codec.Bytes
  complete : Bool := true
  deriving DecidableEq, Repr

namespace HttpResponse

def isSuccess (r : HttpResponse) : Bool := 200 ≤ r.status && r.status < 300

def statusLine (r : HttpResponse) : String := r.status.repr ++ " " ++ r.reason

end HttpResponse

structure HttpAuthority where
  baseUrl : String
  fetch : String → Option HttpResponse
  incoming : String

namespace HttpAuthority

def hasScheme (address : List Char) : Bool :=
  "http://".toList.isPrefixOf address || "https://".toList.isPrefixOf address

def baseUrlOf (address : String) : String :=
  let trimmed := String.ofList (address.toList.reverse.dropWhile (· == '/')).reverse
  if hasScheme address.toList then trimmed else "http://" ++ trimmed

def path : Question → String
  | .count => "/scm/containers/count"
  | .containers => "/scm/containers"
  | .replicas id => "/scm/containers/" ++ Decimal.render id.value ++ "/replicas"
  | .containerWithPipeline id => "/scm/containers/" ++ Decimal.render id.value ++ "/pipeline"
  | .pipelines => "/scm/pipelines"
  | .snapshot => "/scm/snapshot"

def url (a : HttpAuthority) (q : Question) : String := a.baseUrl ++ path q

def request (a : HttpAuthority) (q : Question) : Except AuthorityError HttpResponse :=
  match a.fetch (a.url q) with
  | none => .error (.noConnection (a.url q))
  | some r => .ok r

def wellReceived (a : HttpAuthority) (q : Question) (r : HttpResponse) : Except AuthorityError HttpResponse :=
  if r.isSuccess then .ok r else .error (.refused (a.url q) r.statusLine)

def decode? {α : Type} [Wire α] (r : HttpResponse) : Option α := do
  if r.complete then read? (← parse? (← Utf8.decode r.body)) else none

def getJson {α : Type} [Wire α] (a : HttpAuthority) (q : Question) : Except AuthorityError α := do
  let r ← a.wellReceived q (← a.request q)
  match decode? r with
  | some x => return x
  | none => throw (.undecodable (a.url q))

structure Count where
  count : UInt64

instance : Wire Count where
  write c := .object [("count", write c.count)]
  read? v := do
    let [count] ← slots ["count"] v | none
    return ⟨← count.required⟩

def getSnapshot (a : HttpAuthority) : Except AuthorityError (Option Snapshot) := do
  let r ← a.request .snapshot
  if r.status = 204 then return none
  let r ← a.wellReceived .snapshot r
  if r.complete then return some ⟨a.incoming, some (if r.body.isEmpty then .missing else .garbage)⟩
  else throw .brokenBody

def answer (a : HttpAuthority) : (q : Question) → Reply q
  | .count => (a.getJson .count).map Count.count
  | .containers => a.getJson (α := List ContainerSummary) .containers
  | .replicas id => a.getJson (α := List ReplicaSummary) (.replicas id)
  | .containerWithPipeline id => a.getJson (α := ContainerWithPipeline) (.containerWithPipeline id)
  | .pipelines => a.getJson (α := List Pipeline) .pipelines
  | .snapshot => a.getSnapshot

instance : Authority HttpAuthority where
  asked a _ := a
  listDelay _ := 0
  answer := answer
  answered a _ := a

end HttpAuthority

end ClusterCatalog
