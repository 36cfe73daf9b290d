import ClusterCatalog.Authority.Basic
import ClusterCatalog.Storage.Database
/-! What the authority can be asked, and what it answers. -/
namespace ClusterCatalog

structure Snapshot where
  path : String
  file? : Option StoreFile

inductive AuthorityError where
  | lookupTimedOut (id : ContainerId)
  | unknownContainer (id : ContainerId)
  | noConnection (url : String)
  | refused (url : String) (status : String)
  | undecodable (url : String)
  | brokenBody
  deriving DecidableEq, Repr

def AuthorityError.message : AuthorityError → String
  | .lookupTimedOut id => "replica lookup for container " ++ id.render ++ " timed out"
  | .unknownContainer id => "container " ++ id.render ++ " not found in source"
  | .noConnection url => "GET " ++ url ++ " failed"
  | .refused url status => "GET " ++ url ++ " returned " ++ status
  | .undecodable url => "decoding response of " ++ url
  | .brokenBody => "reading snapshot body"

inductive Question where
  | count
  | containers
  | replicas (id : ContainerId)
  | containerWithPipeline (id : ContainerId)
  | pipelines
  | snapshot
  deriving DecidableEq, Repr

def Question.Subject : Question → Type
  | .count => UInt64
  | .containers => List ContainerSummary
  | .replicas _ => List ReplicaSummary
  | .containerWithPipeline _ => ContainerWithPipeline
  | .pipelines => List Pipeline
  | .snapshot => Option Snapshot

abbrev Reply (q : Question) : Type := Except AuthorityError q.Subject

class Authority (A : Type) where
  asked : A → Question → A
  listDelay : A → Nat
  answer : A → (q : Question) → Reply q
  answered : A → Question → A

end ClusterCatalog
