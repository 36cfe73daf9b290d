import ClusterCatalog.Service.Timer
import ClusterCatalog.Web.MediaType
import ClusterCatalog.Web.Target
import ClusterCatalog.Wire.Answer
import ClusterCatalog.Wire.Report
/-!
The web interface: reports come in, and views go out as JSON. What is wrong with the form of a
request is answered by a status without a body.
-/
namespace ClusterCatalog.Web

open Json Wire

structure Request where
  method : String
  target : Target
  contentType? : Option String
  body : String
  deriving Repr

def Request.make? (method target : String) (contentType? : Option String) (body : String) : Option Request := do
  let target ← Target.ofText? target
  if isToken method && contentType?.all (·.toList.all isHeaderChar) then
    some ⟨method, target, contentType?, body⟩
  else none

structure Answer where
  status : Nat
  body? : Option Value := none

def ok (body : Value) : Answer := ⟨200, some body⟩

inductive Route where
  | report
  | containers
  | container (part : String)
  | nodes
  | pipelines
  | syncStatus
  | syncTrigger
  | stats
  deriving DecidableEq, Repr

namespace Route

def ofPath? (path : String) : Option Route :=
  match path.splitOn "/" with
  | ["", "internal", "report"] => some .report
  | ["", "containers"] => some .containers
  | ["", "containers", part] => if part = "" then none else some (.container part)
  | ["", "nodes"] => some .nodes
  | ["", "pipelines"] => some .pipelines
  | ["", "sync", "status"] => some .syncStatus
  | ["", "sync", "trigger"] => some .syncTrigger
  | ["", "stats"] => some .stats
  | _ => none

def isPosted : Route → Bool
  | .report | .syncTrigger => true
  | _ => false

def allows (r : Route) (method : String) : Bool :=
  if r.isPosted then method == "POST" else method == "GET" || method == "HEAD"

end Route

def spelled? {α : Type} [Spelled α] (text : String) : Option α :=
  Spelled.all.find? (Spelled.spelling · == text)

def containerList (infos : List ContainerInfo) : Value :=
  .object [("count", .count infos.length), ("containers", write infos)]

def listContainers (c : Catalog) (query : List (String × String)) : Answer :=
  match word? spelled? query "state" with
  | none => ⟨400, none⟩
  | some none => ok (containerList (c.directory.list.map Container.info))
  | some (some state) => ok (containerList (c.directory.listByState state))

def noContainer (reason : String) : Value :=
  .object [("container", .null), ("history", .array []), ("error", .string reason)]

def showContainer (c : Catalog) (part : String) : Answer :=
  match pathPart? part with
  | none => ⟨400, none⟩
  | some text =>
    match ContainerId.parse text with
    | .error _ => ⟨400, some (noContainer ("invalid container id: " ++ text))⟩
    | .ok id =>
      match c.directory.get? id with
      | .error e => ⟨404, some (noContainer e.message)⟩
      | .ok container => ok (.object [("container", container.write),
          ("history", write (c.directory.history.ofContainer id))])

def listNodes (c : Catalog) (query : List (String × String)) : Answer :=
  match word? spelled? query "op_state", word? spelled? query "health" with
  | some opState?, some health? =>
    let nodes := c.nodes.matching opState? health?
    ok (.object [("count", .count nodes.length), ("nodes", write nodes)])
  | _, _ => ⟨400, none⟩

def listPipelines (c : Catalog) : Answer :=
  ok (.object [("count", .count c.pipelines.size), ("pipelines", write c.pipelines.values)])

variable {A : Type}

def showStatus (s : Service A) : Value := s.state.status.write s.state.inProgress

def showStats (s : Service A) : Answer :=
  let c := s.state.catalog
  ok (.object [("containers", .count c.directory.size), ("nodes", .count c.nodes.size),
    ("pipelines", .count c.pipelines.size), ("pending_history", .count c.directory.history.pending.size),
    ("events_published", .count s.bus.published), ("report_pool", (s.pools .reports).stats.write),
    ("control_pool", (s.pools .control).stats.write), ("sync", showStatus s)])

def maxBodySize : Nat := 2097152

def takeReport (r : Request) (s : Service A) : Answer × Service A :=
  if !((r.contentType? >>= MediaType.parse?).any MediaType.isJson) then (⟨415, none⟩, s)
  else if maxBodySize < r.body.utf8ByteSize then (⟨413, none⟩, s)
  else match Report.ofText r.body with
    | .error .badSyntax => (⟨400, none⟩, s)
    | .error .badShape => (⟨422, none⟩, s)
    | .ok (report, _) =>
      match s.publish report with
      | (.ok handlers, s) =>
        (⟨202, some (.object [("accepted", .bool true), ("handlers", .count handlers)])⟩, s)
      | (.error e, s) =>
        (⟨503, some (.object [("accepted", .bool false), ("handlers", .count 0),
          ("error", .string e.message)])⟩, s)

def passAnswer (outcome : Sync.Outcome) : Answer :=
  let status := match outcome with
    | .skipped => 409
    | .failed _ => 502
    | _ => 200
  ⟨status, some outcome.write⟩

def passCall (s : Service A) : Service.Call := ⟨true, .outcome <$> Sync.pass s.settings⟩

def respondOn [Authority A] (route : Route) (r : Request) (s : Service A) : Answer × Service A :=
  let c := s.state.catalog
  match route with
  | .report => takeReport r s
  | .containers => (listContainers c r.target.query, s)
  | .container part => (showContainer c part, s)
  | .nodes => (listNodes c r.target.query, s)
  | .pipelines => (listPipelines c, s)
  | .syncStatus => (ok (showStatus s), s)
  | .syncTrigger =>
    match s.callAll [passCall s] with
    | ([some (.outcome outcome)], s) => (passAnswer outcome, s)
    | (_, s) => (passAnswer .skipped, s)
  | .stats => (showStats s, s)

def respond [Authority A] (r : Request) (s : Service A) : Answer × Service A :=
  match Route.ofPath? r.target.path with
  | none => (⟨404, none⟩, s)
  | some route =>
    if !route.allows r.method then (⟨405, none⟩, s)
    else
      let (answer, s) := respondOn route r s
      (if r.method = "HEAD" then { answer with body? := none } else answer, s)

end ClusterCatalog.Web
