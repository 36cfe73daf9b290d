import ClusterCatalog.Bus
import ClusterCatalog.Sync.Pass
/-!
The service: a catalog, the bus and lanes through which reports reach it, the loops that run on
timers, and the calls that wait for the authority or for an install.
-/
namespace ClusterCatalog

inductive Executor where
  | reports
  | control
  deriving DecidableEq, Repr, Inhabited

def Executor.all : List Executor := [.reports, .control]

def Executor.name : Executor → String
  | .reports => "container-reports"
  | .control => "node-events"

inductive CallResult where
  | outcome (outcome : Sync.Outcome)
  | startup (result : Except String Unit)
  | pipelines (result : Except String PipelineTally)
  | inProgress (answer : Bool)

inductive Loop where
  | pass (next? : Option Nat)
  | pipelines (next? : Option Nat)
  | health (next : Nat)
  | historyFlush (next : Nat)
  deriving DecidableEq, Repr

def Loop.next? : Loop → Option Nat
  | .pass next? | .pipelines next? => next?
  | .health next | .historyFlush next => some next

inductive Owner where
  | caller (n : Nat)
  | loop (n : Nat)
  | nobody
  deriving DecidableEq, Repr

structure Waiting where
  owner : Owner
  holdsGuard : Bool
  due : Nat
  request : Sync.Request
  resume : request.Response → Sync.State → Sync.Progress Sync.State CallResult

structure Service (A : Type) where
  settings : Settings
  state : Sync.State
  authority : A
  bus : Bus Executor Unit := {}
  pools : Executor → Lanes Report
  time : Nat := 0
  loops : List Loop := []
  waiting : List Waiting := []
  results : List (Nat × CallResult) := []
  stopped : Bool := false

inductive BuildError where
  | settings (cause : Settings.Error)
  | store (cause : StoreError)
  | queueTooDeep
  deriving DecidableEq, Repr

def BuildError.message : BuildError → String
  | .settings cause => cause.message
  | .store cause => cause.message
  | .queueTooDeep =>
    "a semaphore may not have more than MAX_PERMITS permits (" ++ Nat.repr Lanes.maxDepth ++ ")"

namespace Service

variable {A ε α : Type}

def bindings : List (ReportKind × String × Executor) :=
  [(.nodeHeartbeat, "node-heartbeat", .control),
   (.containerReport, "container-report", .reports),
   (.incrementalContainerReport, "incremental-container-report", .reports),
   (.pipelineReport, "pipeline-report", .control),
   (.nodeStateChange, "node-state-change", .control)]

def wire (bus : Bus Executor Unit) (binding : ReportKind × String × Executor) : Bus Executor Unit :=
  bus.subscribe binding.1 ⟨binding.2.1, binding.2.2, ()⟩

def wiredBus : Bus Executor Unit :=
  ((bindings.foldl wire {}).setSilent .nodeHeartbeat true).setSilent .incrementalContainerReport true

def createPool (settings : Settings) : Executor → Lanes Report
  | .reports => .create Executor.reports.name settings.reportLanes.toNat settings.reportQueueDepth.toNat
  | .control => .create Executor.control.name 1 settings.reportQueueDepth.toNat

def build (settings : Settings) (authority : A) (clock : Millis) :
    Action (Layout StoreFile) BuildError (Catalog.Loaded × Service A) := do
  let _ ← (Action.ofExcept settings.validate).relabel .settings
  let (loaded, catalog) ← (Catalog.start clock).relabel .store
  if Lanes.maxDepth < settings.reportQueueDepth.toNat then throw .queueTooDeep
  return (loaded,
    { settings, authority, state := { catalog }, bus := wiredBus, pools := createPool settings })

def onCatalog (a : Action Catalog ε α) : Action (Service A) ε α :=
  a.within (fun s => s.state.catalog) fun s catalog => { s with state := { s.state with catalog } }

def publish (report : Report) (s : Service A) : Except SubmitError Nat × Service A :=
  let (result, bus, pools) := s.bus.publish (fun _ report => report) report s.pools
  (result, { s with bus, pools })

def laneIndices (s : Service A) : List (Executor × Nat) :=
  Executor.all.flatMap fun e => (List.range (s.pools e).lanes.length).map (e, ·)

def setPool (e : Executor) (pool : Lanes Report) (s : Service A) : Service A :=
  { s with pools := fun x => if x = e then pool else s.pools x }

def takeNext (s : Service A) (lane : Executor × Nat) : Service A :=
  s.setPool lane.1 ((s.pools lane.1).take s.time lane.2)

/-- Runs the job of a lane to its end before any other lane goes on. That is one of the ways in which jobs of
several lanes can be done piece by piece (`Underway.Step`). -/
def runJob (s : Service A) (lane : Executor × Nat) : Service A :=
  match (s.pools lane.1).runningIn? lane.2 with
  | none => s
  | some r =>
    match (onCatalog (Catalog.receive r.job)).run s with
    | (.ok (), s) => s.setPool lane.1 ((s.pools lane.1).finish lane.2 true)
    | (.error _, s) => s.setPool lane.1 ((s.pools lane.1).finish lane.2 false)

def runTaken (s : Service A) : Service A := s.laneIndices.foldl runJob s

def round (s : Service A) : Service A := (s.laneIndices.foldl takeNext s).runTaken

def queued (s : Service A) : Nat :=
  Executor.all.foldr (fun e n => (if (s.pools e).works then (s.pools e).queued else 0) + n) 0

/-- As many rounds as it takes to empty all lanes. -/
def settle (s : Service A) : Service A := (List.range s.queued).foldl (fun s _ => s.round) s

def flushHistory (s : Service A) : Service A :=
  ((onCatalog (Catalog.onDirectory Directory.flushHistory)).run s).2

def silence (settings : Settings) : Silence :=
  ⟨settings.staleNodeInterval.toNat, settings.deadNodeInterval.toNat⟩

def checkHealth (instant : Instant) (s : Service A) : List (NodeId × NodeHealth) × Service A :=
  let c := s.state.catalog
  let limits := silence s.settings
  (c.nodes.changes limits instant,
    { s with state := { s.state with catalog := { c with nodes := c.nodes.checkHealth limits instant } } })

/-- A round of the failure detector whose changes are published. A refused one is not repeated. -/
def healthRound (s : Service A) : Service A :=
  let (changes, s) := s.checkHealth s.state.catalog.instant
  changes.foldl (fun s (node, health) => (s.publish (.nodeStateChange node health)).2) s

end Service

end ClusterCatalog
