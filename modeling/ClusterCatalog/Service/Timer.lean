import ClusterCatalog.Service.Basic
/-!
Time. The service moves from one moment at which something is due to the next: a loop runs, or a
call that waited goes on. After each of them the lanes are emptied.
-/
namespace ClusterCatalog

namespace Sync.Progress

variable {A σ α : Type}

def go [Authority A] (a : A) : Progress σ α → Progress σ α × A
  | .finished result s => (.finished result s, a)
  | .waiting (.ask q) s resume =>
    let a := Authority.asked a q
    if q = .containers ∧ Authority.listDelay a ≠ 0 then (.waiting (.ask q) s resume, a)
    else (resume (Authority.answer a q) s).go (Authority.answered a q)
  | .waiting (.install snapshot) s resume => (.waiting (.install snapshot) s resume, a)

end Sync.Progress

namespace Service

variable {A : Type}

def setLoop (i : Nat) (loop : Loop) (s : Service A) : Service A := { s with loops := s.loops.set i loop }

def restartLoop (i : Nat) (s : Service A) : Service A :=
  match s.loops[i]? with
  | some (.pass _) => s.setLoop i (.pass (some (s.time + s.settings.syncInterval.toNat)))
  | some (.pipelines _) => s.setLoop i (.pipelines (some (s.time + s.settings.pipelineSyncInterval.toNat)))
  | _ => s

def ended (owner : Owner) (result : CallResult) (s : Service A) : Service A :=
  match owner with
  | .caller n => { s with results := s.results ++ [(n, result)] }
  | .loop i => s.restartLoop i
  | .nobody => s

variable [Authority A]

def proceed (owner : Owner) (holdsGuard : Bool) (p : Sync.Progress Sync.State CallResult) (s : Service A) :
    Service A :=
  match p.go s.authority with
  | (.finished result state, authority) => { s with state, authority }.ended owner result
  | (.waiting request state resume, authority) =>
    let delay := match request with
      | .ask _ => Authority.listDelay authority
      | .install _ => 0
    { s with
      state, authority
      waiting := s.waiting ++ [⟨owner, holdsGuard, s.time + delay, request, resume⟩] }

def wake (w : Waiting) (s : Service A) : Service A :=
  match w with
  | ⟨owner, holdsGuard, _, .ask q, resume⟩ =>
    let reply := Authority.answer s.authority q
    { s with authority := Authority.answered s.authority q }.proceed owner holdsGuard (resume reply s.state)
  | ⟨owner, holdsGuard, _, .install snapshot, resume⟩ =>
    let s := s.settle
    let (result, catalog) := (Sync.install s.settings.storeDirectory snapshot).run s.state.catalog
    s.proceed owner holdsGuard (resume result { s.state with catalog })

def begin (owner : Owner) (holdsGuard : Bool) (call : Sync.Activity Sync.State CallResult) (s : Service A) :
    Service A :=
  s.proceed owner holdsGuard (call s.state)

def runLoop (i : Nat) (s : Service A) : Service A :=
  match s.loops[i]? with
  | some (.pass _) =>
    (s.setLoop i (.pass none)).begin (.loop i) true (.outcome <$> Sync.pass s.settings)
  | some (.pipelines _) =>
    (s.setLoop i (.pipelines none)).begin (.loop i) false (.pipelines <$> Sync.syncPipelines)
  | some (.health _) =>
    (s.setLoop i (.health (s.time + s.settings.healthCheckInterval.toNat))).healthRound
  | some (.historyFlush _) =>
    (s.setLoop i (.historyFlush (s.time + s.settings.historyFlushInterval.toNat))).flushHistory
  | none => s

inductive Event where
  | wake (i : Nat)
  | loop (i : Nat)
  deriving DecidableEq, Repr

omit [Authority A] in
def events (s : Service A) : List (Nat × Event) :=
  s.waiting.zipIdx.map (fun (w, i) => (w.due, .wake i)) ++
    s.loops.zipIdx.filterMap fun (loop, i) => loop.next?.map (·, .loop i)

omit [Authority A] in
def next? (limit : Nat) (s : Service A) : Option (Nat × Event) :=
  (s.events.filter (·.1 ≤ limit)).foldl (fun first? e =>
    match first? with
    | some first => if e.1 < first.1 then some e else some first
    | none => some e) none

def happen (s : Service A) : Event → Service A
  | .wake i => match s.waiting[i]? with
    | some w => { s with waiting := s.waiting.eraseIdx i }.wake w
    | none => s
  | .loop i => s.runLoop i

def runEvents (limit : Nat) : Nat → Service A → Service A
  | 0, s => s
  | fuel + 1, s =>
    match s.next? limit with
    | none => { s with time := max s.time limit }
    | some (due, e) => runEvents limit fuel ({ s with time := max s.time due }.happen e).settle

/-- Between now and a limit every loop runs at most once a millisecond, and each of its runs waits
at most twice. -/
def runUntil (limit : Nat) (s : Service A) : Service A :=
  s.runEvents limit (4 * (limit - s.time + 2) * (s.loops.length + s.waiting.length + 1))

def advance (ms : Nat) (s : Service A) : Service A := s.settle.runUntil (s.time + ms)

def elapse (ms : Nat) (s : Service A) : Service A :=
  let c := s.state.catalog
  let c := { c with clock := c.clock + UInt64.ofNat ms, instant := c.instant + ms }
  { s with state := { s.state with catalog := c } }.advance ms

omit [Authority A] in
def callerDue? (s : Service A) : Option Nat :=
  ((s.waiting.filter fun w => match w.owner with
    | .caller _ => true
    | _ => false).map Waiting.due).min?

def finishCalls (s : Service A) : Service A :=
  (List.range (2 * s.waiting.length)).foldl (fun s _ =>
    match s.callerDue? with
    | some due => s.runUntil due
    | none => s) s

structure Call where
  holdsGuard : Bool
  activity : Sync.Activity Sync.State CallResult

def callAll (calls : List Call) (s : Service A) : List (Option CallResult) × Service A :=
  let started := calls.zipIdx.foldl (fun s (c, i) => s.begin (.caller i) c.holdsGuard c.activity) s
  let s := started.finishCalls
  (calls.zipIdx.map fun (_, i) => s.results.lookup i, { s with results := [] })

omit [Authority A] in
/-- The loops of a service that starts now. The first pass waits for its initial delay and the first
sync of pipelines for an interval; health and history are seen to at once. -/
def freshLoops (s : Service A) : List Loop :=
  [.pass (some (s.time + s.settings.syncInitialDelay.toNat)),
   .pipelines (some (s.time + s.settings.pipelineSyncInterval.toNat)),
   .health s.time, .historyFlush s.time]

def startLoops (s : Service A) : Service A :=
  if s.stopped then s
  else
    let first := s.loops.length
    let s := { s with loops := s.loops ++ s.freshLoops }
    (s.runLoop (first + 2)).runLoop (first + 3)

/-- Starts the lanes, syncs, and then starts the loops. Every lane takes a job before the loops run,
and works on it after them. -/
def start (s : Service A) : Service A :=
  let s := { s with pools := fun e => (s.pools e).start }
  let s := (s.callAll [⟨true, .startup <$> Sync.startup s.settings⟩]).2
  ((s.laneIndices.foldl takeNext s).startLoops.runTaken).settle

/-- Gives up the calls of the loops. An install that is under way goes on without them. -/
def cancelLoops (s : Service A) : Service A :=
  let ofLoop := fun (w : Waiting) => match w.owner with
    | .loop _ => true
    | _ => false
  let released := s.waiting.any fun w => ofLoop w && w.holdsGuard
  let waiting := s.waiting.filterMap fun w =>
    if ofLoop w then match w.request with
      | .ask _ => none
      | .install _ => some { w with owner := .nobody, resume := fun _ state => .finished (.startup (.ok ())) state }
    else some w
  { s with
    loops := []
    waiting
    stopped := true
    state := if released then s.state.release else s.state }

def waitForInstall (s : Service A) : Service A :=
  let installs := s.waiting.filter fun w => match w.request with
    | .install _ => true
    | .ask _ => false
  installs.foldl (fun s w => s.wake w) { s with waiting := s.waiting.filter fun w => match w.request with
    | .install _ => false
    | .ask _ => true }

def stop (s : Service A) : Service A :=
  let s := s.cancelLoops
  let s := { s with bus := s.bus.close, pools := fun e => (s.pools e).close }.settle
  ({ s with pools := fun e => (s.pools e).abandon }.waitForInstall).flushHistory

end Service

end ClusterCatalog
