import ClusterCatalog.Proofs.Sync.Follows
/-!
Everything that can happen to a catalog, in any order: operations on it, and calls that wait for the
authority or for an install and go on with whatever the others have left.
-/
namespace ClusterCatalog.Sync

inductive Operation where
  | tick (clock : Millis) (instant : Instant)
  | receive (report : Report)
  | create (id : ContainerId) (state : Lifecycle) (pipeline? : Option PipelineId)
  | add (info : ContainerInfo)
  | allocate (pipeline? : Option PipelineId)
  | transition (id : ContainerId) (event : Lifecycle.Event)
  | updateReplica (replica : Replica)
  | applyReplica (replica : Replica)
  | removeReplica (id : ContainerId) (node : NodeId)
  | removeReplicasOf (node : NodeId)
  | fullReport (node : NodeId) (replicas : List ReplicaReport)
  | incrementalReport (node : NodeId) (replicas : List ReplicaReport)
  | flushHistory
  | heartbeat (heartbeat : Heartbeat)
  | register (node : NodeId)
  | setOpState (id : NodeId) (state : OperationalState)
  | markStale (id : NodeId)
  | markDead (id : NodeId)
  | checkHealth (limits : Silence)
  | setPipelines (given : List Pipeline)
  | addPipeline (p : Pipeline)
  | setPipelineState (id : PipelineId) (state : PipelineState)
  | reportPipelines (node : NodeId) (entries : List PipelineReport)
  | closePipelines (node : NodeId)
  | loadDirectory
  | loadNodes
  | loadPipelines
  /-- From now on these writes are refused. -/
  | refuse (coming : TableName → List Bool)

namespace Operation

def perform (c : Catalog) : Operation → Catalog
  | tick clock instant => { c with clock, instant }
  | receive report => (Catalog.receive report).state c
  | create id state pipeline? => (Catalog.onDirectory (Directory.create c.clock id state pipeline?)).state c
  | add info => (Catalog.onDirectory (Directory.add info)).state c
  | allocate pipeline? => (Catalog.onDirectory (Directory.allocate c.clock pipeline?)).state c
  | transition id event => (Catalog.onDirectory (Directory.transition c.clock id event)).state c
  | updateReplica replica => (Catalog.onDirectory (Directory.updateReplica c.clock replica)).state c
  | applyReplica replica => (Catalog.onDirectory (Directory.applyReplica c.clock replica)).state c
  | removeReplica id node => (Catalog.onDirectory (Directory.removeReplica id node)).state c
  | removeReplicasOf node =>
    (Catalog.onDirectory (Directory.removeReplicasOf node : Action _ ContainerError Nat)).state c
  | fullReport node replicas =>
    (Catalog.onDirectory (Directory.fullReport c.clock node replicas : Action _ ContainerError Tally)).state c
  | incrementalReport node replicas =>
    (Catalog.onDirectory
      (Directory.incrementalReport c.clock node replicas : Action _ ContainerError Tally)).state c
  | flushHistory => (Catalog.onDirectory Directory.flushHistory).state c
  | heartbeat h => (Catalog.onNodes (NodeRegistry.heartbeat c.instant h)).state c
  | register node => (Catalog.onNodes (NodeRegistry.register node)).state c
  | setOpState id state => (Catalog.onNodes (NodeRegistry.setOpState id state)).state c
  | markStale id => (Catalog.onNodes (NodeRegistry.markStale id)).state c
  | markDead id => (Catalog.onNodes (NodeRegistry.markDead id)).state c
  | checkHealth limits => { c with nodes := c.nodes.checkHealth limits c.instant }
  | setPipelines given => (Catalog.onPipelines (PipelineRegistry.replaceWith given)).state c
  | addPipeline p => (Catalog.onPipelines (PipelineRegistry.add p)).state c
  | setPipelineState id state => (Catalog.onPipelines (PipelineRegistry.setState id state)).state c
  | reportPipelines node entries => (Catalog.onPipelines (PipelineRegistry.report node entries)).state c
  | closePipelines node => (Catalog.onPipelines (PipelineRegistry.closeOn node)).state c
  | loadDirectory => Catalog.loadDirectory.state c
  | loadNodes => Catalog.loadNodes.state c
  | loadPipelines => Catalog.loadPipelines.state c
  | refuse coming => { c with live := { c.live with db := { c.live.db with refusals := coming } } }

def told : Operation → List Told
  | receive report => [.report report]
  | fullReport node replicas => [.report (.containerReport node replicas)]
  | incrementalReport node replicas => [.report (.incrementalContainerReport node replicas)]
  | _ => []

end Operation

inductive Entry where
  | pass (settings : Settings)
  | fullResync
  | incrementalDiff
  | startup (settings : Settings)
  | syncPipelines

namespace Entry

def activity : Entry → Activity State Unit
  | pass settings => (fun _ => ()) <$> Sync.pass settings
  | fullResync => (fun _ => ()) <$> Sync.fullResync
  | incrementalDiff => (fun _ => ()) <$> Sync.incrementalDiff
  | startup settings => (fun _ => ()) <$> Sync.startup settings
  | syncPipelines => (fun _ => ()) <$> Sync.syncPipelines

def holdsGuard : Entry → Bool
  | syncPipelines => false
  | _ => true

end Entry

inductive Call where
  | waiting (holdsGuard : Bool) (request : Request) (resume : request.Response → Activity State Unit)
  | ready (holdsGuard : Bool) (go : Activity State Unit)

structure Traffic where
  state : State
  calls : List Call := []
  told : List Told := []

inductive Event where
  | operate (op : Operation)
  | call (entry : Entry)
  | answer (i : Nat) (q : Question) (reply : Reply q)
  | install (i : Nat) (home : String)
  | resume (i : Nat)
  /-- A call is given up; an install that it has asked for is done all the same. -/
  | abandon (i : Nat)

namespace Traffic

def releasedIf (holdsGuard : Bool) (s : State) : State := if holdsGuard then s.release else s

def proceed (t : Traffic) (holdsGuard : Bool) : Progress State Unit → Traffic
  | .finished () s => { t with state := s }
  | .waiting r s resume => { t with state := s, calls := t.calls ++ [.waiting holdsGuard r resume] }

def operate (t : Traffic) (op : Operation) : Traffic :=
  { t with state := { t.state with catalog := op.perform t.state.catalog }, told := t.told ++ op.told }

def call (t : Traffic) (entry : Entry) : Traffic := t.proceed entry.holdsGuard (entry.activity t.state)

def answer (t : Traffic) (i : Nat) (q : Question) (reply : Reply q) : Traffic :=
  match t.calls[i]? with
  | some (.waiting holdsGuard (.ask asked) resume) =>
    if same : q = asked then
      proceed { t with calls := t.calls.eraseIdx i, told := t.told ++ [.reply q reply] } holdsGuard
        (resume (same ▸ reply) t.state)
    else t
  | _ => t

def install (t : Traffic) (i : Nat) (home : String) : Traffic :=
  match t.calls[i]? with
  | some (.waiting holdsGuard (.install snapshot) resume) =>
    let (result, catalog) := (Sync.install home snapshot).run t.state.catalog
    { t with
      state := { t.state with catalog }
      calls := t.calls.set i (.ready holdsGuard (resume result)) }
  | _ => t

def resume (t : Traffic) (i : Nat) : Traffic :=
  match t.calls[i]? with
  | some (.ready holdsGuard go) => proceed { t with calls := t.calls.eraseIdx i } holdsGuard (go t.state)
  | _ => t

def abandon (t : Traffic) (i : Nat) : Traffic :=
  match t.calls[i]? with
  | some (.waiting holdsGuard (.install snapshot) _) =>
    { t with
      state := releasedIf holdsGuard t.state
      calls := t.calls.set i (.waiting false (.install snapshot) fun _ => pure ()) }
  | some (.waiting holdsGuard (.ask _) _) | some (.ready holdsGuard _) =>
    { t with state := releasedIf holdsGuard t.state, calls := t.calls.eraseIdx i }
  | none => t

def step (t : Traffic) : Event → Traffic
  | .operate op => t.operate op
  | .call entry => t.call entry
  | .answer i q reply => t.answer i q reply
  | .install i home => t.install i home
  | .resume i => t.resume i
  | .abandon i => t.abandon i

def run (t : Traffic) (events : List Event) : Traffic := events.foldl step t

end Traffic

def Event.Within (ops : Operation → Prop) (installs : Prop) : Event → Prop
  | operate op => ops op
  | install .. => installs
  | _ => True

def Event.told : Event → List Told
  | operate op => op.told
  | answer _ q reply => [.reply q reply]
  | _ => []

def Call.Respects (C : List Told → Catalog → Catalog → Prop) (known : List Told) : Call → Prop
  | .waiting _ r resume => r.Founded known ∧
      ∀ response, (resume response).Follows (OnCatalog C) anyResult (known ++ r.told response)
  | .ready _ go => go.Follows (OnCatalog C) anyResult known

namespace Traffic

variable {C : List Told → Catalog → Catalog → Prop} {t : Traffic}

theorem respects_mono (respected : Respected C) {known more : List Told} (le : known ⊆ more) {call : Call}
    (h : call.Respects C known) : call.Respects C more := by
  cases call with
  | waiting guard r resume =>
    refine ⟨h.1.mono le, fun response s => (h.2 response s).mono respected.chained ?_⟩
    exact List.append_subset.2 ⟨List.Subset.trans le (List.subset_append_left ..), List.subset_append_right ..⟩
  | ready guard go => exact fun s => (h s).mono respected.chained le

def Orderly (C : List Told → Catalog → Catalog → Prop) (t : Traffic) : Prop :=
  ∀ call ∈ t.calls, call.Respects C t.told

theorem told_proceed (t : Traffic) (guard : Bool) (p : Progress State Unit) :
    (t.proceed guard p).told = t.told := by
  cases p <;> rfl

/-- A call that goes on respects the relation up to its next wait, and after it. -/
theorem proceed_respects (guard : Bool) {p : Progress State Unit} {s : State} (orderly : t.Orderly C)
    (h : p.Follows (OnCatalog C) anyResult t.told s) :
    C t.told s.catalog (t.proceed guard p).state.catalog ∧ (t.proceed guard p).Orderly C := by
  cases p with
  | finished a u => exact ⟨h.1, orderly⟩
  | waiting r u resume =>
    refine ⟨h.1, fun call mem => ?_⟩
    obtain mem | rfl := List.mem_append.1 mem |>.imp_right List.mem_singleton.1
    · exact orderly call mem
    · exact ⟨h.2.1, fun response => h.2.2 response⟩

theorem catalog_releasedIf (guard : Bool) (s : State) : (releasedIf guard s).catalog = s.catalog := by
  cases guard <;> rfl

theorem follows_entry (respected : Respected C) (known : List Told) (entry : Entry) :
    entry.activity.Follows (OnCatalog C) anyResult known := by
  cases entry with
  | pass settings => exact (respected.pass settings).map respected.chained _
  | fullResync => exact respected.fullResync.map respected.chained _
  | incrementalDiff => exact respected.incrementalDiff.map respected.chained _
  | startup settings => exact (respected.startup settings).map respected.chained _
  | syncPipelines => exact respected.syncPipelines.map respected.chained _

theorem orderly_of_subset (respected : Respected C) {u : Traffic} (orderly : t.Orderly C)
    (calls : u.calls ⊆ t.calls) (told : t.told ⊆ u.told) : u.Orderly C :=
  fun call mem => respects_mono respected told (orderly call (calls mem))

structure StepRespects (C : List Told → Catalog → Catalog → Prop) (t u : Traffic) : Prop where
  respects : C u.told t.state.catalog u.state.catalog
  orderly : u.Orderly C
  told : t.told ⊆ u.told

theorem stepRespects_refl (respected : Respected C) (orderly : t.Orderly C) : StepRespects C t t :=
  ⟨respected.refl .., orderly, List.Subset.refl _⟩

theorem stepRespects_proceed {u : Traffic} {guard : Bool} {p : Progress State Unit} (orderly : u.Orderly C)
    (told : t.told ⊆ u.told) (h : p.Follows (OnCatalog C) anyResult u.told t.state) :
    StepRespects C t (u.proceed guard p) := by
  obtain ⟨respects, after⟩ := proceed_respects guard orderly h
  exact ⟨by rwa [told_proceed], after, by rwa [told_proceed]⟩

theorem stepRespects_answer (respected : Respected C) (orderly : t.Orderly C) (i : Nat) (q : Question)
    (reply : Reply q) : StepRespects C t (t.answer i q reply) := by
  unfold answer
  split
  · next holdsGuard asked resume found =>
    split
    · next same =>
      subst same
      have mine := (orderly _ (List.mem_of_getElem? found)).2 reply t.state
      refine stepRespects_proceed ?_ (List.subset_append_left ..) mine
      exact orderly_of_subset respected orderly (List.eraseIdx_subset ..) (List.subset_append_left ..)
    · exact stepRespects_refl respected orderly
  · exact stepRespects_refl respected orderly

/-- Whatever an install does to the catalog, the calls still respect the relation. -/
theorem orderly_install (orderly : t.Orderly C) (i : Nat) (home : String) : (t.install i home).Orderly C := by
  unfold Traffic.install
  split
  · next holdsGuard snapshot resume found =>
    intro call mem
    obtain mem | rfl := List.mem_or_eq_of_mem_set mem
    · exact orderly call mem
    · have after : (resume _).Follows (OnCatalog C) anyResult (t.told ++ []) :=
        (orderly _ (List.mem_of_getElem? found)).2 ((Sync.install home snapshot).run t.state.catalog).1
      rwa [List.append_nil] at after
  · exact orderly

def installing? (t : Traffic) (i : Nat) : Option Snapshot :=
  match t.calls[i]? with
  | some (.waiting _ (.install snapshot) _) => some snapshot
  | _ => none

/-- An install takes one snapshot that was told, or there is none to install. -/
theorem install_cases (orderly : t.Orderly C) (i : Nat) (home : String) :
    (∃ snapshot, t.installing? i = some snapshot ∧ Told.reply .snapshot (.ok (some snapshot)) ∈ t.told ∧
      (t.install i home).state.catalog = ((Sync.install home snapshot).run t.state.catalog).2 ∧
      (t.install i home).told = t.told) ∨
    (t.installing? i = none ∧ t.install i home = t) := by
  unfold installing? Traffic.install
  split
  · next holdsGuard snapshot resume found =>
    exact .inl ⟨snapshot, rfl, (orderly _ (List.mem_of_getElem? found)).1, rfl, rfl⟩
  · exact .inr ⟨rfl, rfl⟩

theorem stepRespects_install (respected : Respected C) (orderly : t.Orderly C) (i : Nat) (home : String)
    (install : ∀ snapshot, t.installing? i = some snapshot → Told.reply .snapshot (.ok (some snapshot)) ∈ t.told →
      C t.told t.state.catalog ((Sync.install home snapshot).run t.state.catalog).2) :
    StepRespects C t (t.install i home) := by
  obtain ⟨snapshot, given, told, catalog, same⟩ | ⟨-, same⟩ := install_cases orderly i home
  · refine ⟨?_, orderly_install orderly i home, by rw [same]; exact List.Subset.refl _⟩
    rw [same, catalog]
    exact install snapshot given told
  · rw [same]
    exact stepRespects_refl respected orderly

theorem stepRespects_resume (respected : Respected C) (orderly : t.Orderly C) (i : Nat) :
    StepRespects C t (t.resume i) := by
  unfold resume
  split
  · next holdsGuard go found =>
    refine stepRespects_proceed ?_ (List.Subset.refl _) (orderly _ (List.mem_of_getElem? found) t.state)
    exact orderly_of_subset respected orderly (List.eraseIdx_subset ..) (List.Subset.refl _)
  · exact stepRespects_refl respected orderly

theorem stepRespects_abandon (respected : Respected C) (orderly : t.Orderly C) (i : Nat) :
    StepRespects C t (t.abandon i) := by
  have stays (guard : Bool) : C t.told t.state.catalog (releasedIf guard t.state).catalog := by
    rw [catalog_releasedIf]
    exact respected.refl ..
  unfold abandon
  split
  · next holdsGuard snapshot resume found =>
    refine ⟨stays _, fun call mem => ?_, List.Subset.refl _⟩
    obtain mem | rfl := List.mem_or_eq_of_mem_set mem
    · exact orderly call mem
    · exact ⟨(orderly _ (List.mem_of_getElem? found)).1, fun _ =>
        Activity.follows_pure respected.chained trivial⟩
  all_goals first
    | exact stepRespects_refl respected orderly
    | exact ⟨stays _, orderly_of_subset respected orderly (List.eraseIdx_subset ..) (List.Subset.refl _),
        List.Subset.refl _⟩

/-- What the operation or the install of an event respects is respected by the event. -/
theorem stepRespects (respected : Respected C) {e : Event} (orderly : t.Orderly C)
    (operate : ∀ op, e = .operate op → C op.told t.state.catalog (op.perform t.state.catalog))
    (install : ∀ i home snapshot, e = .install i home → t.installing? i = some snapshot →
      Told.reply .snapshot (.ok (some snapshot)) ∈ t.told →
        C t.told t.state.catalog ((Sync.install home snapshot).run t.state.catalog).2) :
    StepRespects C t (t.step e) := by
  cases e with
  | operate op =>
    exact ⟨respected.mono (List.subset_append_right ..) (operate op rfl),
      orderly_of_subset respected orderly (List.Subset.refl _) (List.subset_append_left ..),
      List.subset_append_left ..⟩
  | call entry =>
    exact stepRespects_proceed orderly (List.Subset.refl _) (follows_entry respected t.told entry t.state)
  | answer i q reply => exact stepRespects_answer respected orderly i q reply
  | install i home => exact stepRespects_install respected orderly i home fun snapshot => install i home snapshot rfl
  | resume i => exact stepRespects_resume respected orderly i
  | abandon i => exact stepRespects_abandon respected orderly i

/-- Calls respect a relation of catalogs whatever the others do. -/
theorem orderly_step (respected : Respected C) (e : Event) (orderly : t.Orderly C) : (t.step e).Orderly C := by
  cases e with
  | operate op => exact orderly_of_subset respected orderly (List.Subset.refl _) (List.subset_append_left ..)
  | install i home => exact orderly_install orderly i home
  | call entry => exact (proceed_respects _ orderly (follows_entry respected t.told entry t.state)).2
  | answer i q reply => exact (stepRespects_answer respected orderly i q reply).orderly
  | resume i => exact (stepRespects_resume respected orderly i).orderly
  | abandon i => exact (stepRespects_abandon respected orderly i).orderly

/-- What every operation, every install and every step of a pass respects holds along any run. -/
theorem run_respects (respected : Respected C) {ops : Operation → Prop} {installs : Prop}
    (operate : ∀ op c, ops op → C op.told c (op.perform c))
    (install : installs → ∀ known home snapshot c,
      Told.reply .snapshot (.ok (some snapshot)) ∈ known → C known c ((Sync.install home snapshot).run c).2)
    {events : List Event} (within : ∀ e ∈ events, e.Within ops installs) (orderly : t.Orderly C) :
    StepRespects C t (t.run events) := by
  induction events generalizing t with
  | nil => exact stepRespects_refl respected orderly
  | cons e events ih =>
    have first : StepRespects C t (t.step e) := by
      have inside := within e List.mem_cons_self
      refine stepRespects respected orderly ?_ ?_
      · rintro op rfl
        exact operate op _ inside
      · rintro i home snapshot rfl -
        exact install inside _ home snapshot _
    have rest := ih (fun e' mem => within e' (List.mem_cons_of_mem e mem)) first.orderly
    -- the first event knew less than is known in the end
    exact ⟨respected.trans (respected.mono rest.told first.respects) rest.respects, rest.orderly,
      List.Subset.trans first.told rest.told⟩

/-- What is known after an event was known before, or the event has brought it. -/
theorem told_step {e : Event} {x : Told} (mem : x ∈ (t.step e).told) : x ∈ t.told ∨ x ∈ e.told := by
  cases e with
  | operate op => exact List.mem_append.1 mem
  | call entry =>
    rw [step, call, told_proceed] at mem
    exact .inl mem
  | answer i q reply =>
    change x ∈ (t.answer i q reply).told at mem
    unfold answer at mem
    split at mem
    · split at mem
      · rw [told_proceed] at mem
        exact List.mem_append.1 mem
      · exact .inl mem
    · exact .inl mem
  | install i home =>
    change x ∈ (t.install i home).told at mem
    unfold install at mem
    split at mem <;> exact .inl mem
  | resume i =>
    change x ∈ (t.resume i).told at mem
    unfold resume at mem
    split at mem
    · rw [told_proceed] at mem
      exact .inl mem
    · exact .inl mem
  | abandon i =>
    change x ∈ (t.abandon i).told at mem
    unfold abandon at mem
    split at mem <;> exact .inl mem

/-- All that is known is as it was known before and as the events bring it. -/
theorem told_run {p : Told → Prop} {events : List Event} (brings : ∀ e ∈ events, ∀ x ∈ e.told, p x)
    (known : ∀ x ∈ t.told, p x) : ∀ x ∈ (t.run events).told, p x := by
  induction events generalizing t with
  | nil => exact known
  | cons e events ih =>
    refine ih (fun e' mem => brings e' (List.mem_cons_of_mem e mem)) fun x mem => ?_
    obtain old | new := told_step mem
    · exact known x old
    · exact brings e List.mem_cons_self x new

end Traffic

end ClusterCatalog.Sync
