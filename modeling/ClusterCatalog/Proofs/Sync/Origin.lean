import ClusterCatalog.Proofs.Sync.Justified
import ClusterCatalog.Proofs.Sync.Stroke
/-!
The origin of a row along any run. Each event is taken apart into strokes: a report or a pass feeds its
replicas one by one, and drops one row after another.
-/
namespace ClusterCatalog.Sync

open Directory (Single)
open Stroke (runAll)

def Operation.Drops (id : ContainerId) (node : NodeId) : Operation → Prop
  | receive (.containerReport other replicas) | fullReport other replicas =>
    other = node ∧ ∀ r ∈ replicas, r.container ≠ id
  | receive (.incrementalContainerReport other replicas) | incrementalReport other replicas =>
    other = node ∧ ∃ r ∈ replicas, r.container = id ∧ r.state = .deleted
  | receive (.nodeStateChange other .dead) | removeReplicasOf other => other = node
  | removeReplica other other' => other = id ∧ other' = node
  | _ => False

def Operation.Accompanies : Operation → Prop
  | heartbeat _ | register _ | setPipelines _ | addPipeline _ | reportPipelines .. | closePipelines _ => True
  | _ => False

def Operation.Asks (op : Operation) : Stroke → Prop
  | .single (.feed _ id x) => Heard op.told id x ∨ (op = .applyReplica x ∧ x.container = id)
  | .single (.drop id node) => op.Drops id node
  | .operation op' _ => op' = op ∨ op'.Accompanies
  | _ => False

def Brings (known : List Told) : Stroke → Prop
  | .single (.feed _ id x) => Heard known id x
  | .single (.add _) => True
  | .operation op _ => op.Accompanies
  | _ => False

def Traffic.Asks (t : Traffic) : Event → Stroke → Prop
  | .operate op => op.Asks
  | .install i home => fun stroke => ∃ snapshot, t.installing? i = some snapshot ∧ stroke = .install home snapshot
  | e => Brings (t.step e).told

def Led (fits : Stroke → Prop) (c c' : Catalog) : Prop := ∃ strokes, (∀ x ∈ strokes, fits x) ∧ runAll strokes c = c'

namespace Led

variable {ε α : Type} {fits fits' : Stroke → Prop} {a b c : Catalog}

theorem refl (fits : Stroke → Prop) (c : Catalog) : Led fits c c := ⟨[], by simp, rfl⟩

theorem trans (first : Led fits a b) (second : Led fits b c) : Led fits a c := by
  obtain ⟨early, fit, rfl⟩ := first
  obtain ⟨late, fit', rfl⟩ := second
  refine ⟨early ++ late, fun x mem => ?_, List.foldl_append⟩
  exact (List.mem_append.1 mem).elim (fit x) (fit' x)

theorem mono (le : ∀ x, fits x → fits' x) (led : Led fits a b) : Led fits' a b := by
  obtain ⟨strokes, fit, leads⟩ := led
  exact ⟨strokes, fun x mem => le x (fit x mem), leads⟩

theorem one {stroke : Stroke} (fit : fits stroke) (c : Catalog) : Led fits c (stroke.run c) :=
  ⟨[stroke], by simpa using fit, rfl⟩

theorem composes (fits : Stroke → Prop) : Action.Composes (Led fits) := ⟨refl fits, trans⟩

theorem runAll_singles (singles : List Single) (c : Catalog) : runAll (singles.map .single) c =
    let s := singles.foldl (fun s one => one.run s) ⟨c.directory, c.live.db⟩
    { c with directory := s.view, live := { c.live with db := s.db } } := by
  induction singles generalizing c with
  | nil => rfl
  | cons one rest ih => exact ih _

/-- Work on a directory that comes down to single operations. -/
theorem onDirectory {act : Action (Stored Directory) ε α} {singles : List Single}
    (fit : ∀ one ∈ singles, fits (.single one))
    (same : (act.run ⟨c.directory, c.live.db⟩).2 = singles.foldl (fun s one => one.run s) ⟨c.directory, c.live.db⟩) :
    Led fits c ((Catalog.onDirectory act).run c).2 := by
  refine ⟨singles.map .single, by simpa using fit, (runAll_singles singles c).trans ?_⟩
  rw [← same]
  rfl

variable {node : NodeId} {replicas : List ReplicaReport}

theorem fullReport (feeds : ∀ now, ∀ r ∈ replicas, fits (.single (.feed now r.container (r.toReplica node))))
    (drops : ∀ id, (∀ r ∈ replicas, r.container ≠ id) → fits (.single (.drop id node))) (c : Catalog) :
    Led fits c ((Catalog.onDirectory (Directory.fullReport c.clock node replicas : Action _ ε _)).run c).2 := by
  let s : Stored Directory := ⟨c.directory, c.live.db⟩
  let missing := (Directory.fed c.clock node replicas s).view.missing node replicas
  let singles := replicas.map (fun r => Single.feed c.clock r.container (r.toReplica node)) ++
    missing.map fun id => Single.drop id node
  have same : ((Directory.fullReport c.clock node replicas : Action _ ε _).run s).2 =
      singles.foldl (fun s one => one.run s) s := by
    obtain ⟨t, run⟩ := Directory.run_fullReport (ε := ε) c.clock node replicas s
    rw [run, List.foldl_append, List.foldl_map, List.foldl_map]
    rfl
  refine onDirectory (fun one mem => ?_) same
  obtain mem | mem := List.mem_append.1 mem
  · obtain ⟨r, listed, rfl⟩ := List.mem_map.1 mem
    exact feeds c.clock r listed
  · obtain ⟨id, left, rfl⟩ := List.mem_map.1 mem
    exact drops id (Directory.mem_missing_iff.1 left).2

theorem incrementalReport
    (feeds : ∀ now, ∀ r ∈ replicas, fits (.single (.feed now r.container (r.toReplica node))))
    (drops : ∀ r ∈ replicas, r.state = .deleted → fits (.single (.drop r.container node))) (c : Catalog) :
    Led fits c ((Catalog.onDirectory (Directory.incrementalReport c.clock node replicas : Action _ ε _)).run c).2 := by
  let s : Stored Directory := ⟨c.directory, c.live.db⟩
  have same : ((Directory.incrementalReport c.clock node replicas : Action _ ε _).run s).2 =
      (replicas.map (Directory.change c.clock node)).foldl (fun s one => one.run s) s := by
    obtain ⟨t, run⟩ := Directory.run_incrementalReport (ε := ε) c.clock node replicas s
    rw [run, List.foldl_map]
  refine onDirectory (fun one mem => ?_) same
  obtain ⟨r, listed, rfl⟩ := List.mem_map.1 mem
  unfold Directory.change
  split
  · next deleted => exact drops r listed deleted
  · exact feeds c.clock r listed

theorem removeReplicasOf (drops : ∀ id, fits (.single (.drop id node))) :
    (Catalog.onDirectory (Directory.removeReplicasOf node : Action _ ε _)).Respects (Led fits) := by
  intro c
  let s : Stored Directory := ⟨c.directory, c.live.db⟩
  have same : ((Directory.removeReplicasOf node : Action _ ε _).run s).2 =
      ((s.view.onNode node).map fun id => Single.drop id node).foldl (fun s one => one.run s) s := by
    obtain ⟨n, run⟩ := Directory.run_removeReplicasOf (ε := ε) node s
    rw [run, List.foldl_map]
  refine onDirectory (fun one mem => ?_) same
  obtain ⟨id, -, rfl⟩ := List.mem_map.1 mem
  exact drops id

section Besides

variable (besides : ∀ op whole, op.Accompanies → fits (.operation op whole))
include besides

theorem register (node : NodeId) : (Catalog.register node).Respects (Led fits) := by
  have registered : (Catalog.onNodes (NodeRegistry.register node)).Respects (Led fits) :=
    fun c => one (besides (.register node) id trivial) c
  exact (registered.relabel _).discard

theorem closePipelines (node : NodeId) : (Catalog.closePipelines node).Respects (Led fits) := by
  have closed : (Catalog.onPipelines (PipelineRegistry.closeOn node)).Respects (Led fits) :=
    fun c => one (besides (.closePipelines node) id trivial) c
  exact (closed.relabel _).discard

end Besides

/-- The replicas of a pass are fed to the container that was asked for. -/
theorem takeReplicas {known : List Told} {id : ContainerId} {replicas : List ReplicaSummary} (r : DiffReport)
    (told : Told.reply (.replicas id) (.ok replicas) ∈ known) :
    (Sync.takeReplicas id replicas r).Respects (Led (Brings known)) := by
  refine respects_takeReplicas (composes _) (register fun _ _ accompanies => accompanies) fun now c => ?_
  let singles := replicas.map fun x => Single.feed now id x.toReplica
  have same : ((Directory.withContainer id (applyReplicas now replicas r)).run ⟨c.directory, c.live.db⟩).2 =
      singles.foldl (fun s one => one.run s) ⟨c.directory, c.live.db⟩ := by
    rw [state_applyReplicas, List.foldl_map, List.foldl_map]
  refine onDirectory (fun one mem => ?_) same
  obtain ⟨x, among, rfl⟩ := List.mem_map.1 mem
  exact ⟨_, told, rfl, List.mem_map_of_mem among⟩

theorem respected : Respected fun known => Led (Brings known) where
  refl known c := .refl _ c
  trans := .trans
  mono le := by
    refine mono fun stroke brings => ?_
    match stroke with
    | .single (.feed ..) => exact brings.mono le
    | .single (.add _) | .operation .. => exact brings
  replicas r told := takeReplicas r told
  container _ := by
    refine respects_addContainer (composes _) (fun p _ c => ?_) fun info c => ?_
    · exact one (show Brings _ (.operation (.addPipeline p) id) from trivial) c
    · exact one (show Brings _ (.single (.add info)) from trivial) c
  pipelines {known given} _ c := one (show Brings known (.operation (.setPipelines given) id) from trivial) c

theorem receive (report : Report) :
    (Catalog.receive report).Respects (Led (Operation.receive report).Asks) := by
  have besides (op : Operation) (whole : ¬ op.Piecemeal) (accompanies : op.Accompanies) :
      (Operation.receive report).Asks (.operation op whole) := .inr accompanies
  refine Catalog.respects_receive (composes _) ?_ (register besides) ?_ ?_ ?_ (closePipelines besides) ?_
  · exact fun c h _ => one (besides (.heartbeat h) id trivial) c
  · rintro c node replicas rfl -
    exact fullReport (fun now r mem => .inl ⟨_, List.mem_cons_self, r, mem, rfl, rfl⟩)
      (fun id unlisted => ⟨rfl, unlisted⟩) c
  · rintro c node replicas rfl -
    exact incrementalReport (fun now r mem => .inl ⟨_, List.mem_cons_self, r, mem, rfl, rfl⟩)
      (fun r mem deleted => ⟨rfl, r, mem, rfl, deleted⟩) c
  · exact fun node entries _ c => one (besides (.reportPipelines node entries) id trivial) c
  · rintro node rfl
    exact removeReplicasOf fun id => rfl

theorem whole {op : Operation} (entire : ¬ op.Piecemeal) (c : Catalog) : Led op.Asks c (op.perform c) :=
  one (show op.Asks (.operation op entire) from .inl rfl) c

theorem perform (op : Operation) (c : Catalog) : Led op.Asks c (op.perform c) := by
  cases op with
  | receive report => exact receive report c
  | applyReplica x => exact one (show Operation.Asks _ (.single (.feed c.clock x.container x)) from .inr ⟨rfl, rfl⟩) c
  | removeReplica id node =>
    have drops : (Operation.removeReplica id node).Asks (.single (.drop id node)) := ⟨rfl, rfl⟩
    exact one drops c
  | removeReplicasOf node => exact removeReplicasOf (fun id => rfl) c
  | fullReport node replicas =>
    exact fullReport (fun now r mem => .inl ⟨_, List.mem_cons_self, r, mem, rfl, rfl⟩)
      (fun id unlisted => ⟨rfl, unlisted⟩) c
  | incrementalReport node replicas =>
    exact incrementalReport (fun now r mem => .inl ⟨_, List.mem_cons_self, r, mem, rfl, rfl⟩)
      (fun r mem deleted => ⟨rfl, r, mem, rfl, deleted⟩) c
  | _ => exact whole id c

end Led

namespace Traffic

variable {t : Traffic}

/-- One event, stroke by stroke. -/
theorem led_step (orderly : t.Orderly fun known => Led (Brings known)) (e : Event) :
    Led (t.Asks e) t.state.catalog (t.step e).state.catalog := by
  cases e with
  | operate op => exact .perform op t.state.catalog
  | install i home =>
    obtain ⟨snapshot, given, -, catalog, -⟩ | ⟨-, same⟩ := install_cases orderly i home
    · rw [step, catalog]
      exact .one (show t.Asks (.install i home) (.install home snapshot) from ⟨snapshot, given, rfl⟩) t.state.catalog
    · rw [step, same]
      exact .refl ..
  | call entry =>
    refine (stepRespects Led.respected (e := .call entry) orderly ?_ ?_).respects
    · rintro op ⟨⟩
    · rintro i home snapshot ⟨⟩
  | answer i q reply => exact (stepRespects_answer Led.respected orderly i q reply).respects
  | resume i => exact (stepRespects_resume Led.respected orderly i).respects
  | abandon i => exact (stepRespects_abandon Led.respected orderly i).respects

/-- The strokes of a run, event by event: each is one that the event may bring about, and together they do to
the catalog what the event does. -/
def Recounts : Traffic → List Event → List (List Stroke) → Prop
  | _, [], [] => True
  | t, e :: events, strokes :: rest => (∀ stroke ∈ strokes, t.Asks e stroke) ∧
      runAll strokes t.state.catalog = (t.step e).state.catalog ∧ Recounts (t.step e) events rest
  | _, _, _ => False

theorem exists_recounts (orderly : t.Orderly fun known => Led (Brings known)) (events : List Event) :
    ∃ chapters, Recounts t events chapters := by
  induction events generalizing t with
  | nil => exact ⟨[], trivial⟩
  | cons e events ih =>
    obtain ⟨strokes, asked, leads⟩ := led_step orderly e
    obtain ⟨chapters, recounts⟩ := ih (orderly_step Led.respected e orderly)
    exact ⟨strokes :: chapters, asked, leads, recounts⟩

theorem Recounts.runAll_flatten {events : List Event} {chapters : List (List Stroke)}
    (recounts : Recounts t events chapters) :
    runAll chapters.flatten t.state.catalog = (t.run events).state.catalog := by
  induction events generalizing t chapters with
  | nil =>
    cases chapters with
    | nil => rfl
    | cons strokes rest => exact recounts.elim
  | cons e events ih =>
    cases chapters with
    | nil => exact recounts.elim
    | cons strokes rest =>
      obtain ⟨-, leads, recounts⟩ := recounts
      rw [List.flatten_cons, runAll, List.foldl_append]
      exact (congrArg (runAll rest.flatten) leads).trans (ih recounts)

/-- Whatever comes and in whatever order, and whichever writes are refused: a row keeps the origin of the
replica that it was made of until it is removed, by a report, with its node or with its container, and the
rest of it is at all times that of the replica that was accepted last. -/
theorem fares_of_run (s : State) (events : List Event) :
    ∃ chapters, Recounts { state := s } events chapters ∧
      runAll chapters.flatten s.catalog = (run { state := s } events).state.catalog ∧
      ∀ id node, Fares id node s.catalog chapters.flatten := by
  have none : Orderly (fun known => Led (Brings known)) { state := s } := by simp [Orderly]
  obtain ⟨chapters, recounts⟩ := exists_recounts none events
  exact ⟨chapters, recounts, recounts.runAll_flatten, fun id node => fares id node s.catalog chapters.flatten⟩

section Kept

def copied (keyCount : UInt64) (origin : NodeId) : Replica := ⟨⟨1⟩, ⟨⟨2⟩⟩, .closing, 7, keyCount, 30, origin⟩

def keptEvents : List Event :=
  [.operate (.updateReplica (copied 3 ⟨⟨8⟩⟩)),
    .operate (.updateReplica (copied 4 ⟨⟨9⟩⟩)),
    .operate (.receive (.incrementalContainerReport ⟨⟨2⟩⟩
      [⟨⟨1⟩, .deleted, 7, 0, 0, none⟩, ⟨⟨1⟩, .closing, 7, 5, 30, some ⟨⟨9⟩⟩⟩]))]

example : rowOf ⟨1⟩ ⟨⟨2⟩⟩ (run { state := observedState } (keptEvents.take 2)).state.catalog =
    some (copied 4 ⟨⟨8⟩⟩) := by decide +kernel

example : rowOf ⟨1⟩ ⟨⟨2⟩⟩ (run { state := observedState } keptEvents).state.catalog = some (copied 5 ⟨⟨9⟩⟩) := by
  decide +kernel

end Kept

end Traffic

end ClusterCatalog.Sync
