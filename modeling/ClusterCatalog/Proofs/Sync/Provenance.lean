import ClusterCatalog.Proofs.Sync.Justified
import ClusterCatalog.Proofs.Sync.Registered
/-!
Where the rows and sightings of a catalog come from, along any run. A report brings each replica to the
container that it names. A pass brings what the authority answers to the container that it has asked for,
and nothing there checks that the replicas name it too.
-/
namespace ClusterCatalog

namespace Sync

def Told.Stores (s : Sighting) : Told → Prop
  | .reply .snapshot (.ok (some snapshot)) => ∃ db rows, ((Snapshot.file? snapshot).getD .missing).load = .ok db ∧
      TypedTable.replicaHistory.values db = .ok rows ∧ s ∈ rows
  | _ => False

def Operation.Hands (x : Replica) : Operation → Prop
  | updateReplica y | applyReplica y => y = x
  | _ => False

def Comes (handed : Replica → Prop) (known : List Told) (id : ContainerId) (x : Replica) : Prop :=
  Heard known id x ∨ (x.container = id ∧ handed x)

def TracedWith (handed : Replica → Prop) (known : List Told) (c c' : Catalog) : Prop :=
  Directory.Traced (Comes handed known) (fun s => ∃ told ∈ known, told.Stores s) c.directory c'.directory

namespace TracedWith

variable {ε α : Type} {handed : Replica → Prop} {known : List Told}

theorem chained : Chained (TracedWith handed) where
  refl _ c := .refl c.directory
  trans h g := Directory.Traced.trans h g
  mono le := by
    refine Directory.Traced.mono (fun id x comes => ?_) fun s ⟨told, mem, stores⟩ => ⟨told, le mem, stores⟩
    exact comes.imp_left (Heard.mono le)

theorem composes (handed : Replica → Prop) (known : List Told) : Action.Composes (TracedWith handed known) :=
  ⟨chained.refl known, chained.trans⟩

theorem onDirectory {a : Action (Stored Directory) ε α}
    (h : a.Respects (Directory.TracedBy (Comes handed known) fun s => ∃ told ∈ known, told.Stores s)) :
    (Catalog.onDirectory a).Respects (TracedWith handed known) := fun c => h ⟨c.directory, c.live.db⟩

theorem onNodes (a : Action (Stored NodeRegistry) ε α) : (Catalog.onNodes a).Respects (TracedWith handed known) :=
  fun c => .refl c.directory

theorem onPipelines (a : Action (Stored PipelineRegistry) ε α) :
    (Catalog.onPipelines a).Respects (TracedWith handed known) := fun c => .refl c.directory

theorem register (node : NodeId) : (Catalog.register node).Respects (TracedWith handed known) :=
  ((onNodes _).relabel _).discard

theorem closePipelines (node : NodeId) : (Catalog.closePipelines node).Respects (TracedWith handed known) :=
  ((onPipelines _).relabel _).discard

/-- The replicas of a pass are brought to the container that was asked for, whatever they name. -/
theorem takeReplicas {id : ContainerId} {replicas : List ReplicaSummary} (r : DiffReport)
    (told : Told.reply (.replicas id) (.ok replicas) ∈ known) :
    (takeReplicas id replicas r).Respects (TracedWith handed known) := by
  have comes (x : ReplicaSummary) (mem : x ∈ replicas) : Comes handed known id x.toReplica :=
    .inl ⟨_, told, rfl, List.mem_map_of_mem mem⟩
  refine respects_takeReplicas (composes handed known) register fun now => onDirectory ?_
  exact Directory.traced_withContainer (respects_applyReplicas (Held.composes_traced _ _) now
    (fun x mem => Held.traced_apply now (comes x mem)) r)

theorem respected : Respected (TracedWith handed) where
  toChained := chained
  replicas r h := takeReplicas r h
  container _ := respects_addContainer (composes _ _) (fun _ _ => onPipelines _)
    fun info => onDirectory (Directory.traced_add info)
  pipelines _ := onPipelines _

theorem install {snapshot : Snapshot} (told : Told.reply .snapshot (.ok (some snapshot)) ∈ known) (home : String) :
    (install home snapshot).Respects (TracedWith handed known) := by
  intro c
  obtain ⟨cause, breaks⟩ | ⟨report, c', name, disk, -, ran, live⟩ := breaks_or_wentLive c home snapshot
  · rw [breaks.run_install home]
    exact (composes handed known).refl c
  · obtain ⟨db, opened⟩ := live.opened
    obtain ⟨incoming, read, -, reloaded⟩ := live.directory opened
    rw [ran, TracedWith, reloaded]
    refine (Directory.traced_reload c.directory incoming.infos incoming.history).mono (fun _ _ => id) fun s mem => ?_
    exact ⟨_, told, db, incoming.history, opened, read.history, mem⟩

theorem receive (report : Report) : (Catalog.receive report).Respects (TracedWith handed [.report report]) := by
  refine Catalog.respects_receive (composes handed _) ?_ register ?_ ?_ ?_ closePipelines ?_
  · exact fun c h _ => onNodes _ c
  · rintro c node replicas rfl -
    refine onDirectory (Directory.traced_fullReport c.clock fun r mem => .inl ?_) c
    exact ⟨_, List.mem_cons_self, r, mem, rfl, rfl⟩
  · rintro c node replicas rfl -
    refine onDirectory (Directory.traced_incrementalReport c.clock fun r mem => .inl ?_) c
    exact ⟨_, List.mem_cons_self, r, mem, rfl, rfl⟩
  · exact fun node entries _ => onPipelines _
  · exact fun node _ => onDirectory (Directory.traced_removeReplicasOf node)

theorem perform {op : Operation} (within : op ≠ .loadDirectory) (hands : ∀ x, op.Hands x → handed x) (c : Catalog) :
    TracedWith handed op.told c (op.perform c) := by
  have still : TracedWith handed op.told c c := .refl c.directory
  cases op with
  | loadDirectory => exact absurd rfl within
  | receive report => exact receive report c
  | create id state pipeline? => exact onDirectory (Directory.traced_create _ _ _ _) c
  | add info => exact onDirectory (Directory.traced_add info) c
  | allocate pipeline? => exact onDirectory (Directory.traced_allocate _ _) c
  | transition id event => exact onDirectory (Directory.traced_transition _ _ _) c
  | updateReplica x => exact onDirectory (Directory.traced_updateReplica _ (.inr ⟨rfl, hands x rfl⟩)) c
  | applyReplica x => exact onDirectory (Directory.traced_applyReplica _ (.inr ⟨rfl, hands x rfl⟩)) c
  | removeReplica id node => exact onDirectory (Directory.traced_removeReplica _ _) c
  | removeReplicasOf node => exact onDirectory (Directory.traced_removeReplicasOf node) c
  | fullReport node replicas =>
    refine onDirectory (Directory.traced_fullReport c.clock fun r mem => .inl ?_) c
    exact ⟨_, List.mem_cons_self, r, mem, rfl, rfl⟩
  | incrementalReport node replicas =>
    refine onDirectory (Directory.traced_incrementalReport c.clock fun r mem => .inl ?_) c
    exact ⟨_, List.mem_cons_self, r, mem, rfl, rfl⟩
  | flushHistory => exact onDirectory Directory.traced_flushHistory c
  | loadNodes => exact Catalog.respects_loadNodes (composes handed _) (fun {c _ _} _ => .refl c.directory) c
  | loadPipelines => exact Catalog.respects_loadPipelines (composes handed _) (fun {c _ _} _ => .refl c.directory) c
  | tick | heartbeat | register | setOpState | markStale | markDead | checkHealth | setPipelines
  | addPipeline | setPipelineState | reportPipelines | closePipelines | refuse => exact still

end TracedWith

def Misnamed (known : List Told) (id : ContainerId) (x : Replica) : Prop :=
  x.container ≠ id ∧ ∃ replicas, Told.reply (.replicas id) (.ok replicas) ∈ known ∧
    x ∈ List.map ReplicaSummary.toReplica replicas

theorem Told.Tells.named {told : Told} {id : ContainerId} {x : Replica} (tells : told.Tells id x) :
    x.container = id ∨ ∃ replicas, told = .reply (.replicas id) (.ok replicas) ∧
      x ∈ List.map ReplicaSummary.toReplica replicas := by
  cases told with
  | report r =>
    cases r with
    | containerReport | incrementalContainerReport =>
      obtain ⟨r, -, own, rfl⟩ := tells
      exact .inl own
    | _ => exact tells.elim
  | reply q reply =>
    cases q with
    | replicas asked =>
      cases reply with
      | ok replicas =>
        obtain ⟨rfl, mem⟩ := tells
        exact .inr ⟨replicas, rfl, mem⟩
      | error e => exact tells.elim
    | _ => exact tells.elim

/-- Nothing but a reply brings a replica to a container that it does not name. -/
theorem Comes.named {handed : Replica → Prop} {known : List Told} {id : ContainerId} {x : Replica}
    (comes : Comes handed known id x) : x.container = id ∨ Misnamed known id x := by
  by_cases own : x.container = id
  · exact .inl own
  · obtain ⟨told, mem, tells⟩ | ⟨own', -⟩ := comes
    · obtain own' | ⟨replicas, rfl, among⟩ := tells.named
      · exact absurd own' own
      · exact .inr ⟨own, replicas, mem, among⟩
    · exact absurd own' own

structure Traffic.Sourced (t : Traffic) (handed : Replica → Prop) (before : History) : Prop where
  row {id : ContainerId} {node : NodeId} {r : Replica}
    (here : Directory.row? t.state.catalog.directory.containers id node = some r) :
    r.node = node ∧ ∃ x, Comes handed t.told id x ∧ r = { x with origin := r.origin } ∧
      (r.container = id ∨ Misnamed t.told id x)
  sighting {key : ReplicaKey} {s : Sighting} (here : t.state.catalog.directory.history.entries[key]? = some s) :
    s.key = key ∧ (before.entries[key]? = some s ∨ (∃ told ∈ t.told, told.Stores s) ∨
      ∃ id x, Comes handed t.told id x ∧ x.key = key ∧ s.sequence = x.sequence ∧ s.state = x.state ∧
        (key.container = id ∨ Misnamed t.told id x))

/-- The authority answers with replicas of the container that it was asked for. -/
def Honest (known : List Told) : Prop :=
  ∀ (id : ContainerId) (replicas : List ReplicaSummary), Told.reply (.replicas id) (.ok replicas) ∈ known →
    ∀ x ∈ replicas, x.container = id

theorem Honest.not_misnamed {known : List Told} (honest : Honest known) (id : ContainerId) (x : Replica) :
    ¬ Misnamed known id x := by
  rintro ⟨other, replicas, told, mem⟩
  obtain ⟨y, among, rfl⟩ := List.mem_map.1 mem
  exact other (honest id replicas told y among)

structure Traffic.Owned (t : Traffic) (handed : Replica → Prop) (before : History) : Prop where
  row {id : ContainerId} {node : NodeId} {r : Replica}
    (here : Directory.row? t.state.catalog.directory.containers id node = some r) : r.key = ⟨id, node⟩
  sighting {key : ReplicaKey} {s : Sighting} (here : t.state.catalog.directory.history.entries[key]? = some s) :
    s.key = key ∧ (before.entries[key]? = some s ∨ (∃ told ∈ t.told, told.Stores s) ∨
      ∃ x, Comes handed t.told key.container x ∧ x.key = key)

namespace Traffic

theorem Sourced.owned {t : Traffic} {handed : Replica → Prop} {before : History} (sourced : t.Sourced handed before)
    (honest : Honest t.told) : t.Owned handed before where
  row {id node r} here := by
    obtain ⟨rfl, x, -, -, rfl | misnamed⟩ := sourced.row here
    · rfl
    · exact absurd misnamed (honest.not_misnamed id x)
  sighting {key s} here := by
    obtain ⟨own, there | stored | ⟨id, x, comes, same, -, -, rfl | misnamed⟩⟩ := sourced.sighting here
    · exact ⟨own, .inl there⟩
    · exact ⟨own, .inr (.inl stored)⟩
    · exact ⟨own, .inr (.inr ⟨x, comes, same⟩)⟩
    · exact absurd misnamed (honest.not_misnamed id x)

/-- From a start without rows: what the directory shows was there or has come. -/
theorem sourced_of_traced {t : Traffic} {handed : Replica → Prop} {c : Catalog}
    (none : ∀ id node, Directory.row? c.directory.containers id node = none) (keyed : c.directory.history.Keyed)
    (traced : TracedWith handed t.told c t.state.catalog) : t.Sourced handed c.directory.history where
  row {id node r} here := by
    obtain there | ⟨x, comes, rfl, same⟩ := traced.row here
    · rw [none] at there
      cases there
    · refine ⟨by rw [same], x, comes, same, ?_⟩
      rw [same]
      exact comes.named
  sighting {key s} here := by
    refine ⟨traced.history.keyed keyed key s here, ?_⟩
    obtain there | stored | ⟨x, ⟨id, comes⟩, rfl, sequence, state⟩ := traced.history.entry here
    · exact .inl there
    · exact .inr (.inl stored)
    · exact .inr (.inr ⟨id, x, comes, rfl, sequence, state, comes.named⟩)

/-- From a start on, and whatever reports, answers and snapshots come: each row and each sighting has its
source, and all of them belong to their containers as long as the authority answers for no container with
replicas of another. -/
theorem sourced_of_run {clock : Millis} {disk disk' : Layout StoreFile} {n : Catalog.Loaded} {c : Catalog}
    (started : (Catalog.start clock).run disk = (.ok (n, c), disk')) (guard : Guard) (status : Status)
    {events : List Event} (within : ∀ e ∈ events, e ≠ .operate .loadDirectory) :
    (run { state := ⟨c, guard, status⟩ } events).Sourced (fun x => ∃ op, .operate op ∈ events ∧ op.Hands x)
        c.directory.history ∧
      (Honest (run { state := ⟨c, guard, status⟩ } events).told →
        (run { state := ⟨c, guard, status⟩ } events).Owned (fun x => ∃ op, .operate op ∈ events ∧ op.Hands x)
          c.directory.history) := by
  have inside : ∀ e ∈ events, e.Within (fun op => op ≠ .loadDirectory ∧
      ∀ x, op.Hands x → ∃ op, .operate op ∈ events ∧ op.Hands x) True := by
    intro e mem
    cases e with
    | operate op => exact ⟨fun load => within _ mem (congrArg Event.operate load), fun x hands => ⟨op, mem, hands⟩⟩
    | _ => trivial
  have none : Orderly (TracedWith fun x => ∃ op, .operate op ∈ events ∧ op.Hands x)
      { state := ⟨c, guard, status⟩ } := by simp [Orderly]
  have keyed : c.directory.history.Keyed :=
    (Catalog.traced_of_start started).history.keyed fun key s here => by simp at here
  have traced := (run_respects TracedWith.respected (fun op c given => TracedWith.perform given.1 given.2 c)
    (fun _ known home snapshot c told => TracedWith.install told home c) inside none).respects
  have sourced := sourced_of_traced (Catalog.row?_of_start started) keyed traced
  exact ⟨sourced, sourced.owned⟩

section Stray

def strayDisk : Layout StoreFile := Layout.put {} "scm-1" .missing

def strayEvents : List Event :=
  [.operate (.create ⟨1⟩ .closing none),
    .operate (.receive (.containerReport ⟨⟨4⟩⟩ [⟨⟨1⟩, .closing, 3, 5, 50, none⟩])),
    .call .incrementalDiff,
    .answer 0 .containers (.ok [⟨⟨1⟩, .closing, 7, none, 0, 0⟩]),
    .answer 0 (.replicas ⟨1⟩) (.ok [⟨⟨2⟩, ⟨⟨3⟩⟩, .closing, 7, 4, 40, none⟩])]

theorem sourced_of_run_stray : ∃ n c disk, (Catalog.start 5).run strayDisk = (.ok (n, c), disk) ∧
    (run { state := ⟨c, {}, {}⟩ } strayEvents).Sourced (fun x => ∃ op, .operate op ∈ strayEvents ∧ op.Hands x)
      c.directory.history ∧
    (run { state := ⟨c, {}, {}⟩ } (strayEvents.take 4)).Owned
      (fun x => ∃ op, .operate op ∈ strayEvents.take 4 ∧ op.Hands x) c.directory.history := by
  obtain ⟨⟨n, c⟩, disk, started⟩ := Action.exists_of_isOk
    (show ((Catalog.start 5).run strayDisk).1.isOk = true by decide +kernel)
  have stray := (sourced_of_run started {} {} (show ∀ e ∈ strayEvents, _ by simp [strayEvents])).1
  have owned := (sourced_of_run started {} {} (show ∀ e ∈ strayEvents.take 4, _ by simp [strayEvents])).2
  refine ⟨n, c, disk, started, stray, owned fun id replicas told => ?_⟩
  -- none of what was told so far is a reply with replicas
  have other : ∀ x ∈ (run { state := ⟨c, {}, {}⟩ } (strayEvents.take 4)).told,
      x ≠ .reply (.replicas id) (.ok replicas) :=
    told_run (by simp [strayEvents, Event.told, Operation.told]) (by simp)
  exact absurd rfl (other _ told)

/-- The first container holds the row of a replica of the second, and the sighting is one of the second,
which there is not. -/
theorem held_by_another : ((Catalog.start 5).run strayDisk).1.toOption.map (fun r =>
    let d := (run { state := ⟨r.2, {}, {}⟩ } strayEvents).state.catalog.directory
    (d.containers.keys, d.list.map (·.replicas.toList.map fun e => (e.1, e.2.container)), d.history.entries.keys)) =
      some ([⟨1⟩], [[(⟨⟨3⟩⟩, ⟨2⟩), (⟨⟨4⟩⟩, ⟨1⟩)]], [⟨⟨1⟩, ⟨⟨4⟩⟩⟩, ⟨⟨2⟩, ⟨⟨3⟩⟩⟩]) := by
  decide +kernel

end Stray

end Traffic

end Sync

end ClusterCatalog
