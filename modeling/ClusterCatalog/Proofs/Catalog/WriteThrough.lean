import ClusterCatalog.Catalog.Basic
import ClusterCatalog.Proofs.Container.WriteThrough
import ClusterCatalog.Proofs.Node.Known
import ClusterCatalog.Proofs.Pipeline.WriteThrough
/-!
The three views of a catalog stay in step with the live store: what is done on one of them writes to
no table of another. A catalog that is started from a proper store is in step with it.
-/
namespace ClusterCatalog

open TypedTable (lengthBound)

structure Database.Proper (db : Database) : Prop where
  containers : TypedTable.containers.OwnKeys ContainerInfo.id db
  nodes : TypedTable.nodes.OwnKeys (·.details.id) db
  pipelines : TypedTable.pipelines.OwnKeys Pipeline.id db
  counter : Counter.Works db Counter.containerId

def StoreFile.Proper : StoreFile → Prop
  | database db => db.Proper
  | _ => True

theorem TypedTable.ownKeys_empty {κ α : Type} (t : TypedTable κ α) (idOf : α → κ) : t.OwnKeys idOf .empty := by
  intro rows table k a shown
  cases table
  simp [lookup] at shown

theorem Database.proper_empty : Database.empty.Proper where
  containers := TypedTable.ownKeys_empty _ _
  nodes := TypedTable.ownKeys_empty _ _
  pipelines := TypedTable.ownKeys_empty _ _
  counter := ⟨⟨⟨∅, rfl⟩, List.not_mem_nil⟩, 0, rfl⟩

/-- A store is opened as it was left, or a new one is made. -/
theorem StoreFile.load_eq_ok {file : StoreFile} {db : Database} (loaded : file.load = .ok db) :
    (file = .missing ∧ db = .empty) ∨ (file = .database db ∧ db.sound = true) := by
  cases file with
  | missing =>
    cases loaded
    exact .inl ⟨rfl, rfl⟩
  | garbage => cases loaded
  | database db' =>
    change (if db'.sound then _ else _) = _ at loaded
    split at loaded
    · next sound =>
      cases loaded
      exact .inr ⟨rfl, sound⟩
    · cases loaded

theorem StoreFile.load_database {db : Database} (sound : db.sound = true) : (database db).load = .ok db := if_pos sound

theorem StoreFile.Proper.load {file : StoreFile} (proper : file.Proper) {db : Database}
    (loaded : file.load = .ok db) : db.Proper := by
  obtain ⟨rfl, rfl⟩ | ⟨rfl, -⟩ := StoreFile.load_eq_ok loaded
  · exact Database.proper_empty
  · exact proper

def Report.Fits : Report → Prop
  | nodeHeartbeat h => (Utf8.encode h.details.hostname).length < lengthBound
  | pipelineReport _ entries => ∀ r ∈ entries, r.members.length + 1 < lengthBound
  | _ => True

theorem Directory.mirrors_load {d d' : Directory} {db : Database} {n : Nat}
    (own : TypedTable.containers.OwnKeys ContainerInfo.id db) (loaded : d.load db = .ok (n, d')) :
    TypedTable.containers.Mirrors ContainerInfo.id db fun id => (d'.containers[id]?).map Container.info := by
  obtain ⟨infos, read, loaded⟩ := exists_of_bind_eq_ok loaded
  obtain ⟨history, -, loaded⟩ := exists_of_bind_eq_ok loaded
  cases loaded
  obtain ⟨view, mirrors⟩ := TypedTable.mirrors_of_values read own
  exact mirrors_reload mirrors read d history

theorem NodeRegistry.inStep_load {nodes nodes' : NodeRegistry} {db : Database} {n : Nat}
    (own : TypedTable.nodes.OwnKeys (·.details.id) db)
    (covered : ∀ view, TypedTable.nodes.Mirrors (·.details.id) db view → ∀ id : NodeId, view id = none →
      nodes[id]? = none)
    (loaded : nodes.load db = .ok (n, nodes')) : InStep ⟨nodes', db⟩ := by
  obtain ⟨rows, read, loaded⟩ := exists_of_bind_eq_ok loaded
  cases loaded
  obtain ⟨view, mirrors⟩ := TypedTable.mirrors_of_values read own
  exact inStep_reload mirrors read (covered view mirrors)

theorem PipelineRegistry.inStep_load {pipelines : PipelineRegistry} {db : Database} {n : Nat}
    (own : TypedTable.pipelines.OwnKeys Pipeline.id db) (loaded : load db = .ok (n, pipelines)) :
    InStep ⟨pipelines, db⟩ := by
  obtain ⟨rows, read, loaded⟩ := exists_of_bind_eq_ok loaded
  cases loaded
  obtain ⟨view, mirrors⟩ := TypedTable.mirrors_of_values read own
  exact inStep_reload mirrors read

namespace Catalog

structure InStep (c : Catalog) : Prop where
  directory : Directory.InStep ⟨c.directory, c.live.db⟩
  nodes : NodeRegistry.InStep ⟨c.nodes, c.live.db⟩
  pipelines : PipelineRegistry.InStep ⟨c.pipelines, c.live.db⟩

def Keeps (c c' : Catalog) : Prop := c.InStep → c'.InStep

theorem composes : Action.Composes Keeps where
  refl _ := id
  trans h g := g ∘ h

variable {ε α : Type}

theorem keeps_onDirectory {a : Action (Stored Directory) ε α} (h : a.Respects Directory.Keeps) :
    (onDirectory a).Respects Keeps := by
  intro c inStep
  obtain ⟨after, confined⟩ := h _ inStep.directory
  exact ⟨after, TypedTable.Mirrors.confined inStep.nodes confined (by simp [TypedTable.nodes]),
    TypedTable.Mirrors.confined inStep.pipelines confined (by simp [TypedTable.pipelines])⟩

theorem keeps_onNodes {a : Action (Stored NodeRegistry) ε α} (h : a.Respects NodeRegistry.Keeps) :
    (onNodes a).Respects Keeps := by
  intro c inStep
  obtain ⟨after, confined⟩ := h _ inStep.nodes
  exact ⟨⟨inStep.directory.containers.confined confined (by simp [TypedTable.containers]),
      inStep.directory.counter.confined confined (by simp)⟩, after,
    TypedTable.Mirrors.confined inStep.pipelines confined (by simp [TypedTable.pipelines])⟩

theorem keeps_onPipelines {a : Action (Stored PipelineRegistry) ε α} (h : a.Respects PipelineRegistry.Keeps) :
    (onPipelines a).Respects Keeps := by
  intro c inStep
  obtain ⟨after, confined⟩ := h _ inStep.pipelines
  exact ⟨⟨inStep.directory.containers.confined confined (by simp [TypedTable.containers]),
      inStep.directory.counter.confined confined (by simp)⟩,
    TypedTable.Mirrors.confined inStep.nodes confined (by simp [TypedTable.nodes]), after⟩

theorem keeps_register (node : NodeId) : (register node).Respects Keeps :=
  ((keeps_onNodes (NodeRegistry.keeps_register node)).relabel _).discard

theorem keeps_closePipelines (node : NodeId) : (closePipelines node).Respects Keeps :=
  ((keeps_onPipelines (PipelineRegistry.keeps_closeOn node)).relabel _).discard

theorem mem_of_register {node : NodeId} {c c' : Catalog} (ran : (register node).run c = (.ok (), c')) :
    node ∈ c'.nodes := by
  obtain ⟨new, registered⟩ := Action.discard_eq_ok ran
  have done := Action.relabel_eq_ok registered
  rw [onNodes, Action.run_within] at done
  obtain ⟨ok, rfl⟩ := Prod.mk.inj done
  exact NodeRegistry.mem_of_register (Prod.ext ok rfl)

/-- What follows the registration of a node is done only where the node is known. -/
theorem respects_registered {R : Catalog → Catalog → Prop} (composes : Action.Composes R) {α : Type} {node : NodeId}
    {next : Action Catalog CatalogError α} (registered : (register node).Respects R)
    (after : ∀ c : Catalog, node ∈ c.nodes → R c (next.run c).2) : (register node >>= fun _ => next).Respects R := by
  intro c
  have first := registered c
  rcases ran : (register node).run c with ⟨e | _, c'⟩ <;> rw [ran] at first
  · rw [Action.run_bind_error ran]
    exact first
  · rw [Action.run_bind_ok ran]
    exact composes.trans first (after c' (mem_of_register ran))

/-- A report is taken in by the registry that it is about, after its node was registered. -/
theorem respects_receive {R : Catalog → Catalog → Prop} (composes : Action.Composes R) {report : Report}
    (heartbeat : ∀ (c : Catalog) h, report = .nodeHeartbeat h →
      R c ((onNodes (NodeRegistry.heartbeat c.instant h)).run c).2)
    (registered : ∀ node, (register node).Respects R)
    (full : ∀ (c : Catalog) (node : NodeId) replicas, report = .containerReport node replicas → node ∈ c.nodes →
      R c ((onDirectory (Directory.fullReport c.clock node replicas) : Action _ CatalogError _).run c).2)
    (incremental : ∀ (c : Catalog) (node : NodeId) replicas, report = .incrementalContainerReport node replicas →
      node ∈ c.nodes →
      R c ((onDirectory (Directory.incrementalReport c.clock node replicas) : Action _ CatalogError _).run c).2)
    (pipelines : ∀ node entries, report = .pipelineReport node entries →
      (onPipelines (PipelineRegistry.report node entries)).Respects R)
    (closed : ∀ node, (closePipelines node).Respects R)
    (dropped : ∀ node, report = .nodeStateChange node .dead →
      (onDirectory (Directory.removeReplicasOf node) : Action _ CatalogError _).Respects R) :
    (receive report).Respects R := by
  cases report with
  | nodeHeartbeat h =>
    intro c
    rw [receive, Action.run_bind_ok (Action.run_get c), Action.run_discard]
    exact heartbeat c h rfl
  | containerReport node replicas =>
    refine respects_registered composes (registered node) fun c known => ?_
    rw [Action.run_bind_ok (Action.run_get c), Action.run_discard]
    exact full c node replicas rfl known
  | incrementalContainerReport node replicas =>
    refine respects_registered composes (registered node) fun c known => ?_
    rw [Action.run_bind_ok (Action.run_get c), Action.run_discard]
    exact incremental c node replicas rfl known
  | pipelineReport node entries =>
    refine (registered node).bind composes fun _ => ?_
    exact ((pipelines node entries rfl).relabel _).discard
  | nodeStateChange node health =>
    cases health with
    | stale => exact closed node
    | dead =>
      refine (closed node).bind composes fun _ => ?_
      exact (dropped node rfl).discard
    | healthy | healthyReadonly => exact Action.respects_pure composes _

theorem keeps_receive {report : Report} (fit : report.Fits) : (receive report).Respects Keeps := by
  refine respects_receive composes ?_ keeps_register ?_ ?_ ?_ keeps_closePipelines ?_
  · rintro c h rfl
    exact keeps_onNodes (NodeRegistry.keeps_heartbeat fit c.instant) c
  · exact fun c node replicas _ _ => keeps_onDirectory (Directory.keeps_fullReport c.clock node replicas) c
  · exact fun c node replicas _ _ => keeps_onDirectory (Directory.keeps_incrementalReport c.clock node replicas) c
  · rintro node entries rfl
    exact keeps_onPipelines (PipelineRegistry.keeps_report node fit)
  · exact fun node _ => keeps_onDirectory (Directory.keeps_removeReplicasOf node)

section Load

variable {R : Catalog → Catalog → Prop} (composes : Action.Composes R)

include composes

theorem respects_loadDirectory
    (taken : ∀ {c n directory}, c.directory.load c.live.db = .ok (n, directory) → R c { c with directory }) :
    loadDirectory.Respects R := by
  intro c
  rw [loadDirectory, Action.run_bind_ok (Action.run_get c)]
  cases loaded : c.directory.load c.live.db with
  | error e => exact composes.refl c
  | ok r => exact taken loaded

theorem respects_loadNodes
    (taken : ∀ {c n nodes}, c.nodes.load c.live.db = .ok (n, nodes) → R c { c with nodes }) :
    loadNodes.Respects R := by
  intro c
  rw [loadNodes, Action.run_bind_ok (Action.run_get c)]
  cases loaded : c.nodes.load c.live.db with
  | error e => exact composes.refl c
  | ok r => exact taken loaded

theorem respects_loadPipelines
    (taken : ∀ {c n pipelines}, PipelineRegistry.load c.live.db = .ok (n, pipelines) → R c { c with pipelines }) :
    loadPipelines.Respects R := by
  intro c
  rw [loadPipelines, Action.run_bind_ok (Action.run_get c)]
  cases loaded : PipelineRegistry.load c.live.db with
  | error e => exact composes.refl c
  | ok r => exact taken loaded

end Load

theorem keeps_loadDirectory : loadDirectory.Respects Keeps := by
  refine respects_loadDirectory composes fun loaded inStep => ?_
  have mirrors := Directory.mirrors_load inStep.directory.containers.ownKeys loaded
  exact ⟨⟨mirrors, inStep.directory.counter⟩, inStep.nodes, inStep.pipelines⟩

theorem keeps_loadNodes : loadNodes.Respects Keeps := by
  refine respects_loadNodes composes fun {c _ _} loaded inStep => ?_
  have covered : ∀ view, TypedTable.nodes.Mirrors (·.details.id) c.live.db view →
      ∀ id : NodeId, view id = none → c.nodes[id]? = none := by
    intro view mirrors id absent
    rw [mirrors.unique inStep.nodes] at absent
    simpa using absent
  have nodes := NodeRegistry.inStep_load (TypedTable.Mirrors.ownKeys inStep.nodes) covered loaded
  exact ⟨inStep.directory, nodes, inStep.pipelines⟩

theorem keeps_loadPipelines : loadPipelines.Respects Keeps := by
  refine respects_loadPipelines composes fun loaded inStep => ?_
  have pipelines := PipelineRegistry.inStep_load (TypedTable.Mirrors.ownKeys inStep.pipelines) loaded
  exact ⟨inStep.directory, inStep.nodes, pipelines⟩

theorem loadNodes_eq_ok {c c' : Catalog} {n : Nat} (h : loadNodes.run c = (.ok n, c')) :
    ∃ nodes, c.nodes.load c.live.db = .ok (n, nodes) ∧ c' = { c with nodes } := by
  rw [loadNodes, Action.run_bind_ok (Action.run_get c)] at h
  obtain ⟨⟨m, nodes⟩, u, ran, h⟩ := Action.run_bind_eq_ok h
  obtain ⟨loaded, rfl⟩ := Prod.mk.inj ran
  cases h
  exact ⟨nodes, loaded, rfl⟩

theorem loadDirectory_eq_ok {c c' : Catalog} {n : Nat} (h : loadDirectory.run c = (.ok n, c')) :
    ∃ directory, c.directory.load c.live.db = .ok (n, directory) ∧ c' = { c with directory } := by
  rw [loadDirectory, Action.run_bind_ok (Action.run_get c)] at h
  obtain ⟨⟨m, directory⟩, u, ran, h⟩ := Action.run_bind_eq_ok h
  obtain ⟨loaded, rfl⟩ := Prod.mk.inj ran
  cases h
  exact ⟨directory, loaded, rfl⟩

theorem loadPipelines_eq_ok {c c' : Catalog} {n : Nat} (h : loadPipelines.run c = (.ok n, c')) :
    ∃ pipelines, PipelineRegistry.load c.live.db = .ok (n, pipelines) ∧ c' = { c with pipelines } := by
  rw [loadPipelines, Action.run_bind_ok (Action.run_get c)] at h
  obtain ⟨⟨m, pipelines⟩, u, ran, h⟩ := Action.run_bind_eq_ok h
  obtain ⟨loaded, rfl⟩ := Prod.mk.inj ran
  cases h
  exact ⟨pipelines, loaded, rfl⟩

theorem load_eq_ok {c c' : Catalog} {n : Loaded} (h : load.run c = (.ok n, c')) :
    ∃ nodes directory pipelines, c.nodes.load c.live.db = .ok (n.nodes, nodes) ∧
      c.directory.load c.live.db = .ok (n.containers, directory) ∧
      PipelineRegistry.load c.live.db = .ok (n.pipelines, pipelines) ∧
      c' = { c with nodes, directory, pipelines } := by
  obtain ⟨_, c₁, ran₁, h⟩ := Action.run_bind_eq_ok h
  obtain ⟨_, c₂, ran₂, h⟩ := Action.run_bind_eq_ok h
  obtain ⟨_, c₃, ran₃, h⟩ := Action.run_bind_eq_ok h
  cases h
  obtain ⟨nodes, loaded₁, rfl⟩ := loadNodes_eq_ok ran₁
  obtain ⟨directory, loaded₂, rfl⟩ := loadDirectory_eq_ok ran₂
  obtain ⟨pipelines, loaded₃, rfl⟩ := loadPipelines_eq_ok ran₃
  exact ⟨nodes, directory, pipelines, loaded₁, loaded₂, loaded₃, rfl⟩

theorem inStep_of_load {c c' : Catalog} (proper : c.live.db.Proper) (none : c.nodes = ∅) {n : Loaded}
    (h : load.run c = (.ok n, c')) : c'.InStep := by
  obtain ⟨nodes, directory, pipelines, loaded₁, loaded₂, loaded₃, rfl⟩ := load_eq_ok h
  refine ⟨⟨Directory.mirrors_load proper.containers loaded₂, proper.counter⟩, ?_, ?_⟩
  · exact NodeRegistry.inStep_load proper.nodes (fun _ _ id _ => by rw [none]; rfl) loaded₁
  · exact PipelineRegistry.inStep_load proper.pipelines loaded₃

/-- The last known store is opened, and it stands on disk from then on. -/
theorem openLast_eq_ok {clock : Millis} {disk disk' : Layout StoreFile} {live : Live}
    (opened : (openLast clock).run disk = (.ok live, disk')) :
    disk.lastKnown clock = .ok live.location ∧
      ((disk.content? live.location).getD .missing).load = .ok live.db ∧
      disk' = disk.put live.location (.database live.db) := by
  rw [openLast, Action.run_bind_ok (Action.run_get disk)] at opened
  obtain ⟨name, u, named, opened⟩ := Action.run_bind_eq_ok opened
  obtain ⟨known, rfl⟩ := Prod.mk.inj named
  obtain ⟨_, u, made, opened⟩ := Action.run_bind_eq_ok opened
  obtain ⟨-, rfl⟩ := Prod.mk.inj made
  obtain ⟨db, u, loaded, opened⟩ := Action.run_bind_eq_ok opened
  obtain ⟨read, rfl⟩ := Prod.mk.inj loaded
  obtain ⟨_, u, written, opened⟩ := Action.run_bind_eq_ok opened
  obtain ⟨-, rfl⟩ := Prod.mk.inj written
  cases opened
  exact ⟨known, read, rfl⟩

/-- A catalog is started from what its live store holds. -/
theorem start_eq_ok {clock : Millis} {disk disk' : Layout StoreFile} {n : Loaded} {c : Catalog}
    (started : (start clock).run disk = (.ok (n, c), disk')) :
    ∃ live u, (openLast clock).run disk = (.ok live, u) ∧ load.run { clock, live, disk := u } = (.ok n, c) := by
  obtain ⟨live, u, opened, started⟩ := Action.run_bind_eq_ok started
  obtain ⟨disk', v, got, started⟩ := Action.run_bind_eq_ok started
  obtain ⟨same, rfl⟩ := Prod.mk.inj got
  cases same
  split at started
  · next ran =>
    cases started
    exact ⟨live, _, opened, ran⟩
  · cases started

theorem proper_of_openLast {clock : Millis} {disk disk' : Layout StoreFile} {live : Live}
    (proper : ∀ name file, disk.content? name = some file → file.Proper)
    (opened : (openLast clock).run disk = (.ok live, disk')) : live.db.Proper := by
  obtain ⟨-, loaded, -⟩ := openLast_eq_ok opened
  cases content : disk.content? live.location with
  | none =>
    rw [content] at loaded
    have missing : StoreFile.missing.Proper := trivial
    exact missing.load loaded
  | some file =>
    rw [content] at loaded
    exact (proper live.location file content).load loaded

/-- A catalog that is started is in step with the last known store. -/
theorem inStep_of_start {clock : Millis} {disk disk' : Layout StoreFile} {n : Loaded} {c : Catalog}
    (proper : ∀ name file, disk.content? name = some file → file.Proper)
    (started : (start clock).run disk = (.ok (n, c), disk')) : c.InStep := by
  obtain ⟨live, u, opened, loaded⟩ := start_eq_ok started
  exact inStep_of_load (proper_of_openLast proper opened) rfl loaded

/-- The decoded tables of the live store are what is in memory: the metadata of the containers, the
details and operational states of the nodes, their addresses as they are stored, and the pipelines. Of an
address that was read that is all but the scope (`SocketAddress.stored_of_parse?`). -/
structure Agrees (c : Catalog) : Prop where
  containers : TypedTable.containers.list c.live.db =
    .ok (c.directory.containers.toList.map fun e => (e.1, e.2.info))
  nodes : TypedTable.nodes.list c.live.db = .ok (c.nodes.toList.map fun e => (e.1, e.2.row.stored))
  pipelines : TypedTable.pipelines.list c.live.db = .ok c.pipelines.toList

theorem agrees_of_mirrors {c : Catalog}
    (containers : TypedTable.containers.Mirrors ContainerInfo.id c.live.db fun id =>
      (c.directory.containers[id]?).map Container.info)
    (nodes : NodeRegistry.InStep ⟨c.nodes, c.live.db⟩) (pipelines : PipelineRegistry.InStep ⟨c.pipelines, c.live.db⟩) :
    c.Agrees where
  containers := containers.list_eq KeyCodec.exact_container
  nodes := TypedTable.Mirrors.list_eq KeyCodec.exact_node nodes
  pipelines := pipelines.list_eq

theorem InStep.agrees {c : Catalog} (inStep : c.InStep) : c.Agrees :=
  agrees_of_mirrors inStep.directory.containers inStep.nodes inStep.pipelines

end Catalog

end ClusterCatalog
