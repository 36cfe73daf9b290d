import ClusterCatalog.Proofs.Sync.Failure
import ClusterCatalog.Proofs.Sync.WriteThrough
/-!
A full resync whose install succeeds. Containers and pipelines are those of the snapshot, nodes are
first those of the catalog, and what only the catalog can know is kept: replicas, the health of nodes,
and sightings that were not written yet.
-/
namespace ClusterCatalog

structure Database.Keyed (db : Database) : Prop where
  containers : TypedTable.containers.OwnKeys ContainerInfo.id db
  nodes : TypedTable.nodes.OwnKeys (·.details.id) db
  pipelines : TypedTable.pipelines.OwnKeys Pipeline.id db

namespace Sync

def Housed (c : Catalog) : Prop := ∃ file, c.disk.content? c.live.location = some file

/-- The catalog `c'` has taken over the store `db` from a snapshot and has kept the rest of `c`. -/
structure Replaced (c : Catalog) (db : Database) (c' : Catalog) : Prop where
  /-- All containers of the snapshot and no others, with its metadata. -/
  containers : TypedTable.containers.list db = .ok (c'.directory.containers.toList.map fun e => (e.1, e.2.info))
  kept {id : ContainerId} {known k : Container} (before : c.directory.containers[id]? = some known)
    (after : c'.directory.containers[id]? = some k) : k.replicas = known.replicas
  added {id : ContainerId} {k : Container} (before : c.directory.containers[id]? = none)
    (after : c'.directory.containers[id]? = some k) : k.replicas = ∅
  pipelines : TypedTable.pipelines.list db = .ok c'.pipelines.toList
  /-- Whatever row the snapshot has for a known node. Of an address that was read all but the scope is kept
  (`SocketAddress.stored_of_parse?`). -/
  known {id : NodeId} {node : Node} (before : c.nodes[id]? = some node) :
    c'.nodes[id]? =
      some { node with details := { node.details with address := node.details.address.stored } }
  /-- Other nodes are known from the rows of the snapshot alone, and thus healthy. -/
  unknown {id : NodeId} (before : c.nodes[id]? = none) :
    ∃ row?, TypedTable.nodes.get db id = .ok row? ∧ c'.nodes[id]? = row?.map Node.ofRow
  pending : c'.directory.history.pending = c.directory.history.pending
  unflushed : ∀ key ∈ c.directory.history.pending,
    c'.directory.history.entries[key]? = c.directory.history.entries[key]?
  location : c.disk.fresh c.clock = .ok c'.live.location
  housed : Housed c'
  gone : c'.disk.exists? c.live.location = false
  others {name : String} (old : name ≠ c.live.location) (new : name ≠ c'.live.location) :
    c'.disk.entries[name]? = c.disk.entries[name]?
  agrees : c'.Agrees
  counter {id : ContainerId} (after : id ∈ c'.directory.containers) :
    ∃ last, Counter.current c'.live.db Counter.containerId = .ok last ∧ id.value ≤ last

theorem le_of_greatestId? {infos : List ContainerInfo} {greatest : UInt64} (h : greatestId? infos = some greatest)
    {info : ContainerInfo} (mem : info ∈ infos) : info.id.value ≤ greatest :=
  (List.max?_eq_some_iff.1 h).2 _ (List.mem_map_of_mem mem)

theorem le_current_of_raiseCounter {db db' : Database} {infos : List ContainerInfo}
    (raised : (raiseCounter infos).run db = (.ok (), db')) {info : ContainerInfo} (mem : info ∈ infos) :
    ∃ last, Counter.current db' Counter.containerId = .ok last ∧ info.id.value ≤ last := by
  unfold raiseCounter at raised
  cases greatest : greatestId? infos with
  | none =>
    rw [greatestId?, List.max?_eq_none_iff, List.map_eq_nil_iff] at greatest
    subst greatest
    cases mem
  | some id =>
    rw [greatest] at raised
    obtain ⟨last, now, le⟩ := Counter.le_current_of_observe raised
    exact ⟨last, now, UInt64.le_trans (le_of_greatestId? greatest mem) le⟩

variable {c c' : Catalog} {name : String} {file : StoreFile} {db : Database}

structure Rehoused (c : Catalog) (name : String) (disk : Layout StoreFile) : Prop where
  housed : ∃ file, disk.content? name = some file
  gone : disk.exists? c.live.location = false
  others {other : String} (old : other ≠ c.live.location) (new : other ≠ name) :
    disk.entries[other]? = c.disk.entries[other]?

theorem Housed.location_ne (housed : Housed c) (fresh : c.disk.fresh c.clock = .ok name) :
    c.live.location ≠ name := by
  rintro rfl
  obtain ⟨home, old⟩ := housed
  have absent := Layout.exists?_of_fresh fresh
  rw [Layout.exists?_of_content? old] at absent
  cases absent

theorem Housed.disk_discardStore {content : StoreFile} (housed : Housed c)
    (fresh : c.disk.fresh c.clock = .ok name) (c' : Catalog) (disk : c'.disk = c.disk.put name content) :
    (discardStore c' c.live.location).disk = ⟨(c.disk.put name content).entries.erase c.live.location⟩ := by
  have other := housed.location_ne fresh
  obtain ⟨home, old⟩ := housed
  have old' : (c.disk.put name content).content? c.live.location = some home := by
    rw [Layout.content?_put, if_neg (Ne.symm other), old]
  rw [discardStore, disk, Layout.remove_of_content? old']
  rfl

theorem rehoused_of_discardStore {content : StoreFile} (housed : Housed c)
    (fresh : c.disk.fresh c.clock = .ok name) (c' : Catalog) (disk : c'.disk = c.disk.put name content) :
    Rehoused c name (discardStore c' c.live.location).disk := by
  have other := housed.location_ne fresh
  rw [housed.disk_discardStore fresh c' disk]
  refine ⟨?_, ?_, fun {third} old new => ?_⟩
  · exact ⟨content, by simp [Layout.content?, Layout.put, other]⟩
  · simp [Layout.exists?]
  · simp [Layout.put, Std.ExtTreeMap.getElem?_erase, Std.ExtTreeMap.getElem?_insert, Ne.symm old, Ne.symm new]

/-- A store that went live has taken the place of the old one. -/
theorem replaced_of_wentLive {content : StoreFile} (agrees : c.Agrees)
    (own : ∀ (id : NodeId) (node : Node), c.nodes[id]? = some node → node.details.id = id)
    (housed : Housed c) (opened : file.load = .ok db) (keyed : db.Keyed)
    (fresh : c.disk.fresh c.clock = .ok name)
    (live : WentLive { c with disk := c.disk.put name content } name file c') : Replaced c db c' := by
  obtain ⟨db₀, incoming, n, db', rows, opened', comes, copied, read, rfl⟩ := live
  rw [opened] at opened'
  cases opened'
  have counted := comes.confined
  have inStep : NodeRegistry.InStep ⟨c.nodes, c.live.db⟩ :=
    TypedTable.mirrors_of_list_eq KeyCodec.exact_node agrees.nodes own
  have theirs := keyed.nodes.confined counted (by simp [TypedTable.nodes])
  have carried := NodeRegistry.carried_of_copyFrom inStep theirs copied read
  -- what was read of the other tables still stands in them when the store goes live
  have both : Database.Confined [.counters, .nodes] db db' :=
    (counted.mono (by simp)).trans (carried.confined.mono (by simp))
  obtain ⟨infos, containers⟩ := TypedTable.mirrors_of_values comes.infos keyed.containers
  obtain ⟨given, pipelines⟩ := TypedTable.mirrors_of_values comes.pipelines keyed.pipelines
  have directory := Directory.mirrors_reload containers comes.infos c.directory incoming.history
  have registry := PipelineRegistry.inStep_reload pipelines comes.pipelines
  have history := c.directory.history.pending_reload incoming.history
  have disk := rehoused_of_discardStore housed fresh
    (takeOver { c with disk := c.disk.put name content } ⟨name, db'⟩ incoming rows) rfl
  exact
    { containers := directory.list_eq KeyCodec.exact_container
      kept := fun before after => by
        rw [Directory.replicas_reload containers comes.infos after, before]
        rfl
      added := fun before after => by
        rw [Directory.replicas_reload containers comes.infos after, before]
        rfl
      pipelines := registry.list_eq
      known := carried.known
      unknown := fun before => by
        obtain ⟨row?, got, now⟩ := carried.unknown before
        rw [TypedTable.get_of_tables_eq (counted.tables (by simp [TypedTable.nodes]))] at got
        exact ⟨row?, got, now⟩
      pending := history.1
      unflushed := history.2
      location := fresh
      housed := disk.housed
      gone := disk.gone
      others := disk.others
      agrees := Catalog.agrees_of_mirrors (directory.confined both (by simp [TypedTable.containers]))
        carried.inStep (TypedTable.Mirrors.confined registry both (by simp [TypedTable.pipelines]))
      counter := fun after => by
        obtain ⟨info, mem, rfl⟩ := Directory.mem_of_mem_reload after
        obtain ⟨last, raised, le⟩ := le_current_of_raiseCounter comes.counter mem
        exact ⟨last, (Counter.current_congr (carried.confined.tables (by simp)) _).trans raised, le⟩ }

section Installed

variable {t : Setting} {s : State} {snapshot : Snapshot} {report : ResyncReport}

theorem replaced_of_installed {home : String} (agrees : c.Agrees)
    (own : ∀ (id : NodeId) (node : Node), c.nodes[id]? = some node → node.details.id = id)
    (housed : Housed c) (given : snapshot.file? = some file) (opened : file.load = .ok db) (keyed : db.Keyed)
    (installed : (install home snapshot).run c = (.ok report, c')) : Replaced c db c' := by
  obtain ⟨cause, breaks⟩ | ⟨report', c₁, name, disk, staged, ran, live⟩ := breaks_or_wentLive c home snapshot
  · rw [breaks.run_install home] at installed
    cases installed
  · rw [installed] at ran
    cases ran
    obtain ⟨fresh, content, -, rfl⟩ := Layout.stage_eq_ok staged
    rw [given] at live
    exact replaced_of_wentLive agrees own housed opened keyed fresh live

/-- A full resync whose install succeeds, be it asked for, made by a pass or at startup: the catalog that
the snapshot finds is replaced by what the snapshot holds, but for what only that catalog knows. Memory
and store have agreed, each node stood under its own identifier, the live store lay on disk, and the rows
of the snapshot stand under their own keys. -/
theorem replaced_of_resync (free : s.guard.taken = false) (offered : t.reply .snapshot = .ok (some snapshot))
    (given : snapshot.file? = some file) (opened : file.load = .ok db) (keyed : db.Keyed) (agrees : c.Agrees)
    (own : ∀ (id : NodeId) (node : Node), c.nodes[id]? = some node → node.details.id = id) (housed : Housed c)
    (installed : ((install t.home snapshot).run c).1 = .ok report) :
    (t.meanwhile .snapshot s.catalog = c →
      ∃ s', fullResync.finish t.respond s = (.fullResync report, s') ∧ Replaced c db s'.catalog ∧
        s'.guard.taken = false) ∧
    ∀ settings count, CallsForResync t s settings count →
      t.meanwhile .snapshot (t.meanwhile .count s.catalog) = c →
        (∃ s', (pass settings).finish t.respond s = (.fullResync report, s') ∧ Replaced c db s'.catalog ∧
          s'.guard.taken = false) ∧
        ∃ s', (startup settings).finish t.respond s = (.ok (), s') ∧ Replaced c db s'.catalog ∧
          s'.guard.taken = false := by
  rcases ran : (install t.home snapshot).run c with ⟨result, c'⟩
  obtain rfl : result = .ok report := by rwa [ran] at installed
  have replaced := replaced_of_installed agrees own housed given opened keyed ran
  constructor
  · rintro rfl
    exact ⟨_, (yields_of_installed offered ran).finish_guarded free, replaced, rfl⟩
  · rintro settings count needs rfl
    have yields := yields_of_installed offered ran
    exact ⟨⟨_, Yields.finish_pass free needs yields, replaced, rfl⟩,
      _, Yields.finish_startup free needs yields, replaced, rfl⟩

end Installed

section Mixed

def storeOf (infos : List ContainerInfo) (nodes : List NodeRow) (pipelines : List Pipeline) : Database :=
  let containers := (infos.map fun i => (i.id, i)).foldl TypedTable.containers.insertRow ∅
  let nodes := (nodes.map fun r => (r.details.id, r)).foldl TypedTable.nodes.insertRow ∅
  let pipelines := (pipelines.map fun p => (p.id, p)).foldl TypedTable.pipelines.insertRow ∅
  ((Database.empty.setTable .containers (.rows containers)).setTable .nodes (.rows nodes)).setTable .pipelines
    (.rows pipelines)

def sharedNode : Node :=
  ⟨⟨⟨⟨3⟩⟩, "three", .v6 ⟨#v[1, 0, 0, 0, 0, 0, 0, 2]⟩ 80 0 4⟩, .decommissioning, .stale, some 7⟩

def sharedReplica : Replica := ⟨⟨1⟩, ⟨⟨3⟩⟩, .quasiClosed, 0, 2, 2, ⟨⟨3⟩⟩⟩

def mixedState : State where
  catalog :=
    { clock := 5
      directory :=
        { containers := ((∅ : Std.ExtTreeMap ContainerId Container).insert ⟨1⟩
            ⟨.fresh 3 ⟨1⟩ .quasiClosed none, (∅ : Std.ExtTreeMap NodeId Replica).insert ⟨⟨3⟩⟩ sharedReplica⟩).insert ⟨2⟩
            ⟨.fresh 3 ⟨2⟩ .opened none, ∅⟩
          history := History.record {} 4 sharedReplica }
      nodes := (∅ : NodeRegistry).insert ⟨⟨3⟩⟩ sharedNode
      pipelines := (∅ : PipelineRegistry).insert ⟨⟨8⟩⟩ ⟨⟨⟨8⟩⟩, [], .opened⟩
      live := ⟨"scm-1", storeOf [.fresh 3 ⟨1⟩ .quasiClosed none, .fresh 3 ⟨2⟩ .opened none] [sharedNode.row]
        [⟨⟨⟨8⟩⟩, [], .opened⟩]⟩
      disk := Layout.put {} "scm-1" .missing }

/-- The snapshot has closed container 1, lacks container 2 and brings container 3; its row of the shared
node differs, and it knows another node and another pipeline. -/
def mixedStore : Database :=
  storeOf [⟨⟨1⟩, .closed, 9, none, 2, 2, 4⟩, .fresh 4 ⟨3⟩ .opened none]
    [⟨⟨⟨⟨3⟩⟩, "other", .unspecified⟩, .inService⟩, ⟨⟨⟨⟨4⟩⟩, "four", .unspecified⟩, .inMaintenance⟩]
    [⟨⟨⟨9⟩⟩, [⟨⟨4⟩⟩], .allocated⟩]

def mixedSnapshot : Snapshot := ⟨"snapshot", some (.database mixedStore)⟩

def mixedSetting : Setting where
  home := "stores"
  reply
    | .count => .ok (1000 : UInt64)
    | .snapshot => .ok (some mixedSnapshot)
    | _ => .error .brokenBody
  meanwhile _ c := c

theorem agrees_mixed : mixedState.catalog.Agrees where
  containers := eq_ok_of_toOption (by decide +kernel)
  nodes := eq_ok_of_toOption (by decide +kernel)
  pipelines := eq_ok_of_toOption (by decide +kernel)

theorem keyed_mixed : mixedStore.Keyed where
  containers := by
    have listed : TypedTable.containers.list mixedStore =
        .ok [(⟨1⟩, ⟨⟨1⟩, .closed, 9, none, 2, 2, 4⟩), (⟨3⟩, .fresh 4 ⟨3⟩ .opened none)] :=
      eq_ok_of_toOption (by decide +kernel)
    exact TypedTable.ownKeys_of_list KeyCodec.exact_container listed (by decide)
  nodes := by
    have listed : TypedTable.nodes.list mixedStore =
        .ok [(⟨⟨3⟩⟩, ⟨⟨⟨⟨3⟩⟩, "other", .unspecified⟩, .inService⟩),
          (⟨⟨4⟩⟩, ⟨⟨⟨⟨4⟩⟩, "four", .unspecified⟩, .inMaintenance⟩)] :=
      eq_ok_of_toOption (by decide +kernel)
    exact TypedTable.ownKeys_of_list KeyCodec.exact_node listed (by decide)
  pipelines := by
    have listed : TypedTable.pipelines.list mixedStore = .ok [(⟨⟨9⟩⟩, ⟨⟨⟨9⟩⟩, [⟨⟨4⟩⟩], .allocated⟩)] :=
      eq_ok_of_toOption (by decide +kernel)
    exact TypedTable.ownKeys_of_list KeyCodec.exact_pipeline listed (by decide)

theorem replaced_of_resync_mixed :
    ∃ report, ((install "stores" mixedSnapshot).run mixedState.catalog).1 = .ok report ∧
      (∃ s', fullResync.finish mixedSetting.respond mixedState = (.fullResync report, s') ∧
        Replaced mixedState.catalog mixedStore s'.catalog) ∧
      (∃ s', (pass {}).finish mixedSetting.respond mixedState = (.fullResync report, s') ∧
        Replaced mixedState.catalog mixedStore s'.catalog) ∧
      ∃ s', (startup {}).finish mixedSetting.respond mixedState = (.ok (), s') ∧
        Replaced mixedState.catalog mixedStore s'.catalog := by
  have own (id : NodeId) (node : Node) (known : mixedState.catalog.nodes[id]? = some node) :
      node.details.id = id := by
    obtain ⟨same, rfl⟩ : ⟨⟨3⟩⟩ = id ∧ sharedNode = node := by
      simpa [mixedState, Std.ExtTreeMap.getElem?_insert] using known
    exact same
  have housed : Housed mixedState.catalog := ⟨.missing, rfl⟩
  have opened : (StoreFile.database mixedStore).load = .ok mixedStore := by
    rw [StoreFile.load, if_pos]
    decide +kernel
  have needs : CallsForResync mixedSetting mixedState {} 1000 := ⟨rfl, by decide +kernel, rfl⟩
  have installed : ((install "stores" mixedSnapshot).run mixedState.catalog).1 = .ok ⟨"stores/scm-5", 2, 1, 1⟩ :=
    eq_ok_of_toOption (by decide +kernel)
  obtain ⟨asked, timed⟩ := replaced_of_resync (t := mixedSetting) (s := mixedState) rfl rfl rfl
    opened keyed_mixed agrees_mixed own housed installed
  obtain ⟨s₁, done₁, replaced₁, -⟩ := asked rfl
  obtain ⟨⟨s₂, done₂, replaced₂, -⟩, s₃, done₃, replaced₃, -⟩ := timed {} 1000 needs rfl
  exact ⟨_, installed, ⟨s₁, done₁, replaced₁⟩, ⟨s₂, done₂, replaced₂⟩, s₃, done₃, replaced₃⟩

end Mixed

end Sync

end ClusterCatalog
