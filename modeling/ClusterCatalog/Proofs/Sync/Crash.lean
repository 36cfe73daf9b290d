import ClusterCatalog.Proofs.Sync.Handover
/-!
A process that dies in the middle of an install, and the restart that opens the last known store. From
the move of the snapshot on, this is the staged store; the rows of the nodes come into it later.
-/
namespace ClusterCatalog

def Database.NodesIn (old db : Database) : Prop :=
  ∀ id row, TypedTable.nodes.get old id = .ok (some row) → TypedTable.nodes.get db id = .ok (some row)

def StoreFile.LoadsTo (file : StoreFile) (p : Database → Prop) : Prop := ∃ db, file.load = .ok db ∧ p db

theorem StoreFile.sound_of_load {file : StoreFile} {db : Database} (loaded : file.load = .ok db) :
    db.sound = true := by
  obtain ⟨-, rfl⟩ | ⟨-, sound⟩ := StoreFile.load_eq_ok loaded
  · decide
  · exact sound

theorem StoreFile.loadsTo_iff {file : StoreFile} {db : Database} (loaded : file.load = .ok db)
    (p : Database → Prop) : file.LoadsTo p ↔ p db := by
  constructor
  · rintro ⟨db', loaded', h⟩
    rw [loaded] at loaded'
    cases loaded'
    exact h
  · exact fun h => ⟨db, loaded, h⟩

namespace Catalog

def Recovers (disk : Layout StoreFile) (p : Database → Prop) : Prop :=
  ∀ clock, ∃ live disk', (openLast clock).run disk = (.ok live, disk') ∧ p live.db

theorem run_openLast {disk : Layout StoreFile} {stamp : UInt64} {name : String} {file : StoreFile}
    (latest : disk.latest? = some (stamp, name)) (content : disk.content? name = some file) (clock : Millis) :
    ((openLast clock).run disk).1 = file.load.map fun db => ⟨name, db⟩ := by
  have named : disk.lastKnown clock = .ok name := by rw [Layout.lastKnown, latest]
  have given : (Action.ofExcept (disk.lastKnown clock) : Action (Layout StoreFile) StoreError String).run disk =
      (.ok name, disk) := by
    rw [named]
    rfl
  rw [openLast, Action.run_bind_ok (Action.run_get disk), Action.run_bind_ok given, content]
  dsimp only [Option.getD_some]
  cases loaded : file.load <;> rfl

theorem recovers_iff_loadsTo {disk : Layout StoreFile} {stamp : UInt64} {name : String} {file : StoreFile}
    (latest : disk.latest? = some (stamp, name)) (content : disk.content? name = some file) (p : Database → Prop) :
    Recovers disk p ↔ file.LoadsTo p := by
  constructor
  · intro recovers
    obtain ⟨live, disk', ran, h⟩ := recovers 0
    have opened := run_openLast latest content 0
    rw [ran] at opened
    obtain ⟨db, loaded, rfl⟩ := exists_of_map_eq_ok opened.symm
    exact ⟨db, loaded, h⟩
  · rintro ⟨db, loaded, h⟩ clock
    have opened := run_openLast latest content clock
    rw [loaded] at opened
    exact ⟨⟨name, db⟩, _, Prod.ext opened rfl, h⟩

def Foremost (c : Catalog) : Prop := ∃ stamp, c.disk.latest? = some (stamp, c.live.location)

theorem Foremost.housed {c : Catalog} (foremost : c.Foremost) : Sync.Housed c :=
  foremost.elim fun _ latest => Layout.exists_content?_of_latest? latest

theorem Foremost.recovers_park {c : Catalog} (foremost : c.Foremost) (p : Database → Prop) :
    Recovers c.park p ↔ (StoreFile.database c.live.db).LoadsTo p := by
  obtain ⟨home, stored⟩ := foremost.housed
  obtain ⟨stamp, latest⟩ := foremost
  have stays : c.park.latest? = some (stamp, c.live.location) := by
    rw [park, Layout.latest?_put_of_content? stored, latest]
  refine recovers_iff_loadsTo stays ?_ p
  rw [park, Layout.content?_put, if_pos rfl]

theorem foremost_of_openLast {clock : Millis} {disk disk' : Layout StoreFile} {live : Live}
    (opened : (openLast clock).run disk = (.ok live, disk')) :
    ∃ stamp, disk'.latest? = some (stamp, live.location) := by
  obtain ⟨known, -, rfl⟩ := openLast_eq_ok opened
  -- the last known store is opened again, or there was none and a fresh name is the last from now on
  cases latest : disk.latest? with
  | some p =>
    obtain ⟨stamp, last⟩ := p
    rw [Layout.lastKnown, latest] at known
    cases known
    obtain ⟨content, stored⟩ := Layout.exists_content?_of_latest? latest
    exact ⟨stamp, by rw [Layout.latest?_put_of_content? stored, latest]⟩
  | none =>
    rw [Layout.lastKnown, latest] at known
    exact Layout.latest?_put_of_fresh known _

structure InPlace (c c' : Catalog) : Prop where
  disk : c'.disk = c.disk
  location : c'.live.location = c.live.location

theorem InPlace.foremost {c c' : Catalog} (h : InPlace c c') (foremost : c.Foremost) : c'.Foremost := by
  unfold Foremost
  rwa [h.disk, h.location]

theorem composes_inPlace : Action.Composes InPlace where
  refl _ := ⟨rfl, rfl⟩
  trans h g := ⟨g.disk.trans h.disk, g.location.trans h.location⟩

section InPlace

variable {ε α : Type}

theorem inPlace_onDirectory (a : Action (Stored Directory) ε α) : (onDirectory a).Respects InPlace :=
  fun _ => ⟨rfl, rfl⟩

theorem inPlace_onNodes (a : Action (Stored NodeRegistry) ε α) : (onNodes a).Respects InPlace :=
  fun _ => ⟨rfl, rfl⟩

theorem inPlace_onPipelines (a : Action (Stored PipelineRegistry) ε α) : (onPipelines a).Respects InPlace :=
  fun _ => ⟨rfl, rfl⟩

theorem inPlace_register (node : NodeId) : (register node).Respects InPlace :=
  ((inPlace_onNodes _).relabel _).discard

theorem inPlace_closePipelines (node : NodeId) : (closePipelines node).Respects InPlace :=
  ((inPlace_onPipelines _).relabel _).discard

theorem inPlace_receive (report : Report) : (receive report).Respects InPlace :=
  respects_receive composes_inPlace (fun c _ _ => inPlace_onNodes _ c) inPlace_register
    (fun c _ _ _ _ => inPlace_onDirectory _ c) (fun c _ _ _ _ => inPlace_onDirectory _ c)
    (fun _ _ _ => inPlace_onPipelines _) inPlace_closePipelines fun _ _ => inPlace_onDirectory _

theorem inPlace_loadDirectory : loadDirectory.Respects InPlace :=
  respects_loadDirectory composes_inPlace fun _ => ⟨rfl, rfl⟩

theorem inPlace_loadNodes : loadNodes.Respects InPlace :=
  respects_loadNodes composes_inPlace fun _ => ⟨rfl, rfl⟩

theorem inPlace_loadPipelines : loadPipelines.Respects InPlace :=
  respects_loadPipelines composes_inPlace fun _ => ⟨rfl, rfl⟩

theorem inPlace_load : load.Respects InPlace :=
  inPlace_loadNodes.bind composes_inPlace fun _ => inPlace_loadDirectory.bind composes_inPlace fun _ =>
    inPlace_loadPipelines.bind composes_inPlace fun _ => Action.respects_pure composes_inPlace _

end InPlace

theorem foremost_of_start {clock : Millis} {disk disk' : Layout StoreFile} {n : Loaded} {c : Catalog}
    (started : (start clock).run disk = (.ok (n, c), disk')) : c.Foremost := by
  obtain ⟨live, u, opened, loaded⟩ := start_eq_ok started
  have inPlace := inPlace_load { clock, live, disk := u }
  rw [loaded] at inPlace
  exact inPlace.foremost (foremost_of_openLast opened)

end Catalog

namespace Sync

open Catalog (Recovers InPlace)

/-- The points between the steps of an install. -/
inductive Stage where
  | before
  | moved
  | opened
  | counted
  | carried
  | installed
  deriving DecidableEq, Repr

/-- The staged store is the last known one, and the rows of the nodes are not in it yet. -/
def Stage.Exposed : Stage → Prop
  | moved | opened | counted => True
  | before | carried | installed => False

structure Complete (old : Database) (file : StoreFile) (db : Database) : Prop where
  whole : db = old ∨ ∃ next, file.load = .ok next ∧ Database.Confined [.counters, .nodes] next db
  nodes : old.NodesIn db

inductive Holds (old : Database) (file : StoreFile) : Stage → StoreFile → Prop where
  | moved : Holds old file .moved file
  | opened {db : Database} (opens : file.load = .ok db) : Holds old file .opened (.database db)
  | counted {db : Database} {incoming : Incoming} (opens : file.load = .ok db)
      (comes : Incoming.Comes db incoming) : Holds old file .counted (.database incoming.db)
  | carried {db db' : Database} {incoming : Incoming} {n : Nat} (opens : file.load = .ok db)
      (comes : Incoming.Comes db incoming)
      (copies : (TypedTable.nodes.copyFrom old).run incoming.db = (.ok n, db')) :
      Holds old file .carried (.database db')

inductive Crash (c : Catalog) (snapshot : Snapshot) : Stage → Layout StoreFile → Prop where
  | before : Crash c snapshot .before c.park
  | staged {stage : Stage} {name : String} {disk : Layout StoreFile} {content : StoreFile}
      (moves : c.disk.stage c.clock snapshot.file? = .ok (name, disk))
      (holds : Holds c.live.db (snapshot.file?.getD .missing) stage content) :
      Crash c snapshot stage (Catalog.park { c with disk } |>.put name content)
  | installed {home : String} {report : ResyncReport} {c' : Catalog}
      (ran : (install home snapshot).run c = (.ok report, c')) : Crash c snapshot .installed c'.park

theorem staysSound_raiseCounter (infos : List ContainerInfo) :
    (raiseCounter infos).Respects Database.StaysSound :=
  respects_raiseCounter Database.composes_staysSound (fun _ _ => Database.staysSound_write _ _) infos

variable {c c' : Catalog} {snapshot : Snapshot} {name : String} {file content : StoreFile} {stage : Stage}
  {db db' old : Database} {incoming : Incoming}

theorem Incoming.Comes.sound (comes : Comes db incoming) (sound : db.sound = true) : incoming.db.sound = true := by
  have stays := staysSound_raiseCounter incoming.infos db
  rw [comes.counter] at stays
  exact stays sound

theorem Incoming.Comes.nodesIn_iff (comes : Comes db incoming) : old.NodesIn incoming.db ↔ old.NodesIn db := by
  have same (id : NodeId) : TypedTable.nodes.get incoming.db id = TypedTable.nodes.get db id :=
    TypedTable.get_of_tables_eq (comes.confined.tables (by simp [TypedTable.nodes]))
  simp only [Database.NodesIn, same]

theorem sound_of_copyFrom {n : Nat} (copies : (TypedTable.nodes.copyFrom old).run db = (.ok n, db'))
    (sound : db.sound = true) : db'.sound = true := by
  have stays : (TypedTable.nodes.copyFrom old).Respects Database.StaysSound :=
    Action.Respects.bind Database.composes_staysSound
      (Action.respects_still Database.composes_staysSound fun _ => rfl) fun rows => Database.staysSound_write _ _
  have after := stays db
  rw [copies] at after
  exact after sound

theorem complete_iff (opens : file.load = .ok db) (confined : Database.Confined [.counters, .nodes] db db') :
    Complete old file db' ↔ old.NodesIn db' :=
  ⟨Complete.nodes, fun nodes => ⟨.inr ⟨db, opens, confined⟩, nodes⟩⟩

theorem complete_of_copyFrom {n : Nat} (opens : file.load = .ok db) (comes : Incoming.Comes db incoming)
    (copies : (TypedTable.nodes.copyFrom old).run incoming.db = (.ok n, db')) : Complete old file db' := by
  have copied : Database.Confined [.nodes] incoming.db db' := TypedTable.confined_of_copyFrom copies
  have confined : Database.Confined [.counters, .nodes] db db' :=
    (comes.confined.mono (by simp)).trans (copied.mono (by simp))
  exact (complete_iff opens confined).2 fun id row => TypedTable.get_of_copyFrom copies

/-- Only once the rows of the nodes were copied, the staged store has them whatever the snapshot had. -/
theorem Holds.loadsTo_iff (holds : Holds old file stage content) :
    content.LoadsTo (Complete old file) ↔ (stage.Exposed → file.LoadsTo old.NodesIn) := by
  have exposed {p : Prop} : (True → p) ↔ p := ⟨fun h => h trivial, fun h _ => h⟩
  cases holds with
  | moved =>
    rw [Stage.Exposed, exposed]
    exact exists_congr fun db => and_congr_right fun opens => complete_iff opens (.refl _ db)
  | opened opens =>
    have loads := StoreFile.load_database (StoreFile.sound_of_load opens)
    rw [Stage.Exposed, exposed, StoreFile.loadsTo_iff loads, StoreFile.loadsTo_iff opens]
    exact complete_iff opens (.refl ..)
  | counted opens comes =>
    have loads := StoreFile.load_database (comes.sound (StoreFile.sound_of_load opens))
    rw [Stage.Exposed, exposed, StoreFile.loadsTo_iff loads, StoreFile.loadsTo_iff opens, ← comes.nodesIn_iff]
    exact complete_iff opens (comes.confined.mono (by simp))
  | carried opens comes copies =>
    have loads := StoreFile.load_database (sound_of_copyFrom copies (comes.sound (StoreFile.sound_of_load opens)))
    rw [StoreFile.loadsTo_iff loads]
    exact ⟨fun _ => False.elim, fun _ => complete_of_copyFrom opens comes copies⟩

theorem recovers_staged_iff {disk : Layout StoreFile} (foremost : c.Foremost)
    (moves : c.disk.stage c.clock snapshot.file? = .ok (name, disk)) (p : Database → Prop) :
    Recovers (Catalog.park { c with disk } |>.put name content) p ↔ content.LoadsTo p := by
  obtain ⟨fresh, file, -, rfl⟩ := Layout.stage_eq_ok moves
  have other := foremost.housed.location_ne fresh
  obtain ⟨home, stored⟩ := foremost.housed
  obtain ⟨stamp, latest⟩ := Layout.latest?_put_of_fresh fresh file
  have live : (c.disk.put name file).content? c.live.location = some home := by
    rw [Layout.content?_put, if_neg (Ne.symm other), stored]
  have parked : (Catalog.park { c with disk := c.disk.put name file }).content? name = some file := by
    rw [Catalog.park, Layout.content?_put, if_neg other, Layout.content?_put, if_pos rfl]
  -- neither what is written into the staged store nor into the old one changes which one is the last
  have stays : (Catalog.park { c with disk := c.disk.put name file } |>.put name content).latest? =
      some (stamp, name) := by
    rw [Layout.latest?_put_of_content? parked, Catalog.park, Layout.latest?_put_of_content? live, latest]
  refine Catalog.recovers_iff_loadsTo stays ?_ p
  rw [Layout.content?_put, if_pos rfl]

theorem WentLive.foremost {disk : Layout StoreFile} (foremost : c.Foremost)
    (moves : c.disk.stage c.clock snapshot.file? = .ok (name, disk)) (live : WentLive { c with disk } name file c') :
    c'.Foremost := by
  obtain ⟨db, incoming, n, db', nodes, -, -, -, -, rfl⟩ := live
  obtain ⟨fresh, content, -, rfl⟩ := Layout.stage_eq_ok moves
  obtain ⟨stamp, latest⟩ := Layout.latest?_put_of_fresh fresh content
  refine ⟨stamp, ?_⟩
  rw [foremost.housed.disk_discardStore fresh _ rfl]
  exact Layout.latest?_erase latest (foremost.housed.location_ne fresh)

theorem foremost_install (foremost : c.Foremost) (home : String) (snapshot : Snapshot) :
    ((install home snapshot).run c).2.Foremost := by
  obtain ⟨cause, breaks⟩ | ⟨report, c', name, disk, moves, ran, live⟩ := breaks_or_wentLive c home snapshot
  · rw [breaks.run_install home]
    exact foremost
  · rw [ran]
    exact live.foremost foremost moves

theorem WentLive.loadsTo (live : WentLive c name file c') :
    (StoreFile.database c'.live.db).LoadsTo (Complete c.live.db file) := by
  obtain ⟨db, incoming, n, db', nodes, opens, comes, copies, -, rfl⟩ := live
  exact (Holds.carried opens comes copies).loadsTo_iff.2 False.elim

/-- Wherever an install over the last known store is cut off, a restart finds all of the old store or all
of the new one, but for the time that the snapshot is the last known store without the nodes. Then it
depends on what the snapshot has. -/
theorem Crash.recovers_iff {disk : Layout StoreFile} (crash : Crash c snapshot stage disk) (foremost : c.Foremost)
    (opens : c.live.db.sound = true) :
    Recovers disk (Complete c.live.db (snapshot.file?.getD .missing)) ↔
      (stage.Exposed → (snapshot.file?.getD .missing).LoadsTo c.live.db.NodesIn) := by
  cases crash with
  | before =>
    rw [foremost.recovers_park, StoreFile.loadsTo_iff (StoreFile.load_database opens)]
    exact ⟨fun _ => False.elim, fun _ => ⟨.inl rfl, fun _ _ => id⟩⟩
  | staged moves holds => rw [recovers_staged_iff foremost moves, holds.loadsTo_iff]
  | installed ran =>
    next home report c' =>
    have foremost' := foremost_install foremost home snapshot
    obtain ⟨cause, breaks⟩ | ⟨report', c'', name, disk, moves, ran', live⟩ := breaks_or_wentLive c home snapshot
    · rw [breaks.run_install home] at ran
      cases ran
    · rw [ran] at ran' foremost'
      cases ran'
      rw [Catalog.Foremost.recovers_park foremost']
      exact ⟨fun _ => False.elim, fun _ => live.loadsTo⟩

/-- An install that succeeds goes through all points. -/
theorem exists_crash {home : String} {report : ResyncReport} (ran : (install home snapshot).run c = (.ok report, c'))
    (stage : Stage) : ∃ disk, Crash c snapshot stage disk := by
  obtain ⟨cause, breaks⟩ | ⟨report', c'', name, disk, moves, -, live⟩ := breaks_or_wentLive c home snapshot
  · rw [breaks.run_install home] at ran
    cases ran
  · obtain ⟨db, incoming, n, db', nodes, opens, comes, copies, -, -⟩ := live
    cases stage with
    | before => exact ⟨_, .before⟩
    | moved => exact ⟨_, .staged moves .moved⟩
    | opened => exact ⟨_, .staged moves (.opened opens)⟩
    | counted => exact ⟨_, .staged moves (.counted opens comes)⟩
    | carried => exact ⟨_, .staged moves (.carried opens comes copies)⟩
    | installed => exact ⟨_, .installed ran⟩

def Reached (c : Catalog) : Prop :=
  ∃ clock disk disk' n started guard status events,
    (Catalog.start clock).run disk = (.ok (n, started), disk') ∧
      (Traffic.run { state := ⟨started, guard, status⟩ } events).state.catalog = c

theorem Operation.inPlace (op : Operation) (c : Catalog) : InPlace c (op.perform c) := by
  cases op with
  | receive report => exact Catalog.inPlace_receive report c
  | loadDirectory => exact Catalog.inPlace_loadDirectory c
  | loadNodes => exact Catalog.inPlace_loadNodes c
  | loadPipelines => exact Catalog.inPlace_loadPipelines c
  | _ => exact ⟨rfl, rfl⟩

def StaysForemost (_ : List Told) (c c' : Catalog) : Prop := c.Foremost → c'.Foremost

theorem StaysForemost.respected : Respected StaysForemost where
  refl _ _ := id
  trans h g := g ∘ h
  mono _ := id
  replicas _ _ c := Catalog.InPlace.foremost (respects_takeReplicas Catalog.composes_inPlace
    Catalog.inPlace_register (fun _ => Catalog.inPlace_onDirectory _) c)
  container _ c := Catalog.InPlace.foremost (respects_addContainer Catalog.composes_inPlace
    (fun _ _ => Catalog.inPlace_onPipelines _) (fun _ => Catalog.inPlace_onDirectory _) c)
  pipelines _ c := Catalog.InPlace.foremost (Catalog.inPlace_onPipelines _ c)

theorem Reached.foremost (reached : Reached c) : c.Foremost := by
  obtain ⟨clock, disk, disk', n, started, guard, status, events, ran, rfl⟩ := reached
  have within : ∀ e ∈ events, e.Within (fun _ => True) True := fun e _ => by cases e <;> trivial
  have none : Traffic.Orderly StaysForemost { state := ⟨started, guard, status⟩ } := by simp [Traffic.Orderly]
  exact (Traffic.run_respects StaysForemost.respected (fun op c _ => (op.inPlace c).foremost)
    (fun _ _ home snapshot _ _ foremost => foremost_install foremost home snapshot) within none).respects
    (Catalog.foremost_of_start ran)

/-- Whatever has happened before, and wherever an install is cut off: a restart finds all of the old store
or all of the new one, unless the snapshot is the last known store already and does not have the nodes. -/
theorem recovers_iff_of_crash {disk : Layout StoreFile} (reached : Reached c) (opens : c.live.db.sound = true)
    (crash : Crash c snapshot stage disk) :
    Recovers disk (Complete c.live.db (snapshot.file?.getD .missing)) ↔
      (stage.Exposed → (snapshot.file?.getD .missing).LoadsTo c.live.db.NodesIn) :=
  crash.recovers_iff reached.foremost opens

section Cut

def firstStart : Catalog.Loaded × Catalog :=
  ((Catalog.start 5).run (Layout.put {} "scm-1" .missing)).1.toOption.get (by decide +kernel)

def knownNode : List Event := [.operate (.receive (.nodeHeartbeat ⟨⟨⟨⟨3⟩⟩, "three", .unspecified⟩, false⟩))]

def cutCatalog : Catalog := (Traffic.run { state := ⟨firstStart.2, {}, {}⟩ } knownNode).state.catalog

def emptySnapshot : Snapshot := ⟨"snapshot", some (.database .empty)⟩

theorem reached_cutCatalog : Reached cutCatalog := by
  have started : ((Catalog.start 5).run (Layout.put {} "scm-1" .missing)).1 = .ok firstStart :=
    eq_ok_of_toOption (Option.some_get _).symm
  exact ⟨5, _, _, firstStart.1, firstStart.2, {}, {}, knownNode, Prod.ext started rfl, rfl⟩

theorem sound_cutCatalog : cutCatalog.live.db.sound = true := by decide +kernel

theorem exists_crash_cutCatalog (stage : Stage) : ∃ disk, Crash cutCatalog emptySnapshot stage disk := by
  have succeeds : ((install "stores" emptySnapshot).run cutCatalog).1.isOk = true := by decide +kernel
  rcases ran : (install "stores" emptySnapshot).run cutCatalog with ⟨e | report, c'⟩
  · rw [ran] at succeeds
    cases succeeds
  · exact exists_crash ran stage

theorem recovers_iff_of_crash_installed : Reached cutCatalog ∧ cutCatalog.live.db.sound = true ∧
    ∃ disk, Crash cutCatalog emptySnapshot .installed disk ∧
      Recovers disk (Complete cutCatalog.live.db (.database .empty)) := by
  obtain ⟨disk, crash⟩ := exists_crash_cutCatalog .installed
  have recovers := (recovers_iff_of_crash reached_cutCatalog sound_cutCatalog crash).2 False.elim
  exact ⟨reached_cutCatalog, sound_cutCatalog, disk, crash, recovers⟩

/-- Right after the move of a snapshot without nodes, a restart finds none, although one was known. -/
theorem not_recovers_of_crash_moved : Reached cutCatalog ∧ cutCatalog.live.db.sound = true ∧
    ∃ disk, Crash cutCatalog emptySnapshot .moved disk ∧
      ¬ Recovers disk (Complete cutCatalog.live.db (.database .empty)) := by
  obtain ⟨disk, crash⟩ := exists_crash_cutCatalog .moved
  refine ⟨reached_cutCatalog, sound_cutCatalog, disk, crash, fun recovers => ?_⟩
  obtain ⟨db, opens, nodes⟩ := (crash.recovers_iff reached_cutCatalog.foremost sound_cutCatalog).1 recovers trivial
  have empty : (StoreFile.database .empty).load = .ok .empty := rfl
  cases empty.symm.trans opens
  have known : (TypedTable.nodes.get cutCatalog.live.db ⟨⟨3⟩⟩).toOption =
      some (some ⟨⟨⟨⟨3⟩⟩, "three", .unspecified⟩, .inService⟩) := by decide +kernel
  cases nodes _ _ (eq_ok_of_toOption known)

end Cut

end Sync

end ClusterCatalog
