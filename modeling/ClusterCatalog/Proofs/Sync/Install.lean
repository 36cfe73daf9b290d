import ClusterCatalog.Proofs.Action
import ClusterCatalog.Proofs.Storage.Layout
import ClusterCatalog.Sync.Install
/-!
An install breaks off at one of eight points, and then nothing has changed; or it gets past all of
them, and only then the views and the live store are exchanged.
-/
namespace ClusterCatalog

namespace Sync

inductive Incoming.Unread (db : Database) : StoreError → Prop where
  | containers {e : StoreError} (h : TypedTable.containers.values db = .error e) : Unread db e
  | history {e : StoreError} {infos : List ContainerInfo} (infos_eq : TypedTable.containers.values db = .ok infos)
      (h : TypedTable.replicaHistory.values db = .error e) : Unread db e
  | pipelines {e : StoreError} {infos : List ContainerInfo} {history : List Sighting}
      (infos_eq : TypedTable.containers.values db = .ok infos)
      (history_eq : TypedTable.replicaHistory.values db = .ok history)
      (h : TypedTable.pipelines.values db = .error e) : Unread db e
  | counter {e : StoreError} {db' : Database} {infos : List ContainerInfo} {history : List Sighting}
      {pipelines : List Pipeline} (infos_eq : TypedTable.containers.values db = .ok infos)
      (history_eq : TypedTable.replicaHistory.values db = .ok history)
      (pipelines_eq : TypedTable.pipelines.values db = .ok pipelines)
      (h : (raiseCounter infos).run db = (.error e, db')) : Unread db e

inductive Unfit (old : Database) (file : StoreFile) : StoreError → Prop where
  | opening {e : StoreError} (h : file.load = .error e) : Unfit old file e
  | reading {e : StoreError} {db : Database} (opened : file.load = .ok db) (h : Incoming.Unread db e) :
      Unfit old file e
  | copying {e : StoreError} {db db' : Database} {incoming : Incoming} (opened : file.load = .ok db)
      (read : Incoming.read db = .ok incoming)
      (h : (TypedTable.nodes.copyFrom old).run incoming.db = (.error e, db')) : Unfit old file e
  | rereading {e : StoreError} {db db' : Database} {incoming : Incoming} {copied : Nat}
      (opened : file.load = .ok db) (read : Incoming.read db = .ok incoming)
      (copying : (TypedTable.nodes.copyFrom old).run incoming.db = (.ok copied, db'))
      (h : TypedTable.nodes.values db' = .error e) : Unfit old file e

inductive Breaks (c : Catalog) (snapshot : Snapshot) : InstallError → Prop where
  | staging {e : StoreError} (h : c.disk.stage c.clock snapshot.file? = .error e) :
      Breaks c snapshot (.staging snapshot.path e)
  | staged {e : StoreError} {name : String} {disk : Layout StoreFile}
      (h : c.disk.stage c.clock snapshot.file? = .ok (name, disk))
      (unfit : Unfit c.live.db (snapshot.file?.getD .missing) e) : Breaks c snapshot (.store e)

namespace Incoming

variable {db : Database} {e : StoreError} {incoming : Incoming}

structure Comes (db : Database) (incoming : Incoming) : Prop where
  infos : TypedTable.containers.values db = .ok incoming.infos
  history : TypedTable.replicaHistory.values db = .ok incoming.history
  pipelines : TypedTable.pipelines.values db = .ok incoming.pipelines
  counter : (raiseCounter incoming.infos).run db = (.ok (), incoming.db)

theorem Unread.read_eq (h : Unread db e) : read db = .error e := by
  unfold read
  cases h with
  | containers h =>
    rw [h]
    rfl
  | history infos h =>
    rw [infos, h]
    rfl
  | pipelines infos history h =>
    rw [infos, history, h]
    rfl
  | counter infos history pipelines h =>
    simp only [infos, history, pipelines, bind, Except.bind, h]
    rfl

theorem Comes.read_eq (comes : Comes db incoming) : read db = .ok incoming := by
  unfold read
  simp only [comes.infos, comes.history, comes.pipelines, bind, Except.bind, comes.counter]
  rfl

theorem unread_or_comes (db : Database) :
    (∃ e, Unread db e) ∨ ∃ incoming, read db = .ok incoming ∧ Comes db incoming := by
  cases infos_eq : TypedTable.containers.values db with
  | error e => exact .inl ⟨e, .containers infos_eq⟩
  | ok infos =>
    cases history_eq : TypedTable.replicaHistory.values db with
    | error e => exact .inl ⟨e, .history infos_eq history_eq⟩
    | ok history =>
      cases pipelines_eq : TypedTable.pipelines.values db with
      | error e => exact .inl ⟨e, .pipelines infos_eq history_eq pipelines_eq⟩
      | ok pipelines =>
        rcases raised : (raiseCounter infos).run db with ⟨e | _, db'⟩
        · exact .inl ⟨e, .counter infos_eq history_eq pipelines_eq raised⟩
        · have comes : Comes db ⟨db', infos, history, pipelines⟩ := ⟨infos_eq, history_eq, pipelines_eq, raised⟩
          exact .inr ⟨_, comes.read_eq, comes⟩

end Incoming

theorem run_carryNodes_of_error {old db db' : Database} {e : StoreError}
    (h : (TypedTable.nodes.copyFrom old).run db = (.error e, db')) :
    (carryNodes old).run db = (.error e, db') := by
  rw [carryNodes, Action.run_bind_error h]

theorem run_carryNodes_of_ok {old db db' : Database} {copied : Nat}
    (h : (TypedTable.nodes.copyFrom old).run db = (.ok copied, db')) :
    (carryNodes old).run db = ((TypedTable.nodes.values db').map (copied, ·), db') := by
  rw [carryNodes, Action.run_bind_ok h, Action.run_bind_ok (Action.run_get db')]
  cases rows : TypedTable.nodes.values db' <;> rfl

variable {c : Catalog} {home name : String} {file : StoreFile} {db : Database} {e : StoreError}

theorem load_and_read (opened : file.load = .ok db) : (file.load >>= Incoming.read) = Incoming.read db := by
  rw [opened]
  rfl

theorem run_goLive_of_error (h : (file.load >>= Incoming.read) = .error e) :
    (goLive home name file).run c = (.error e, c) := by
  simp only [goLive, Action.run, h]

/-- A store that was read goes live as soon as it has the nodes of the old one. -/
theorem run_goLive_of_ok {incoming : Incoming} (h : (file.load >>= Incoming.read) = .ok incoming) :
    (goLive home name file).run c = match (carryNodes c.live.db).run incoming.db with
      | (.error e, _) => (.error e, c)
      | (.ok (copied, nodes), db) =>
        (.ok ⟨home ++ "/" ++ name, incoming.infos.length, incoming.pipelines.length, copied⟩,
          discardStore (takeOver c ⟨name, db⟩ incoming nodes) c.live.location) := by
  simp only [goLive, Action.run, h, Live.swap]
  rcases carryNodes c.live.db incoming.db with ⟨_ | _, _⟩ <;> rfl

/-- A store that is found unfit never goes live. -/
theorem Unfit.run_goLive (h : Unfit c.live.db file e) : (goLive home name file).run c = (.error e, c) := by
  cases h with
  | opening h =>
    refine run_goLive_of_error ?_
    rw [h]
    rfl
  | reading opened unread => exact run_goLive_of_error ((load_and_read opened).trans unread.read_eq)
  | copying opened read h => rw [run_goLive_of_ok ((load_and_read opened).trans read), run_carryNodes_of_error h]
  | rereading opened read copying h =>
    rw [run_goLive_of_ok ((load_and_read opened).trans read), run_carryNodes_of_ok copying, h]
    rfl

/-- A store that comes through all points goes live. -/
theorem run_goLive_of_comes {incoming : Incoming} {db' : Database} {nodes : List NodeRow} {copied : Nat}
    (opened : file.load = .ok db) (comes : Incoming.Comes db incoming)
    (copying : (TypedTable.nodes.copyFrom c.live.db).run incoming.db = (.ok copied, db'))
    (reread : TypedTable.nodes.values db' = .ok nodes) : (goLive home name file).run c =
      (.ok ⟨home ++ "/" ++ name, incoming.infos.length, incoming.pipelines.length, copied⟩,
        discardStore (takeOver c ⟨name, db'⟩ incoming nodes) c.live.location) := by
  rw [run_goLive_of_ok ((load_and_read opened).trans comes.read_eq), run_carryNodes_of_ok copying, reread]
  rfl

def WentLive (c : Catalog) (name : String) (file : StoreFile) (c' : Catalog) : Prop :=
  ∃ db incoming copied db' nodes, file.load = .ok db ∧ Incoming.Comes db incoming ∧
    (TypedTable.nodes.copyFrom c.live.db).run incoming.db = (.ok copied, db') ∧
    TypedTable.nodes.values db' = .ok nodes ∧
    c' = discardStore (takeOver c ⟨name, db'⟩ incoming nodes) c.live.location

theorem unfit_or_wentLive (c : Catalog) (home name : String) (file : StoreFile) :
    (∃ e, Unfit c.live.db file e) ∨
      ∃ report c', (goLive home name file).run c = (.ok report, c') ∧ WentLive c name file c' := by
  cases opened : file.load with
  | error e => exact .inl ⟨e, .opening opened⟩
  | ok db =>
    obtain ⟨e, unread⟩ | ⟨incoming, read, comes⟩ := Incoming.unread_or_comes db
    · exact .inl ⟨e, .reading opened unread⟩
    · rcases copied : (TypedTable.nodes.copyFrom c.live.db).run incoming.db with ⟨e | n, db'⟩
      · exact .inl ⟨e, .copying opened read copied⟩
      · cases rows : TypedTable.nodes.values db' with
        | error e => exact .inl ⟨e, .rereading opened read copied rows⟩
        | ok nodes =>
          exact .inr ⟨_, _, run_goLive_of_comes opened comes copied rows,
            db, incoming, n, db', nodes, opened, comes, copied, rows, rfl⟩

variable {snapshot : Snapshot}

/-- Wherever an install breaks off, nothing has changed: what was staged is gone. -/
theorem Breaks.run_install {cause : InstallError} (h : Breaks c snapshot cause) (home : String) :
    (install home snapshot).run c = (.error cause, c) := by
  cases h with
  | staging h => simp only [install, Action.run, h]
  | staged h unfit =>
    next e name disk =>
    obtain ⟨named, content, -, rfl⟩ := Layout.stage_eq_ok h
    have failed : (goLive home name (snapshot.file?.getD .missing)).run { c with disk := c.disk.put name content } =
        (.error e, { c with disk := c.disk.put name content }) :=
      Unfit.run_goLive (c := { c with disk := c.disk.put name content }) unfit
    -- the fresh name was not taken, so removing what was put there restores the directory
    have removed := Layout.remove_put (Layout.exists?_of_fresh named) content
    unfold Action.run at failed
    simp only [install, Action.run, h, failed, discardStore, removed]
    rfl

theorem run_install_of_goLive {disk : Layout StoreFile} {report : ResyncReport} {c' : Catalog}
    (staged : c.disk.stage c.clock snapshot.file? = .ok (name, disk))
    (ran : (goLive home name (snapshot.file?.getD .missing)).run { c with disk } = (.ok report, c')) :
    (install home snapshot).run c = (.ok report, c') := by
  unfold Action.run at ran
  simp only [install, Action.run, staged, ran]

/-- An install breaks off somewhere or its store goes live. -/
theorem breaks_or_wentLive (c : Catalog) (home : String) (snapshot : Snapshot) :
    (∃ cause, Breaks c snapshot cause) ∨
      ∃ report c' name disk, c.disk.stage c.clock snapshot.file? = .ok (name, disk) ∧
        (install home snapshot).run c = (.ok report, c') ∧
        WentLive { c with disk } name (snapshot.file?.getD .missing) c' := by
  cases staged : c.disk.stage c.clock snapshot.file? with
  | error e => exact .inl ⟨_, .staging staged⟩
  | ok r =>
    obtain ⟨name, disk⟩ := r
    obtain ⟨e, unfit⟩ | ⟨report, c', ran, live⟩ :=
      unfit_or_wentLive { c with disk } home name (snapshot.file?.getD .missing)
    · exact .inl ⟨_, .staged staged unfit⟩
    · exact .inr ⟨report, c', name, disk, rfl, run_install_of_goLive staged ran, live⟩

end Sync

end ClusterCatalog
