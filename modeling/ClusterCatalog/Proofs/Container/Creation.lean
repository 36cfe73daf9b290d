import ClusterCatalog.Container.Directory
import ClusterCatalog.Proofs.Storage.Counter
import ClusterCatalog.Storage.Rows
/-!
A container is added in three steps: its row is stored, the counter is raised, and it is held. Where the
second fails the row is there and the container is not; every other failure leaves all rows as they were.
-/
namespace ClusterCatalog.Directory

variable {s s' : Stored Directory} {info : ContainerInfo}

/-- The container is not held, its row will be taken, and the counter cannot be raised to its number. -/
structure Halfway (s : Stored Directory) (info : ContainerInfo) : Prop where
  unknown : info.id ∉ s.view.containers
  takes : s.db.Takes .containers
  stuck : Counter.Stuck s.db Counter.containerId info.id.value

def withRow (db : Database) (rows : Rows) (info : ContainerInfo) : Database :=
  db.written .containers (TypedTable.containers.insertRow rows (info.id, info))

theorem not_halfway_of_refused (cause : info.id ∈ s.view.containers ∨ ¬ s.db.Takes .containers) :
    ¬ Halfway s info := fun half => cause.elim half.unknown fun untaken => untaken half.takes

inductive Adding (s : Stored Directory) (info : ContainerInfo) : Prop where
  | added {db : Database} (unknown : info.id ∉ s.view.containers)
      (moves : ¬ Counter.Stuck s.db Counter.containerId info.id.value)
      (run : (add info).run s =
        (.ok (), ⟨{ s.view with containers := s.view.containers.insert info.id ⟨info, ∅⟩ }, db⟩))
  | refused {e : ContainerError} {db : Database} (cause : info.id ∈ s.view.containers ∨ ¬ s.db.Takes .containers)
      (run : (add info).run s = (.error e, { s with db })) (tables : db.tables = s.db.tables)
  | halfway {e : ContainerError} {db : Database} {rows : Rows} (half : Halfway s info)
      (table : s.db.tables .containers = .rows rows) (run : (add info).run s = (.error e, { s with db }))
      (tables : db.tables = (withRow s.db rows info).tables)

theorem adding (s : Stored Directory) (info : ContainerInfo) : Adding s info := by
  by_cases known : info.id ∈ s.view.containers
  · have run : (add info).run s = (.error (.alreadyExists info.id), s) := by
      rw [add, Action.run_bind_ok (Stored.run_getView s), if_pos (Std.ExtTreeMap.contains_iff_mem.2 known)]
      rfl
    exact .refused (.inl known) run rfl
  · have run : (add info).run s = (do
        Stored.onStore ((TypedTable.containers.put info.id info).relabel .store)
        Stored.onStore ((Counter.observe Counter.containerId info.id.value).relabel .store)
        Stored.modifyView fun d => { d with containers := d.containers.insert info.id ⟨info, ∅⟩ } :
          Action (Stored Directory) ContainerError Unit).run s := by
      rw [add, Action.run_bind_ok (Stored.run_getView s), if_neg (by rwa [Std.ExtTreeMap.contains_iff_mem])]
    obtain ⟨takes, rows, table, put⟩ | ⟨untaken, e, db, put, same, -⟩ := Database.run_write .containers
      (fun rows => ((), TypedTable.containers.insertRow rows (info.id, info))) s.db
    · have stored : (TypedTable.containers.put info.id info).run s.db = (.ok (), withRow s.db rows info) := put
      rw [Stored.run_onStore_bind_ok (Action.run_relabel_ok stored _)] at run
      -- the counter is in another table, so the row does not matter to it
      have stuck_iff : Counter.Stuck (withRow s.db rows info) Counter.containerId info.id.value ↔
          Counter.Stuck s.db Counter.containerId info.id.value :=
        Counter.stuck_congr (Database.tables_written_of_ne (by decide) _)
          (Database.refusals_written_of_ne (by decide) _) _ _
      obtain ⟨stuck, e, db, raised, same⟩ | ⟨moves, db, raised⟩ :=
        Counter.observe_cases Counter.containerId info.id.value (withRow s.db rows info)
      · rw [Stored.run_onStore_bind_error (Action.run_relabel_error raised _)] at run
        exact .halfway ⟨known, takes, stuck_iff.1 stuck⟩ table run same
      · rw [Stored.run_onStore_bind_ok (Action.run_relabel_ok raised _)] at run
        exact .added known (fun stuck => moves (stuck_iff.2 stuck)) run
    · have refused : (TypedTable.containers.put info.id info).run s.db = (.error e, db) := put
      rw [Stored.run_onStore_bind_error (Action.run_relabel_error refused _)] at run
      exact .refused (.inr untaken) run same

theorem get_withRow {db : Database} {rows : Rows} (table : s.db.tables .containers = .rows rows)
    (tables : db.tables = (withRow s.db rows info).tables) :
    TypedTable.containers.get db info.id = .ok (some info) ∧
      ∀ id ≠ info.id, TypedTable.containers.get db id = TypedTable.containers.get s.db id := by
  have now : db.tables .containers = .rows (TypedTable.containers.insertRow rows (info.id, info)) := by
    rw [tables]
    exact Database.tables_written ..
  have read : TypedTable.containers.get db info.id = .ok (some (id info)) :=
    TypedTable.get_of_insertRow (t := TypedTable.containers) Codec.exact_containerInfo trivial now
  exact ⟨read, fun id other => TypedTable.get_of_insertRow_of_ne KeyCodec.exact_container other table now⟩

theorem mem_foldl_accept {infos : List ContainerInfo} (mem : info ∈ infos)
    (containers : Std.ExtTreeMap ContainerId Container) : info.id ∈ infos.foldl accept containers := by
  have kept (infos : List ContainerInfo) {containers : Std.ExtTreeMap ContainerId Container} {id : ContainerId}
      (held : id ∈ containers) : id ∈ infos.foldl accept containers := by
    induction infos generalizing containers with
    | nil => exact held
    | cons other infos ih => exact ih (by simp [accept, held])
  induction infos generalizing containers with
  | nil => cases mem
  | cons other infos ih =>
    obtain rfl | mem := List.mem_cons.1 mem
    · exact kept infos (by simp [accept])
    · exact ih mem _

/-- A container whose row can be read is held by every directory that is loaded. -/
theorem mem_of_load {db : Database} (stored : TypedTable.containers.get db info.id = .ok (some info))
    {d d' : Directory} {n : Nat} (loaded : d.load db = .ok (n, d')) : info.id ∈ d'.containers := by
  obtain ⟨infos, values, loaded⟩ := exists_of_bind_eq_ok loaded
  obtain ⟨history, -, loaded⟩ := exists_of_bind_eq_ok loaded
  cases loaded
  exact mem_foldl_accept (TypedTable.mem_values_of_get KeyCodec.exact_container values stored) _

theorem load_congr {db db' : Database} (same : db'.tables = db.tables) (d : Directory) : d.load db' = d.load db := by
  simp only [load, TypedTable.values, TypedTable.list, Database.rows?, same]

inductive Failed (s : Stored Directory) (info : ContainerInfo) (s' : Stored Directory) : Prop where
  | add {e : ContainerError} (run : (add info).run s = (.error e, s'))
  | create {e : ContainerError} {now : Millis} {id : ContainerId} {state : Lifecycle} {pipeline? : Option PipelineId}
      (given : info = .fresh now id state pipeline?) (run : (create now id state pipeline?).run s = (.error e, s'))

theorem Failed.run_add (failed : Failed s info s') : ∃ e, (Directory.add info).run s = (.error e, s') := by
  cases failed with
  | add run => exact ⟨_, run⟩
  | @create e now id state pipeline? given run =>
    subst given
    rcases ran : (Directory.add (.fresh now id state pipeline?)).run s with ⟨e' | u, s₁⟩
    · rw [Directory.create, Action.run_bind_error ran] at run
      cases run
      exact ⟨e, rfl⟩
    · rw [Directory.create, Action.run_bind_ok ran] at run
      cases run

/-- When a container could not be added, the directory and all other tables are as they were. So is the table of
containers, unless the counter could not be raised: then the row of the container is in it, and the container is
held by whatever is loaded from there. -/
theorem row_left_iff_halfway (s : Stored Directory) (info : ContainerInfo) :
    (Halfway s info → (∃ e s', (add info).run s = (.error e, s')) ∧ ∀ now id state pipeline?,
      info = .fresh now id state pipeline? → ∃ e s', (create now id state pipeline?).run s = (.error e, s')) ∧
    ∀ s', Failed s info s' →
      s'.view = s.view ∧ (∀ n ≠ TableName.containers, s'.db.tables n = s.db.tables n) ∧
      ((Halfway s info ∧ info.id ∉ s'.view.containers ∧ TypedTable.containers.get s'.db info.id = .ok (some info) ∧
          (∀ id ≠ info.id, TypedTable.containers.get s'.db id = TypedTable.containers.get s.db id) ∧
          ∀ d n d', load d s'.db = .ok (n, d') → info.id ∈ d'.containers) ∨
        (¬ Halfway s info ∧ s'.db.tables = s.db.tables ∧ ∀ d, load d s'.db = load d s.db)) := by
  constructor
  · intro half
    cases adding s info with
    | added unknown moves run => exact absurd half.stuck moves
    | refused cause run tables => exact absurd half (not_halfway_of_refused cause)
    | halfway half table run tables =>
      refine ⟨⟨_, _, run⟩, fun now id state pipeline? given => ?_⟩
      subst given
      exact ⟨_, _, Action.run_bind_error run _⟩
  · intro s' failed
    obtain ⟨e, run⟩ := failed.run_add
    cases adding s info with
    | added unknown moves added =>
      rw [run] at added
      cases added
    | refused cause refused tables =>
      rw [run] at refused
      cases refused
      exact ⟨rfl, fun n _ => congrFun tables n, .inr ⟨not_halfway_of_refused cause, tables, load_congr tables⟩⟩
    | halfway half table ended tables =>
      rw [run] at ended
      cases ended
      obtain ⟨stored, others⟩ := get_withRow table tables
      refine ⟨rfl, fun n other => ?_, .inl ⟨half, half.unknown, stored, others, fun d n d' => mem_of_load stored⟩⟩
      rw [tables]
      exact Database.tables_written_of_ne other _

def uncounted : Stored Directory :=
  ⟨{}, { Database.empty with refusals := fun n => if n = .counters then [true] else [] }⟩

theorem row_left_iff_halfway_uncounted :
    Halfway uncounted (.fresh 5 ⟨1⟩ .opened none) ∧
    ∃ e s', (create 5 ⟨1⟩ .opened none).run uncounted = (.error e, s') ∧ s'.view.containers = ∅ ∧
      TypedTable.containers.get s'.db ⟨1⟩ = .ok (some (.fresh 5 ⟨1⟩ .opened none)) ∧
      ∀ n d', load {} s'.db = .ok (n, d') → ⟨1⟩ ∈ d'.containers := by
  have half : Halfway uncounted (.fresh 5 ⟨1⟩ .opened none) := by
    have read : Counter.current uncounted.db Counter.containerId = .ok 0 := eq_ok_of_toOption (by decide +kernel)
    have untaken : ¬ uncounted.db.Takes .counters := fun takes => takes.next (by decide)
    exact ⟨Std.ExtTreeMap.not_mem_empty, ⟨⟨∅, rfl⟩, by decide⟩, .inr ⟨0, read, by decide, untaken⟩⟩
  obtain ⟨fails, after⟩ := row_left_iff_halfway uncounted (.fresh 5 ⟨1⟩ .opened none)
  obtain ⟨e, s', run⟩ := (fails half).2 5 ⟨1⟩ .opened none rfl
  obtain ⟨view, -, ⟨-, -, stored, -, loads⟩ | ⟨free, -⟩⟩ := after s' (.create rfl run)
  · exact ⟨half, e, s', run, by rw [view]; rfl, stored, loads {}⟩
  · exact absurd half free

/-- Over a store whose counters cannot be read no container is created, and yet a restart holds one. -/
theorem held_after_failed_creation :
    ∃ e s', (create 5 ⟨1⟩ .opened none).run ⟨{}, Database.empty.setTable .counters .foreign⟩ = (.error e, s') ∧
      s'.view.containers = ∅ ∧ TypedTable.containers.count s'.db = .ok 1 ∧
      ∃ n d', load {} s'.db = .ok (n, d') ∧ ⟨1⟩ ∈ d'.containers :=
  ⟨_, _, rfl, rfl, eq_ok_of_toOption (by decide +kernel), _, _,
    eq_ok_of_toOption (Option.some_get (by decide +kernel)).symm, by decide +kernel⟩

end ClusterCatalog.Directory
