import ClusterCatalog.Proofs.Action
import ClusterCatalog.Storage.TypedTable
/-!
One write: it changes one table or none. A table accepts writes when it can be read and none of the
coming writes is refused.
-/
namespace ClusterCatalog.Database

variable {α : Type} {name other : TableName} {db : Database}

@[simp] theorem tables_dropRefusal (db : Database) (name : TableName) :
    (db.dropRefusal name).tables = db.tables := rfl

@[simp] theorem refusals_setTable (db : Database) (name : TableName) (table : Table) :
    (db.setTable name table).refusals = db.refusals := rfl

theorem refusals_dropRefusal_sublist (db : Database) (name other : TableName) :
    ((db.dropRefusal name).refusals other).Sublist (db.refusals other) := by
  unfold dropRefusal
  by_cases h : other = name
  · simpa [h] using List.tail_sublist (db.refusals name)
  · simp [h]

def written (db : Database) (name : TableName) (rows : Rows) : Database :=
  (db.dropRefusal name).setTable name (.rows rows)

@[simp] theorem tables_written (db : Database) (name : TableName) (rows : Rows) :
    (db.written name rows).tables name = .rows rows := tables_setTable ..

theorem tables_written_of_ne (h : other ≠ name) (rows : Rows) :
    (db.written name rows).tables other = db.tables other := by
  rw [written, tables_setTable_of_ne _ h, tables_dropRefusal]

theorem refusals_written_of_ne (h : other ≠ name) (rows : Rows) :
    (db.written name rows).refusals other = db.refusals other := by
  rw [written, refusals_setTable, dropRefusal]
  exact if_neg h

structure Accepts (db : Database) (name : TableName) : Prop where
  readable : ∃ rows, db.tables name = .rows rows
  taken : true ∉ db.refusals name

structure Takes (db : Database) (name : TableName) : Prop where
  readable : ∃ rows, db.tables name = .rows rows
  next : (db.refusals name).head? ≠ some true

theorem Accepts.takes (h : db.Accepts name) : db.Takes name :=
  ⟨h.readable, fun refused => h.taken (List.mem_of_head? refused)⟩

theorem takes_congr {db' : Database} (tables : db'.tables name = db.tables name)
    (refusals : db'.refusals name = db.refusals name) : db'.Takes name ↔ db.Takes name := by
  constructor <;> rintro ⟨readable, next⟩
  · exact ⟨tables ▸ readable, refusals ▸ next⟩
  · exact ⟨tables ▸ readable, refusals ▸ next⟩

theorem run_write_of_foreign (table : db.tables name = .foreign) (change : Rows → α × Rows) :
    (write name change).run db = (.error .foreignTable, db) := by
  simp [write, Action.run, table]

theorem run_write_of_refused {rows : Rows} (table : db.tables name = .rows rows)
    (refused : (db.refusals name).head? = some true) (change : Rows → α × Rows) :
    (write name change).run db = (.error .refused, db.dropRefusal name) := by
  simp [write, Action.run, table, refused]

theorem run_write_of_taken {rows : Rows} (table : db.tables name = .rows rows)
    (taken : (db.refusals name).head? ≠ some true) (change : Rows → α × Rows) :
    (write name change).run db = (.ok (change rows).1, db.written name (change rows).2) := by
  simp [write, Action.run, table, written]

/-- A write is taken just if the table takes it; one that is not changes no row. -/
theorem run_write (name : TableName) (change : Rows → α × Rows) (db : Database) :
    (db.Takes name ∧ ∃ rows, db.tables name = .rows rows ∧
      (write name change).run db = (.ok (change rows).1, db.written name (change rows).2)) ∨
    (¬ db.Takes name ∧ ∃ e db', (write name change).run db = (.error e, db') ∧
      db'.tables = db.tables ∧ ∀ n, (db'.refusals n).Sublist (db.refusals n)) := by
  cases table : db.tables name with
  | foreign =>
    refine .inr ⟨fun takes => ?_, .foreignTable, db, run_write_of_foreign table change, rfl, fun n => .refl _⟩
    obtain ⟨rows, same⟩ := takes.readable
    rw [table] at same
    cases same
  | rows rows =>
    by_cases refused : (db.refusals name).head? = some true
    · exact .inr ⟨fun takes => takes.next refused, .refused, db.dropRefusal name,
        run_write_of_refused table refused change, rfl, refusals_dropRefusal_sublist db name⟩
    · exact .inl ⟨⟨⟨rows, table⟩, refused⟩, rows, rfl, run_write_of_taken table refused change⟩

/-- A write is taken, or it fails and no row changes. -/
theorem write_cases (name : TableName) (change : Rows → α × Rows) (db : Database) :
    (∃ rows, db.tables name = .rows rows ∧
      (write name change).run db = (.ok (change rows).1, db.written name (change rows).2)) ∨
    (¬ db.Accepts name ∧ ∃ e db', (write name change).run db = (.error e, db') ∧
      db'.tables = db.tables ∧ ∀ n, (db'.refusals n).Sublist (db.refusals n)) :=
  (run_write name change db).imp (fun ⟨_, taken⟩ => taken) fun ⟨untaken, refused⟩ =>
    ⟨fun accepts => untaken accepts.takes, refused⟩

theorem refusals_written_sublist (db : Database) (name : TableName) (rows : Rows) (other : TableName) :
    ((db.written name rows).refusals other).Sublist (db.refusals other) := by
  rw [written, refusals_setTable]
  exact refusals_dropRefusal_sublist db name other

theorem Accepts.written (h : db.Accepts name) (rows : Rows) : (db.written name rows).Accepts name :=
  ⟨⟨rows, tables_written db name rows⟩, fun refused => h.taken ((refusals_written_sublist db name rows name).subset refused)⟩

/-- Whether a table takes one more write after a write that it has taken. -/
theorem takes_written_iff (rows : Rows) : (db.written name rows).Takes name ↔ (db.refusals name)[1]? ≠ some true := by
  have next : ((db.written name rows).refusals name).head? = (db.refusals name)[1]? := by
    simp [Database.written, dropRefusal]
  exact ⟨fun takes => next ▸ takes.next, fun fine => ⟨⟨rows, tables_written db name rows⟩, next ▸ fine⟩⟩

/-- Writes only use up refusals. -/
theorem refusals_write_sublist (name : TableName) (change : Rows → α × Rows) (db : Database)
    (other : TableName) :
    (((write name change).run db).2.refusals other).Sublist (db.refusals other) := by
  obtain ⟨rows, -, run⟩ | ⟨-, e, db', run, -, left⟩ := write_cases name change db
  · rw [run]
    exact refusals_written_sublist db name _ other
  · rw [run]
    exact left other

/-- A write on one table leaves the others. -/
theorem tables_write_of_ne (h : other ≠ name) (change : Rows → α × Rows) (db : Database) :
    ((write name change).run db).2.tables other = db.tables other := by
  obtain ⟨rows, -, run⟩ | ⟨-, e, db', run, same, -⟩ := write_cases name change db
  · rw [run]
    exact tables_written_of_ne h _
  · rw [run]
    exact congrFun same other

structure Confined (names : List TableName) (db db' : Database) : Prop where
  tables {n : TableName} (h : n ∉ names) : db'.tables n = db.tables n
  refusals (n : TableName) : (db'.refusals n).Sublist (db.refusals n)

namespace Confined

variable {names more : List TableName} {db' db'' : Database}

theorem refl (names : List TableName) (db : Database) : Confined names db db := ⟨fun _ => rfl, fun _ => .refl _⟩

theorem trans (h : Confined names db db') (g : Confined names db' db'') : Confined names db db'' :=
  ⟨fun other => (g.tables other).trans (h.tables other), fun n => (g.refusals n).trans (h.refusals n)⟩

theorem mono (h : Confined names db db') (le : names ⊆ more) : Confined more db db' :=
  ⟨fun other => h.tables fun mem => other (le mem), h.refusals⟩

end Confined

theorem composes_confined (names : List TableName) : Action.Composes (Confined names) := ⟨.refl names, fun h g => h.trans g⟩

theorem confined_written (db : Database) (name : TableName) (rows : Rows) :
    Confined [name] db (db.written name rows) :=
  ⟨fun other => tables_written_of_ne (fun same => other (List.mem_singleton.2 same)) rows,
    refusals_written_sublist db name rows⟩

theorem confined_write (name : TableName) (change : Rows → α × Rows) (db : Database) :
    Confined [name] db ((write name change).run db).2 :=
  ⟨fun other => tables_write_of_ne (fun same => other (List.mem_singleton.2 same)) change db,
    refusals_write_sublist name change db⟩

namespace Accepts

theorem run_write (h : db.Accepts name) (change : Rows → α × Rows) :
    ∃ rows, db.tables name = .rows rows ∧
      (write name change).run db = (.ok (change rows).1, db.written name (change rows).2) := by
  obtain taken | ⟨refused, -⟩ := write_cases name change db
  · exact taken
  · exact absurd h refused

theorem confined {names : List TableName} {db' : Database} (h : db.Accepts name) (confined : Confined names db db')
    (other : name ∉ names) : db'.Accepts name := by
  obtain ⟨rows, table⟩ := h.readable
  exact ⟨⟨rows, (confined.tables other).trans table⟩, fun refused => h.taken ((confined.refusals name).mem refused)⟩

theorem after_write (h : db.Accepts name) (other : TableName) (change : Rows → α × Rows) :
    ((write other change).run db).2.Accepts name where
  readable := by
    by_cases same : name = other
    · subst same
      obtain ⟨rows, -, run⟩ := h.run_write change
      exact ⟨_, by rw [run]; exact tables_written ..⟩
    · rw [tables_write_of_ne same]
      exact h.readable
  taken := fun refused => h.taken ((refusals_write_sublist other change db name).mem refused)

end Accepts

theorem sound_iff : db.sound = true ↔ ∀ name, ∃ rows, db.tables name = .rows rows := by
  simp only [sound, List.all_eq_true, bne_iff_ne, TableName.mem_all, true_implies]
  refine forall_congr' fun name => ?_
  cases table : db.tables name with
  | rows rows => exact ⟨fun _ => ⟨rows, rfl⟩, fun _ => nofun⟩
  | foreign => exact ⟨fun h => absurd rfl h, nofun⟩

def StaysSound (db db' : Database) : Prop := db.sound = true → db'.sound = true

theorem composes_staysSound : Action.Composes StaysSound where
  refl _ := id
  trans h g := g ∘ h

theorem staysSound_write (name : TableName) (change : Rows → α × Rows) : (write name change).Respects StaysSound := by
  intro db sound
  rw [sound_iff] at sound ⊢
  intro other
  by_cases same : other = name
  · subst same
    obtain ⟨rows, -, run⟩ | ⟨-, e, db', run, unchanged, -⟩ := write_cases other change db
    · rw [run]
      exact ⟨_, tables_written ..⟩
    · rw [run, unchanged]
      exact sound other
  · rw [tables_write_of_ne same]
    exact sound other

end ClusterCatalog.Database

namespace ClusterCatalog.Stored

variable {σ ε κ α : Type}

def WritesTo (names : List TableName) (s s' : Stored σ) : Prop := Database.Confined names s.db s'.db

theorem composes_writesTo (names : List TableName) : Action.Composes (WritesTo names : Stored σ → Stored σ → Prop) where
  refl s := .refl names s.db
  trans h g := Database.Confined.trans h g

theorem writesTo_put (t : TypedTable κ α) (k : κ) (a : α) (label : StoreError → ε) :
    (onStore ((t.put k a).relabel label) : Action (Stored σ) ε Unit).Respects (WritesTo [t.name]) :=
  fun s => Database.confined_write _ _ s.db

theorem writesTo_modifyView (names : List TableName) (f : σ → σ) :
    (modifyView f : Action (Stored σ) ε Unit).Respects (WritesTo names) := fun s => .refl names s.db

end ClusterCatalog.Stored
