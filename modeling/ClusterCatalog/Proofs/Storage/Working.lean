import ClusterCatalog.Proofs.Storage.Counter
/-!
A store whose writes are all taken. On such a store what an action does to a view does not depend on
the rows: the action leads from one view to another, and the store goes on working.
-/
namespace ClusterCatalog

structure Database.Works (db : Database) : Prop where
  containers : db.Accepts .containers
  nodes : db.Accepts .nodes
  pipelines : db.Accepts .pipelines
  counter : Counter.Works db Counter.containerId

namespace Database

variable {db db' : Database} {name : TableName} {α : Type}

/-- So it is with a new store. -/
theorem works_empty : empty.Works where
  containers := ⟨⟨∅, rfl⟩, List.not_mem_nil⟩
  nodes := ⟨⟨∅, rfl⟩, List.not_mem_nil⟩
  pipelines := ⟨⟨∅, rfl⟩, List.not_mem_nil⟩
  counter := ⟨⟨⟨∅, rfl⟩, List.not_mem_nil⟩, 0, rfl⟩

theorem Works.after_write (h : db.Works) (other : name ≠ .counters) (change : Rows → α × Rows) :
    ((write name change).run db).2.Works where
  containers := h.containers.after_write name change
  nodes := h.nodes.after_write name change
  pipelines := h.pipelines.after_write name change
  counter := h.counter.confined (confined_write name change db)
    (by simpa using Ne.symm other)

variable {κ β : Type} {t : TypedTable κ β}

theorem Works.put (h : db.Works) (accepts : db.Accepts t.name) (other : t.name ≠ .counters) (k : κ) (b : β) :
    ∃ db', (t.put k b).run db = (.ok (), db') ∧ db'.Works := by
  obtain ⟨rows, -, run⟩ := accepts.run_write fun rows => ((), t.insertRow rows (k, b))
  have after := h.after_write other fun rows => ((), t.insertRow rows (k, b))
  rw [run] at after
  exact ⟨_, run, after⟩

theorem Works.observe (h : db.Works) (value : UInt64) :
    ∃ db', (Counter.observe Counter.containerId value).run db = (.ok (), db') ∧ db'.Works := by
  obtain ⟨db', run, works, confined⟩ := h.counter.observe value
  exact ⟨db', run, h.containers.confined confined (by simp), h.nodes.confined confined (by simp),
    h.pipelines.confined confined (by simp), works⟩

end Database

namespace Stored

variable {σ ε α β : Type} {a : Action (Stored σ) ε α} {view view' view'' : σ} {x : α}

def Leads (a : Action (Stored σ) ε α) (view : σ) (x : α) (view' : σ) : Prop :=
  ∀ db : Database, db.Works → ∃ db', a.run ⟨view, db⟩ = (.ok x, ⟨view', db'⟩) ∧ db'.Works

theorem leads_pure (x : α) (view : σ) : Leads (pure x : Action (Stored σ) ε α) view x view :=
  fun db works => ⟨db, rfl, works⟩

theorem leads_getView (view : σ) : Leads (getView : Action (Stored σ) ε σ) view view view :=
  fun db works => ⟨db, rfl, works⟩

theorem leads_modifyView (f : σ → σ) (view : σ) :
    Leads (modifyView f : Action (Stored σ) ε Unit) view () (f view) := fun db works => ⟨db, rfl, works⟩

theorem leads_onStore {a : Action Database ε α}
    (h : ∀ db : Database, db.Works → ∃ db', a.run db = (.ok x, db') ∧ db'.Works) (view : σ) :
    Leads (onStore a) view x view := fun db works => by
  obtain ⟨db', run, after⟩ := h db works
  exact ⟨db', by rw [run_onStore, run], after⟩

theorem Leads.bind {f : α → Action (Stored σ) ε β} {y : β} (h : Leads a view x view')
    (next : Leads (f x) view' y view'') : Leads (a >>= f) view y view'' := by
  intro db works
  obtain ⟨db', run, works⟩ := h db works
  obtain ⟨db'', run', works⟩ := next db' works
  exact ⟨db'', by rw [Action.run_bind_ok run, run'], works⟩

theorem leads_put {κ γ : Type} {t : TypedTable κ γ} (accepts : ∀ db : Database, db.Works → db.Accepts t.name)
    (other : t.name ≠ .counters) (k : κ) (c : γ) (label : StoreError → ε) (view : σ) :
    Leads (onStore ((t.put k c).relabel label)) view () view :=
  leads_onStore (fun db works => by
    obtain ⟨db', run, works'⟩ := works.put (accepts db works) other k c
    exact ⟨db', Action.run_relabel_ok run _, works'⟩) view

theorem leads_observe (value : UInt64) (label : StoreError → ε) (view : σ) :
    Leads (onStore ((Counter.observe Counter.containerId value).relabel label)) view () view :=
  leads_onStore (fun db works => by
    obtain ⟨db', run, works'⟩ := works.observe value
    exact ⟨db', Action.run_relabel_ok run _, works'⟩) view

def Succeeds (a : Action (Stored σ) ε α) : Prop := ∀ view, ∃ x view', Leads a view x view'

theorem succeeds_pure (x : α) : Succeeds (pure x : Action (Stored σ) ε α) := fun view => ⟨x, view, leads_pure x view⟩

theorem Succeeds.bind (h : Succeeds a) {f : α → Action (Stored σ) ε β} (next : ∀ x, Succeeds (f x)) :
    Succeeds (a >>= f) := by
  intro view
  obtain ⟨x, view', leads⟩ := h view
  obtain ⟨y, view'', leads'⟩ := next x view'
  exact ⟨y, view'', leads.bind leads'⟩

theorem succeeds_getView : Succeeds (getView : Action (Stored σ) ε σ) := fun view => ⟨view, view, leads_getView view⟩

theorem succeeds_foldlM {f : β → α → Action (Stored σ) ε β} (h : ∀ b a, Succeeds (f b a)) (l : List α) (b : β) :
    Succeeds (l.foldlM f b) := by
  induction l generalizing b with
  | nil => exact succeeds_pure b
  | cons a l ih =>
    rw [List.foldlM_cons]
    exact (h b a).bind ih

def after (a : Action (Stored σ) ε α) (view : σ) : σ := (a.run ⟨view, .empty⟩).2.view

theorem Succeeds.leads (h : Succeeds a) (view : σ) : ∃ x, Leads a view x (after a view) := by
  obtain ⟨x, view', leads⟩ := h view
  obtain ⟨db, run, -⟩ := leads .empty Database.works_empty
  have same : after a view = view' := by rw [after, run]
  exact ⟨x, same ▸ leads⟩

end Stored

end ClusterCatalog
