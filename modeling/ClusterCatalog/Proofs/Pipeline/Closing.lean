import ClusterCatalog.Proofs.Pipeline.WriteThrough
/-!
The pipelines of a node are closed one by one, each with a write of its own. The first write that fails
ends it: what was closed before stays closed, and the rest stays open.
-/
namespace ClusterCatalog

namespace Database

variable {name : TableName} {db : Database}

/-- The next so many writes on a table are taken. -/
structure TakesNext (db : Database) (name : TableName) (n : Nat) : Prop where
  readable (some : 0 < n) : ∃ rows, db.tables name = .rows rows
  taken : true ∉ (db.refusals name).take n

theorem takesNext_zero (db : Database) (name : TableName) : db.TakesNext name 0 :=
  ⟨fun none => absurd none (Nat.lt_irrefl 0), by simp⟩

theorem Accepts.takesNext (h : db.Accepts name) (n : Nat) : db.TakesNext name n :=
  ⟨fun _ => h.readable, fun refused => h.taken (List.mem_of_mem_take refused)⟩

/-- The next write is taken, and then the ones after it. -/
theorem takesNext_succ (n : Nat) (rows : Rows) :
    db.TakesNext name (n + 1) ↔ db.Takes name ∧ (db.written name rows).TakesNext name n := by
  have left : (db.written name rows).refusals name = (db.refusals name).tail := by
    simp [written, dropRefusal]
  constructor
  · rintro ⟨readable, taken⟩
    refine ⟨⟨readable (Nat.succ_pos n), fun refused => taken ?_⟩, fun _ => ⟨rows, tables_written ..⟩, fun refused => taken ?_⟩
    · obtain ⟨rest, same⟩ := List.head?_eq_some_iff.1 refused
      simp [same]
    · rw [left] at refused
      cases same : db.refusals name with
      | nil => simp [same] at refused
      | cons first rest =>
        rw [same, List.tail_cons] at refused
        exact List.mem_cons_of_mem first refused
  · rintro ⟨takes, later⟩
    refine ⟨fun _ => takes.readable, fun refused => ?_⟩
    cases same : db.refusals name with
    | nil => simp [same] at refused
    | cons first rest =>
      rw [same, List.take_succ_cons, List.mem_cons] at refused
      obtain rfl | refused := refused
      · exact takes.next (by simp [same])
      · exact later.taken (by rwa [left, same, List.tail_cons])

end Database

def Pipeline.shut (node : NodeId) (p : Pipeline) : Pipeline :=
  if p.hasMember node then { p with state := .closed } else p

namespace PipelineRegistry

def Own (pipelines : PipelineRegistry) : Prop := ∀ (id : PipelineId) (p : Pipeline), pipelines[id]? = some p → p.id = id

def KeepsOwn (s s' : Stored PipelineRegistry) : Prop := s.view.Own → s'.view.Own

section KeepsOwn

theorem composes_keepsOwn : Action.Composes KeepsOwn where
  refl _ := id
  trans h g := g ∘ h

theorem own_empty : Own ∅ := fun id p known => by simp at known

variable {pipelines : PipelineRegistry}

theorem Own.insert (own : pipelines.Own) (p : Pipeline) : Own (pipelines.insert p.id p) := by
  intro id q known
  rw [Std.ExtTreeMap.getElem?_insert] at known
  split at known
  · next same =>
    cases known
    exact Std.LawfulEqOrd.eq_of_compare same
  · exact own id q known

theorem Own.erase (own : pipelines.Own) (id : PipelineId) : Own (pipelines.erase id) := by
  intro other q known
  rw [Std.ExtTreeMap.getElem?_erase] at known
  split at known
  · cases known
  · exact own other q known

theorem own_reload (rows : List Pipeline) : Own (reload rows) :=
  List.foldlRecOn (motive := Own) rows _ own_empty fun _ own p _ => own.insert p

theorem keepsOwn_keep (p : Pipeline) : (keep p).Respects KeepsOwn := by
  refine Action.Respects.bind composes_keepsOwn (fun s own => own) fun _ s own => ?_
  exact own.insert p

theorem keepsOwn_drop (tally : PipelineTally) (id : PipelineId) : (drop tally id).Respects KeepsOwn := by
  refine Action.Respects.bind composes_keepsOwn (fun s own => own) fun _ => ?_
  refine Action.Respects.bind composes_keepsOwn (fun s own => own.erase id) fun _ => ?_
  exact Action.respects_pure composes_keepsOwn _

theorem keepsOwn_setState (id : PipelineId) (state : PipelineState) : (setState id state).Respects KeepsOwn := by
  intro s
  rw [setState, Action.run_bind_ok (Stored.run_getView s)]
  split
  · exact Action.respects_pure composes_keepsOwn _ s
  · next p known =>
    split
    · exact Action.respects_pure composes_keepsOwn _ s
    · exact (keepsOwn_keep { p with state }).bind composes_keepsOwn
        (fun _ => Action.respects_pure composes_keepsOwn _) s

theorem keepsOwn_replaceWith (given : List Pipeline) : (replaceWith given).Respects KeepsOwn :=
  respects_replaceWith composes_keepsOwn (fun p _ => keepsOwn_keep p) keepsOwn_drop

theorem keepsOwn_add (p : Pipeline) : (add p).Respects KeepsOwn := respects_add composes_keepsOwn (keepsOwn_keep p)

theorem keepsOwn_report (node : NodeId) (entries : List PipelineReport) : (report node entries).Respects KeepsOwn :=
  respects_report composes_keepsOwn (fun id => keepsOwn_setState id .opened) fun _ _ => keepsOwn_keep _

theorem keepsOwn_closeOn (node : NodeId) : (closeOn node).Respects KeepsOwn :=
  respects_closeOn composes_keepsOwn fun id => keepsOwn_setState id .closed

end KeepsOwn

def closing (ids : List PipelineId) (pipelines : PipelineRegistry) : PipelineRegistry :=
  pipelines.map fun id p => if id ∈ ids then { p with state := .closed } else p

variable {pipelines : PipelineRegistry} {s : Stored PipelineRegistry} {id : PipelineId} {p : Pipeline} {node : NodeId}

theorem getElem?_closing (ids : List PipelineId) (pipelines : PipelineRegistry) (id : PipelineId) :
    (closing ids pipelines)[id]? = (pipelines[id]?).map fun p => if id ∈ ids then { p with state := .closed } else p :=
  Std.ExtTreeMap.getElem?_map

theorem closing_nil (pipelines : PipelineRegistry) : closing [] pipelines = pipelines := by
  refine Std.ExtTreeMap.ext_getElem? fun id => ?_
  simp [getElem?_closing]

theorem closing_cons (id : PipelineId) (rest : List PipelineId) (pipelines : PipelineRegistry) :
    closing rest (closing [id] pipelines) = closing (id :: rest) pipelines := by
  refine Std.ExtTreeMap.ext_getElem? fun other => ?_
  rw [getElem?_closing, getElem?_closing, getElem?_closing, Option.map_map]
  congr
  funext p
  by_cases same : other = id <;> by_cases later : other ∈ rest <;> simp [same, later]

theorem closing_singleton (known : pipelines[id]? = some p) :
    closing [id] pipelines = pipelines.insert id { p with state := .closed } := by
  refine Std.ExtTreeMap.ext_getElem? fun other => ?_
  rw [getElem?_closing, Std.ExtTreeMap.getElem?_insert]
  by_cases same : other = id
  · simp [same, known]
  · simp [same, Ne.symm same]

theorem mem_openOn_iff : id ∈ pipelines.openOn node ↔
    ∃ p, pipelines[id]? = some p ∧ p.state ≠ .closed ∧ p.hasMember node = true := by
  rw [openOn, Std.ExtTreeMap.mem_keys, Std.ExtTreeMap.mem_iff_isSome_getElem?, Std.ExtTreeMap.getElem?_filter']
  cases pipelines[id]? <;> simp [Option.filter]

/-- Once all that are open are closed, so is every pipeline with the node as a member. -/
theorem getElem?_closing_openOn (pipelines : PipelineRegistry) (node : NodeId) (id : PipelineId) :
    (closing (pipelines.openOn node) pipelines)[id]? = (pipelines[id]?).map (Pipeline.shut node) := by
  rw [getElem?_closing]
  cases known : pipelines[id]? with
  | none => rfl
  | some p =>
    have target : id ∈ pipelines.openOn node ↔ p.state ≠ .closed ∧ p.hasMember node = true := by
      simp [mem_openOn_iff, known]
    obtain ⟨own, nodes, state⟩ := p
    by_cases member : Pipeline.hasMember ⟨own, nodes, state⟩ node = true <;> by_cases closed : state = .closed <;>
      simp [target, Pipeline.shut, member, closed]

theorem run_keep (p : Pipeline) (s : Stored PipelineRegistry) :
    (s.db.Takes .pipelines ∧ ∃ rows, (keep p).run s =
      (.ok (), ⟨s.view.insert p.id p, s.db.written .pipelines rows⟩)) ∨
    (¬ s.db.Takes .pipelines ∧ ∃ e db, (keep p).run s = (.error e, ⟨s.view, db⟩)) := by
  obtain ⟨takes, rows, -, run⟩ | ⟨untaken, e, db, run, -⟩ := Database.run_write .pipelines
    (fun rows => ((), TypedTable.pipelines.insertRow rows (p.id, p))) s.db
  · exact .inl ⟨takes, _, Stored.run_onStore_bind_ok run _⟩
  · exact .inr ⟨untaken, e, db, Stored.run_onStore_bind_error run _⟩

/-- A pipeline moves into another state with one write. -/
theorem run_setState (known : s.view[id]? = some p) (own : p.id = id) (state : PipelineState) (other : p.state ≠ state) :
    (s.db.Takes .pipelines ∧ ∃ rows, (setState id state).run s =
      (.ok true, ⟨s.view.insert id { p with state }, s.db.written .pipelines rows⟩)) ∨
    (¬ s.db.Takes .pipelines ∧ ∃ e db, (setState id state).run s = (.error e, ⟨s.view, db⟩)) := by
  have step : (setState id state).run s =
      (keep { p with state } >>= fun _ => (pure true : Action _ StoreError Bool)).run s := by
    rw [setState, Action.run_bind_ok (Stored.run_getView s), known]
    dsimp only
    rw [if_neg other]
  rw [step]
  obtain ⟨takes, rows, run⟩ | ⟨untaken, e, db, run⟩ := run_keep { p with state } s
  · refine .inl ⟨takes, rows, ?_⟩
    rw [Action.run_bind_ok run, own]
    rfl
  · exact .inr ⟨untaken, e, db, Action.run_bind_error run _⟩

/-- One pipeline is closed with one write. -/
theorem run_setState_closed (known : s.view[id]? = some p) (own : p.id = id) (unclosed : p.state ≠ .closed) :
    (s.db.Takes .pipelines ∧ ∃ rows, (setState id .closed).run s =
      (.ok true, ⟨closing [id] s.view, s.db.written .pipelines rows⟩)) ∨
    (¬ s.db.Takes .pipelines ∧ ∃ e db, (setState id .closed).run s = (.error e, ⟨s.view, db⟩)) := by
  rw [closing_singleton known]
  exact run_setState known own .closed unclosed

/-- Closing pipelines, one after another, as far as the store takes the writes. -/
theorem run_closeEach {ids : List PipelineId} (distinct : ids.Nodup)
    (targets : ∀ id ∈ ids, ∃ p, s.view[id]? = some p ∧ p.id = id ∧ p.state ≠ .closed) (closed : List PipelineId) :
    let closeNext (closed : List PipelineId) (id : PipelineId) : Action (Stored PipelineRegistry) StoreError _ := do
      return if ← setState id .closed then closed ++ [id] else closed
    (s.db.TakesNext .pipelines ids.length ∧ ∃ db, (ids.foldlM closeNext closed).run s =
      (.ok (closed ++ ids), ⟨closing ids s.view, db⟩)) ∨
    (¬ s.db.TakesNext .pipelines ids.length ∧ ∃ e db done id left, ids = done ++ id :: left ∧
      (ids.foldlM closeNext closed).run s = (.error e, ⟨closing done s.view, db⟩)) := by
  intro closeNext
  induction ids generalizing s closed with
  | nil =>
    refine .inl ⟨Database.takesNext_zero .., s.db, ?_⟩
    rw [closing_nil, List.append_nil]
    rfl
  | cons id rest ih =>
    obtain ⟨fresh, distinct⟩ := List.nodup_cons.1 distinct
    obtain ⟨p, known, own, unclosed⟩ := targets id List.mem_cons_self
    rw [List.foldlM_cons, List.length_cons]
    obtain ⟨takes, rows, run⟩ | ⟨untaken, e, db, run⟩ := run_setState_closed known own unclosed
    · have first : (closeNext closed id).run s =
          (.ok (closed ++ [id]), ⟨closing [id] s.view, s.db.written .pipelines rows⟩) := Action.run_bind_ok run _
      have others : ∀ other ∈ rest, ∃ p, (closing [id] s.view)[other]? = some p ∧ p.id = other ∧ p.state ≠ .closed := by
        intro other mem
        obtain ⟨q, found, own, unclosed⟩ := targets other (List.mem_cons_of_mem id mem)
        have apart : other ≠ id := fun same => fresh (same ▸ mem)
        exact ⟨q, by simp [getElem?_closing, found, apart], own, unclosed⟩
      rw [Action.run_bind_ok first, Database.takesNext_succ rest.length rows]
      obtain ⟨later, db, ran⟩ | ⟨later, e, db, done, failed, left, rfl, ran⟩ :=
        ih (s := ⟨closing [id] s.view, s.db.written .pipelines rows⟩) distinct others (closed ++ [id])
      · refine .inl ⟨⟨takes, later⟩, db, ?_⟩
        rw [ran, closing_cons, List.append_assoc]
        rfl
      · refine .inr ⟨fun both => later both.2, e, db, id :: done, failed, left, rfl, ?_⟩
        rw [ran, closing_cons]
    · have first : (closeNext closed id).run s = (.error e, ⟨s.view, db⟩) := Action.run_bind_error run _
      refine .inr ⟨fun takes => untaken ?_, e, db, [], id, rest, rfl, ?_⟩
      · exact ((Database.takesNext_succ rest.length ∅).1 takes).1
      · rw [Action.run_bind_error first, closing_nil]

/-- All pipelines of a node are closed if the store takes the writes, else those before the first failure. -/
theorem run_closeOn (own : s.view.Own) (node : NodeId) :
    (s.db.TakesNext .pipelines (s.view.openOn node).length ∧ ∃ db, (closeOn node).run s =
      (.ok (s.view.openOn node), ⟨closing (s.view.openOn node) s.view, db⟩)) ∨
    (¬ s.db.TakesNext .pipelines (s.view.openOn node).length ∧ ∃ e db done id left,
      s.view.openOn node = done ++ id :: left ∧ (closeOn node).run s = (.error e, ⟨closing done s.view, db⟩)) := by
  have targets : ∀ id ∈ s.view.openOn node, ∃ p, s.view[id]? = some p ∧ p.id = id ∧ p.state ≠ .closed := by
    intro id mem
    obtain ⟨p, known, unclosed, -⟩ := mem_openOn_iff.1 mem
    exact ⟨p, known, own id p known, unclosed⟩
  have ran := run_closeEach (s := s) Std.ExtTreeMap.nodup_keys targets []
  rw [closeOn, Action.run_bind_ok (Stored.run_getView s)]
  exact ran

end PipelineRegistry

end ClusterCatalog
