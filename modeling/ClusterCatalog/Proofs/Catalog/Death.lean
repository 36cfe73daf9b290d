import ClusterCatalog.Proofs.Catalog.Working
import ClusterCatalog.Proofs.Catalog.WriteThrough
import ClusterCatalog.Proofs.Container.Rows
import ClusterCatalog.Proofs.Pipeline.Closing
/-!
The death of a node. Its pipelines are closed first and its replicas are removed after that, so a write on the
table of pipelines that fails keeps all of the node's rows in the directory.
-/
namespace ClusterCatalog

variable {ε : Type}

namespace Directory

/-- A row is removed from memory alone. -/
theorem run_drop (id : ContainerId) (node : NodeId) (s : Stored Directory) :
    ∃ containers, (Single.drop id node).run s = ⟨⟨containers, s.view.history⟩, s.db⟩ := by
  cases found : s.view.containers[id]? with
  | none => exact ⟨s.view.containers, Single.run_drop_of_none found⟩
  | some c => exact ⟨_, Single.run_drop_of_some found⟩

theorem run_drops (ids : List ContainerId) (node : NodeId) (s : Stored Directory) :
    ∃ containers, ids.foldl (fun s id => (Single.drop id node).run s) s = ⟨⟨containers, s.view.history⟩, s.db⟩ := by
  induction ids generalizing s with
  | nil => exact ⟨s.view.containers, rfl⟩
  | cons id rest ih =>
    obtain ⟨containers, first⟩ := run_drop id node s
    rw [List.foldl_cons, first]
    exact ih _

/-- Nothing keeps the rows of a node from being removed. -/
theorem run_removeReplicasOf_drop (node : NodeId) (s : Stored Directory) :
    ∃ n containers, (removeReplicasOf node : Action _ ε _).run s = (.ok n, ⟨⟨containers, s.view.history⟩, s.db⟩) ∧
      ∀ id : ContainerId, containers[id]? = (s.view.containers[id]?).map (Container.drop node) := by
  obtain ⟨n, run⟩ := run_removeReplicasOf (ε := ε) node s
  obtain ⟨-, touched⟩ := touchesWhile_foldl (P := fun _ => True) (touchesWhile_drop node) (s.view.onNode node) s trivial
  obtain ⟨containers, ran⟩ := run_drops (s.view.onNode node) node s
  rw [ran] at run
  refine ⟨n, containers, run, fun id => ?_⟩
  have here := touched id
  dsimp only at here
  rw [ran] at here
  refine here.trans ?_
  cases found : s.view.containers[id]? with
  | none => rfl
  | some c =>
    refine congrArg some ((foldl_drop node _ id c).trans ?_)
    exact Container.drop_where_held (mem_onNode found).2

theorem row?_of_drop {containers containers' : Std.ExtTreeMap ContainerId Container} {node : NodeId}
    (dropped : ∀ id : ContainerId, containers'[id]? = (containers[id]?).map (Container.drop node))
    (id : ContainerId) (other : NodeId) :
    row? containers' id other = if other = node then none else row? containers id other := by
  rw [row?, dropped, row?]
  cases containers[id]? with
  | none => simp
  | some c => by_cases mine : other = node <;> simp [mine, Container.drop, Std.ExtTreeMap.getElem?_erase, Ne.symm]

end Directory

namespace Catalog

open Directory (row?)

variable {c c' : Catalog} {node : NodeId}

section KeepsOwn

def KeepsOwn (c c' : Catalog) : Prop := c.pipelines.Own → c'.pipelines.Own

theorem composes_keepsOwn : Action.Composes KeepsOwn where
  refl _ := id
  trans h g := g ∘ h

theorem keepsOwn_onPipelines {α : Type} {a : Action (Stored PipelineRegistry) ε α}
    (h : a.Respects PipelineRegistry.KeepsOwn) : (onPipelines a).Respects KeepsOwn := fun _ own => h _ own

theorem keepsOwn_onNodes {α : Type} (a : Action (Stored NodeRegistry) ε α) : (onNodes a).Respects KeepsOwn :=
  fun _ => id

theorem keepsOwn_onDirectory {α : Type} (a : Action (Stored Directory) ε α) : (onDirectory a).Respects KeepsOwn :=
  fun _ => id

theorem keepsOwn_receive (report : Report) : (receive report).Respects KeepsOwn := by
  refine respects_receive composes_keepsOwn ?_ ?_ ?_ ?_ ?_ ?_ ?_
  · exact fun c h _ => keepsOwn_onNodes _ c
  · exact fun node => ((keepsOwn_onNodes (NodeRegistry.register node)).relabel _).discard
  · exact fun c node replicas _ _ => keepsOwn_onDirectory _ c
  · exact fun c node replicas _ _ => keepsOwn_onDirectory _ c
  · exact fun node entries _ => keepsOwn_onPipelines (PipelineRegistry.keepsOwn_report node entries)
  · exact fun node => ((keepsOwn_onPipelines (PipelineRegistry.keepsOwn_closeOn node)).relabel _).discard
  · exact fun node _ => keepsOwn_onDirectory _

theorem own_of_load {n : Loaded} (loaded : load.run c = (.ok n, c')) : c'.pipelines.Own := by
  obtain ⟨nodes, directory, pipelines, -, -, read, rfl⟩ := load_eq_ok loaded
  obtain ⟨rows, -, read⟩ := exists_of_bind_eq_ok read
  obtain ⟨-, rfl⟩ := Prod.mk.inj (Except.ok.inj read)
  exact PipelineRegistry.own_reload rows

theorem own_of_start {clock : Millis} {disk disk' : Layout StoreFile} {n : Loaded}
    (started : (start clock).run disk = (.ok (n, c), disk')) : c.pipelines.Own := by
  obtain ⟨live, u, -, loaded⟩ := start_eq_ok started
  exact own_of_load loaded

end KeepsOwn

/-- All pipelines of a node can be closed: the writes that it takes will be taken. -/
def Closes (c : Catalog) (node : NodeId) : Prop :=
  c.live.db.TakesNext .pipelines (c.pipelines.openOn node).length

structure Buried (node : NodeId) (c c' : Catalog) : Prop where
  containers (id : ContainerId) :
    c'.directory.containers[id]? = (c.directory.containers[id]?).map (Container.drop node)
  history : c'.directory.history = c.directory.history
  pipelines (id : PipelineId) : c'.pipelines[id]? = (c.pipelines[id]?).map (Pipeline.shut node)

structure Abandoned (node : NodeId) (c c' : Catalog) : Prop where
  directory : c'.directory = c.directory
  pipelines (id : PipelineId) :
    c'.pipelines[id]? = c.pipelines[id]? ∨ c'.pipelines[id]? = (c.pipelines[id]?).map (Pipeline.shut node)
  unclosed : ∃ id ∈ c.pipelines.openOn node, c'.pipelines[id]? = c.pipelines[id]?

theorem abandoned_closing {done left : List PipelineId} {id : PipelineId} {db : Database}
    (targets : c.pipelines.openOn node = done ++ id :: left) :
    Abandoned node c { c with pipelines := c.pipelines.closing done, live := { c.live with db } } where
  directory := rfl
  pipelines other := by
    dsimp only
    by_cases closed : other ∈ done
    · refine .inr ?_
      have target : other ∈ c.pipelines.openOn node := targets ▸ List.mem_append_left _ closed
      rw [← PipelineRegistry.getElem?_closing_openOn, PipelineRegistry.getElem?_closing,
        PipelineRegistry.getElem?_closing]
      simp only [closed, target]
    · simp [PipelineRegistry.getElem?_closing, closed]
  unclosed := by
    have distinct : (done ++ id :: left).Nodup := targets ▸ Std.ExtTreeMap.nodup_keys
    have apart : id ∉ done := fun mem => (List.nodup_append.1 distinct).2.2 id mem id List.mem_cons_self rfl
    refine ⟨id, targets ▸ List.mem_append_right _ List.mem_cons_self, ?_⟩
    simp [PipelineRegistry.getElem?_closing, apart]

theorem run_closePipelines_cases (own : c.pipelines.Own) (node : NodeId) :
    (c.Closes node ∧ ∃ db, (closePipelines node).run c = (.ok (), { c with
      pipelines := c.pipelines.closing (c.pipelines.openOn node), live := { c.live with db } })) ∨
    (¬ c.Closes node ∧ ∃ e db done id left, c.pipelines.openOn node = done ++ id :: left ∧
      (closePipelines node).run c = (.error (.store e), { c with
        pipelines := c.pipelines.closing done, live := { c.live with db } })) := by
  obtain ⟨closes, db, run⟩ | ⟨fails, e, db, done, id, left, targets, run⟩ :=
    PipelineRegistry.run_closeOn (s := ⟨c.pipelines, c.live.db⟩) own node
  · refine .inl ⟨closes, db, Action.run_discard_ok (x := c.pipelines.openOn node) (Action.run_relabel_ok ?_ _)⟩
    rw [onPipelines, Action.run_within, run]
  · refine .inr ⟨fails, e, db, done, id, left, targets, Action.run_discard_error (Action.run_relabel_error ?_ _)⟩
    rw [onPipelines, Action.run_within, run]

/-- The death of a node is dealt with if all its pipelines can be closed, and given up if not. -/
theorem run_receive_dead (own : c.pipelines.Own) (node : NodeId) :
    (c.Closes node ∧ ∃ c', (receive (.nodeStateChange node .dead)).run c = (.ok (), c') ∧ Buried node c c') ∨
    (¬ c.Closes node ∧ ∃ e c', (receive (.nodeStateChange node .dead)).run c = (.error (.store e), c') ∧
      Abandoned node c c') := by
  obtain ⟨closes, db, run⟩ | ⟨fails, e, db, done, id, left, targets, run⟩ := run_closePipelines_cases own node
  · obtain ⟨n, containers, removed, dropped⟩ :=
      Directory.run_removeReplicasOf_drop (ε := CatalogError) node ⟨c.directory, db⟩
    refine .inl ⟨closes, _, (Action.run_bind_ok run _).trans (Action.run_discard_ok (run_onDirectory_of_run removed)),
      dropped, rfl, fun id => ?_⟩
    exact PipelineRegistry.getElem?_closing_openOn c.pipelines node id
  · exact .inr ⟨fails, e, _, Action.run_bind_error run _, abandoned_closing targets⟩

/-- What the death of a node does, whichever writes fail. The rows of other nodes stay; those of the node go if
every write that closes a pipeline of it is taken, and else they stay too. -/
theorem handled_dead (own : c.pipelines.Own) (node : NodeId) :
    ∃ result c', (receive (.nodeStateChange node .dead)).run c = (result, c') ∧
      (c.Closes node → result = .ok () ∧ Buried node c c') ∧
      (¬ c.Closes node → (∃ e, result = .error (.store e)) ∧ Abandoned node c c') ∧
      (∀ id other, other ≠ node →
        row? c'.directory.containers id other = row? c.directory.containers id other) ∧
      ((∀ id, row? c'.directory.containers id node = none) ↔
        c.Closes node ∨ ∀ id, row? c.directory.containers id node = none) := by
  obtain ⟨closes, c', run, buried⟩ | ⟨fails, e, c', run, abandoned⟩ := run_receive_dead own node
  · refine ⟨.ok (), c', run, fun _ => ⟨rfl, buried⟩, fun fails => absurd closes fails, fun id other apart => ?_, ?_⟩
    · rw [Directory.row?_of_drop buried.containers, if_neg apart]
    · refine ⟨fun _ => .inl closes, fun _ id => ?_⟩
      rw [Directory.row?_of_drop buried.containers, if_pos rfl]
  · refine ⟨.error (.store e), c', run, fun closes => absurd closes fails, fun _ => ⟨⟨e, rfl⟩, abandoned⟩,
      fun _ _ _ => by rw [abandoned.directory], ?_⟩
    rw [abandoned.directory]
    exact ⟨.inr, fun h => h.resolve_left fails⟩

section Small

def twoNodes (db : Database) : Catalog where
  clock := 5
  directory.containers := (∅ : Std.ExtTreeMap ContainerId Container).insert ⟨1⟩
    ⟨.fresh 3 ⟨1⟩ .opened none, ((∅ : Std.ExtTreeMap NodeId Replica).insert ⟨⟨3⟩⟩
      ⟨⟨1⟩, ⟨⟨3⟩⟩, .opened, 0, 0, 0, ⟨⟨3⟩⟩⟩).insert ⟨⟨4⟩⟩ ⟨⟨1⟩, ⟨⟨4⟩⟩, .opened, 0, 0, 0, ⟨⟨4⟩⟩⟩⟩
  pipelines := PipelineRegistry.reload [⟨⟨⟨7⟩⟩, [⟨⟨3⟩⟩, ⟨⟨4⟩⟩], .opened⟩, ⟨⟨⟨8⟩⟩, [⟨⟨4⟩⟩], .opened⟩]
  live := ⟨"scm-1", db⟩
  disk := {}

def dead3 (db : Database) : Except CatalogError Unit × Catalog :=
  (receive (.nodeStateChange ⟨⟨3⟩⟩ .dead)).run (twoNodes db)

theorem handled_dead_twoNodes :
    (twoNodes .empty).pipelines.Own ∧ (twoNodes .empty).Closes ⟨⟨3⟩⟩ ∧
      (dead3 .empty).1 = .ok () ∧ Buried ⟨⟨3⟩⟩ (twoNodes .empty) (dead3 .empty).2 ∧
      (dead3 .empty).2.pipelines.values.map Pipeline.state = [.closed, .opened] := by
  have own := PipelineRegistry.own_reload [⟨⟨⟨7⟩⟩, [⟨⟨3⟩⟩, ⟨⟨4⟩⟩], .opened⟩, ⟨⟨⟨8⟩⟩, [⟨⟨4⟩⟩], .opened⟩]
  have closes : (twoNodes .empty).Closes ⟨⟨3⟩⟩ := Database.Accepts.takesNext ⟨⟨∅, rfl⟩, List.not_mem_nil⟩ _
  obtain ⟨result, c', run, buried, -⟩ := handled_dead (c := twoNodes .empty) own ⟨⟨3⟩⟩
  obtain ⟨ok, buried⟩ := buried closes
  have ran : dead3 .empty = (result, c') := run
  refine ⟨own, closes, ?_, ?_, by decide +kernel⟩
  · rw [ran, ok]
  · rw [ran]
    exact buried

/-- The table of pipelines cannot be written to. The pipeline of node 3 stays open, and so its row stays. -/
theorem row_kept_after_death :
    let db := Database.empty.setTable .pipelines .foreign
    (twoNodes db).pipelines.Own ∧ (dead3 db).1 = .error (.store .foreignTable) ∧
      row? (dead3 db).2.directory.containers ⟨1⟩ ⟨⟨3⟩⟩ ≠ none := by
  refine ⟨PipelineRegistry.own_reload _, by decide +kernel, by decide +kernel⟩

end Small

end Catalog

end ClusterCatalog
