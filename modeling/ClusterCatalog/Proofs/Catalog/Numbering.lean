import ClusterCatalog.Proofs.Catalog.WriteThrough
import ClusterCatalog.Proofs.Container.Numbering
/-!
The counter of a catalog never falls while its live store stays the same, and as long as the store takes
containers, it stays ahead of all that are known. A catalog that is started from such a store is such.
-/
namespace ClusterCatalog

open Counter (containerId)

structure Database.Hospitable (db : Database) : Prop where
  containers : TypedTable.containers.OwnKeys ContainerInfo.id db
  taken : true ∉ db.refusals .containers
  counter : Counter.Works db containerId

theorem Database.hospitable_empty : Database.empty.Hospitable :=
  ⟨Database.proper_empty.containers, List.not_mem_nil, Database.proper_empty.counter⟩

def StoreFile.Hospitable : StoreFile → Prop
  | database db => db.Hospitable
  | _ => True

theorem StoreFile.Hospitable.load {file : StoreFile} (hospitable : file.Hospitable) {db : Database}
    (loaded : file.load = .ok db) : db.Hospitable := by
  obtain ⟨rfl, rfl⟩ | ⟨rfl, -⟩ := StoreFile.load_eq_ok loaded
  · exact Database.hospitable_empty
  · exact hospitable

namespace Directory

variable {d d' : Directory} {db : Database}

theorem numbered_empty : Numbered ⟨{}, .empty⟩ where
  inStep := ⟨mirrors_load (d := {}) (n := 0) Database.proper_empty.containers rfl, Database.proper_empty.counter⟩
  taken := List.not_mem_nil
  counted := ⟨0, rfl, fun id known => by simp at known⟩

/-- Rows that are read again are those of the known containers. -/
theorem Numbered.load {old : Directory} (numbered : Numbered ⟨d, db⟩) {n : Nat} (loaded : old.load db = .ok (n, d')) :
    Numbered ⟨d', db⟩ := by
  have mirrors := mirrors_load numbered.inStep.containers.ownKeys loaded
  refine ⟨⟨mirrors, numbered.inStep.counter⟩, numbered.taken, ?_⟩
  obtain ⟨last, read, bound⟩ := numbered.counted
  refine ⟨last, read, fun id known => bound id ?_⟩
  have same := congrFun (mirrors.unique numbered.inStep.containers) id
  rw [Std.ExtTreeMap.mem_iff_isSome_getElem?] at known ⊢
  rw [← Option.isSome_map (f := Container.info), ← same, Option.isSome_map]
  exact known

end Directory

namespace Catalog

abbrev Numbered (c : Catalog) : Prop := Directory.Numbered ⟨c.directory, c.live.db⟩

structure Grows (c c' : Catalog) : Prop where
  rises : Counter.Rises containerId c.live.db c'.live.db
  numbered : c.Numbered → c'.Numbered

theorem composes_grows : Action.Composes Grows where
  refl _ := ⟨Counter.rises_of_current_eq rfl, id⟩
  trans h g := ⟨h.rises.trans g.rises, g.numbered ∘ h.numbered⟩

variable {ε α : Type}

theorem grows_onDirectory {a : Action (Stored Directory) ε α} (keeps : a.Respects Directory.Keeps)
    (grows : a.Respects Directory.Grows) : (onDirectory a).Respects Grows :=
  fun c => ⟨(grows ⟨c.directory, c.live.db⟩).rises, fun numbered => numbered.respects keeps grows⟩

/-- What is written to other tables leaves containers and counter alone. -/
theorem grows_of_confined {c c' : Catalog} {names : List TableName} (same : c'.directory = c.directory)
    (confined : Database.Confined names c.live.db c'.live.db) (containers : TableName.containers ∉ names)
    (counters : TableName.counters ∉ names) : Grows c c' := by
  have rises : Counter.Rises containerId c.live.db c'.live.db := Counter.rises_of_confined confined counters
  refine ⟨rises, fun numbered => ?_⟩
  obtain ⟨last, read, bound⟩ := numbered.counted
  rw [Numbered, same]
  refine ⟨⟨numbered.inStep.containers.confined confined containers, numbered.inStep.counter.confined confined counters⟩,
    fun refused => numbered.taken ((confined.refusals .containers).mem refused), last, ?_, bound⟩
  rw [Counter.current_congr (confined.tables counters)]
  exact read

theorem grows_onNodes {a : Action (Stored NodeRegistry) ε α} (h : a.Respects (Stored.WritesTo [.nodes])) :
    (onNodes a).Respects Grows := fun c => by
  have confined : Database.Confined [.nodes] c.live.db _ := h ⟨c.nodes, c.live.db⟩
  exact grows_of_confined rfl confined (by simp) (by simp)

theorem grows_onPipelines {a : Action (Stored PipelineRegistry) ε α} (h : a.Respects (Stored.WritesTo [.pipelines])) :
    (onPipelines a).Respects Grows := fun c => by
  have confined : Database.Confined [.pipelines] c.live.db _ := h ⟨c.pipelines, c.live.db⟩
  exact grows_of_confined rfl confined (by simp) (by simp)

theorem grows_register (node : NodeId) : (register node).Respects Grows :=
  ((grows_onNodes (NodeRegistry.writesTo_register node)).relabel _).discard

theorem grows_closePipelines (node : NodeId) : (closePipelines node).Respects Grows :=
  ((grows_onPipelines (PipelineRegistry.writesTo_closeOn node)).relabel _).discard

theorem grows_receive (report : Report) : (receive report).Respects Grows := by
  refine respects_receive composes_grows ?_ grows_register ?_ ?_ ?_ grows_closePipelines ?_
  · exact fun c h _ => grows_onNodes (NodeRegistry.writesTo_heartbeat c.instant h) c
  · exact fun c node replicas _ _ => grows_onDirectory (Directory.keeps_fullReport c.clock node replicas)
      (Directory.grows_fullReport c.clock node replicas) c
  · exact fun c node replicas _ _ => grows_onDirectory (Directory.keeps_incrementalReport c.clock node replicas)
      (Directory.grows_incrementalReport c.clock node replicas) c
  · exact fun node entries _ => grows_onPipelines (PipelineRegistry.writesTo_report node entries)
  · exact fun node _ =>
      grows_onDirectory (Directory.keeps_removeReplicasOf node) (Directory.grows_removeReplicasOf node)

theorem grows_loadDirectory : loadDirectory.Respects Grows :=
  respects_loadDirectory composes_grows fun loaded =>
    ⟨Counter.rises_of_current_eq rfl, fun numbered => numbered.load loaded⟩

theorem grows_loadNodes : loadNodes.Respects Grows :=
  respects_loadNodes composes_grows fun _ => ⟨Counter.rises_of_current_eq rfl, id⟩

theorem grows_loadPipelines : loadPipelines.Respects Grows :=
  respects_loadPipelines composes_grows fun _ => ⟨Counter.rises_of_current_eq rfl, id⟩

end Catalog

end ClusterCatalog
