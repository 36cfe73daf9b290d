import ClusterCatalog.Proofs.Container.Batch
import ClusterCatalog.Proofs.Storage.Working
import ClusterCatalog.Sync.Pass
/-!
Containers over a store that works: every replica is taken, every batch is taken as a whole, and a
container that is not known can be added.
-/
namespace ClusterCatalog

def Sync.DiffReport.counting (r : DiffReport) (applied transitions : Nat) : DiffReport :=
  { r with applied := r.applied + applied, transitions := r.transitions + transitions }

namespace Held

def Works (h h' : Held) : Prop := h.db.Works → h'.db.Works

theorem composes_works : Action.Composes Works := ⟨fun _ => id, fun h g => g ∘ h⟩

theorem works_persist (info : ContainerInfo) : (persist info).Respects Works := by
  intro h works
  have after : ((TypedTable.containers.put info.id info).run h.db).2.Works :=
    works.after_write (by decide) fun rows => ((), TypedTable.containers.insertRow rows (info.id, info))
  rw [run_persist]
  rcases ran : (TypedTable.containers.put info.id info).run h.db with ⟨_ | _, db⟩
  all_goals
    rw [ran] at after
    exact after

theorem respected_works : Respected Works where
  toComposes := composes_works
  persist _ := works_persist _ _
  modify _ db h := by
    rw [Action.run_modify, Works, db]
    exact id

/-- Over a store that works every replica is taken. -/
theorem run_apply_of_works (now : Millis) (replica : Replica) {h : Held} (works : h.db.Works) :
    ∃ db, (apply now replica).run h =
        (.ok (outcome replica h.container.info), ⟨h.container.take now replica, recorded now replica h, db⟩) ∧
      db.Works := by
  have after := respected_works.apply now replica h works
  have applied := applied now replica h
  generalize (apply now replica).run h = r at applied after
  cases applied with
  | taken db => exact ⟨db, rfl, after⟩
  | refused refuses => exact absurd works.containers refuses
  | halfway refuses => exact absurd works.containers refuses

/-- The summaries of a batch are applied one by one, and all of them are counted. -/
theorem run_applyReplicas (now : Millis) (replicas : List ReplicaSummary) (r : Sync.DiffReport) {h : Held}
    (works : h.db.Works) : ∃ history db, (Sync.applyReplicas now replicas r).run h =
        (.ok (r.counting replicas.length (h.container.fired now (replicas.map (·.toReplica)))),
          ⟨h.container.takeAll now (replicas.map (·.toReplica)), history, db⟩) ∧ db.Works := by
  induction replicas generalizing r h with
  | nil => exact ⟨h.history, h.db, rfl, works⟩
  | cons s rest ih =>
    obtain ⟨db, run, after⟩ := run_apply_of_works now s.toReplica works
    let r' := r.addApplied (.ok (outcome s.toReplica h.container.info))
    have first : ((fun x => r.addApplied x) <$> ((apply now s.toReplica).attempt : Action Held ContainerError _)).run h =
        (.ok r', ⟨h.container.take now s.toReplica, recorded now s.toReplica h, db⟩) := by
      rw [Action.run_map, Action.run_attempt, run]
      rfl
    obtain ⟨history, db', run', works'⟩ := ih r' (h := ⟨_, _, db⟩) after
    refine ⟨history, db', ?_, works'⟩
    have counted (n : Nat) : r'.counting rest.length n = r.counting (s :: rest).length
        ((if (outcome s.toReplica h.container.info).newState?.isSome then 1 else 0) + n) := by
      simp only [r', Sync.DiffReport.addApplied, Sync.DiffReport.counting, List.length_cons, Nat.add_assoc, Nat.add_comm 1]
    rw [Sync.applyReplicas, List.foldlM_cons, Action.run_bind_ok first, List.map_cons, Container.takeAll_cons]
    exact run'.trans (by rw [counted]; rfl)

end Held

namespace Directory

/-- A batch for a container that is known. -/
theorem run_takeBatch (now : Millis) (replicas : List ReplicaSummary) (r : Sync.DiffReport) {s : Stored Directory}
    (works : s.db.Works) {id : ContainerId} {c : Container} (found : s.view.containers[id]? = some c) :
    ∃ history db, (withContainer id (Sync.applyReplicas now replicas r)).run s =
        (.ok (r.counting replicas.length (c.fired now (replicas.map (·.toReplica)))),
          ⟨⟨s.view.containers.insert id (c.takeAll now (replicas.map (·.toReplica))), history⟩, db⟩) ∧ db.Works := by
  obtain ⟨history, db, run, works'⟩ :=
    Held.run_applyReplicas now replicas r (h := ⟨c, s.view.history, s.db⟩) works
  exact ⟨history, db, by rw [run_withContainer_of_some _ found, run], works'⟩

theorem not_contains {d : Directory} {id : ContainerId} (unknown : d.containers[id]? = none) :
    ¬ d.containers.contains id = true := by
  rw [Std.ExtTreeMap.contains_eq_isSome_getElem?, unknown]
  exact Bool.false_ne_true

theorem leads_add (info : ContainerInfo) {d : Directory} (unknown : d.containers[info.id]? = none) :
    Stored.Leads (add info) d () { d with containers := d.containers.insert info.id ⟨info, ∅⟩ } := by
  refine (Stored.leads_getView d).bind ?_
  rw [if_neg (not_contains unknown)]
  dsimp only
  have stored := Stored.leads_put (t := TypedTable.containers) (fun _ works => works.containers) (by decide)
    info.id info ContainerError.store d
  exact stored.bind ((Stored.leads_observe info.id.value ContainerError.store d).bind (Stored.leads_modifyView _ d))

end Directory

end ClusterCatalog
