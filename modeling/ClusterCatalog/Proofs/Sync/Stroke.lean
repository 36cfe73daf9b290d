import ClusterCatalog.Proofs.Container.Batch
import ClusterCatalog.Proofs.Container.Origin
import ClusterCatalog.Proofs.Sync.Traffic
import ClusterCatalog.Proofs.Sync.WriteThrough
/-!
Strokes: what is done to a catalog at once, so that others see it before and after and never in between. From
one stroke to the next a row keeps its origin until it is removed, and the rest of it is that of the replica
that was accepted last.
-/
namespace ClusterCatalog.Sync

open Directory (Single renewed)

def rowOf (id : ContainerId) (node : NodeId) (c : Catalog) : Option Replica :=
  Directory.row? c.directory.containers id node

/-- Operations that go replica by replica, so that others may see them half done. -/
def Operation.Piecemeal : Operation → Prop
  | receive _ | applyReplica _ | removeReplica .. | removeReplicasOf _ | fullReport .. | incrementalReport .. => True
  | _ => False

inductive Stroke where
  | single (one : Single)
  | operation (op : Operation) (whole : ¬ op.Piecemeal)
  | install (home : String) (snapshot : Snapshot)

namespace Stroke

variable {id : ContainerId} {node : NodeId}

def run : Stroke → Catalog → Catalog
  | single one, c =>
    let s := one.run ⟨c.directory, c.live.db⟩
    { c with directory := s.view, live := { c.live with db := s.db } }
  | operation op _, c => op.perform c
  | install home snapshot, c => ((Sync.install home snapshot).run c).2

def accepted? (id : ContainerId) (node : NodeId) (c : Catalog) : Stroke → Option Replica
  | single one => one.accepted? id node ⟨c.directory, c.live.db⟩
  | operation (.updateReplica x) _ =>
    if x.container = id ∧ x.node = node ∧
      ((Directory.updateReplica c.clock x).run ⟨c.directory, c.live.db⟩).1.isOk = true then some x else none
  | _ => none

def Loses (id : ContainerId) (c c' : Catalog) : Prop := id ∈ c.directory.containers ∧ id ∉ c'.directory.containers

def Removes (id : ContainerId) (node : NodeId) (c : Catalog) : Stroke → Prop
  | single one => one = .drop id node
  | operation op _ => op = .loadDirectory ∧ Loses id c (op.perform c)
  | install home snapshot => Loses id c ((Sync.install home snapshot).run c).2

def Reloads (c c' : Catalog) : Prop :=
  c'.directory = c.directory ∨ ∃ infos history, c'.directory = c.directory.reload infos history

theorem reloads_loadDirectory : Catalog.loadDirectory.Respects Reloads := by
  intro c
  rw [Catalog.loadDirectory, Action.run_bind_ok (Action.run_get c)]
  cases loaded : c.directory.load c.live.db with
  | error e => exact .inl rfl
  | ok r =>
    obtain ⟨infos, -, loaded⟩ := exists_of_bind_eq_ok loaded
    obtain ⟨history, -, loaded⟩ := exists_of_bind_eq_ok loaded
    exact .inr ⟨infos, history, (congrArg Prod.snd (Except.ok.inj loaded)).symm⟩

theorem reloads_install (home : String) (snapshot : Snapshot) : (Sync.install home snapshot).Respects Reloads := by
  intro c
  obtain ⟨cause, breaks⟩ | ⟨report, c', name, disk, -, ran, live⟩ := breaks_or_wentLive c home snapshot
  · rw [breaks.run_install home]
    exact .inl rfl
  · obtain ⟨db, opened⟩ := live.opened
    obtain ⟨incoming, -, -, reloaded⟩ := live.directory opened
    rw [ran]
    exact .inr ⟨incoming.infos, incoming.history, reloaded⟩

/-- A container that stays keeps its rows, whatever else is in the store. -/
theorem Reloads.rowOf_eq {c c' : Catalog} (reloads : Reloads c c')
    (spared : ¬ Loses id c c') : rowOf id node c' = rowOf id node c := by
  obtain same | ⟨infos, history, reloaded⟩ := reloads
  · rw [rowOf, rowOf, same]
  · rw [rowOf, reloaded, Directory.row?_reload]
    split
    · rfl
    · next unlisted =>
      have unknown : id ∉ c.directory.containers := by
        intro known
        refine spared ⟨known, fun stays => unlisted ?_⟩
        rw [reloaded] at stays
        exact Directory.mem_of_mem_reload stays
      rw [rowOf, Directory.row?, Std.ExtTreeMap.getElem?_eq_none unknown]
      rfl

def Stays (id : ContainerId) (node : NodeId) (c c' : Catalog) : Prop := rowOf id node c' = rowOf id node c

theorem composes_stays (id : ContainerId) (node : NodeId) : Action.Composes (Stays id node) :=
  ⟨fun _ => rfl, fun first second => second.trans first⟩

theorem rowOf_onDirectory {ε α : Type} {a : Action (Stored Directory) ε α} (h : a.Respects Directory.SameRows)
    (c : Catalog) : rowOf id node ((Catalog.onDirectory a).state c) = rowOf id node c :=
  h ⟨c.directory, c.live.db⟩ id node

/-- One stroke: a row that is not removed takes the replica that was accepted for it, or stays as it is. -/
theorem rowOf_run {stroke : Stroke} {c : Catalog} (spared : ¬ stroke.Removes id node c) :
    rowOf id node (stroke.run c) = renewed (rowOf id node c) (stroke.accepted? id node c) := by
  cases stroke with
  | single one => exact Directory.row?_single spared ⟨c.directory, c.live.db⟩
  | install home snapshot => exact (reloads_install home snapshot c).rowOf_eq spared
  | operation op whole =>
    cases op with
    | receive | applyReplica | removeReplica | removeReplicasOf | fullReport | incrementalReport =>
      exact absurd trivial whole
    | updateReplica x => exact Directory.row?_updateReplica c.clock x ⟨c.directory, c.live.db⟩ id node
    | loadDirectory => exact (reloads_loadDirectory c).rowOf_eq fun loses => spared ⟨rfl, loses⟩
    | create id state pipeline? => exact rowOf_onDirectory (Directory.sameRows_create _ _ _ _) c
    | add info => exact rowOf_onDirectory (Directory.sameRows_add info) c
    | allocate pipeline? => exact rowOf_onDirectory (Directory.sameRows_allocate _ _) c
    | transition id event => exact rowOf_onDirectory (Directory.sameRows_transition _ _ _) c
    | flushHistory => exact rowOf_onDirectory Directory.sameRows_flushHistory c
    | loadNodes => exact Catalog.respects_loadNodes (composes_stays id node) (fun _ => rfl) c
    | loadPipelines => exact Catalog.respects_loadPipelines (composes_stays id node) (fun _ => rfl) c
    | tick | heartbeat | register | setOpState | markStale | markDead | checkHealth | setPipelines
    | addPipeline | setPipelineState | reportPipelines | closePipelines | refuse => rfl

/-- A row that is removed is not there. -/
theorem rowOf_of_removes {stroke : Stroke} {c : Catalog} (removes : stroke.Removes id node c) :
    rowOf id node (stroke.run c) = none := by
  have lost {c' : Catalog} (loses : Loses id c c') : rowOf id node c' = none := by
    rw [rowOf, Directory.row?, Std.ExtTreeMap.getElem?_eq_none loses.2]
    rfl
  cases stroke with
  | single one =>
    obtain rfl := removes
    exact (Directory.row?_drop id node ⟨c.directory, c.live.db⟩ id node).trans (if_pos ⟨rfl, rfl⟩)
  | operation op whole =>
    obtain ⟨rfl, loses⟩ := removes
    exact lost loses
  | install home snapshot => exact lost removes

theorem accepted?_of_removes {stroke : Stroke} {c : Catalog} (removes : stroke.Removes id node c) :
    stroke.accepted? id node c = none := by
  cases stroke with
  | single one =>
    obtain rfl := removes
    rfl
  | operation op whole =>
    obtain ⟨rfl, -⟩ := removes
    rfl
  | install home snapshot => rfl

def runAll (strokes : List Stroke) (c : Catalog) : Catalog := strokes.foldl (fun c stroke => stroke.run c) c

def accepted (id : ContainerId) (node : NodeId) : Catalog → List Stroke → List Replica
  | _, [] => []
  | c, stroke :: rest => (stroke.accepted? id node c).toList ++ accepted id node (stroke.run c) rest

def Spares (id : ContainerId) (node : NodeId) : Catalog → List Stroke → Prop
  | _, [] => True
  | c, stroke :: rest => ¬ stroke.Removes id node c ∧ Spares id node (stroke.run c) rest

theorem rowOf_runAll {strokes : List Stroke} {c : Catalog} (spares : Spares id node c strokes) :
    rowOf id node (runAll strokes c) =
      (accepted id node c strokes).foldl (fun row x => some (Held.inheriting row x)) (rowOf id node c) := by
  induction strokes generalizing c with
  | nil => rfl
  | cons stroke rest ih =>
    obtain ⟨spared, spares⟩ := spares
    have first := rowOf_run spared
    rw [runAll, List.foldl_cons, accepted, List.foldl_append]
    refine (ih spares).trans (congrArg (List.foldl _ · _) ?_)
    rw [first]
    cases stroke.accepted? id node c <;> rfl

end Stroke

open Stroke (runAll accepted Spares)

/-- How a row fares. It begins as the replica that is accepted first; from then on, until it is removed, its
origin stays and the rest of it is that of the replica that was accepted last. -/
structure Fares (id : ContainerId) (node : NodeId) (c : Catalog) (strokes : List Stroke) : Prop where
  first {before after : List Stroke} {stroke : Stroke} (split : strokes = before ++ stroke :: after)
    (absent : rowOf id node (runAll before c) = none) :
    rowOf id node (runAll (before ++ [stroke]) c) = stroke.accepted? id node (runAll before c)
  kept {before stretch after : List Stroke} {r : Replica} (split : strokes = before ++ stretch ++ after)
    (present : rowOf id node (runAll before c) = some r) (spared : Spares id node (runAll before c) stretch) :
    rowOf id node (runAll (before ++ stretch) c) =
      some { (accepted id node (runAll before c) stretch).getLast?.getD r with origin := r.origin }
  removed {before after : List Stroke} {stroke : Stroke} (split : strokes = before ++ stroke :: after)
    (removes : stroke.Removes id node (runAll before c)) : rowOf id node (runAll (before ++ [stroke]) c) = none

theorem fares (id : ContainerId) (node : NodeId) (c : Catalog) (strokes : List Stroke) : Fares id node c strokes where
  first {before after stroke} _ absent := by
    rw [runAll, List.foldl_append]
    by_cases removes : stroke.Removes id node (runAll before c)
    · exact (Stroke.rowOf_of_removes removes).trans (Stroke.accepted?_of_removes removes).symm
    · refine (Stroke.rowOf_run removes).trans ?_
      rw [absent]
      cases stroke.accepted? id node (runAll before c) <;> rfl
  kept {before stretch after r} _ present spared := by
    rw [runAll, List.foldl_append]
    refine (Stroke.rowOf_runAll spared).trans ?_
    rw [present, Container.foldl_inheriting]
    cases last : (accepted id node (runAll before c) stretch).getLast? with
    | none => rfl
    | some x => rfl
  removed {before after stroke} _ removes := by
    rw [runAll, List.foldl_append]
    exact Stroke.rowOf_of_removes removes

end ClusterCatalog.Sync
