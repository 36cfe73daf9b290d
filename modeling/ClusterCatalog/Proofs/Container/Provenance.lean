import ClusterCatalog.Proofs.Container.Single
import ClusterCatalog.Proofs.Container.WriteThrough
/-!
Where the rows of replicas and the sightings of a directory come from: they were there before, or a
replica that was fed to a container has brought them, or they are sightings that were read from a store.
The container is the one that the replica was fed to, whatever container the replica itself names; a
sighting is kept under the names in the replica.
-/
namespace ClusterCatalog

namespace History

def Keyed (h : History) : Prop := ∀ (key : ReplicaKey) (s : Sighting), h.entries[key]? = some s → s.key = key

structure Traced (fed : Replica → Prop) (read : Sighting → Prop) (h h' : History) : Prop where
  entry {key : ReplicaKey} {s : Sighting} (here : h'.entries[key]? = some s) :
    h.entries[key]? = some s ∨ read s ∨ ∃ x, fed x ∧ x.key = key ∧ s.sequence = x.sequence ∧ s.state = x.state
  keyed (before : h.Keyed) : h'.Keyed

variable {fed fed' : Replica → Prop} {read read' : Sighting → Prop} {h h' h'' : History}

theorem Traced.refl (h : History) : Traced fed read h h := ⟨.inl, id⟩

theorem Traced.trans (first : Traced fed read h h') (second : Traced fed read h' h'') : Traced fed read h h'' where
  entry here := by
    obtain before | brought := second.entry here
    · exact first.entry before
    · exact .inr brought
  keyed before := second.keyed (first.keyed before)

theorem Traced.mono (le : ∀ x, fed x → fed' x) (le' : ∀ s, read s → read' s) (h : Traced fed read h' h'') :
    Traced fed' read' h' h'' where
  entry here := by
    obtain before | loaded | ⟨x, given, same⟩ := h.entry here
    · exact .inl before
    · exact .inr (.inl (le' _ loaded))
    · exact .inr (.inr ⟨x, le x given, same⟩)
  keyed := h.keyed

theorem record_keepOrigin (h : History) (now : Millis) (c : Container) (x : Replica) :
    h.record now (Held.keepOrigin c x) = h.record now x := by
  unfold Held.keepOrigin
  split <;> rfl

theorem getElem?_record (h : History) (now : Millis) (x : Replica) (key : ReplicaKey) : (h.record now x).entries[key]? =
    if x.key = key then some (sighted now x h.entries[x.key]?) else h.entries[key]? := by
  simp [record, Std.ExtTreeMap.getElem?_insert]

theorem traced_record (h : History) (now : Millis) {x : Replica} (given : fed x) :
    Traced fed read h (h.record now x) := by
  refine ⟨fun {key s} here => ?_, fun keyed key s here => ?_⟩
  · rw [getElem?_record] at here
    split at here
    · next same =>
      refine .inr (.inr ⟨x, given, same, ?_⟩)
      cases here
      cases h.entries[x.key]? <;> exact ⟨rfl, rfl⟩
    · exact .inl here
  · rw [getElem?_record] at here
    split at here
    · next same =>
      cases here
      cases before : h.entries[x.key]? with
      | none => exact same
      | some known => exact (keyed x.key known before).trans same
    · exact keyed key s here

theorem entries_accept {row s : Sighting} {key : ReplicaKey} (here : (h.accept row).entries[key]? = some s) :
    h.entries[key]? = some s ∨ (row = s ∧ row.key = key) := by
  unfold accept at here
  split at here
  · exact .inl here
  · rw [Std.ExtTreeMap.getElem?_insert] at here
    split at here
    · next same => exact .inr ⟨Option.some.inj here, Std.LawfulEqCmp.eq_of_compare same⟩
    · exact .inl here

theorem traced_foldl_accept (rows : List Sighting) (h : History) :
    Traced fed (fun s => s ∈ rows) h (rows.foldl accept h) := by
  induction rows generalizing h with
  | nil => exact .refl h
  | cons row rows ih =>
    have first : Traced fed (fun s => s ∈ row :: rows) h (h.accept row) := by
      refine ⟨fun here => ?_, fun keyed key s here => ?_⟩
      · obtain before | ⟨rfl, -⟩ := entries_accept here
        · exact .inl before
        · exact .inr (.inl List.mem_cons_self)
      · obtain before | ⟨rfl, own⟩ := entries_accept here
        · exact keyed key s before
        · exact own
    exact first.trans ((ih _).mono (fun _ => id) fun s => List.mem_cons_of_mem row)

theorem traced_reload (h : History) (rows : List Sighting) : Traced fed (fun s => s ∈ rows) h (h.reload rows) := by
  have kept : Traced fed (fun s => s ∈ rows) h
      { h with entries := h.entries.filter fun key _ => h.pending.contains key } := by
    have among {key : ReplicaKey} {s : Sighting}
        (here : (h.entries.filter fun key _ => h.pending.contains key)[key]? = some s) : h.entries[key]? = some s := by
      rw [Std.ExtTreeMap.getElem?_filter'] at here
      exact (Option.filter_eq_some_iff.1 here).1
    exact ⟨fun here => .inl (among here), fun keyed key s here => keyed key s (among here)⟩
  exact kept.trans (traced_foldl_accept rows _)

end History

namespace Held

structure Traced (fed : Replica → Prop) (read : Sighting → Prop) (h h' : Held) : Prop where
  row {node : NodeId} {r : Replica} (here : h'.container.replicas[node]? = some r) :
    h.container.replicas[node]? = some r ∨ ∃ x, fed x ∧ x.node = node ∧ r = { x with origin := r.origin }
  history : History.Traced fed read h.history h'.history

variable {fed : Replica → Prop} {read : Sighting → Prop}

theorem composes_traced (fed : Replica → Prop) (read : Sighting → Prop) : Action.Composes (Traced fed read) where
  refl h := ⟨.inl, .refl _⟩
  trans first second := by
    refine ⟨fun here => ?_, first.history.trans second.history⟩
    obtain before | brought := second.row here
    · exact first.row before
    · exact .inr brought

theorem traced_of_eq {h h' : Held} (replicas : h'.container.replicas = h.container.replicas)
    (history : h'.history = h.history) : Traced fed read h h' := by
  refine ⟨fun here => .inl (replicas ▸ here), ?_⟩
  rw [history]
  exact .refl _

theorem traced_insert (h : Held) (now : Millis) {x : Replica} (given : fed x) (info : ContainerInfo) (db : Database) :
    Traced fed read h ⟨⟨info, h.container.replicas.insert (keepOrigin h.container x).node (keepOrigin h.container x)⟩,
      h.history.record now (keepOrigin h.container x), db⟩ := by
  refine ⟨fun {node r} here => ?_, ?_⟩
  · rw [node_keepOrigin, Std.ExtTreeMap.getElem?_insert] at here
    split at here
    · next same =>
      refine .inr ⟨x, given, Std.LawfulEqCmp.eq_of_compare same, ?_⟩
      cases here
      unfold keepOrigin
      split <;> rfl
    · exact .inl here
  · rw [History.record_keepOrigin]
    exact History.traced_record h.history now given

theorem traced_update (now : Millis) {x : Replica} (given : fed x) : (update now x).Respects (Traced fed read) := by
  intro h
  obtain ⟨db, run, -⟩ | ⟨-, -, e, db, run, -⟩ := update_cases now x h
  · rw [run]
    exact traced_insert h now given _ db
  · rw [run]
    exact traced_of_eq rfl rfl

theorem traced_apply (now : Millis) {x : Replica} (given : fed x) : (apply now x).Respects (Traced fed read) := by
  intro h
  have applied := applied now x h
  generalize (apply now x).run h = result at applied
  cases applied with
  | taken db accepts =>
    by_cases deleted : h.container.info.state = .deleted
    · refine traced_of_eq ?_ ?_
      · simp [Container.take, deleted]
      · simp [recorded, deleted]
    · rw [Container.take, recorded, if_neg deleted, if_neg deleted]
      exact traced_insert h now given _ db
  | refused refuses e db => exact traced_of_eq rfl rfl
  | halfway refuses e db => exact traced_of_eq rfl rfl

theorem traced_transition (now : Millis) (event : Lifecycle.Event) : (transition now event).Respects (Traced fed read) := by
  intro h
  cases edge : h.container.info.state.next? event with
  | none =>
    rw [transition, Action.run_bind_ok (run_getInfo h), edge]
    exact (composes_traced fed read).refl h
  | some state =>
    obtain ⟨-, rows, -, run⟩ | ⟨-, e, db, run, -⟩ := transition_cases now edge
    · rw [run]
      exact traced_of_eq rfl rfl
    · rw [run]
      exact traced_of_eq rfl rfl

theorem traced_removeReplica (node : NodeId) : (removeReplica node).Respects (Traced fed read) := by
  intro h
  refine ⟨fun {other r} here => .inl ?_, .refl _⟩
  have erased : (h.container.replicas.erase node)[other]? = some r := here
  rw [Std.ExtTreeMap.getElem?_erase] at erased
  split at erased
  · cases erased
  · exact erased

end Held

namespace Directory

def row? (containers : Std.ExtTreeMap ContainerId Container) (id : ContainerId) (node : NodeId) : Option Replica :=
  containers[id]?.bind fun c => c.replicas[node]?

structure Traced (fed : ContainerId → Replica → Prop) (read : Sighting → Prop) (d d' : Directory) : Prop where
  row {id : ContainerId} {node : NodeId} {r : Replica} (here : row? d'.containers id node = some r) :
    row? d.containers id node = some r ∨ ∃ x, fed id x ∧ x.node = node ∧ r = { x with origin := r.origin }
  history : History.Traced (fun x => ∃ id, fed id x) read d.history d'.history

variable {fed fed' : ContainerId → Replica → Prop} {read read' : Sighting → Prop} {a b c : Directory}

theorem Traced.refl (d : Directory) : Traced fed read d d := ⟨.inl, .refl _⟩

theorem Traced.trans (first : Traced fed read a b) (second : Traced fed read b c) : Traced fed read a c := by
  refine ⟨fun here => ?_, first.history.trans second.history⟩
  obtain before | brought := second.row here
  · exact first.row before
  · exact .inr brought

theorem Traced.mono (le : ∀ id x, fed id x → fed' id x) (le' : ∀ s, read s → read' s) (h : Traced fed read a b) :
    Traced fed' read' a b := by
  refine ⟨fun here => ?_, h.history.mono (fun x ⟨id, given⟩ => ⟨id, le id x given⟩) le'⟩
  obtain before | ⟨x, given, same⟩ := h.row here
  · exact .inl before
  · exact .inr ⟨x, le _ x given, same⟩

abbrev TracedBy (fed : ContainerId → Replica → Prop) (read : Sighting → Prop) (s t : Stored Directory) : Prop :=
  Traced fed read s.view t.view

theorem composes_traced (fed : ContainerId → Replica → Prop) (read : Sighting → Prop) :
    Action.Composes (TracedBy fed read) := ⟨fun s => .refl s.view, .trans⟩

theorem traced_withContainer {α : Type} {id : ContainerId} {work : Action Held ContainerError α}
    (h : work.Respects (Held.Traced (fed id) read)) : (withContainer id work).Respects (TracedBy fed read) := by
  intro s
  cases found : s.view.containers[id]? with
  | none =>
    rw [run_withContainer_of_none work found]
    exact .refl _
  | some c =>
    have worked := h ⟨c, s.view.history, s.db⟩
    rw [run_withContainer_of_some work found]
    refine ⟨fun {other node r} here => ?_, worked.history.mono (fun x given => ⟨id, given⟩) fun _ known => known⟩
    unfold row? at here ⊢
    dsimp only at here ⊢
    rw [Std.ExtTreeMap.getElem?_insert] at here
    split at here
    · next same =>
      obtain rfl : id = other := Std.LawfulEqCmp.eq_of_compare same
      rw [found]
      exact worked.row here
    · exact .inl here

theorem traced_add (info : ContainerInfo) : (add info).Respects (TracedBy fed read) := by
  intro s
  unfold TracedBy
  obtain same | ⟨-, added⟩ := Single.run_add_cases info s
  · rw [show ((add info).run s).2.view = s.view from same]
    exact .refl _
  · rw [show ((add info).run s).2.view = _ from added]
    refine ⟨fun {id node r} here => .inl ?_, .refl _⟩
    unfold row? at here ⊢
    dsimp only at here
    rw [Std.ExtTreeMap.getElem?_insert] at here
    split at here
    · simp at here
    · exact here

theorem traced_create (now : Millis) (id : ContainerId) (state : Lifecycle) (pipeline? : Option PipelineId) :
    (create now id state pipeline?).Respects (TracedBy fed read) :=
  (traced_add _).bind (composes_traced fed read) fun _ => Action.respects_pure (composes_traced fed read) _

theorem traced_allocate (now : Millis) (pipeline? : Option PipelineId) :
    (allocate now pipeline?).Respects (TracedBy fed read) :=
  Action.Respects.bind (composes_traced fed read) (fun s => .refl s.view) fun _ => traced_create _ _ _ _

theorem traced_transition (now : Millis) (id : ContainerId) (event : Lifecycle.Event) :
    (transition now id event).Respects (TracedBy fed read) :=
  traced_withContainer (Held.traced_transition now event)

theorem traced_updateReplica (now : Millis) {x : Replica} (given : fed x.container x) :
    (updateReplica now x).Respects (TracedBy fed read) :=
  traced_withContainer (Held.traced_update now given)

theorem traced_applyReplica (now : Millis) {x : Replica} (given : fed x.container x) :
    (applyReplica now x).Respects (TracedBy fed read) :=
  traced_withContainer (Held.traced_apply now given)

theorem traced_removeReplica (id : ContainerId) (node : NodeId) :
    (removeReplica id node).Respects (TracedBy fed read) :=
  traced_withContainer (Held.traced_removeReplica node)

section Reports

variable {ε : Type} {node : NodeId} {replicas : List ReplicaReport}

theorem traced_incrementalReport (now : Millis) (given : ∀ r ∈ replicas, fed r.container (r.toReplica node)) :
    (incrementalReport now node replicas : Action _ ε Tally).Respects (TracedBy fed read) :=
  respects_incrementalReport (composes_traced fed read) (fun r mem => traced_applyReplica now (given r mem))
    fun id => traced_removeReplica id node

theorem traced_fullReport (now : Millis) (given : ∀ r ∈ replicas, fed r.container (r.toReplica node)) :
    (fullReport now node replicas : Action _ ε Tally).Respects (TracedBy fed read) :=
  respects_fullReport (composes_traced fed read) (fun r mem => traced_applyReplica now (given r mem))
    fun id => traced_removeReplica id node

theorem traced_removeReplicasOf (node : NodeId) :
    (removeReplicasOf node : Action _ ε Nat).Respects (TracedBy fed read) :=
  respects_removeReplicasOf (composes_traced fed read) fun id => traced_removeReplica id node

end Reports

theorem traced_flushHistory : flushHistory.Respects (TracedBy fed read) := by
  intro s
  have same : (History.flush.run ⟨s.view.history, s.db⟩).2.view.entries = s.view.history.entries := by
    obtain ⟨db, run, -⟩ | ⟨-, e, db, run, -⟩ := s.view.history.flush_cases s.db <;> rw [run]
  have history : History.Traced (fun x => ∃ id, fed id x) read s.view.history
      (History.flush.run ⟨s.view.history, s.db⟩).2.view := by
    refine ⟨fun here => .inl (same ▸ here), fun keyed key s' here => keyed key s' (same ▸ here)⟩
  exact ⟨.inl, history⟩

theorem row?_accept (containers : Std.ExtTreeMap ContainerId Container) (info : ContainerInfo) (id : ContainerId)
    (node : NodeId) : row? (accept containers info) id node = row? containers id node := by
  unfold row? accept
  rw [Std.ExtTreeMap.getElem?_insert]
  split
  · next same =>
    obtain rfl : info.id = id := Std.LawfulEqCmp.eq_of_compare same
    cases known : containers[info.id]? <;> simp
  · rfl

/-- Rows of replicas are not stored: the containers that stay keep theirs. -/
theorem row?_reload (d : Directory) (infos : List ContainerInfo) (history : List Sighting) (id : ContainerId)
    (node : NodeId) : row? (d.reload infos history).containers id node =
      if ∃ info ∈ infos, info.id = id then row? d.containers id node else none := by
  let kept := d.containers.filter fun id _ => infos.any (·.id == id)
  have same : row? (infos.foldl accept kept) id node = row? kept id node :=
    List.foldlRecOn (motive := fun containers => row? containers id node = row? kept id node) infos _ rfl
      fun containers same info _ => (row?_accept containers info id node).trans same
  refine same.trans ?_
  have stays : infos.any (·.id == id) = true ↔ ∃ info ∈ infos, info.id = id := by simp
  rw [row?, Std.ExtTreeMap.getElem?_filter', row?]
  by_cases listed : ∃ info ∈ infos, info.id = id
  · rw [if_pos listed]
    cases d.containers[id]? <;> simp [Option.filter, stays.2 listed]
  · rw [if_neg listed]
    cases d.containers[id]? <;> simp [Option.filter, mt stays.1 listed]

theorem traced_reload (d : Directory) (infos : List ContainerInfo) (history : List Sighting) :
    Traced fed (fun s => s ∈ history) d (d.reload infos history) := by
  refine ⟨fun {id node r} here => .inl ?_, History.traced_reload d.history history⟩
  rw [row?_reload] at here
  split at here
  · exact here
  · cases here

theorem traced_load {d d' : Directory} {db : Database} {n : Nat} (loaded : d.load db = .ok (n, d')) :
    Traced fed (fun s => ∃ rows, TypedTable.replicaHistory.values db = .ok rows ∧ s ∈ rows) d d' := by
  obtain ⟨infos, -, loaded⟩ := exists_of_bind_eq_ok loaded
  obtain ⟨history, read, loaded⟩ := exists_of_bind_eq_ok loaded
  cases loaded
  exact (traced_reload d infos history).mono (fun _ _ => id) fun s mem => ⟨history, read, mem⟩

end Directory

end ClusterCatalog
