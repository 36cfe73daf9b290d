import ClusterCatalog.Proofs.Container.Rows
import ClusterCatalog.Proofs.Container.Steady
/-!
Directories that are alike: they have the same metadata and the same store, and the same rows as far as
these are shown. What is written for a replica depends on metadata alone, so directories that are alike stay so,
whichever writes the store refuses.
-/
namespace ClusterCatalog

namespace Held

structure Alike (shown : NodeId → Prop) (h h' : Held) : Prop where
  info : h'.container.info = h.container.info
  db : h'.db = h.db
  row {node : NodeId} (visible : shown node) : h'.container.replicas[node]? = h.container.replicas[node]?

variable {shown : NodeId → Prop}

theorem lockstep_getInfo : getInfo.Lockstep (Alike shown) :=
  Action.lockstep_still run_getInfo fun _ _ alike => congrArg Except.ok alike.info

theorem lockstep_persist (info : ContainerInfo) : (persist info).Lockstep (Alike shown) := by
  intro h h' alike
  rw [run_persist, run_persist, alike.db]
  rcases (TypedTable.containers.put info.id info).run h.db with ⟨e | _, db⟩
  · exact ⟨rfl, alike.info, rfl, alike.row⟩
  · exact ⟨rfl, rfl, rfl, alike.row⟩

theorem lockstep_transition (now : Millis) (event : Lifecycle.Event) :
    (transition now event).Lockstep (Alike shown) := by
  refine lockstep_getInfo.bind fun info => ?_
  split
  · exact Action.lockstep_throw _
  · exact (lockstep_persist _).bind fun _ => Action.lockstep_pure _

theorem lockstep_tryTransition (now : Millis) (event : Lifecycle.Event) :
    (tryTransition now event).Lockstep (Alike shown) := by
  refine Action.Lockstep.tryCatch ((lockstep_transition now event).map some) fun e => ?_
  split
  · exact Action.lockstep_pure _
  · exact Action.lockstep_throw _

theorem lockstep_raiseSize (r : Replica) : (raiseSize r).Lockstep (Alike shown) := by
  refine lockstep_getInfo.bind fun info => ?_
  split
  · exact lockstep_persist _
  · exact Action.lockstep_pure _

/-- What is told of the size does not depend on the origin. -/
theorem raiseSize_keepOrigin (c : Container) (r : Replica) : raiseSize (keepOrigin c r) = raiseSize r := by
  unfold raiseSize raised
  simp only [state_keepOrigin, bytesUsed_keepOrigin, keyCount_keepOrigin]

theorem run_update (now : Millis) (r : Replica) (h : Held) :
    (update now r).run h = match (raiseSize r).run h with
      | (.ok _, k) => (.ok (),
          ⟨{ k.container with
              replicas := k.container.replicas.insert (keepOrigin h.container r).node (keepOrigin h.container r) },
            k.history.record now (keepOrigin h.container r), k.db⟩)
      | (.error e, k) => (.error e, k) := by
  rw [update, Action.run_bind_ok (Action.run_get h)]
  dsimp only
  rw [raiseSize_keepOrigin, Action.run_bind]
  rcases (raiseSize r).run h with ⟨e | _, k⟩ <;> rfl

theorem lockstep_update (now : Millis) (r : Replica) : (update now r).Lockstep (Alike shown) := by
  intro h h' alike
  obtain ⟨result, raised⟩ := lockstep_raiseSize r h h' alike
  rw [run_update, run_update]
  rcases ran : (raiseSize r).run h with ⟨x, k⟩
  rcases ran' : (raiseSize r).run h' with ⟨x', k'⟩
  rw [ran, ran'] at result raised
  obtain rfl : x' = x := result
  cases x' with
  | error e => exact ⟨rfl, raised⟩
  | ok _ =>
    refine ⟨rfl, raised.info, raised.db, fun {node} visible => ?_⟩
    dsimp only
    rw [node_keepOrigin, node_keepOrigin, Std.ExtTreeMap.getElem?_insert, Std.ExtTreeMap.getElem?_insert]
    split
    · next same =>
      rw [← Std.LawfulEqCmp.eq_of_compare same] at visible
      rw [keepOrigin_congr (alike.row visible)]
    · exact raised.row visible

theorem lockstep_apply (now : Millis) (r : Replica) : (apply now r).Lockstep (Alike shown) := by
  refine lockstep_getInfo.bind fun info => ?_
  have updated (result : ReplicaOutcome) :
      (Held.update now r >>= fun _ => pure result : Action Held ContainerError _).Lockstep (Alike shown) :=
    (lockstep_update now r).bind fun _ => Action.lockstep_pure result
  dsimp only
  split
  · exact Action.lockstep_pure _
  · exact (lockstep_tryTransition now _).bind fun _ => updated _
  · exact updated _
  · exact updated _

end Held

namespace Directory

structure Alike (shown : ContainerId → NodeId → Prop) (s s' : Stored Directory) : Prop where
  db : s'.db = s.db
  info (id : ContainerId) : s'.view.containers[id]?.map Container.info = s.view.containers[id]?.map Container.info
  row {id : ContainerId} {node : NodeId} (visible : shown id node) :
    row? s'.view.containers id node = row? s.view.containers id node

variable {shown shown' : ContainerId → NodeId → Prop} {s s' s'' : Stored Directory} {id : ContainerId} {node : NodeId}

namespace Alike

theorem refl (s : Stored Directory) : Alike shown s s := ⟨rfl, fun _ => rfl, fun _ => rfl⟩

theorem symm (h : Alike shown s s') : Alike shown s' s :=
  ⟨h.db.symm, fun id => (h.info id).symm, fun visible => (h.row visible).symm⟩

theorem trans (h : Alike shown s s') (g : Alike shown s' s'') : Alike shown s s'' :=
  ⟨g.db.trans h.db, fun id => (g.info id).trans (h.info id), fun visible => (g.row visible).trans (h.row visible)⟩

theorem mono (h : Alike shown s s') (le : ∀ id node, shown' id node → shown id node) : Alike shown' s s' :=
  ⟨h.db, h.info, fun visible => h.row (le _ _ visible)⟩

/-- The same replica is fed to both. -/
theorem feed (h : Alike shown s s') (now : Millis) (id : ContainerId) (x : Replica) :
    Alike shown ((Single.feed now id x).run s) ((Single.feed now id x).run s') := by
  have same := h.info id
  cases found : s.view.containers[id]? with
  | none =>
    rw [found] at same
    rwa [Single.run_feed_of_none found, Single.run_feed_of_none (Option.map_eq_none_iff.1 same)]
  | some c =>
    rw [found] at same
    obtain ⟨c', found', info⟩ := Option.map_eq_some_iff.1 same
    have before : Held.Alike (shown id) ⟨c, s.view.history, s.db⟩ ⟨c', s'.view.history, s'.db⟩ := by
      refine ⟨info, h.db, fun {node} visible => ?_⟩
      have row := h.row visible
      rwa [row?, row?, found, found'] at row
    obtain ⟨-, after⟩ := Held.lockstep_apply now x _ _ before
    have fed : (Single.feed now id x).run s = _ :=
      congrArg Prod.snd (run_withContainer_of_some (Held.apply now x) found)
    have fed' : (Single.feed now id x).run s' = _ :=
      congrArg Prod.snd (run_withContainer_of_some (Held.apply now x) found')
    rw [fed, fed']
    refine ⟨after.db, fun other => ?_, fun {other node} visible => ?_⟩
    · by_cases here : id = other
      · simp [here, after.info]
      · simpa [Std.ExtTreeMap.getElem?_insert, here] using h.info other
    · have row := h.row visible
      by_cases here : id = other
      · subst here
        simpa [row?] using after.row visible
      · simpa [row?, Std.ExtTreeMap.getElem?_insert, here] using row

end Alike

/-- A row that is not shown is dropped. -/
theorem alike_drop (hidden : ¬ shown id node) (s : Stored Directory) :
    Alike shown s ((Single.drop id node).run s) := by
  refine ⟨Single.db_drop id node s, fun other => ?_, fun {other node'} visible => ?_⟩
  · rw [Single.getElem?_drop]
    cases s.view.containers[other]? with
    | none => rfl
    | some c =>
      dsimp only [Option.map_some]
      split <;> rfl
  · rw [row?_drop, if_neg]
    rintro ⟨rfl, rfl⟩
    exact hidden visible

/-- A copy that is gone is fed: only its row is another one. -/
theorem alike_feed_of_deleted {x : Replica} (gone : x.state = .deleted) (hidden : ¬ shown id x.node) (now : Millis)
    (s : Stored Directory) : Alike shown s ((Single.feed now id x).run s) := by
  cases found : s.view.containers[id]? with
  | none =>
    rw [Single.run_feed_of_none found]
    exact .refl s
  | some c =>
    have settled : c.info.Settled x := ContainerInfo.settled_of_deleted gone
    have run := run_withContainer_of_some (Held.apply now x) found
    rw [Held.run_apply_of_settled now settled] at run
    have fed : (Single.feed now id x).run s = _ := congrArg Prod.snd run
    rw [fed]
    refine ⟨rfl, fun other => ?_, fun {other node} visible => ?_⟩
    · by_cases here : id = other
      · simp [← here, found, Container.info_take_of_settled settled]
      · simp [Std.ExtTreeMap.getElem?_insert, here]
    · by_cases here : id = other
      · subst here
        have mine : x.node ≠ node := fun same => hidden (same ▸ visible)
        simp [row?, found, c.getElem?_replicas_take, mine]
      · simp [row?, Std.ExtTreeMap.getElem?_insert, here]

end Directory

end ClusterCatalog
