import ClusterCatalog.Proofs.Container.Single
/-!
Courses: single operations one after another, with the containers before and after each of them. A
course takes a container along its lifecycle by the replicas that are fed to it, and in no other way.
-/
namespace ClusterCatalog.Directory

abbrev Containers := Std.ExtTreeMap ContainerId Container

structure Stage where
  before : Containers
  single : Single
  after : Containers

namespace Stage

def Real (st : Stage) : Prop :=
  ∃ history db, (st.single.run ⟨⟨st.before, history⟩, db⟩).view.containers = st.after

def move? (id : ContainerId) (st : Stage) : Option (Lifecycle × Lifecycle) :=
  match st.before[id]?, st.after[id]? with
  | some c, some c' => if c.info.state = c'.info.state then none else some (c.info.state, c'.info.state)
  | _, _ => none

end Stage

def Course : Containers → List Stage → Containers → Prop
  | a, [], b => a = b
  | a, st :: rest, b => st.before = a ∧ st.Real ∧ Course st.after rest b

def moves (id : ContainerId) (course : List Stage) : List (Lifecycle × Lifecycle) :=
  course.filterMap (Stage.move? id)

def ways : Lifecycle → List (List (Lifecycle × Lifecycle))
  | .closing =>
    [[], [(.closing, .quasiClosed)], [(.closing, .closed)],
      [(.closing, .quasiClosed), (.quasiClosed, .closed)]]
  | .quasiClosed => [[], [(.quasiClosed, .closed)]]
  | _ => [[]]

theorem nodup_of_mem_ways {state : Lifecycle} {way : List (Lifecycle × Lifecycle)} (h : way ∈ ways state) :
    way.Nodup := by
  have all : ∀ way ∈ ways state, way.Nodup := by cases state <;> decide
  exact all way h

/-- One operation leaves a container what it is, and moves it by a replica that it is fed or not at all. -/
theorem Stage.Real.kept {st : Stage} (real : st.Real) {id : ContainerId} {c : Container}
    (found : st.before[id]? = some c) :
    ∃ c', st.after[id]? = some c' ∧ ContainerInfo.SameIdentity c'.info c.info ∧
      (c'.info.state = c.info.state ∨ ∃ now replica, st.single = .feed now id replica ∧
        Lifecycle.moved? c.info.state replica.state replica.sequence c.info.sequence = some c'.info.state) := by
  obtain ⟨history, db, leads⟩ := real
  rw [← leads]
  cases single : st.single with
  | add info =>
    obtain same | ⟨unknown, added⟩ := Single.run_add_cases info ⟨⟨st.before, history⟩, db⟩
    · exact ⟨c, by rw [same, found], .refl _, .inl rfl⟩
    · have other : info.id ≠ id := by
        rintro rfl
        rw [found] at unknown
        cases unknown
      exact ⟨c, by simp [added, Std.ExtTreeMap.getElem?_insert, other, found], .refl _, .inl rfl⟩
  | drop dropped node =>
    by_cases same : dropped = id
    · subst same
      exact ⟨{ c with replicas := c.replicas.erase node },
        by simp [Single.run_drop_of_some (s := ⟨⟨st.before, history⟩, db⟩) found], .refl _, .inl rfl⟩
    · exact ⟨c, by rw [Single.getElem?_drop_of_ne same, found], .refl _, .inl rfl⟩
  | feed now fed replica =>
    by_cases same : fed = id
    · subst same
      obtain ⟨result, held, applied, run⟩ := Single.run_feed_of_some now replica
        (s := ⟨⟨st.before, history⟩, db⟩) found
      refine ⟨held.container, by simp [run], ?_⟩
      cases applied with
      | taken db accepts =>
        refine ⟨c.sameIdentity_take now replica, ?_⟩
        have state := c.state_take now replica
        cases moved : Lifecycle.moved? c.info.state replica.state replica.sequence c.info.sequence with
        | none => exact .inl (by rw [state, moved]; rfl)
        | some t => exact .inr ⟨now, replica, rfl, by rw [state, moved]; rfl⟩
      | refused refuses e db => exact ⟨.refl _, .inl rfl⟩
      | halfway refuses e db =>
        refine ⟨c.info.sameIdentity_moved now replica, ?_⟩
        have state := c.info.state_moved now replica
        cases moved : Lifecycle.moved? c.info.state replica.state replica.sequence c.info.sequence with
        | none => exact .inl (by rw [state, moved]; rfl)
        | some t => exact .inr ⟨now, replica, rfl, by rw [state, moved]; rfl⟩
    · exact ⟨c, by rw [Single.getElem?_feed_of_ne same, found], .refl _, .inl rfl⟩

namespace Course

variable {a b c : Containers} {p q : List Stage}

theorem append (h : Course a p b) (g : Course b q c) : Course a (p ++ q) c := by
  induction p generalizing a with
  | nil =>
    obtain rfl : a = b := h
    exact g
  | cons st rest ih => exact ⟨h.1, h.2.1, ih h.2.2⟩

theorem real (h : Course a p b) : ∀ st ∈ p, st.Real := by
  induction p generalizing a with
  | nil => simp
  | cons st rest ih =>
    rintro other (_ | ⟨_, later⟩)
    · exact h.2.1
    · exact ih h.2.2 other later

/-- What is known stays known and stays what it is; it is moved along one of the ways from its state. -/
theorem kept (h : Course a p b) {id : ContainerId} {known : Container} (found : a[id]? = some known) :
    ∃ known', b[id]? = some known' ∧ ContainerInfo.SameIdentity known'.info known.info ∧
      moves id p ∈ ways known.info.state ∧
      known'.info.state = ((moves id p).map Prod.snd).getLastD known.info.state := by
  induction p generalizing a known with
  | nil =>
    obtain rfl : a = b := h
    refine ⟨known, found, .refl _, ?_, rfl⟩
    cases known.info.state <;> exact List.mem_cons_self
  | cons st rest ih =>
    obtain ⟨rfl, real, others⟩ := h
    obtain ⟨next, found', same, step⟩ := real.kept found
    obtain ⟨last, found'', same', way, ends⟩ := ih others found'
    refine ⟨last, found'', same'.trans same, ?_⟩
    have move : st.move? id =
        if known.info.state = next.info.state then none else some (known.info.state, next.info.state) := by
      simp [Stage.move?, found, found']
    obtain still | ⟨now, replica, -, moved⟩ := step
    · rw [if_pos still.symm] at move
      rw [moves, List.filterMap_cons_none move, ← still]
      exact ⟨way, ends⟩
    · have differ : known.info.state ≠ next.info.state := by
        rintro equal
        rw [← equal] at moved
        obtain ⟨before, -, after⟩ | ⟨before | before, -, -, after⟩ := Lifecycle.moved?_eq_some_iff.1 moved <;>
          rw [before] at after <;> cases after
      rw [if_neg differ] at move
      rw [moves, List.filterMap_cons_some move]
      refine ⟨?_, by rw [ends, List.map_cons, List.getLastD_cons]; rfl⟩
      change (_, _) :: moves id rest ∈ _
      obtain ⟨before, -, after⟩ | ⟨before | before, -, -, after⟩ := Lifecycle.moved?_eq_some_iff.1 moved
      all_goals
        rw [before, after]
        rw [after] at way
        simpa [ways] using way

/-- The same for a container that becomes known on the way. -/
theorem moves_mem_ways (h : Course a p b) (id : ContainerId) : ∃ state, moves id p ∈ ways state := by
  induction p generalizing a with
  | nil => exact ⟨.opened, List.mem_cons_self⟩
  | cons st rest ih =>
    cases found : a[id]? with
    | some known =>
      obtain ⟨-, -, -, way, -⟩ := h.kept found
      exact ⟨_, way⟩
    | none =>
      -- an operation on a container that is not there moves nothing, but it may add it
      obtain ⟨rfl, real, others⟩ := h
      have move : st.move? id = none := by simp [Stage.move?, found]
      rw [moves, List.filterMap_cons_none move]
      exact ih others

end Course

def Fed (heard : ContainerId → Replica → Prop) (a b : Containers) : Prop :=
  ∃ course, Course a course b ∧
    ∀ st ∈ course, ∀ now id replica, st.single = .feed now id replica → heard id replica

namespace Fed

variable {heard heard' : ContainerId → Replica → Prop} {a b c : Containers}

theorem refl (a : Containers) : Fed heard a a := ⟨[], rfl, by simp⟩

theorem trans (h : Fed heard a b) (g : Fed heard b c) : Fed heard a c := by
  obtain ⟨p, course, fed⟩ := h
  obtain ⟨q, course', fed'⟩ := g
  refine ⟨p ++ q, course.append course', fun st mem => ?_⟩
  exact (List.mem_append.1 mem).elim (fed st) (fed' st)

theorem mono (le : ∀ id replica, heard id replica → heard' id replica) (h : Fed heard a b) :
    Fed heard' a b := by
  obtain ⟨p, course, fed⟩ := h
  exact ⟨p, course, fun st mem now id replica single => le id replica (fed st mem now id replica single)⟩

theorem single {single : Single} (h : ∀ now id replica, single = .feed now id replica → heard id replica)
    (s : Stored Directory) : Fed heard s.view.containers (single.run s).view.containers :=
  ⟨[⟨s.view.containers, single, (single.run s).view.containers⟩],
    ⟨rfl, ⟨s.view.history, s.db, rfl⟩, rfl⟩,
    fun st mem => by rw [List.mem_singleton.1 mem]; exact h⟩

theorem feed {id : ContainerId} {replica : Replica} (h : heard id replica) (now : Millis)
    (s : Stored Directory) :
    Fed heard s.view.containers ((Single.feed now id replica).run s).view.containers :=
  .single (by rintro _ _ _ same; cases same; exact h) s

theorem drop (id : ContainerId) (node : NodeId) (s : Stored Directory) :
    Fed heard s.view.containers ((Single.drop id node).run s).view.containers :=
  .single (by rintro _ _ _ same; cases same) s

theorem add (info : ContainerInfo) (s : Stored Directory) :
    Fed heard s.view.containers ((Single.add info).run s).view.containers :=
  .single (by rintro _ _ _ same; cases same) s

theorem foldl {α : Type} {g : Stored Directory → α → Stored Directory} {l : List α}
    (h : ∀ x ∈ l, ∀ s, Fed heard s.view.containers (g s x).view.containers) (s : Stored Directory) :
    Fed heard s.view.containers (l.foldl g s).view.containers := by
  induction l generalizing s with
  | nil => exact refl _
  | cons x l ih =>
    have first := h x List.mem_cons_self s
    exact first.trans (ih (fun y mem => h y (List.mem_cons_of_mem x mem)) (g s x))

end Fed

section Reports

variable {ε : Type} {heard : ContainerId → Replica → Prop} {node : NodeId} {replicas : List ReplicaReport}

theorem fed_incrementalReport (h : ∀ r ∈ replicas, heard r.container (r.toReplica node)) (now : Millis)
    (s : Stored Directory) :
    Fed heard s.view.containers
      ((incrementalReport now node replicas : Action _ ε Tally).run s).2.view.containers := by
  obtain ⟨tally, run⟩ := run_incrementalReport (ε := ε) now node replicas s
  rw [run]
  refine Fed.foldl (fun r mem s => ?_) s
  unfold change
  split
  · exact .drop ..
  · exact .feed (h r mem) ..

theorem fed_fullReport (h : ∀ r ∈ replicas, heard r.container (r.toReplica node)) (now : Millis)
    (s : Stored Directory) :
    Fed heard s.view.containers
      ((fullReport now node replicas : Action _ ε Tally).run s).2.view.containers := by
  obtain ⟨tally, run⟩ := run_fullReport (ε := ε) now node replicas s
  rw [run]
  refine (Fed.foldl (fun r mem s => ?_) s).trans (Fed.foldl (fun id _ s => ?_) _)
  · exact .feed (h r mem) ..
  · exact .drop ..

theorem fed_removeReplicasOf (node : NodeId) (s : Stored Directory) :
    Fed heard s.view.containers
      ((removeReplicasOf node : Action _ ε Nat).run s).2.view.containers := by
  obtain ⟨n, run⟩ := run_removeReplicasOf (ε := ε) node s
  rw [run]
  exact Fed.foldl (fun id _ s => .drop ..) s

end Reports

end ClusterCatalog.Directory
