import ClusterCatalog.Proofs.Container.Single
/-!
A replica that is applied makes two writes at most, one for the move and one for the size. Where the first is
taken and the second is refused, the container has moved and the row was not taken; every other failure leaves
all as it was.
-/
namespace ClusterCatalog

namespace Held

variable {now : Millis} {r : Replica} {info : ContainerInfo}

/-- The container that is left halfway is in another state. -/
theorem Halfway.state_ne {db : Database} (half : Halfway now db info r) : (info.moved now r).state ≠ info.state := by
  obtain ⟨t, moved⟩ := Option.isSome_iff_exists.1 half.moves
  rw [moved_of_moved? moved]
  obtain ⟨before, -, after⟩ | ⟨before | before, -, -, after⟩ := Lifecycle.moved?_eq_some_iff.1 moved <;>
    simp [before, after]

end Held

namespace Directory

/-- When a replica could not be applied, the other containers, the history and all other tables are as they were. So are
the container, its rows and the table of containers, unless the write for the size was refused after the one for the
move: then the container has moved, in the directory and in the store, and its rows are as they were. -/
theorem moved_iff_halfway (s : Stored Directory) (now : Millis) (r : Replica) :
    (∀ c, s.view.containers[r.container]? = some c → Held.Halfway now s.db c.info r →
      ∃ e s', (applyReplica now r).run s = (.error e, s')) ∧
    ∀ e s', (applyReplica now r).run s = (.error e, s') →
      (∀ id ≠ r.container, s'.view.containers[id]? = s.view.containers[id]?) ∧ s'.view.history = s.view.history ∧
      (∀ n ≠ TableName.containers, s'.db.tables n = s.db.tables n) ∧
      ((∃ c, s.view.containers[r.container]? = some c ∧ Held.Halfway now s.db c.info r ∧
          s'.view.containers[r.container]? = some { c with info := c.info.moved now r } ∧
          (c.info.moved now r).state ≠ c.info.state ∧
          TypedTable.containers.get s'.db c.info.id = .ok (some (c.info.moved now r)) ∧
          ∀ id ≠ c.info.id, TypedTable.containers.get s'.db id = TypedTable.containers.get s.db id) ∨
        ((∀ c, s.view.containers[r.container]? = some c → ¬ Held.Halfway now s.db c.info r) ∧ s'.view = s.view ∧
          s'.db.tables = s.db.tables)) := by
  cases found : s.view.containers[r.container]? with
  | none =>
    refine ⟨fun c held => by simp at held, fun e s' run => ?_⟩
    rw [applyReplica, run_withContainer_of_none _ found] at run
    cases run
    exact ⟨fun _ _ => rfl, rfl, fun _ _ => rfl, .inr ⟨fun c held => by simp at held, rfl, rfl⟩⟩
  | some c =>
    have applied : (applyReplica now r).run s = _ := run_withContainer_of_some (Held.apply now r) found
    have ended := Held.ended now r ⟨c, s.view.history, s.db⟩
    generalize (Held.apply now r).run ⟨c, s.view.history, s.db⟩ = result at applied ended
    rw [applied]
    refine ⟨fun c' same half => ?_, fun e s' run => ?_⟩
    · cases same
      cases ended with
      | taken db accepts whole => exact absurd half whole
      | refused untaken e db => exact absurd half.takes untaken
      | halfway half e db => exact ⟨_, _, rfl⟩
    · cases ended with
      | taken db accepts whole => cases run
      | refused untaken e db same =>
        cases run
        dsimp only
        rw [insert_of_getElem? found]
        exact ⟨fun _ _ => rfl, rfl, fun n _ => congrFun same n,
          .inr ⟨by rintro _ ⟨⟩ half; exact untaken half.takes, rfl, same⟩⟩
      | halfway half e db table same =>
        cases run
        have unmoved : (c.info.moved now r).id = c.info.id := (c.info.sameIdentity_moved now r).id
        obtain ⟨stored, others⟩ := get_withRow table same
        rw [unmoved] at stored others
        refine ⟨fun id other => ?_, rfl, fun n other => ?_, .inl ⟨c, rfl, half, ?_, half.state_ne, stored, others⟩⟩
        · simp [Std.ExtTreeMap.getElem?_insert, Ne.symm other]
        · exact (congrFun same n).trans (Database.tables_written_of_ne other _)
        · simp

section Interrupted

def interrupting : Stored Directory :=
  ⟨{ containers := (∅ : Std.ExtTreeMap ContainerId Container).insert ⟨1⟩ ⟨⟨⟨1⟩, .closing, 0, none, 0, 0, 0⟩, ∅⟩ },
    { Database.empty with refusals := fun n => if n = .containers then [false, true] else [] }⟩

def finalCopy : Replica := ⟨⟨1⟩, ⟨⟨3⟩⟩, .closed, 0, 5, 50, ⟨⟨3⟩⟩⟩

theorem found_interrupting : interrupting.view.containers[finalCopy.container]? =
    some ⟨⟨⟨1⟩, .closing, 0, none, 0, 0, 0⟩, ∅⟩ := by decide +kernel

theorem halfway_interrupting : Held.Halfway 5 interrupting.db ⟨⟨1⟩, .closing, 0, none, 0, 0, 0⟩ finalCopy where
  moves := by decide
  takes := ⟨⟨∅, rfl⟩, by decide⟩
  outgrown := ⟨by decide, .inl (by decide)⟩
  refused := rfl

theorem moved_iff_halfway_interrupting : Held.Halfway 5 interrupting.db ⟨⟨1⟩, .closing, 0, none, 0, 0, 0⟩ finalCopy ∧
    ∃ e s', (applyReplica 5 finalCopy).run interrupting = (.error e, s') ∧ s'.view.history = interrupting.view.history ∧
      s'.view.containers[(⟨1⟩ : ContainerId)]? = some ⟨⟨⟨1⟩, .closed, 0, none, 0, 0, 5⟩, ∅⟩ ∧
      TypedTable.containers.get s'.db ⟨1⟩ = .ok (some ⟨⟨1⟩, .closed, 0, none, 0, 0, 5⟩) := by
  obtain ⟨fails, after⟩ := moved_iff_halfway interrupting 5 finalCopy
  obtain ⟨e, s', run⟩ := fails _ found_interrupting halfway_interrupting
  obtain ⟨-, history, -, ⟨c, found, -, moved, -, stored, -⟩ | ⟨free, -⟩⟩ := after e s' run
  · cases found_interrupting.symm.trans found
    exact ⟨halfway_interrupting, e, s', run, history, moved, stored⟩
  · exact absurd halfway_interrupting (free _ found_interrupting)

/-- The call fails, and yet the container is closed, in the directory and in the store, without a row and without its
size. -/
theorem closed_after_failed_replica :
    ∃ e s', (applyReplica 5 finalCopy).run interrupting = (.error e, s') ∧
      (interrupting.view.containers[(⟨1⟩ : ContainerId)]?).map (·.info.state) = some .closing ∧
      s'.view.containers[(⟨1⟩ : ContainerId)]? = some ⟨⟨⟨1⟩, .closed, 0, none, 0, 0, 5⟩, ∅⟩ ∧
      TypedTable.containers.get s'.db ⟨1⟩ = .ok (some ⟨⟨1⟩, .closed, 0, none, 0, 0, 5⟩) :=
  ⟨_, _, rfl, by decide +kernel, by decide +kernel, eq_ok_of_toOption (by decide +kernel)⟩

end Interrupted

end Directory

end ClusterCatalog
