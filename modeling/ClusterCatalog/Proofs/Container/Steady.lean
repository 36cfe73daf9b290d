import ClusterCatalog.Proofs.Container.Batch
/-!
A batch of replicas that is taken a second time. The first time leaves the container in a state out of
which no replica of the batch moves it, and with the rows that the batch leads to; only the size may grow
again, as a replica is heard that came too early the first time. A replica that comes alone does not come
too early: the second time nothing is written.
-/
namespace ClusterCatalog

open Directory (reached)

variable {c k : Container} {info other : ContainerInfo} {now : Millis} {replicas : List Replica} {r : Replica}

namespace Container

def unsized (c : Container) : Container := { c with info := { c.info with usedBytes := 0, keyCount := 0 } }

theorem unsized_congr (identity : ContainerInfo.SameIdentity c.info k.info) (state : c.info.state = k.info.state)
    (entered : c.info.stateEntered = k.info.stateEntered) (rows : c.replicas = k.replicas) : c.unsized = k.unsized := by
  simp only [unsized, identity.id, identity.sequence, identity.pipeline, state, entered, rows]

structure Heeds (c : Container) (replicas : List Replica) : Prop where
  state : heard c.info replicas = c.info.state
  row {node : NodeId} {last : Replica} (live : c.info.state ≠ .deleted)
    (tail : (replicas.filter (·.node = node)).getLast? = some last) :
    ∃ known, c.replicas[node]? = some known ∧ { last with origin := known.origin } = known

theorem reached_reached (state : Lifecycle) (quasi closes : Bool) :
    reached (reached state quasi closes) quasi closes = reached state quasi closes := by
  cases state <;> cases quasi <;> cases closes <;> rfl

theorem heard_heard (sequence : other.sequence = info.sequence) (state : other.state = heard info replicas) :
    heard other replicas = heard info replicas := by
  have same : closes other = closes info := funext fun r => by rw [closes, closes, sequence]
  rw [heard, state, same]
  exact reached_reached ..

theorem heeds_takeAll (c : Container) (now : Millis) (replicas : List Replica) :
    (c.takeAll now replicas).Heeds replicas where
  state := by
    rw [heard_heard (sameIdentity_takeAll c now replicas).sequence (state_takeAll c now replicas), state_takeAll]
  row {node last} live tail := by
    have before : c.info.state ≠ .deleted := fun deleted => live (by rwa [takeAll_of_deleted deleted])
    rw [replicas_takeAll before, foldl_inheriting, tail]
    exact ⟨_, rfl, rfl⟩

theorem moved?_of_heard (still : heard info replicas = info.state) (mem : r ∈ replicas) :
    Lifecycle.moved? info.state r.state r.sequence info.sequence = none := by
  cases moved : Lifecycle.moved? info.state r.state r.sequence info.sequence with
  | none => rfl
  | some t =>
    exfalso
    rw [heard_eq] at still
    obtain ⟨closing, quasi, -⟩ | ⟨open_, closed, same, -⟩ := Lifecycle.moved?_eq_some_iff.1 moved
    · split at still
      · exact absurd (still.trans closing) (by decide)
      · rw [if_pos ⟨closing, r, mem, quasi⟩] at still
        exact absurd (still.trans closing) (by decide)
    · rw [if_pos ⟨open_, r, mem, closed, same⟩] at still
      obtain state | state := open_
      · exact absurd (still.trans state) (by decide)
      · exact absurd (still.trans state) (by decide)

theorem fired_eq_zero (quiet : ∀ r ∈ replicas, Lifecycle.moved? c.info.state r.state r.sequence c.info.sequence = none) :
    c.fired now replicas = 0 := by
  induction replicas generalizing c with
  | nil => rfl
  | cons r rest ih =>
    obtain ⟨here, later⟩ := List.forall_mem_cons.1 quiet
    have state : (c.take now r).info.state = c.info.state := by rw [state_take, here]; rfl
    rw [fired, here, ih]
    · rfl
    · rwa [state, (c.sameIdentity_take now r).sequence]

namespace Heeds

variable (heeds : c.Heeds replicas)
include heeds

theorem fired_eq_zero (now : Millis) : c.fired now replicas = 0 :=
  Container.fired_eq_zero fun _ mem => moved?_of_heard heeds.state mem

theorem replicas_takeAll (now : Millis) : (c.takeAll now replicas).replicas = c.replicas := by
  by_cases deleted : c.info.state = .deleted
  · rw [takeAll_of_deleted deleted]
  refine Std.ExtTreeMap.ext_getElem? fun node => ?_
  rw [Container.replicas_takeAll deleted, foldl_inheriting]
  cases tail : (replicas.filter (·.node = node)).getLast? with
  | none => rfl
  | some last =>
    obtain ⟨known, found, same⟩ := heeds.row deleted tail
    rw [found]
    exact congrArg some same

/-- The batch a second time changes the size at most. -/
theorem unsized_takeAll (now : Millis) : (c.takeAll now replicas).unsized = c.unsized := by
  have state : (c.takeAll now replicas).info.state = c.info.state := (state_takeAll c now replicas).trans heeds.state
  refine unsized_congr (sameIdentity_takeAll c now replicas) state ?_ (heeds.replicas_takeAll now)
  rw [stateEntered_takeAll, if_pos state]

end Heeds

end Container

structure ContainerInfo.Settled (info : ContainerInfo) (r : Replica) : Prop where
  still : Lifecycle.moved? info.state r.state r.sequence info.sequence = none
  told : ¬ info.Outgrown r

namespace ContainerInfo

/-- A copy that is gone tells nothing about its container. -/
theorem settled_of_deleted (h : r.state = .deleted) : info.Settled r where
  still := by
    cases moved : Lifecycle.moved? info.state r.state r.sequence info.sequence with
    | none => rfl
    | some t => simp [Lifecycle.moved?_eq_some_iff, h] at moved
  told := by
    rw [Outgrown, h]
    cases info.state <;> simp [Held.tellsSize]

theorem settled_take (c : Container) (now : Millis) (r : Replica) : (c.take now r).info.Settled r where
  still := Container.moved?_of_heard (Container.heeds_takeAll c now [r]).state List.mem_cons_self
  told := by
    rintro ⟨tells, larger⟩
    have bytes := c.usedBytes_take now r
    have keys := c.keyCount_take now r
    rw [if_pos tells] at bytes keys
    obtain less | less := larger
    · exact UInt64.not_lt.2 Std.right_le_max (bytes ▸ less)
    · exact UInt64.not_lt.2 Std.right_le_max (keys ▸ less)

variable (settled : info.Settled r)
include settled

theorem Settled.moved_eq (now : Millis) : info.moved now r = info := Held.moved_of_not_moved? settled.still

theorem Settled.sized_eq (c : Container) : info.sized (Held.keepOrigin c r) = info := by
  unfold sized
  exact if_neg (by simpa [Outgrown] using settled.told)

end ContainerInfo

namespace Container

theorem take_of_settled (settled : c.info.Settled r) (live : c.info.state ≠ .deleted) (now : Millis) :
    c.take now r =
      { c with replicas := c.replicas.insert (Held.keepOrigin c r).node (Held.keepOrigin c r) } := by
  rw [take, if_neg live]
  dsimp only
  rw [Held.moved_keepOrigin, settled.moved_eq, settled.sized_eq]

theorem info_take_of_settled (settled : c.info.Settled r) (now : Millis) : (c.take now r).info = c.info := by
  by_cases deleted : c.info.state = .deleted
  · rw [take, if_pos deleted]
  · rw [take_of_settled settled deleted]

/-- A replica that is taken once more leaves the container as it is. -/
theorem take_take (c : Container) (now now' : Millis) (r : Replica) : (c.take now r).take now' r = c.take now r := by
  have info := info_take_of_settled (ContainerInfo.settled_take c now r) now'
  have rows : ((c.take now r).take now' r).replicas = (c.take now r).replicas :=
    (heeds_takeAll c now [r]).replicas_takeAll now'
  exact congrArg₂ Container.mk info rows

end Container

namespace Held

/-- A replica after which the container is settled is taken without a write, whatever the store. -/
theorem run_apply_of_settled (now : Millis) {h : Held} (settled : h.container.info.Settled r) :
    (apply now r).run h =
      (.ok (outcome r h.container.info), ⟨h.container.take now r, recorded now r h, h.db⟩) := by
  rw [apply, Action.run_bind_ok (run_getInfo h)]
  have updated (live : h.container.info.state ≠ .deleted) :
      (update now r).run h = (.ok (), ⟨h.container.take now r, recorded now r h, h.db⟩) := by
    have quiet : (raiseSize (keepOrigin h.container r)).run h = (.ok (), h) := by
      rw [raiseSize, Action.run_bind_ok (run_getInfo h), if_neg (by simpa [ContainerInfo.Outgrown] using settled.told)]
      rfl
    rw [update, Action.run_bind_ok (Action.run_get h), Action.run_bind_ok quiet,
      Container.take_of_settled settled live, recorded, if_neg live]
    rfl
  have live {d : Lifecycle.Decision} (heard : d ≠ .ignored)
      (decision : Lifecycle.decide h.container.info.state r.state r.sequence h.container.info.sequence = d) :
      h.container.info.state ≠ .deleted := by
    intro deleted
    rw [deleted, Lifecycle.decide_deleted] at decision
    exact heard decision.symm
  cases decision : Lifecycle.decide h.container.info.state r.state r.sequence h.container.info.sequence with
  | ignored =>
    have deleted := Lifecycle.deleted_of_ignored decision
    rw [outcome, settled.still, decision, Container.take, recorded, if_pos deleted, if_pos deleted]
    rfl
  | noOp =>
    dsimp only
    rw [Action.run_bind_ok (updated (live (by simp) decision)), outcome, settled.still, decision]
    rfl
  | sequenceMismatch a b =>
    dsimp only
    rw [Action.run_bind_ok (updated (live (by simp) decision)), outcome, settled.still, decision]
    rfl
  | fire event =>
    obtain ⟨t, -, moved⟩ := Lifecycle.next?_of_fire decision
    exact absurd (settled.still.symm.trans moved) (by simp)

end Held

end ClusterCatalog
