import ClusterCatalog.Container.Held
import ClusterCatalog.Proofs.Action
import ClusterCatalog.Proofs.Storage.Write
import ClusterCatalog.Proofs.Word
/-!
What one replica does to a container that is held: all there is to do when every write is taken,
and where it stops when one is not.
-/
namespace ClusterCatalog

namespace Lifecycle

/-- The state to which one replica moves a container. -/
def moved? (state : Lifecycle) (replica : ReplicaState) (replicaSequence sequence : UInt64) :
    Option Lifecycle :=
  (decide state replica replicaSequence sequence).event?.bind state.next?

theorem moved?_eq_some_iff {state t : Lifecycle} {replica : ReplicaState} {a b : UInt64} :
    moved? state replica a b = some t ↔
      (state = .closing ∧ replica = .quasiClosed ∧ t = .quasiClosed) ∨
      ((state = .closing ∨ state = .quasiClosed) ∧ replica = .closed ∧ a = b ∧ t = .closed) := by
  by_cases same : a = b <;> cases state <;> cases replica <;>
    simp [moved?, decide, fireAtSequence, same, Decision.event?, next?, eq_comm]

/-- An event that a replica justifies is an edge of the lifecycle. -/
theorem next?_of_fire {state : Lifecycle} {replica : ReplicaState} {a b : UInt64} {event : Event}
    (h : decide state replica a b = .fire event) :
    ∃ t, state.next? event = some t ∧ moved? state replica a b = some t := by
  have next : moved? state replica a b = state.next? event := by simp [moved?, h, Decision.event?]
  rw [next]
  by_cases same : a = b <;> cases state <;> cases replica <;>
    simp [decide, fireAtSequence, same] at h <;> subst h <;> simp [next?]

theorem decide_deleted (replica : ReplicaState) (a b : UInt64) :
    decide .deleted replica a b = .ignored := by
  cases replica <;> rfl

theorem deleted_of_ignored {state : Lifecycle} {replica : ReplicaState} {a b : UInt64}
    (h : decide state replica a b = .ignored) : state = .deleted := by
  by_cases same : a = b <;> cases state <;> cases replica <;>
    simp [decide, fireAtSequence, same] at h ⊢

end Lifecycle

namespace ContainerInfo

def moved (info : ContainerInfo) (now : Millis) (replica : Replica) : ContainerInfo :=
  match Lifecycle.moved? info.state replica.state replica.sequence info.sequence with
  | some state => { info with state, stateEntered := now }
  | none => info

def Outgrown (info : ContainerInfo) (replica : Replica) : Prop :=
  Held.tellsSize info.state replica.state ∧
    (info.usedBytes < replica.bytesUsed ∨ info.keyCount < replica.keyCount)

def sized (info : ContainerInfo) (replica : Replica) : ContainerInfo :=
  if Held.tellsSize info.state replica.state ∧
      (info.usedBytes < replica.bytesUsed ∨ info.keyCount < replica.keyCount)
  then Held.raised info replica else info

structure SameIdentity (a b : ContainerInfo) : Prop where
  id : a.id = b.id
  sequence : a.sequence = b.sequence
  pipeline : a.pipeline? = b.pipeline?

namespace SameIdentity

variable {a b c : ContainerInfo}

theorem refl (a : ContainerInfo) : SameIdentity a a := ⟨rfl, rfl, rfl⟩

theorem trans (h : SameIdentity a b) (g : SameIdentity b c) : SameIdentity a c :=
  ⟨h.id.trans g.id, h.sequence.trans g.sequence, h.pipeline.trans g.pipeline⟩

end SameIdentity

theorem sameIdentity_moved (info : ContainerInfo) (now : Millis) (replica : Replica) :
    SameIdentity (info.moved now replica) info := by
  unfold moved
  split <;> exact ⟨rfl, rfl, rfl⟩

theorem sameIdentity_sized (info : ContainerInfo) (replica : Replica) :
    SameIdentity (info.sized replica) info := by
  unfold sized
  split <;> exact ⟨rfl, rfl, rfl⟩

theorem state_moved (info : ContainerInfo) (now : Millis) (replica : Replica) :
    (info.moved now replica).state =
      (Lifecycle.moved? info.state replica.state replica.sequence info.sequence).getD info.state := by
  unfold moved
  cases Lifecycle.moved? info.state replica.state replica.sequence info.sequence <;> rfl

@[simp] theorem state_sized (info : ContainerInfo) (replica : Replica) :
    (info.sized replica).state = info.state := by
  unfold sized
  split <;> rfl

theorem stateEntered_moved (info : ContainerInfo) (now : Millis) (replica : Replica) :
    (info.moved now replica).stateEntered =
      if (Lifecycle.moved? info.state replica.state replica.sequence info.sequence).isSome then now
      else info.stateEntered := by
  unfold moved
  cases Lifecycle.moved? info.state replica.state replica.sequence info.sequence <;> rfl

@[simp] theorem stateEntered_sized (info : ContainerInfo) (replica : Replica) :
    (info.sized replica).stateEntered = info.stateEntered := by
  unfold sized
  split <;> rfl

theorem usedBytes_moved (info : ContainerInfo) (now : Millis) (replica : Replica) :
    (info.moved now replica).usedBytes = info.usedBytes := by
  unfold moved
  split <;> rfl

theorem keyCount_moved (info : ContainerInfo) (now : Millis) (replica : Replica) :
    (info.moved now replica).keyCount = info.keyCount := by
  unfold moved
  split <;> rfl

/-- Both numbers are raised as soon as one of them is behind. -/
theorem usedBytes_sized (info : ContainerInfo) (replica : Replica) :
    (info.sized replica).usedBytes =
      if Held.tellsSize info.state replica.state then max info.usedBytes replica.bytesUsed
      else info.usedBytes := by
  unfold sized Held.raised
  simp only [max_uint64]
  grind

theorem keyCount_sized (info : ContainerInfo) (replica : Replica) :
    (info.sized replica).keyCount =
      if Held.tellsSize info.state replica.state then max info.keyCount replica.keyCount
      else info.keyCount := by
  unfold sized Held.raised
  simp only [max_uint64]
  grind

end ContainerInfo

def Container.take (c : Container) (now : Millis) (replica : Replica) : Container :=
  if c.info.state = .deleted then c
  else
    let replica := Held.keepOrigin c replica
    ⟨(c.info.moved now replica).sized replica, c.replicas.insert replica.node replica⟩

namespace Held

@[simp] theorem node_keepOrigin (c : Container) (r : Replica) : (keepOrigin c r).node = r.node := by
  unfold keepOrigin
  split <;> rfl

@[simp] theorem state_keepOrigin (c : Container) (r : Replica) : (keepOrigin c r).state = r.state := by
  unfold keepOrigin
  split <;> rfl

@[simp] theorem sequence_keepOrigin (c : Container) (r : Replica) :
    (keepOrigin c r).sequence = r.sequence := by
  unfold keepOrigin
  split <;> rfl

@[simp] theorem bytesUsed_keepOrigin (c : Container) (r : Replica) :
    (keepOrigin c r).bytesUsed = r.bytesUsed := by
  unfold keepOrigin
  split <;> rfl

@[simp] theorem keyCount_keepOrigin (c : Container) (r : Replica) :
    (keepOrigin c r).keyCount = r.keyCount := by
  unfold keepOrigin
  split <;> rfl

theorem keepOrigin_congr {c d : Container} {r : Replica}
    (h : c.replicas[r.node]? = d.replicas[r.node]?) : keepOrigin c r = keepOrigin d r := by
  unfold keepOrigin
  rw [h]

theorem run_getInfo (h : Held) : getInfo.run h = (.ok h.container.info, h) := rfl

theorem run_persist (info : ContainerInfo) (h : Held) :
    (persist info).run h = match (TypedTable.containers.put info.id info).run h.db with
      | (.ok (), db) => (.ok (), ⟨{ h.container with info }, h.history, db⟩)
      | (.error e, db) => (.error (.store e), { h with db }) := by
  rw [persist, Action.run_bind, Action.run_within, Action.run_relabel]
  rcases (TypedTable.containers.put info.id info).run h.db with ⟨_ | _, _⟩ <;> rfl

theorem outgrown_keepOrigin (c : Container) (info : ContainerInfo) (r : Replica) :
    info.Outgrown (keepOrigin c r) ↔ info.Outgrown r := by
  simp [ContainerInfo.Outgrown]

/-- Metadata is stored and taken over just if the store takes the write; otherwise nothing changes. -/
theorem persist_cases (info : ContainerInfo) (h : Held) :
    (h.db.Takes .containers ∧ ∃ rows, h.db.tables .containers = .rows rows ∧
      (persist info).run h = (.ok (), ⟨{ h.container with info }, h.history,
        h.db.written .containers (TypedTable.containers.insertRow rows (info.id, info))⟩)) ∨
    (¬ h.db.Takes .containers ∧ ∃ e db, (persist info).run h = (.error (.store e), { h with db }) ∧
      db.tables = h.db.tables) := by
  rw [run_persist]
  obtain ⟨takes, rows, table, put⟩ | ⟨untaken, e, db, put, same, -⟩ := Database.run_write .containers
    (fun rows => ((), TypedTable.containers.insertRow rows (info.id, info))) h.db
  · have stored : (TypedTable.containers.put info.id info).run h.db = (.ok (),
        h.db.written .containers (TypedTable.containers.insertRow rows (info.id, info))) := put
    exact .inl ⟨takes, rows, table, by rw [stored]⟩
  · have refused : (TypedTable.containers.put info.id info).run h.db = (.error e, db) := put
    exact .inr ⟨untaken, e, db, by rw [refused], same⟩

theorem transition_cases (now : Millis) {event : Lifecycle.Event} {h : Held} {state : Lifecycle}
    (edge : h.container.info.state.next? event = some state) :
    let info := { h.container.info with state, stateEntered := now }
    (h.db.Takes .containers ∧ ∃ rows, h.db.tables .containers = .rows rows ∧
      (transition now event).run h = (.ok state, ⟨{ h.container with info }, h.history,
        h.db.written .containers (TypedTable.containers.insertRow rows (info.id, info))⟩)) ∨
    (¬ h.db.Takes .containers ∧ ∃ e db, (transition now event).run h = (.error (.store e), { h with db }) ∧
      db.tables = h.db.tables) := by
  intro info
  rw [transition, Action.run_bind_ok (run_getInfo h), edge]
  obtain ⟨takes, rows, table, run⟩ | ⟨untaken, e, db, run, same⟩ := persist_cases info h
  · exact .inl ⟨takes, rows, table, Action.run_bind_ok run _⟩
  · exact .inr ⟨untaken, e, db, Action.run_bind_error run _, same⟩

/-- The size is told unless it is outgrown and the write is refused. -/
theorem raiseSize_cases (replica : Replica) (h : Held) :
    (∃ db, (raiseSize replica).run h = (.ok (),
        ⟨{ h.container with info := h.container.info.sized replica }, h.history, db⟩) ∧
      (h.db.Accepts .containers → db.Accepts .containers) ∧
      (h.container.info.Outgrown replica → h.db.Takes .containers)) ∨
    (h.container.info.Outgrown replica ∧ ¬ h.db.Takes .containers ∧
      ∃ e db, (raiseSize replica).run h = (.error (.store e), { h with db }) ∧ db.tables = h.db.tables) := by
  rw [raiseSize, Action.run_bind_ok (run_getInfo h)]
  unfold ContainerInfo.sized
  split
  · next outgrown =>
    obtain ⟨takes, rows, -, run⟩ | ⟨untaken, e, db, run, same⟩ := persist_cases (raised h.container.info replica) h
    · exact .inl ⟨_, run, fun accepts => accepts.written _, fun _ => takes⟩
    · exact .inr ⟨outgrown, untaken, e, db, run, same⟩
  · next fits => exact .inl ⟨h.db, rfl, id, fun outgrown => absurd outgrown fits⟩

theorem update_cases (now : Millis) (replica : Replica) (h : Held) :
    let kept := keepOrigin h.container replica
    (∃ db, (update now replica).run h = (.ok (),
        ⟨⟨h.container.info.sized kept, h.container.replicas.insert kept.node kept⟩,
          h.history.record now kept, db⟩) ∧
      (h.db.Accepts .containers → db.Accepts .containers) ∧
      (h.container.info.Outgrown replica → h.db.Takes .containers)) ∨
    (h.container.info.Outgrown replica ∧ ¬ h.db.Takes .containers ∧
      ∃ e db, (update now replica).run h = (.error (.store e), { h with db }) ∧ db.tables = h.db.tables) := by
  intro kept
  rw [update, Action.run_bind_ok (Action.run_get h)]
  have cases := raiseSize_cases kept h
  rw [outgrown_keepOrigin] at cases
  obtain ⟨db, run, accepts, fine⟩ | ⟨outgrown, untaken, e, db, run, same⟩ := cases
  · exact .inl ⟨db, by rw [Action.run_bind_ok run]; rfl, accepts, fine⟩
  · exact .inr ⟨outgrown, untaken, e, db, Action.run_bind_error run _, same⟩

def recorded (now : Millis) (replica : Replica) (h : Held) : History :=
  if h.container.info.state = .deleted then h.history
  else h.history.record now (keepOrigin h.container replica)

def outcome (replica : Replica) (info : ContainerInfo) : ReplicaOutcome :=
  ⟨Lifecycle.decide info.state replica.state replica.sequence info.sequence,
    Lifecycle.moved? info.state replica.state replica.sequence info.sequence⟩

theorem moved_of_moved? {info : ContainerInfo} {now : Millis} {replica : Replica} {state : Lifecycle}
    (h : Lifecycle.moved? info.state replica.state replica.sequence info.sequence = some state) :
    info.moved now replica = { info with state, stateEntered := now } := by
  rw [ContainerInfo.moved, h]

theorem moved_of_not_moved? {info : ContainerInfo} {now : Millis} {replica : Replica}
    (h : Lifecycle.moved? info.state replica.state replica.sequence info.sequence = none) :
    info.moved now replica = info := by
  rw [ContainerInfo.moved, h]

theorem moved_keepOrigin (c : Container) (info : ContainerInfo) (now : Millis) (replica : Replica) :
    info.moved now (keepOrigin c replica) = info.moved now replica := by
  simp [ContainerInfo.moved]

inductive Applied (now : Millis) (replica : Replica) (h : Held) :
    Except ContainerError ReplicaOutcome × Held → Prop where
  | taken (db : Database) (accepts : h.db.Accepts .containers → db.Accepts .containers) :
    Applied now replica h
      (.ok (outcome replica h.container.info), ⟨h.container.take now replica, recorded now replica h, db⟩)
  | refused (refuses : ¬ h.db.Accepts .containers) (e : StoreError) (db : Database) :
    Applied now replica h (.error (.store e), { h with db })
  | halfway (refuses : ¬ h.db.Accepts .containers) (e : StoreError) (db : Database) :
    Applied now replica h (.error (.store e),
      ⟨⟨h.container.info.moved now replica, h.container.replicas⟩, h.history, db⟩)

/-- The write for the move is taken, and the one for the size after it is refused. -/
structure Halfway (now : Millis) (db : Database) (info : ContainerInfo) (replica : Replica) : Prop where
  moves : (Lifecycle.moved? info.state replica.state replica.sequence info.sequence).isSome
  takes : db.Takes .containers
  outgrown : (info.moved now replica).Outgrown replica
  refused : (db.refusals .containers)[1]? = some true

inductive Ended (now : Millis) (replica : Replica) (h : Held) :
    Except ContainerError ReplicaOutcome × Held → Prop where
  | taken (db : Database) (accepts : h.db.Accepts .containers → db.Accepts .containers)
    (whole : ¬ Halfway now h.db h.container.info replica) : Ended now replica h
      (.ok (outcome replica h.container.info), ⟨h.container.take now replica, recorded now replica h, db⟩)
  | refused (untaken : ¬ h.db.Takes .containers) (e : StoreError) (db : Database) (same : db.tables = h.db.tables) :
    Ended now replica h (.error (.store e), { h with db })
  | halfway (half : Halfway now h.db h.container.info replica) (e : StoreError) (db : Database) {rows : Rows}
    (table : h.db.tables .containers = .rows rows)
    (same : db.tables = (h.db.written .containers (TypedTable.containers.insertRow rows
      ((h.container.info.moved now replica).id, h.container.info.moved now replica))).tables) :
    Ended now replica h (.error (.store e),
      ⟨⟨h.container.info.moved now replica, h.container.replicas⟩, h.history, db⟩)

/-- The second half of `apply`, after the move if there was one. -/
theorem update_moved_cases (now : Millis) (replica : Replica) (h : Held) (db : Database)
    (live : h.container.info.state ≠ .deleted) :
    let moved : Held := ⟨⟨h.container.info.moved now replica, h.container.replicas⟩, h.history, db⟩
    (∃ db', (update now replica).run moved =
        (.ok (), ⟨h.container.take now replica, recorded now replica h, db'⟩) ∧
      (db.Accepts .containers → db'.Accepts .containers) ∧
      ((h.container.info.moved now replica).Outgrown replica → db.Takes .containers)) ∨
    ((h.container.info.moved now replica).Outgrown replica ∧ ¬ db.Takes .containers ∧
      ∃ e db', (update now replica).run moved = (.error (.store e), { moved with db := db' }) ∧
        db'.tables = db.tables) := by
  intro moved
  have origin : keepOrigin moved.container replica = keepOrigin h.container replica :=
    keepOrigin_congr rfl
  obtain ⟨db', run, accepts, fine⟩ | refused := update_cases now replica moved
  · refine .inl ⟨db', ?_, accepts, fine⟩
    rw [run, origin]
    simp [Container.take, recorded, live, moved_keepOrigin, moved]
  · exact .inr refused

/-- Without a move only the size is written. -/
theorem ended_unmoved {now : Millis} {replica : Replica} {h : Held} {d : Lifecycle.Decision}
    (decision : Lifecycle.decide h.container.info.state replica.state replica.sequence
      h.container.info.sequence = d) (quiet : d.event? = none) (heard : d ≠ .ignored) :
    Ended now replica h ((update now replica >>= fun _ => pure ⟨d, none⟩).run h) := by
  have still : Lifecycle.moved? h.container.info.state replica.state replica.sequence
      h.container.info.sequence = none := by
    rw [Lifecycle.moved?, decision, quiet]
    rfl
  have live : h.container.info.state ≠ .deleted := by
    intro deleted
    rw [deleted, Lifecycle.decide_deleted] at decision
    exact heard decision.symm
  have cases := update_moved_cases now replica h h.db live
  rw [moved_of_not_moved? still] at cases
  obtain ⟨db, run, accepts, -⟩ | ⟨-, untaken, e, db, run, same⟩ := cases
  · have result : (⟨d, none⟩ : ReplicaOutcome) = outcome replica h.container.info := by
      rw [outcome, decision, still]
    rw [Action.run_bind_ok run, result]
    exact .taken db accepts fun half => by simpa [still] using half.moves
  · rw [Action.run_bind_error run]
    exact .refused untaken e db same

/-- With a move the state is written first, and a failure after that leaves the container moved. -/
theorem ended_moved {now : Millis} {replica : Replica} {h : Held} {event : Lifecycle.Event}
    (decision : Lifecycle.decide h.container.info.state replica.state replica.sequence
      h.container.info.sequence = .fire event) :
    Ended now replica h ((tryTransition now event >>= fun newState? =>
      update now replica >>= fun _ => pure ⟨.fire event, newState?⟩).run h) := by
  obtain ⟨state, edge, moved⟩ := Lifecycle.next?_of_fire decision
  have live : h.container.info.state ≠ .deleted := by
    intro deleted
    rw [deleted, Lifecycle.decide_deleted] at decision
    cases decision
  have cases := transition_cases now edge
  rw [← moved_of_moved? moved] at cases
  obtain ⟨takes, rows, table, run⟩ | ⟨untaken, e, db, run, same⟩ := cases
  · have tried : (tryTransition now event).run h = (.ok (some state),
        ⟨⟨h.container.info.moved now replica, h.container.replicas⟩, h.history,
          h.db.written .containers (TypedTable.containers.insertRow rows
            ((h.container.info.moved now replica).id, h.container.info.moved now replica))⟩) := by
      rw [tryTransition, Action.run_tryCatch, Action.run_map, run]
      rfl
    rw [Action.run_bind_ok tried]
    -- the write for the size is the one that comes after the one that was taken
    obtain ⟨db', run, accepts, fine⟩ | ⟨outgrown, untaken, e, db', run, same⟩ := update_moved_cases now replica h _ live
    · have result : (⟨.fire event, some state⟩ : ReplicaOutcome) = outcome replica h.container.info := by
        rw [outcome, decision, moved]
      rw [Action.run_bind_ok run, result]
      exact .taken db' (fun before => accepts (before.written _)) fun half =>
        (Database.takes_written_iff _).1 (fine half.outgrown) half.refused
    · rw [Action.run_bind_error run]
      have refused : (h.db.refusals .containers)[1]? = some true :=
        Classical.byContradiction fun taken => untaken ((Database.takes_written_iff _).2 taken)
      exact .halfway ⟨by rw [moved]; rfl, takes, outgrown, refused⟩ e db' table same
  · have tried : (tryTransition now event).run h = (.error (.store e), { h with db }) := by
      rw [tryTransition, Action.run_tryCatch, Action.run_map, run]
      rfl
    rw [Action.run_bind_error tried]
    exact .refused untaken e db same

theorem ended (now : Millis) (replica : Replica) (h : Held) :
    Ended now replica h ((apply now replica).run h) := by
  rw [apply, Action.run_bind_ok (run_getInfo h)]
  cases decision : Lifecycle.decide h.container.info.state replica.state replica.sequence
    h.container.info.sequence with
  | ignored =>
    have deleted := Lifecycle.deleted_of_ignored decision
    have still : Lifecycle.moved? h.container.info.state replica.state replica.sequence
        h.container.info.sequence = none := by
      rw [Lifecycle.moved?, decision]
      rfl
    have ignored : ((.ok ⟨.ignored, none⟩, h) : Except ContainerError ReplicaOutcome × Held) =
        (.ok (outcome replica h.container.info),
          ⟨h.container.take now replica, recorded now replica h, h.db⟩) := by
      rw [outcome, still, decision, Container.take, recorded, if_pos deleted, if_pos deleted]
    rw [Action.run_pure, ignored]
    exact .taken h.db id fun half => by simpa [still] using half.moves
  | noOp => simpa only [decision] using ended_unmoved decision rfl (by simp)
  | sequenceMismatch a b => simpa only [decision] using ended_unmoved decision rfl (by simp)
  | fire event => simpa only [decision] using ended_moved decision

theorem applied (now : Millis) (replica : Replica) (h : Held) :
    Applied now replica h ((apply now replica).run h) := by
  have ended := ended now replica h
  generalize (apply now replica).run h = result at ended
  cases ended with
  | taken db accepts => exact .taken db accepts
  | refused untaken e db => exact .refused (fun accepts => untaken accepts.takes) e db
  | halfway half e db => exact .halfway (fun accepts => accepts.taken (List.mem_of_getElem? half.refused)) e db

def inheriting (row : Option Replica) (replica : Replica) : Replica :=
  match row with
  | some known => { replica with origin := known.origin }
  | none => replica

theorem keepOrigin_eq (c : Container) (replica : Replica) :
    keepOrigin c replica = inheriting c.replicas[replica.node]? replica := rfl

structure Respected (R : Held → Held → Prop) : Prop extends Action.Composes R where
  persist {info : ContainerInfo} {h : Held} (same : info.id = h.container.info.id) :
    R h ((persist info).run h).2
  modify {f : Held → Held} (info : ∀ h, (f h).container.info = h.container.info) (db : ∀ h, (f h).db = h.db) :
    (modify f : Action Held ContainerError PUnit).Respects R

namespace Respected

variable {R : Held → Held → Prop}

theorem transition (respected : Respected R) (now : Millis) (event : Lifecycle.Event) :
    (transition now event).Respects R := by
  intro h
  rw [Held.transition, Action.run_bind_ok (run_getInfo h)]
  split
  · exact Action.respects_throw respected.toComposes _ h
  · next state edge =>
    have stored : R h ((Held.persist { h.container.info with state, stateEntered := now }).run h).2 :=
      respected.persist rfl
    rw [Action.run_bind]
    rcases ran : (Held.persist { h.container.info with state, stateEntered := now }).run h with ⟨_ | _, h'⟩ <;>
    · rw [ran] at stored
      exact stored

theorem raiseSize (respected : Respected R) (replica : Replica) : (raiseSize replica).Respects R := by
  intro h
  rw [Held.raiseSize, Action.run_bind_ok (run_getInfo h)]
  split
  · exact respected.persist rfl
  · exact Action.respects_pure respected.toComposes _ h

theorem update (respected : Respected R) (now : Millis) (replica : Replica) : (update now replica).Respects R := by
  have composes := respected.toComposes
  refine (Action.respects_get composes).bind composes fun h => ?_
  refine (respected.raiseSize _).bind composes fun _ => ?_
  exact respected.modify (fun _ => rfl) fun _ => rfl

theorem apply (respected : Respected R) (now : Millis) (replica : Replica) : (apply now replica).Respects R := by
  have composes := respected.toComposes
  refine (Action.respects_still composes fun _ => rfl : getInfo.Respects _).bind composes fun info => ?_
  have updated (result : ReplicaOutcome) : (Held.update now replica >>= fun _ => pure result).Respects R :=
    (respected.update now replica).bind composes fun _ => Action.respects_pure composes _
  dsimp only
  split
  · exact Action.respects_pure composes _
  · refine Action.Respects.bind composes (Action.Respects.tryCatch composes ?_ fun e => ?_) fun _ => updated _
    · exact (respected.transition now _).map _
    · split
      · exact Action.respects_pure composes _
      · exact Action.respects_throw composes _
  · exact updated _
  · exact updated _

theorem removeReplica (respected : Respected R) (node : NodeId) : (removeReplica node).Respects R := by
  have composes := respected.toComposes
  refine (Action.respects_get composes).bind composes fun h => ?_
  dsimp only
  refine Action.Respects.bind composes (respected.modify ?_ ?_) fun _ => Action.respects_pure composes _
  · exact fun _ => rfl
  · exact fun _ => rfl

end Respected

end Held

namespace Container

theorem state_take (c : Container) (now : Millis) (replica : Replica) :
    (c.take now replica).info.state =
      (Lifecycle.moved? c.info.state replica.state replica.sequence c.info.sequence).getD c.info.state := by
  unfold take
  split
  · next deleted =>
    rw [Lifecycle.moved?, deleted, Lifecycle.decide_deleted]
    rfl
  · rw [ContainerInfo.state_sized, ContainerInfo.state_moved, Held.state_keepOrigin,
      Held.sequence_keepOrigin]

theorem sameIdentity_take (c : Container) (now : Millis) (replica : Replica) :
    ContainerInfo.SameIdentity (c.take now replica).info c.info := by
  unfold take
  split
  · exact .refl _
  · exact (ContainerInfo.sameIdentity_sized ..).trans (ContainerInfo.sameIdentity_moved ..)

theorem getElem?_replicas_take (c : Container) (now : Millis) (replica : Replica) (node : NodeId) :
    (c.take now replica).replicas[node]? =
      if c.info.state ≠ .deleted ∧ replica.node = node
      then some (Held.inheriting c.replicas[node]? replica) else c.replicas[node]? := by
  unfold take
  by_cases deleted : c.info.state = .deleted
  · simp [deleted]
  · by_cases same : replica.node = node
    · subst same
      simp only [deleted, if_false, ne_eq, not_false_eq_true, and_self, if_true]
      rw [Held.node_keepOrigin, Std.ExtTreeMap.getElem?_insert_self, Held.keepOrigin_eq]
    · simp [deleted, same, Std.ExtTreeMap.getElem?_insert]

/-- A replica neither deletes a container nor brings it back. -/
theorem deleted_take (c : Container) (now : Millis) (replica : Replica) :
    (c.take now replica).info.state = .deleted ↔ c.info.state = .deleted := by
  rw [state_take]
  cases moved : Lifecycle.moved? c.info.state replica.state replica.sequence c.info.sequence with
  | none => rfl
  | some state =>
    rw [Lifecycle.moved?_eq_some_iff] at moved
    obtain ⟨before, -, after⟩ | ⟨before | before, -, -, after⟩ := moved <;> simp [before, after]

end Container

end ClusterCatalog
