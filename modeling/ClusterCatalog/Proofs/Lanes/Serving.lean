import Mathlib.Tactic.ByContra
import ClusterCatalog.Lanes.Basic
/-!
Lanes that have jobs of one node only. These wait in one lane, and they end in the order in which they
were submitted.
-/
namespace ClusterCatalog

variable {J : Type}

namespace Lane

def pending (l : Lane J) : List J := (l.running?.map Running.job).toList ++ l.queue

theorem pending_push (l : Lane J) (job : J) : (l.push job).pending = l.pending ++ [job] := by
  simp [pending, push]

theorem pending_take (now : Nat) (l : Lane J) : (l.take now).pending = l.pending := by
  obtain ⟨queue, running?⟩ := l
  cases running? with
  | some r => rfl
  | none =>
    cases queue with
    | nil => rfl
    | cons job rest => rfl

theorem pending_of_running {l : Lane J} {r : Running J} (h : l.running? = some r) :
    l.pending = r.job :: l.queue := by
  simp [pending, h]

end Lane

namespace Pins

variable {node other : NodeId}

@[simp] theorem getElem?_empty (node : NodeId) : (∅ : Pins)[node]? = none := Std.ExtTreeMap.getElem?_empty

@[simp] theorem getElem?_deal_self (node : NodeId) (lanes : Nat) (pins : Pins) :
    (pins.deal node lanes)[node]? = some (pins.next % lanes) :=
  Std.ExtTreeMap.getElem?_insert_self

theorem getElem?_deal_of_ne (apart : other ≠ node) (lanes : Nat) (pins : Pins) :
    (pins.deal node lanes)[other]? = pins[other]? := by
  refine Std.ExtTreeMap.getElem?_insert.trans (if_neg ?_)
  simpa using Ne.symm apart

end Pins

namespace Lanes

variable {p p' : Lanes J} {node : NodeId} {jobs jobs' : List J} {lane : Nat}

theorem route_of_pinned (pin : p.pins[node]? = some lane) : p.route node = (lane, p) := by
  rw [route, pin]

theorem route_of_unpinned (none : p.pins[node]? = none) :
    p.route node = (p.pins.next % p.lanes.length, { p with pins := p.pins.deal node p.lanes.length }) := by
  rw [route, none]

/-- The jobs that have not ended are those of a node, in the order in which they came. -/
structure Serves (p : Lanes J) (node : NodeId) (jobs : List J) : Prop where
  nonempty : p.lanes ≠ []
  pinned {lane : Nat} (h : p.pins[node]? = some lane) : (p.lanes.map Lane.pending)[lane]? = some jobs
  unpinned (h : p.pins[node]? = none) : jobs = []
  others {lane : Nat} (h : p.pins[node]? ≠ some lane) {waiting : List J}
    (here : (p.lanes.map Lane.pending)[lane]? = some waiting) : waiting = []

theorem serves_create (name : String) (lanes depth : Nat) (node : NodeId) :
    (create name lanes depth : Lanes J).Serves node [] where
  nonempty := by simp [create]
  pinned h := by simp [create] at h
  unpinned _ := rfl
  others _ waiting here := by
    have replicated : (create name lanes depth : Lanes J).lanes.map Lane.pending =
        List.replicate (max 1 lanes) [] := List.map_replicate
    rw [replicated, List.getElem?_replicate] at here
    split at here
    · exact (Option.some.inj here).symm
    · cases here

theorem Serves.congr (h : p.Serves node jobs) (pins : p'.pins = p.pins)
    (lanes : p'.lanes.map Lane.pending = p.lanes.map Lane.pending) : p'.Serves node jobs where
  nonempty := by
    have length := congrArg List.length lanes
    rw [List.length_map, List.length_map] at length
    exact List.ne_nil_of_length_pos (length ▸ List.length_pos_iff.2 h.nonempty)
  pinned here := by rw [lanes]; exact h.pinned (pins ▸ here)
  unpinned absent := h.unpinned (pins ▸ absent)
  others other _ here := h.others (pins ▸ other) (lanes ▸ here)

/-- What is done on the lane of the node happens to its jobs. -/
theorem Serves.modify (h : p.Serves node jobs) (here : p.pins[node]? = some lane) (pins : p'.pins = p.pins)
    {f : Lane J → Lane J} (lanes : p'.lanes = p.lanes.modify lane f)
    (after : ∀ l : Lane J, p.lanes[lane]? = some l → l.pending = jobs → (f l).pending = jobs') :
    p'.Serves node jobs' where
  nonempty := by
    intro empty
    rw [lanes, List.modify_eq_nil_iff] at empty
    exact h.nonempty empty
  pinned {lane'} pinned := by
    obtain rfl : lane = lane' := Option.some.inj (here.symm.trans (pins ▸ pinned))
    have was := h.pinned here
    rw [List.getElem?_map, Option.map_eq_some_iff] at was
    obtain ⟨l, found, waits⟩ := was
    rw [lanes, List.getElem?_map, List.getElem?_modify_eq, found]
    exact congrArg some (after l found waits)
  unpinned absent := by
    rw [pins, here] at absent
    cases absent
  others {lane'} other waiting found := by
    rw [pins] at other
    have apart : lane ≠ lane' := fun same => other (same ▸ here)
    have untouched : (p.lanes.modify lane f)[lane']? = p.lanes[lane']? := by simp [apart]
    rw [lanes, List.getElem?_map, untouched, ← List.getElem?_map] at found
    exact h.others other found

theorem Serves.route (h : p.Serves node jobs) :
    (p.route node).2.Serves node jobs ∧ (p.route node).2.pins[node]? = some (p.route node).1 := by
  cases pin : p.pins[node]? with
  | some lane =>
    rw [route_of_pinned pin]
    exact ⟨h, pin⟩
  | none =>
    rw [route_of_unpinned pin]
    obtain rfl := h.unpinned pin
    let lane := p.pins.next % p.lanes.length
    have inRange : lane < (p.lanes.map Lane.pending).length := by
      rw [List.length_map]
      exact Nat.mod_lt _ (List.length_pos_iff.2 h.nonempty)
    have pinned : (p.pins.deal node p.lanes.length)[node]? = some lane := Pins.getElem?_deal_self ..
    -- no lane has jobs yet, nor has the one that the node is pinned to now
    have empty {i : Nat} {waiting : List J} (found : (p.lanes.map Lane.pending)[i]? = some waiting) : waiting = [] :=
      h.others (by rw [pin]; exact nofun) found
    refine ⟨⟨h.nonempty, fun {other} here => ?_, fun _ => rfl, fun _ _ found => empty found⟩, pinned⟩
    obtain rfl : lane = other := Option.some.inj (pinned.symm.trans here)
    rw [List.getElem?_eq_getElem inRange, empty (List.getElem?_eq_getElem inRange)]

theorem Serves.submit {job : J} {accepted : Nat} (h : p.Serves node jobs)
    (run : p.submit node job = (.ok accepted, p')) : p'.Serves node (jobs ++ [job]) := by
  obtain ⟨routed, pinned⟩ := h.route
  unfold Lanes.submit at run
  dsimp only at run
  split at run
  · cases run
  · split at run
    · cases run
    · cases run
      exact routed.modify pinned rfl rfl fun l _ waits => by rw [Lane.pending_push, waits]

theorem Serves.start (h : p.Serves node jobs) : p.start.Serves node jobs := by
  unfold Lanes.start
  split
  · exact h.congr rfl rfl
  · exact h

theorem Serves.take (h : p.Serves node jobs) (now lane : Nat) : (p.take now lane).Serves node jobs := by
  unfold Lanes.take
  split
  · refine h.congr rfl (List.ext_getElem? fun i => ?_)
    by_cases same : lane = i
    · subst same
      cases found : p.lanes[lane]? <;> simp [found, Lane.pending_take]
    · simp [same]
  · exact h

theorem Serves.pinned_of_running {r : Running J} (h : p.Serves node jobs) (running : p.runningIn? lane = some r) :
    p.pins[node]? = some lane ∧ ∃ l, p.lanes[lane]? = some l ∧ jobs = r.job :: l.queue := by
  obtain ⟨l, found, runs⟩ := Option.bind_eq_some_iff.1 running
  have waits : (p.lanes.map Lane.pending)[lane]? = some (r.job :: l.queue) := by
    rw [List.getElem?_map, found, Option.map_some, Lane.pending_of_running runs]
  have here : p.pins[node]? = some lane := by
    by_contra other
    cases h.others other waits
  exact ⟨here, l, found, Option.some.inj ((h.pinned here).symm.trans waits)⟩

theorem Serves.lane_eq {other : Nat} {r x : Running J} (h : p.Serves node jobs) (running : p.runningIn? lane = some r)
    (elsewhere : p.runningIn? other = some x) : lane = other :=
  Option.some.inj ((h.pinned_of_running running).1.symm.trans (h.pinned_of_running elsewhere).1)

/-- The job that ends was the first one. -/
theorem Serves.finish {r : Running J} (h : p.Serves node jobs) (running : p.runningIn? lane = some r)
    (succeeds : Bool) : ∃ rest, jobs = r.job :: rest ∧ (p.finish lane succeeds).Serves node rest := by
  obtain ⟨here, l, found, rfl⟩ := h.pinned_of_running running
  refine ⟨l.queue, rfl, ?_⟩
  rw [Lanes.finish, running]
  refine h.modify here rfl rfl fun l' found' _ => ?_
  cases found.symm.trans found'
  rfl

theorem Serves.eq_nil_of_isIdle (h : p.Serves node jobs) (idle : p.isIdle = true) : jobs = [] := by
  cases pin : p.pins[node]? with
  | none => exact h.unpinned pin
  | some lane =>
    have waits := h.pinned pin
    rw [List.getElem?_map, Option.map_eq_some_iff] at waits
    obtain ⟨l, found, rfl⟩ := waits
    have quiet := List.all_eq_true.1 idle l (List.mem_of_getElem? found)
    simp only [Bool.and_eq_true, List.isEmpty_iff, Option.isNone_iff_eq_none] at quiet
    rw [Lane.pending, quiet.1, quiet.2]
    rfl

end Lanes

end ClusterCatalog
