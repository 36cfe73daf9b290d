import Mathlib.Data.List.Basic
import ClusterCatalog.Proofs.Lanes.Serving
/-!
Lanes before they are shut down. Whatever producers and workers do, no pin moves, no lane holds more than
it may, and every job that was taken in waits, runs or has ended.
-/
namespace ClusterCatalog

variable {J : Type}

namespace Lane

theorem take_cases (now : Nat) (l : Lane J) :
    (∃ job rest, l = ⟨job :: rest, none⟩ ∧ l.take now = ⟨rest, some ⟨job, now, false⟩⟩) ∨
      (l.take now = l ∧ (l.running? = none → l.queue = [])) := by
  obtain ⟨queue, running?⟩ := l
  cases running? with
  | some r => exact .inr ⟨rfl, nofun⟩
  | none =>
    cases queue with
    | nil => exact .inr ⟨rfl, fun _ => rfl⟩
    | cons job rest => exact .inl ⟨job, rest, rfl, rfl⟩

end Lane

namespace Lanes

variable {p : Lanes J} {node : NodeId} {lane depth : Nat}

inductive Ending where
  | succeeded
  | failed
  | panicked
  deriving DecidableEq, Repr

def Ending.isSuccess : Ending → Bool
  | .succeeded => true
  | .failed | .panicked => false

inductive Act (J : Type) where
  | route (node : NodeId)
  | submit (node : NodeId) (job : J)
  | start
  | take (now lane : Nat)
  | overrun (lane : Nat)
  | finish (lane : Nat) (ending : Ending)

def act (p : Lanes J) : Act J → Lanes J
  | .route node => (p.route node).2
  | .submit node job => (p.submit node job).2
  | .start => p.start
  | .take now lane => p.take now lane
  | .overrun lane => p.overrun lane
  | .finish lane ending => p.finish lane ending.isSuccess

def run (p : Lanes J) (acts : List (Act J)) : Lanes J := acts.foldl act p

def busy (p : Lanes J) : Nat := p.lanes.countP (·.running?.isSome)

def laneAt (p : Lanes J) (lane : Nat) : Lane J := p.lanes[lane]?.getD {}

theorem laneAt_of_getElem? {l : Lane J} (h : p.lanes[lane]? = some l) : p.laneAt lane = l := by
  rw [laneAt, h]
  rfl

theorem runningIn?_eq : p.runningIn? lane = (p.laneAt lane).running? := by
  unfold runningIn? laneAt
  cases p.lanes[lane]? <;> rfl

theorem waitingIn_eq : p.waitingIn lane = (p.laneAt lane).queue.length := by
  unfold waitingIn laneAt
  cases p.lanes[lane]? <;> rfl

theorem laneAt_create (name : String) (lanes depth : Nat) (lane : Nat) :
    (create name lanes depth : Lanes J).laneAt lane = {} := by
  unfold laneAt create
  dsimp only
  rw [List.getElem?_replicate]
  split <;> rfl

def total {α : Type} (size : α → Nat) (xs : List α) : Nat := xs.foldr (fun x n => size x + n) 0

theorem total_set {α : Type} (size : α → Nat) {xs : List α} {i : Nat} {x : α} (y : α) (h : xs[i]? = some x) :
    total size (xs.set i y) + size x = total size xs + size y := by
  induction xs generalizing i with
  | nil => cases h
  | cons z zs ih =>
    cases i with
    | zero =>
      obtain rfl : z = x := Option.some.inj h
      simp only [List.set_cons_zero, total, List.foldr_cons]
      omega
    | succ i =>
      have rest := ih h
      simp only [List.set_cons_succ, total, List.foldr_cons] at rest ⊢
      omega

theorem modify_eq_set {α : Type} {xs : List α} {i : Nat} {x : α} (f : α → α) (h : xs[i]? = some x) :
    xs.modify i f = xs.set i (f x) := by
  simp [List.modify_eq_set_getElem?, h]

theorem laneAt_set {p' : Lanes J} {l l' : Lane J} (h : p.lanes[lane]? = some l)
    (set : p'.lanes = p.lanes.set lane l') (i : Nat) :
    p'.laneAt i = if lane = i then l' else p.laneAt i := by
  have inRange : lane < p.lanes.length := (List.getElem?_eq_some_iff.1 h).1
  rw [laneAt, set, List.getElem?_set]
  split
  · rfl
  · rfl

structure Pinned (node : NodeId) (lane : Nat) (pins pins' : Pins) : Prop where
  here : pins'[node]? = some lane
  kept {other : NodeId} {i : Nat} (h : pins[other]? = some i) : pins'[other]? = some i
  others {other : NodeId} (apart : other ≠ node) : pins'[other]? = pins[other]?

theorem exists_route (p : Lanes J) (node : NodeId) :
    ∃ lane pins, p.route node = (lane, { p with pins }) ∧ Pinned node lane p.pins pins := by
  cases pin : p.pins[node]? with
  | some lane =>
    rw [route_of_pinned pin]
    exact ⟨lane, p.pins, rfl, pin, id, fun _ => rfl⟩
  | none =>
    rw [route_of_unpinned pin]
    have others {other : NodeId} (apart : other ≠ node) :
        (p.pins.deal node p.lanes.length)[other]? = p.pins[other]? :=
      Pins.getElem?_deal_of_ne apart p.lanes.length p.pins
    refine ⟨_, _, rfl, Pins.getElem?_deal_self .., ?_, others⟩
    intro other i was
    have apart : other ≠ node := by
      rintro rfl
      rw [pin] at was
      cases was
    exact (others apart).trans was

/-- Nodes are pinned to lanes that exist. -/
theorem inRange_route (some : p.lanes ≠ [])
    (inRange : ∀ {node : NodeId} {lane : Nat}, p.pins[node]? = .some lane → lane < p.lanes.length) (node : NodeId) :
    (p.route node).1 < p.lanes.length ∧
      ∀ {other : NodeId} {lane : Nat}, (p.route node).2.pins[other]? = .some lane → lane < p.lanes.length := by
  cases pin : p.pins[node]? with
  | some lane =>
    rw [route_of_pinned pin]
    exact ⟨inRange pin, inRange⟩
  | none =>
    have turn : p.pins.next % p.lanes.length < p.lanes.length := Nat.mod_lt _ (List.length_pos_iff.2 some)
    rw [route_of_unpinned pin]
    refine ⟨turn, fun {other lane} pinned => ?_⟩
    dsimp only at pinned
    by_cases same : other = node
    · rw [same, Pins.getElem?_deal_self] at pinned
      exact Option.some.inj pinned ▸ turn
    · rw [Pins.getElem?_deal_of_ne same] at pinned
      exact inRange pinned

structure Open (p : Lanes J) (depth : Nat) : Prop where
  deep : p.depth = depth
  intake : p.isClosed = false
  nonempty : p.lanes ≠ []
  pinned {node : NodeId} {lane : Nat} (h : p.pins[node]? = some lane) : lane < p.lanes.length
  bounded (lane : Nat) : (p.laneAt lane).queue.length ≤ depth
  counted : p.counts.submitted = total (·.pending.length) p.lanes + p.counts.completed + p.counts.failed

theorem open_create (name : String) (lanes depth : Nat) : (create name lanes depth : Lanes J).Open (max 1 depth) where
  deep := rfl
  intake := rfl
  nonempty := by simp [create]
  pinned h := by simp [create] at h
  bounded lane := by
    rw [laneAt_create]
    exact Nat.zero_le _
  counted := by
    have none (n : Nat) : total (·.pending.length) (List.replicate n ({} : Lane J)) = 0 := by
      induction n with
      | zero => rfl
      | succ n ih =>
        rw [List.replicate_succ, total, List.foldr_cons, ← total, ih]
        rfl
    exact (none (max 1 lanes)).symm

theorem Open.route_lt (h : p.Open depth) (node : NodeId) : (p.route node).1 < p.lanes.length :=
  (inRange_route h.nonempty h.pinned node).1

theorem Open.route (h : p.Open depth) (node : NodeId) : (p.route node).2.Open depth := by
  obtain ⟨-, inRange⟩ := inRange_route h.nonempty h.pinned node
  obtain ⟨lane, pins, routed, -⟩ := p.exists_route node
  rw [routed] at inRange ⊢
  exact ⟨h.deep, h.intake, h.nonempty, inRange, h.bounded, h.counted⟩

/-- A job that is refused leaves the pin of its node and a count, any other waits last in its lane. -/
theorem Open.submit_cases (h : p.Open depth) (node : NodeId) (job : J) :
    ∃ lane pins, p.route node = (lane, { p with pins }) ∧ Pinned node lane p.pins pins ∧
      ((depth ≤ p.waitingIn lane ∧ p.submit node job =
          (.error (.laneFull p.name lane), { p with pins, counts.dropped := p.counts.dropped + 1 })) ∨
        ∃ l, p.lanes[lane]? = some l ∧ l.queue.length < depth ∧ p.submit node job =
          (.ok lane, { p with
            pins, lanes := p.lanes.set lane (l.push job)
            counts.submitted := p.counts.submitted + 1 })) := by
  obtain rfl := h.deep
  have inRange := h.route_lt node
  obtain ⟨lane, pins, routed, pinned⟩ := p.exists_route node
  rw [routed] at inRange
  refine ⟨lane, pins, routed, pinned, ?_⟩
  have stillOpen : ({ p with pins } : Lanes J).isClosed = false := h.intake
  have sameQueue : ({ p with pins } : Lanes J).waitingIn lane = p.waitingIn lane := rfl
  unfold submit
  rw [routed]
  simp only [stillOpen, sameQueue, Bool.false_eq_true, if_false]
  split
  case isTrue full => exact .inl ⟨full, rfl⟩
  case isFalse space =>
    have found : p.lanes[lane]? = some p.lanes[lane] := List.getElem?_eq_getElem inRange
    rw [waitingIn_eq, laneAt_of_getElem? found] at space
    exact .inr ⟨p.lanes[lane], found, Nat.lt_of_not_le space, by rw [modify_eq_set _ found]⟩

theorem take_cases (p : Lanes J) (now lane : Nat) :
    (∃ job rest, p.lanes[lane]? = some ⟨job :: rest, none⟩ ∧
      p.take now lane = { p with lanes := p.lanes.set lane ⟨rest, some ⟨job, now, false⟩⟩ }) ∨
    p.take now lane = p := by
  unfold take
  split
  case isFalse idle => exact .inr rfl
  case isTrue works =>
    cases found : p.lanes[lane]? with
    | none =>
      have same : p.lanes.modify lane (Lane.take now) = p.lanes := by
        simp [List.modify_eq_set_getElem?, found]
      exact .inr (by rw [same])
    | some l =>
      rw [modify_eq_set _ found]
      obtain ⟨job, rest, rfl, taken⟩ | ⟨same, -⟩ := l.take_cases now
      · exact .inl ⟨job, rest, rfl, by rw [taken]⟩
      · have unchanged : p.lanes.set lane l = p.lanes := by
          obtain ⟨inRange, rfl⟩ := List.getElem?_eq_some_iff.1 found
          exact List.set_getElem_self inRange
        exact .inr (by rw [same, unchanged])

theorem lane_of_runningIn? {r : Running J} (h : p.runningIn? lane = some r) :
    ∃ l, p.lanes[lane]? = some l ∧ l.running? = some r :=
  Option.bind_eq_some_iff.1 h

theorem runningIn?_submit {p' : Lanes J} {job : J} {accepted : Nat} (run : p.submit node job = (.ok accepted, p')) :
    p'.runningIn? lane = p.runningIn? lane := by
  obtain ⟨target, pins, routed, -⟩ := p.exists_route node
  unfold submit at run
  rw [routed] at run
  dsimp only at run
  split at run
  · cases run
  · split at run
    · cases run
    · cases run
      unfold runningIn?
      dsimp only
      rw [List.getElem?_modify]
      split
      · cases p.lanes[lane]? <;> rfl
      · simp

theorem runningIn?_start : p.start.runningIn? lane = p.runningIn? lane := by
  unfold start
  split <;> rfl

theorem runningIn?_set {p' : Lanes J} {l l' : Lane J} (found : p.lanes[lane]? = some l) (set : p'.lanes = p.lanes.set lane l') (i : Nat) :
    p'.runningIn? i = if lane = i then l'.running? else p.runningIn? i := by
  rw [runningIn?_eq, runningIn?_eq, laneAt_set found set]
  split <;> rfl

theorem finish_cases (p : Lanes J) (lane : Nat) (succeeds : Bool) :
    (∃ l r, p.lanes[lane]? = some l ∧ l.running? = some r ∧ p.finish lane succeeds = { p with
      lanes := p.lanes.set lane { l with running? := none }
      counts.completed := p.counts.completed + if succeeds then 1 else 0
      counts.failed := p.counts.failed + if succeeds then 0 else 1 }) ∨
    (p.runningIn? lane = none ∧ p.finish lane succeeds = p) := by
  unfold finish
  cases running : p.runningIn? lane with
  | none => exact .inr ⟨rfl, rfl⟩
  | some r =>
    obtain ⟨l, found, runs⟩ := lane_of_runningIn? running
    exact .inl ⟨l, r, found, runs, by rw [modify_eq_set _ found]⟩

theorem overrun_cases (p : Lanes J) (lane : Nat) :
    (∃ l r, p.lanes[lane]? = some l ∧ l.running? = some r ∧ p.overrun lane = { p with
      lanes := p.lanes.set lane { l with running? := some ⟨r.job, r.since, true⟩ }
      counts.slow := p.counts.slow + 1 }) ∨
    p.overrun lane = p := by
  unfold overrun
  split
  case h_1 job since running =>
    obtain ⟨l, found, runs⟩ := lane_of_runningIn? running
    exact .inl ⟨l, ⟨job, since, false⟩, found, runs, by rw [modify_eq_set _ found]⟩
  case h_2 => exact .inr rfl

theorem Open.replace {p' : Lanes J} {l l' : Lane J} (h : p.Open depth) (found : p.lanes[lane]? = some l)
    (phase : p'.phase = p.phase) (pins : p'.pins = p.pins) (deep : p'.depth = p.depth)
    (lanes : p'.lanes = p.lanes.set lane l') (space : l'.queue.length ≤ depth)
    (counted : p'.counts.submitted + l.pending.length + p.counts.completed + p.counts.failed =
      p.counts.submitted + l'.pending.length + p'.counts.completed + p'.counts.failed) : p'.Open depth where
  deep := deep.trans h.deep
  intake := by
    have intake := h.intake
    unfold isClosed at intake ⊢
    rw [phase]
    exact intake
  nonempty := by
    intro empty
    rw [lanes, List.set_eq_nil_iff] at empty
    exact h.nonempty empty
  pinned pin := by
    rw [lanes, List.length_set]
    exact h.pinned (pins ▸ pin)
  bounded i := by
    rw [laneAt_set found lanes]
    split
    · exact space
    · exact h.bounded i
  counted := by
    have moved := total_set (fun l : Lane J => l.pending.length) l' found
    have before := h.counted
    rw [lanes]
    omega

theorem Open.submit (h : p.Open depth) (node : NodeId) (job : J) : (p.submit node job).2.Open depth := by
  have routed := h.route node
  obtain ⟨lane, pins, route, -, ⟨-, refused⟩ | ⟨l, found, space, accepted⟩⟩ := h.submit_cases node job
  · rw [route] at routed
    rw [refused]
    exact ⟨routed.deep, routed.intake, routed.nonempty, routed.pinned, routed.bounded, routed.counted⟩
  · rw [route] at routed
    rw [accepted]
    refine routed.replace found rfl rfl rfl rfl ?_ ?_
    · rw [Lane.push, List.length_append]
      exact space
    · rw [Lane.pending_push, List.length_append, List.length_singleton]
      dsimp only
      omega

theorem Open.start (h : p.Open depth) : p.start.Open depth := by
  unfold Lanes.start
  split
  · exact ⟨h.deep, rfl, h.nonempty, h.pinned, h.bounded, h.counted⟩
  · exact h

theorem Open.take (h : p.Open depth) (now lane : Nat) : (p.take now lane).Open depth := by
  obtain ⟨job, rest, found, taken⟩ | same := p.take_cases now lane
  · have space := h.bounded lane
    rw [laneAt_of_getElem? found, List.length_cons] at space
    rw [taken]
    exact h.replace found rfl rfl rfl rfl (Nat.le_of_succ_le space) rfl
  · rw [same]
    exact h

theorem Open.overrun (h : p.Open depth) (lane : Nat) : (p.overrun lane).Open depth := by
  obtain ⟨l, r, found, runs, slow⟩ | same := p.overrun_cases lane
  · have space := h.bounded lane
    rw [laneAt_of_getElem? found] at space
    rw [slow]
    refine h.replace found rfl rfl rfl rfl space ?_
    rw [Lane.pending_of_running runs]
    rfl
  · rw [same]
    exact h

theorem Open.finish (h : p.Open depth) (lane : Nat) (succeeds : Bool) : (p.finish lane succeeds).Open depth := by
  obtain ⟨l, r, found, runs, ended⟩ | ⟨-, same⟩ := p.finish_cases lane succeeds
  · have space := h.bounded lane
    rw [laneAt_of_getElem? found] at space
    rw [ended]
    refine h.replace found rfl rfl rfl rfl space ?_
    have left : ({ l with running? := none } : Lane J).pending = l.queue := rfl
    rw [Lane.pending_of_running runs, left, List.length_cons]
    dsimp only
    cases succeeds <;> simp <;> omega
  · rw [same]
    exact h

theorem Open.act (h : p.Open depth) : ∀ a : Act J, (p.act a).Open depth
  | .route node => h.route node
  | .submit node job => h.submit node job
  | .start => h.start
  | .take now lane => h.take now lane
  | .overrun lane => h.overrun lane
  | .finish lane ending => h.finish lane ending.isSuccess

theorem Open.run (h : p.Open depth) (acts : List (Act J)) : (p.run acts).Open depth := by
  induction acts generalizing p with
  | nil => exact h
  | cons a rest ih => exact ih (h.act a)

/-- Jobs wait, run or have ended. -/
theorem Open.submitted (h : p.Open depth) :
    p.counts.submitted = p.stats.queued + p.busy + p.counts.completed + p.counts.failed := by
  have held (lanes : List (Lane J)) : total (·.pending.length) lanes =
      lanes.foldr (fun l n => l.queue.length + n) 0 + lanes.countP (·.running?.isSome) := by
    induction lanes with
    | nil => rfl
    | cons l rest ih =>
      rw [total, List.foldr_cons, ← total, ih, List.foldr_cons, List.countP_cons]
      obtain ⟨queue, running?⟩ := l
      cases running? <;> simp [Lane.pending] <;> omega
  have shown : p.stats.queued = p.queued := by
    unfold stats
    simp only [h.intake, Bool.false_eq_true, if_false]
  rw [h.counted, shown, held]
  rfl

end Lanes

end ClusterCatalog
