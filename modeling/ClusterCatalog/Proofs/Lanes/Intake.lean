import ClusterCatalog.Proofs.Lanes.Open
/-!
Jobs of one node handed to lanes one after another. What becomes of all of them can be said from the
lanes as they were before the first.
-/
namespace ClusterCatalog

variable {J : Type}

namespace Lanes

variable {p p' : Lanes J} {node : NodeId} {lane : Nat}

inductive Reached : Lanes J → Prop where
  | create (name : String) (lanes depth : Nat) : Reached (create name lanes depth)
  | act {p : Lanes J} (before : Reached p) (a : Act J) : Reached (p.act a)
  | close {p : Lanes J} (before : Reached p) : Reached p.close
  | abandon {p : Lanes J} (before : Reached p) : Reached p.abandon

structure Placed (p : Lanes J) : Prop where
  nonempty : p.lanes ≠ []
  pinned {node : NodeId} {lane : Nat} (h : p.pins[node]? = some lane) : lane < p.lanes.length

theorem Placed.congr (h : p.Placed) (length : p'.lanes.length = p.lanes.length) (pins : p'.pins = p.pins) :
    p'.Placed where
  nonempty := List.ne_nil_of_length_pos (length ▸ List.length_pos_iff.2 h.nonempty)
  pinned pin := length ▸ h.pinned (pins ▸ pin)

theorem Placed.route_lt (h : p.Placed) (node : NodeId) : (p.route node).1 < p.lanes.length :=
  (inRange_route h.nonempty h.pinned node).1

theorem Placed.route (h : p.Placed) (node : NodeId) : (p.route node).2.Placed := by
  obtain ⟨-, inRange⟩ := inRange_route h.nonempty h.pinned node
  obtain ⟨lane, pins, routed, -⟩ := p.exists_route node
  rw [routed] at inRange ⊢
  exact ⟨h.nonempty, inRange⟩

theorem length_route (p : Lanes J) (node : NodeId) : (p.route node).2.lanes.length = p.lanes.length := by
  obtain ⟨lane, pins, routed, -⟩ := p.exists_route node
  rw [routed]

theorem length_submit (p : Lanes J) (node : NodeId) (job : J) :
    (p.submit node job).2.lanes.length = p.lanes.length := by
  rw [← p.length_route node]
  unfold submit
  dsimp only
  split
  · rfl
  · split
    · rfl
    · exact List.length_modify _ _ _

theorem pins_submit (p : Lanes J) (node : NodeId) (job : J) :
    (p.submit node job).2.pins = (p.route node).2.pins := by
  unfold submit
  dsimp only
  split
  · rfl
  · split <;> rfl

def Act.node? : Act J → Option NodeId
  | .route node => some node
  | .submit node _ => some node
  | .start | .take _ _ | .overrun _ | .finish _ _ => none

theorem length_act (p : Lanes J) (a : Act J) : (p.act a).lanes.length = p.lanes.length := by
  cases a with
  | route node => exact p.length_route node
  | submit node job => exact p.length_submit node job
  | start =>
    rw [Lanes.act, Lanes.start]
    split <;> rfl
  | take now lane =>
    rw [Lanes.act, Lanes.take]
    split
    · exact List.length_modify _ _ _
    · rfl
  | overrun lane =>
    rw [Lanes.act, Lanes.overrun]
    split
    · exact List.length_modify _ _ _
    · rfl
  | finish lane ending =>
    rw [Lanes.act, Lanes.finish]
    split
    · rfl
    · exact List.length_modify _ _ _

/-- A node that comes is pinned, whether its job is taken in or not, and workers have no say in that. -/
theorem pins_act (p : Lanes J) (a : Act J) :
    (p.act a).pins = a.node?.elim p.pins fun node => (p.route node).2.pins := by
  cases a with
  | route node => rfl
  | submit node job => exact p.pins_submit node job
  | start =>
    rw [Lanes.act, Lanes.start]
    split <;> rfl
  | take now lane =>
    rw [Lanes.act, Lanes.take]
    split <;> rfl
  | overrun lane =>
    rw [Lanes.act, Lanes.overrun]
    split <;> rfl
  | finish lane ending =>
    rw [Lanes.act, Lanes.finish]
    split <;> rfl

theorem Placed.act (h : p.Placed) (a : Act J) : (p.act a).Placed := by
  have length := p.length_act a
  have pins := p.pins_act a
  cases comes : a.node? with
  | none =>
    rw [comes] at pins
    exact h.congr length pins
  | some node =>
    rw [comes] at pins
    exact (h.route node).congr (length.trans (p.length_route node).symm) pins

theorem placed_create (name : String) (lanes depth : Nat) : (create name lanes depth : Lanes J).Placed where
  nonempty := by simp [create]
  pinned pin := by simp [create] at pin

theorem Placed.abandon (h : p.Placed) : p.abandon.Placed := h.congr (List.length_map _) rfl

theorem Placed.close (h : p.Placed) : p.close.Placed := by
  unfold Lanes.close
  split
  · exact h.abandon
  · exact h.congr rfl rfl
  · exact h

theorem Reached.placed (h : p.Reached) : p.Placed := by
  induction h with
  | create name lanes depth => exact placed_create name lanes depth
  | act _ a ih => exact ih.act a
  | close _ ih => exact ih.close
  | abandon _ ih => exact ih.abandon

def room (p : Lanes J) (lane : Nat) : Nat := p.depth - p.waitingIn lane

def verdict (node : NodeId) (earlier : Nat) (p : Lanes J) : Except SubmitError Nat :=
  if p.isClosed then .error (.closed p.name)
  else if earlier < p.room (p.route node).1 then .ok (p.route node).1
  else .error (.laneFull p.name (p.route node).1)

theorem isOk_verdict (intake : p.isClosed = false) (node : NodeId) (earlier : Nat) :
    (p.verdict node earlier).isOk = decide (earlier < p.room (p.route node).1) := by
  rw [verdict, intake]
  by_cases space : earlier < p.room (p.route node).1
  · simp [space, Except.isOk, Except.toBool]
  · simp [space, Except.isOk, Except.toBool]

def queueUp (lane : Nat) (jobs : List J) (p : Lanes J) : Lanes J :=
  if p.isClosed then p
  else { p with
    lanes := p.lanes.modify lane fun l => { l with queue := l.queue ++ jobs.take (p.room lane) }
    counts.submitted := p.counts.submitted + min (p.room lane) jobs.length
    counts.dropped := p.counts.dropped + (jobs.length - p.room lane) }

def handed (node : NodeId) (jobs : List J) (p : Lanes J) : Lanes J :=
  if jobs.isEmpty then p else (p.route node).2.queueUp (p.route node).1 jobs

theorem pins_queueUp (jobs : List J) : (p.queueUp lane jobs).pins = p.pins := by
  unfold queueUp
  split <;> rfl

theorem name_queueUp (jobs : List J) : (p.queueUp lane jobs).name = p.name := by
  unfold queueUp
  split <;> rfl

theorem isClosed_queueUp (lane : Nat) (jobs : List J) (p : Lanes J) : (p.queueUp lane jobs).isClosed = p.isClosed := by
  unfold queueUp
  split <;> rfl

theorem length_queueUp (jobs : List J) : (p.queueUp lane jobs).lanes.length = p.lanes.length := by
  unfold queueUp
  split
  · rfl
  · exact List.length_modify _ _ _

theorem room_queueUp (inRange : lane < p.lanes.length) (intake : p.isClosed = false) (jobs : List J) :
    (p.queueUp lane jobs).room lane = p.room lane - jobs.length := by
  have found : p.lanes[lane]? = some p.lanes[lane] := List.getElem?_eq_getElem inRange
  have queued : (p.queueUp lane jobs).waitingIn lane = p.waitingIn lane + min (p.room lane) jobs.length := by
    simp [waitingIn, queueUp, intake, found]
  have deep : (p.queueUp lane jobs).depth = p.depth := by
    simp [queueUp, intake]
  unfold room at queued ⊢
  omega

/-- Jobs that come in two groups find the room that they would find in one. -/
theorem queueUp_append (inRange : lane < p.lanes.length) (jobs more : List J) :
    (p.queueUp lane jobs).queueUp lane more = p.queueUp lane (jobs ++ more) := by
  cases intake : p.isClosed with
  | true => simp only [queueUp, intake, if_true]
  | false =>
    have left := room_queueUp inRange intake jobs
    have stillOpen := (isClosed_queueUp lane jobs p).trans intake
    rw [queueUp, left, stillOpen]
    simp only [queueUp, intake, Bool.false_eq_true, if_false, List.modify_modify_eq, List.length_append,
      Function.comp_def, List.append_assoc, List.take_append, Lanes.mk.injEq, LaneCounts.mk.injEq, true_and, and_true]
    omega

theorem queueUp_singleton (lane : Nat) (job : J) (p : Lanes J) : p.queueUp lane [job] =
    if p.isClosed then p
    else if p.depth ≤ p.waitingIn lane then { p with counts.dropped := p.counts.dropped + 1 }
    else { p with lanes := p.lanes.modify lane (·.push job), counts.submitted := p.counts.submitted + 1 } := by
  have full : p.depth ≤ p.waitingIn lane ↔ p.room lane = 0 := Nat.sub_eq_zero_iff_le.symm
  unfold queueUp
  simp only [full]
  cases room : p.room lane with
  | zero =>
    have unchanged : (fun l : Lane J => { l with queue := l.queue ++ [job].take 0 }) = id := by
      funext l
      simp
    rw [unchanged, List.modify_id]
    simp
  | succ n => simp [Lane.push]

/-- One job is told the verdict and queues up if it may. -/
theorem submit_eq (node : NodeId) (job : J) (p : Lanes J) :
    p.submit node job = (p.verdict node 0, p.handed node [job]) := by
  obtain ⟨lane, pins, routed, -⟩ := p.exists_route node
  have stillOpen : ({ p with pins } : Lanes J).isClosed = p.isClosed := rfl
  have sameQueue : ({ p with pins } : Lanes J).waitingIn lane = p.waitingIn lane := rfl
  have full : p.depth ≤ p.waitingIn lane ↔ ¬ 0 < p.room lane := by
    unfold room
    omega
  simp only [submit, verdict, handed, List.isEmpty_cons, routed, queueUp_singleton, stillOpen, sameQueue, full,
    Bool.false_eq_true, if_false, ite_not]
  split
  · rfl
  · split <;> rfl

theorem handed_of_ne_nil {jobs : List J} (some : jobs ≠ []) :
    p.handed node jobs = (p.route node).2.queueUp (p.route node).1 jobs := by
  rw [handed, if_neg (by simpa using some)]

/-- Handed jobs go to the lane of their node. -/
theorem Placed.exists_handed (h : p.Placed) (node : NodeId) {jobs : List J} (some : jobs ≠ []) :
    ∃ lane pins, p.route node = (lane, { p with pins }) ∧ lane < p.lanes.length ∧ pins[node]? = Option.some lane ∧
      p.handed node jobs = ({ p with pins } : Lanes J).queueUp lane jobs := by
  have inRange := h.route_lt node
  obtain ⟨lane, pins, routed, pinned⟩ := p.exists_route node
  rw [routed] at inRange
  refine ⟨lane, pins, routed, inRange, pinned.here, ?_⟩
  rw [handed_of_ne_nil some, routed]

theorem room_handed (h : p.Placed) (intake : p.isClosed = false) (node : NodeId) (jobs : List J) :
    (p.handed node jobs).room (p.route node).1 = p.room (p.route node).1 - jobs.length := by
  by_cases none : jobs = []
  · subst none
    rfl
  obtain ⟨lane, pins, routed, inRange, -, handed⟩ := h.exists_handed node none
  rw [handed, routed, room_queueUp (p := { p with pins }) inRange intake]
  rfl

theorem isClosed_handed (h : p.Placed) (node : NodeId) (jobs : List J) : (p.handed node jobs).isClosed = p.isClosed := by
  by_cases none : jobs = []
  · subst none
    rfl
  obtain ⟨lane, pins, -, -, -, handed⟩ := h.exists_handed node none
  rw [handed, isClosed_queueUp]
  rfl

theorem length_handed (h : p.Placed) (node : NodeId) (jobs : List J) :
    (p.handed node jobs).lanes.length = p.lanes.length := by
  by_cases none : jobs = []
  · subst none
    rfl
  obtain ⟨lane, pins, -, -, -, handed⟩ := h.exists_handed node none
  rw [handed, length_queueUp]

theorem Placed.handed (h : p.Placed) (node : NodeId) (jobs : List J) : (p.handed node jobs).Placed := by
  unfold Lanes.handed
  split
  · exact h
  · exact (h.route node).congr (length_queueUp _) (pins_queueUp _)

/-- A job is told whether there was room for it and for those that came with it before. -/
theorem submit_handed (h : p.Placed) (node : NodeId) (jobs : List J) (job : J) :
    (p.handed node jobs).submit node job = (p.verdict node jobs.length, p.handed node (jobs ++ [job])) := by
  rw [submit_eq]
  by_cases first : jobs = []
  · subst first
    rfl
  obtain ⟨lane, pins, routed, inRange, pin, handed⟩ := h.exists_handed node first
  -- the first job has pinned the node, so the next one finds the pin
  have again : (p.handed node jobs).route node = (lane, p.handed node jobs) := by
    refine route_of_pinned ?_
    rw [handed, pins_queueUp]
    exact pin
  refine Prod.ext ?_ ?_
  · have sameName : (p.handed node jobs).name = p.name := by rw [handed, name_queueUp]
    dsimp only [verdict]
    rw [again, routed, sameName, isClosed_handed h]
    cases intake : p.isClosed with
    | true => rfl
    | false =>
      have left := room_handed h intake node jobs
      rw [routed] at left
      simp only [left, Nat.sub_pos_iff_lt]
  · have both : p.handed node (jobs ++ [job]) = ({ p with pins } : Lanes J).queueUp lane (jobs ++ [job]) := by
      rw [handed_of_ne_nil (List.append_ne_nil_of_left_ne_nil first [job]), routed]
    have last : (p.handed node jobs).handed node [job] = (p.handed node jobs).queueUp lane [job] := by
      rw [handed_of_ne_nil (List.cons_ne_nil job []), again]
    rw [last, both, handed]
    exact queueUp_append (p := { p with pins }) inRange jobs [job]

end Lanes

end ClusterCatalog
