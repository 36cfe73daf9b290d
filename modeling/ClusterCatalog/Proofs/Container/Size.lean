import ClusterCatalog.Proofs.Container.Received
/-!
The size of a container once some replicas of it were applied. A replica tells the size if the container is
in its state at that moment; what closes the container decides who is still heard, and when it is closed
depends on the order.
-/
namespace ClusterCatalog

namespace Container

variable {info : ContainerInfo} {rs order : List Replica} {r : Replica} {least n m : UInt64}
  {told told' : Replica → Prop} {said : Replica → UInt64}

theorem Raised.le_of_raised (h : Raised least told said n) (g : Raised least told said m) : n ≤ m := by
  obtain same | ⟨r, tells, same⟩ := h.attained
  · exact same ▸ g.least_le
  · exact same ▸ g.said_le tells

/-- There is one such number only. -/
theorem Raised.eq (h : Raised least told said n) (g : Raised least told said m) : n = m :=
  UInt64.le_antisymm (h.le_of_raised g) (g.le_of_raised h)

/-- Those that tell no more than what is known anyway need not be heard. -/
theorem Raised.of_fewer (h : Raised least told said n) (fewer : ∀ r, told' r → told r)
    (covered : ∀ r, told r → told' r ∨ said r ≤ least ∨ ∃ m, told' m ∧ said r ≤ said m) :
    Raised least told' said n where
  least_le := h.least_le
  said_le tells := h.said_le (fewer _ tells)
  attained := by
    obtain same | ⟨r, tells, same⟩ := h.attained
    · exact .inl same
    obtain tells' | small | ⟨m, tells', small⟩ := covered r tells
    · exact .inr ⟨r, tells', same⟩
    · exact .inl (UInt64.le_antisymm (same ▸ small) h.least_le)
    · exact .inr ⟨m, tells', UInt64.le_antisymm (same ▸ small) (h.said_le (fewer m tells'))⟩

def ClosedBy (info : ContainerInfo) (rs : List Replica) : Prop :=
  (info.state = .closing ∨ info.state = .quasiClosed) ∧ ∃ r ∈ rs, closes info r

/-- A replica that is heard only before the container is closed, or only after it. -/
def Doubtful (info : ContainerInfo) (r : Replica) : Prop :=
  r.state = .quasiClosed ∨ r.state = .closed ∧ r.sequence ≠ info.sequence

def Exceeds (info : ContainerInfo) (rs : List Replica) (least : UInt64) (said : Replica → UInt64) : Prop :=
  ∃ r ∈ rs, Doubtful info r ∧ least < said r ∧ ∀ m ∈ rs, closes info m → said m < said r

def Contested (info : ContainerInfo) (rs : List Replica) : Prop :=
  ClosedBy info rs ∧
    (Exceeds info rs info.usedBytes Replica.bytesUsed ∨ Exceeds info rs info.keyCount Replica.keyCount)

theorem closes_iff : closes info r = true ↔ r.state = .closed ∧ r.sequence = info.sequence := by
  rw [closes, decide_eq_true_iff]

theorem closedBy_congr (same : ∀ r, r ∈ order ↔ r ∈ rs) : ClosedBy info order ↔ ClosedBy info rs := by
  simp only [ClosedBy, same]

theorem exceeds_congr (same : ∀ r, r ∈ order ↔ r ∈ rs) : Exceeds info order least said ↔ Exceeds info rs least said := by
  simp only [Exceeds, same]

theorem heard_congr (same : ∀ r, r ∈ order ↔ r ∈ rs) : heard info order = heard info rs := by
  simp only [heard_eq, same]

theorem heard_of_closedBy (closed : ClosedBy info rs) : heard info rs = .closed := by
  rw [heard_eq, if_pos]
  obtain ⟨open_, r, mem, speaks⟩ := closed
  exact ⟨open_, r, mem, closes_iff.1 speaks⟩

theorem heard_of_not_closedBy (notClosed : ¬ ClosedBy info rs) :
    heard info rs = if info.state = .closing ∧ ∃ r ∈ rs, r.state = .quasiClosed then .quasiClosed else info.state := by
  rw [heard_eq, if_neg]
  rintro ⟨open_, r, mem, speaks⟩
  exact notClosed ⟨open_, r, mem, closes_iff.2 speaks⟩

theorem ClosedBy.mono (closed : ClosedBy info rs) (sub : rs ⊆ order) : ClosedBy info order :=
  closed.imp_right fun ⟨r, mem, speaks⟩ => ⟨r, sub mem, speaks⟩

/-- A replica tells the size only in these states. -/
theorem state_of_tellsSize {state : Lifecycle} {replica : ReplicaState} (tells : Held.tellsSize state replica = true) :
    state = .quasiClosed ∧ replica = .quasiClosed ∨ state = .closed ∧ replica = .closed := by
  cases state <;> cases replica <;> simp [Held.tellsSize] at tells ⊢

theorem doubtful_of_tellsSize {state : Lifecycle} (tells : Held.tellsSize state r.state = true)
    (silent : ¬ closes info r = true) : Doubtful info r := by
  obtain ⟨-, quasi⟩ | ⟨-, closed⟩ := state_of_tellsSize tells
  · exact .inl quasi
  · exact .inr ⟨closed, fun same => silent (closes_iff.2 ⟨closed, same⟩)⟩

theorem Tells.mem (tells : Tells info rs r) : r ∈ rs := by
  obtain ⟨before, after, rfl, -⟩ := tells
  exact List.mem_append_right _ List.mem_cons_self

/-- Whenever a replica that closes the container is applied, it tells the size. -/
theorem tells_of_closes (closed : ClosedBy info rs) (mem : r ∈ rs) (speaks : closes info r) : Tells info rs r := by
  obtain ⟨before, after, rfl⟩ := List.append_of_mem mem
  have now : ClosedBy info (before ++ [r]) := ⟨closed.1, r, by simp, speaks⟩
  refine ⟨before, after, rfl, ?_⟩
  rw [heard_of_closedBy now, (closes_iff.1 speaks).1]
  rfl

/-- If no replica closes the container, it does not matter when a replica is applied. -/
theorem tells_iff_of_not_closedBy (notClosed : ¬ ClosedBy info rs) :
    Tells info rs r ↔ r ∈ rs ∧ Held.tellsSize (heard info rs) r.state = true := by
  have same {before after : List Replica} (split : rs = before ++ r :: after) :
      Held.tellsSize (heard info (before ++ [r])) r.state = Held.tellsSize (heard info rs) r.state := by
    have sub : before ++ [r] ⊆ rs := by simp [split]
    rw [heard_of_not_closedBy notClosed, heard_of_not_closedBy (mt (ClosedBy.mono · sub) notClosed)]
    by_cases quasi : r.state = .quasiClosed
    · have here : ∃ x ∈ before ++ [r], x.state = .quasiClosed := ⟨r, by simp, quasi⟩
      have there : ∃ x ∈ rs, x.state = .quasiClosed := ⟨r, by simp [split], quasi⟩
      simp only [here, there]
    · have deaf {p : Prop} [Decidable p] :
          Held.tellsSize (if info.state = .closing ∧ p then .quasiClosed else info.state) r.state =
            Held.tellsSize info.state r.state := by
        split
        · next closing =>
          rw [closing.1]
          cases state : r.state <;> simp_all [Held.tellsSize]
        · rfl
      rw [deaf, deaf]
  constructor
  · rintro ⟨before, after, split, tells⟩
    exact ⟨by simp [split], by rwa [← same split]⟩
  · rintro ⟨mem, tells⟩
    obtain ⟨before, after, split⟩ := List.append_of_mem mem
    exact ⟨before, after, split, by rwa [same split]⟩

def Settles (info : ContainerInfo) (rs : List Replica) (r : Replica) : Prop :=
  r ∈ rs ∧ (ClosedBy info rs → closes info r) ∧
    (¬ ClosedBy info rs → Held.tellsSize (heard info rs) r.state = true)

theorem settles_congr (same : ∀ r, r ∈ order ↔ r ∈ rs) : Settles info order = Settles info rs := by
  funext r
  simp only [Settles, same, closedBy_congr same, heard_congr same]

theorem settles_iff_of_closedBy (closed : ClosedBy info rs) : Settles info rs r ↔ r ∈ rs ∧ closes info r := by
  simp [Settles, closed]

theorem settles_iff_of_not_closedBy (notClosed : ¬ ClosedBy info rs) : Settles info rs r ↔ Tells info rs r := by
  simp [Settles, notClosed, tells_iff_of_not_closedBy notClosed]

/-- In any order a number is raised to what those replicas tell, unless a doubtful one exceeds it. -/
theorem Raised.settles (calm : ClosedBy info rs → ¬ Exceeds info rs least said)
    (h : Raised least (Tells info rs) said n) : Raised least (Settles info rs) said n := by
  by_cases closed : ClosedBy info rs
  · refine h.of_fewer (fun r settles => ?_) fun r tells => ?_
    · obtain ⟨mem, speaks⟩ := (settles_iff_of_closedBy closed).1 settles
      exact tells_of_closes closed mem speaks
    · by_cases speaks : closes info r = true
      · exact .inl ((settles_iff_of_closedBy closed).2 ⟨tells.mem, speaks⟩)
      · right
        obtain ⟨before, after, -, tellsSize⟩ := id tells
        have doubtful := doubtful_of_tellsSize tellsSize speaks
        by_cases small : said r ≤ least
        · exact .inl small
        refine .inr (Classical.byContradiction fun none => calm closed ⟨r, tells.mem, doubtful, UInt64.not_le.1 small, ?_⟩)
        exact fun m mem speaks => UInt64.not_le.1 fun le =>
          none ⟨m, (settles_iff_of_closedBy closed).2 ⟨mem, speaks⟩, le⟩
  · exact h.of_fewer (fun r => (settles_iff_of_not_closedBy closed).1) fun r tells =>
      .inl ((settles_iff_of_not_closedBy closed).2 tells)

theorem heard_eq_closed_iff (unclosed : info.state = .closing ∨ info.state = .quasiClosed) :
    heard info rs = .closed ↔ ClosedBy info rs := by
  refine ⟨fun closed => Classical.byContradiction fun notClosed => ?_, heard_of_closedBy⟩
  rw [heard_of_not_closedBy notClosed] at closed
  split at closed
  · cases closed
  · simp [closed] at unclosed

theorem heard_eq_quasiClosed_iff (unclosed : info.state = .closing ∨ info.state = .quasiClosed) (mem : r ∈ rs)
    (quasi : r.state = .quasiClosed) : heard info rs = .quasiClosed ↔ ¬ ClosedBy info rs := by
  refine ⟨fun now closed => ?_, fun notClosed => ?_⟩
  · rw [heard_of_closedBy closed] at now
    cases now
  · rw [heard_of_not_closedBy notClosed]
    split
    · rfl
    · next other => exact unclosed.resolve_left fun closing => other ⟨closing, r, mem, quasi⟩

/-- A quasi-closed replica is heard until the container is closed, one of another generation from then on. -/
theorem tellsSize_iff_of_doubtful (unclosed : info.state = .closing ∨ info.state = .quasiClosed)
    (doubtful : Doubtful info r) (mem : r ∈ rs) :
    Held.tellsSize (heard info rs) r.state = true ↔ (r.state = .quasiClosed ↔ ¬ ClosedBy info rs) := by
  obtain quasi | ⟨closed, -⟩ := doubtful
  · rw [← heard_eq_quasiClosed_iff unclosed mem quasi, quasi]
    cases heard info rs <;> simp [Held.tellsSize]
  · rw [← heard_eq_closed_iff unclosed, closed]
    cases heard info rs <;> simp [Held.tellsSize]

theorem not_closes_of_doubtful (doubtful : Doubtful info r) : ¬ closes info r = true := by
  rw [closes_iff]
  rintro ⟨closed, same⟩
  obtain quasi | ⟨-, other⟩ := doubtful
  · rw [quasi] at closed
    cases closed
  · exact other same

def grade (info : ContainerInfo) (r : Replica) : Nat :=
  if closes info r then 1 else if r.state = .quasiClosed then 2 else 0

theorem grade_of_closes (speaks : closes info r) : grade info r = 1 := if_pos speaks

theorem grade_of_doubtful (doubtful : Doubtful info r) : grade info r = if r.state = .quasiClosed then 2 else 0 :=
  if_neg (not_closes_of_doubtful doubtful)

theorem quasiClosed_of_grade_le {m : Replica} (doubtful : Doubtful info r) (speaks : closes info m)
    (le : grade info m ≤ grade info r) : r.state = .quasiClosed := by
  rw [grade_of_closes speaks, grade_of_doubtful doubtful] at le
  split at le
  · assumption
  · omega

theorem not_quasiClosed_of_le_grade {m : Replica} (doubtful : Doubtful info r) (speaks : closes info m)
    (le : grade info r ≤ grade info m) : r.state ≠ .quasiClosed := by
  rw [grade_of_closes speaks, grade_of_doubtful doubtful] at le
  split at le
  · omega
  · assumption

/-- Whether the container is closed when a doubtful replica is applied, if what closes it stands on one side. -/
theorem closedBy_iff_of_sides {before after : List Replica} {p : Prop} (closed : ClosedBy info (before ++ r :: after))
    (doubtful : Doubtful info r) (left : ∀ m ∈ before, closes info m → p) (right : ∀ m ∈ after, closes info m → ¬ p) :
    ClosedBy info (before ++ [r]) ↔ p := by
  have silent := not_closes_of_doubtful doubtful
  constructor
  · rintro ⟨-, m, mem, speaks⟩
    obtain here | same := List.mem_append.1 mem
    · exact left m here speaks
    · exact absurd speaks (List.mem_singleton.1 same ▸ silent)
  · intro h
    obtain ⟨unclosed, m, mem, speaks⟩ := closed
    refine ⟨unclosed, m, List.mem_append_left _ ?_, speaks⟩
    obtain here | here := List.mem_append.1 mem
    · exact here
    · obtain rfl | here := List.mem_cons.1 here
      · exact absurd speaks silent
      · exact absurd h (right m here speaks)

/-- With rising grades no doubtful replica is heard. -/
theorem not_tells_of_rising (rising : order.Pairwise (grade info · ≤ grade info ·)) (closed : ClosedBy info order)
    (doubtful : Doubtful info r) : ¬ Tells info order r := by
  rintro ⟨before, after, rfl, tells⟩
  obtain ⟨-, later, earlier⟩ := List.pairwise_append.1 rising
  have now : ClosedBy info (before ++ [r]) ↔ r.state = .quasiClosed :=
    closedBy_iff_of_sides closed doubtful
      (fun m mem speaks => quasiClosed_of_grade_le doubtful speaks (earlier m mem r List.mem_cons_self))
      (fun m mem speaks => not_quasiClosed_of_le_grade doubtful speaks ((List.pairwise_cons.1 later).1 m mem))
  rw [tellsSize_iff_of_doubtful closed.1 doubtful (by simp), now] at tells
  exact iff_not_self tells

/-- With falling grades all are. -/
theorem tells_of_falling (falling : order.Pairwise (grade info · ≥ grade info ·)) (closed : ClosedBy info order)
    (doubtful : Doubtful info r) (mem : r ∈ order) : Tells info order r := by
  obtain ⟨before, after, rfl⟩ := List.append_of_mem mem
  obtain ⟨-, later, earlier⟩ := List.pairwise_append.1 falling
  have now : ClosedBy info (before ++ [r]) ↔ r.state ≠ .quasiClosed :=
    closedBy_iff_of_sides closed doubtful
      (fun m mem speaks => not_quasiClosed_of_le_grade doubtful speaks (earlier m mem r List.mem_cons_self))
      (fun m mem speaks => not_not.2
        (quasiClosed_of_grade_le doubtful speaks ((List.pairwise_cons.1 later).1 m mem)))
  refine ⟨before, after, rfl, ?_⟩
  rw [tellsSize_iff_of_doubtful closed.1 doubtful (by simp), now, not_not]

def graded (info : ContainerInfo) (rs : List Replica) : List Replica := rs.mergeSort (grade info · ≤ grade info ·)

theorem perm_graded (info : ContainerInfo) (rs : List Replica) : (graded info rs).Perm rs := List.mergeSort_perm ..

theorem pairwise_graded (info : ContainerInfo) (rs : List Replica) :
    (graded info rs).Pairwise (grade info · ≤ grade info ·) := by
  have trans (a b c : Replica) (h : decide (grade info a ≤ grade info b) = true)
      (g : decide (grade info b ≤ grade info c) = true) : decide (grade info a ≤ grade info c) = true := by
    simp only [decide_eq_true_eq] at h g ⊢
    omega
  have total (a b : Replica) : (decide (grade info a ≤ grade info b) || decide (grade info b ≤ grade info a)) = true := by
    simp only [Bool.or_eq_true, decide_eq_true_eq]
    omega
  simpa [graded] using List.pairwise_mergeSort trans total rs

/-- A number that is exceeded is another one in the reverse of that order. -/
theorem ne_of_exceeds (closed : ClosedBy info rs) (exceeds : Exceeds info rs least said)
    (h : Raised least (Tells info (graded info rs)) said n)
    (g : Raised least (Tells info (graded info rs).reverse) said m) : n ≠ m := by
  have same (x : Replica) : x ∈ graded info rs ↔ x ∈ rs := (perm_graded info rs).mem_iff
  have same' (x : Replica) : x ∈ (graded info rs).reverse ↔ x ∈ rs := List.mem_reverse.trans (same x)
  obtain ⟨r, mem, doubtful, container, closers⟩ := exceeds
  have told : Tells info (graded info rs).reverse r :=
    tells_of_falling (List.pairwise_reverse.2 (pairwise_graded info rs)) ((closedBy_congr same').2 closed) doubtful
      ((same' r).2 mem)
  have small : n < said r := by
    obtain rfl | ⟨x, tells, rfl⟩ := h.attained
    · exact container
    · refine closers x ((same x).1 tells.mem) (Classical.byContradiction fun silent => ?_)
      obtain ⟨_, _, _, tellsSize⟩ := id tells
      exact not_tells_of_rising (pairwise_graded info rs) ((closedBy_congr same).2 closed)
        (doubtful_of_tellsSize tellsSize silent) tells
  exact fun eq => UInt64.not_lt.2 (g.said_le told) (eq ▸ small)

def size (c : Container) : UInt64 × UInt64 := (c.info.usedBytes, c.info.keyCount)

theorem size_takeAll_eq {c : Container} (now now' : Millis) (calm : ¬ Contested c.info rs)
    (same : ∀ r, r ∈ order ↔ r ∈ rs) : (c.takeAll now order).size = (c.takeAll now' rs).size := by
  have quiet : ClosedBy c.info rs → ¬ Exceeds c.info rs c.info.usedBytes Replica.bytesUsed ∧
      ¬ Exceeds c.info rs c.info.keyCount Replica.keyCount :=
    fun closed => not_or.1 fun exceeds => calm ⟨closed, exceeds⟩
  have bytes := raised_takeAll (fun c r => c.usedBytes_take now r) c order
  have bytes' := raised_takeAll (fun c r => c.usedBytes_take now' r) c rs
  have keys := raised_takeAll (fun c r => c.keyCount_take now r) c order
  have keys' := raised_takeAll (fun c r => c.keyCount_take now' r) c rs
  refine Prod.ext ?_ ?_
  · refine Raised.eq (bytes.settles fun closed => ?_) (settles_congr same ▸ bytes'.settles fun closed => (quiet closed).1)
    exact mt (exceeds_congr same).1 (quiet ((closedBy_congr same).1 closed)).1
  · refine Raised.eq (keys.settles fun closed => ?_) (settles_congr same ▸ keys'.settles fun closed => (quiet closed).2)
    exact mt (exceeds_congr same).1 (quiet ((closedBy_congr same).1 closed)).2

theorem size_takeAll_ne {c : Container} (now : Millis) (contested : Contested c.info rs) :
    (c.takeAll now (graded c.info rs)).size ≠ (c.takeAll now (graded c.info rs).reverse).size := by
  obtain ⟨closed, exceeds | exceeds⟩ := contested
  · exact mt (congrArg Prod.fst) (ne_of_exceeds closed exceeds (raised_takeAll (fun c r => c.usedBytes_take now r) c _)
      (raised_takeAll (fun c r => c.usedBytes_take now r) c _))
  · exact mt (congrArg Prod.snd) (ne_of_exceeds closed exceeds (raised_takeAll (fun c r => c.keyCount_take now r) c _)
      (raised_takeAll (fun c r => c.keyCount_take now r) c _))

/-- The size does not depend on when the replicas were applied. -/
theorem size_foldl_take (c : Container) (told : List (Millis × Replica)) (now : Millis) :
    (told.foldl (fun c x => c.take x.1 x.2) c).size = (c.takeAll now (told.map Prod.snd)).size := by
  have same : (told.foldl (fun c x => c.take x.1 x.2) c).undated = (c.takeAll now (told.map Prod.snd)).undated := by
    rw [takeAll, List.foldl_map]
    exact undated_foldl (fun c k x h => undated_take x.1 now x.2 h) told rfl
  obtain ⟨-, -, bytes, keys, -⟩ := undated_eq_iff.1 same
  exact Prod.ext bytes keys

end Container

namespace Directory

open Container (Contested)

variable {s : Stored Directory} {id : ContainerId} {c : Container}

def applyAll (told : List (Millis × Replica)) : Action (Stored Directory) ContainerError (List ReplicaOutcome) :=
  told.mapM fun x => applyReplica x.1 x.2

theorem run_applyReplica (now : Millis) {r : Replica} (found : s.view.containers[r.container]? = some c)
    (accepts : s.db.Accepts .containers) :
    ∃ outcome s', (applyReplica now r).run s = (.ok outcome, s') ∧
      s'.view.containers[r.container]? = some (c.take now r) ∧ s'.db.Accepts .containers := by
  obtain ⟨db, run, kept⟩ := run_withContainer_apply now r found accepts
  exact ⟨_, _, run, by simp, kept⟩

theorem run_applyAll (told : List (Millis × Replica)) (own : ∀ x ∈ told, x.2.container = id)
    (found : s.view.containers[id]? = some c) (accepts : s.db.Accepts .containers) :
    ∃ outcomes s', (applyAll told).run s = (.ok outcomes, s') ∧
      s'.view.containers[id]? = some (told.foldl (fun c x => c.take x.1 x.2) c) := by
  induction told generalizing s c with
  | nil => exact ⟨[], s, rfl, found⟩
  | cons x rest ih =>
    obtain ⟨here, others⟩ := List.forall_mem_cons.1 own
    subst here
    obtain ⟨outcome, s', run, found', accepts'⟩ := run_applyReplica x.1 found accepts
    obtain ⟨outcomes, s'', run', found''⟩ := ih others found' accepts'
    refine ⟨outcome :: outcomes, s'', ?_, found''⟩
    rw [applyAll] at run'
    rw [applyAll, List.mapM_cons, Action.run_bind_ok run, Action.run_bind_ok run']
    rfl

/-- Whenever the replicas are applied in this order, the container has that size in the end. -/
def Ends (s : Stored Directory) (id : ContainerId) (order : List Replica) (size : UInt64 × UInt64) : Prop :=
  ∀ told : List (Millis × Replica), told.map Prod.snd = order → ∃ outcomes s' k,
    (applyAll told).run s = (.ok outcomes, s') ∧ s'.view.containers[id]? = some k ∧ k.size = size

theorem ends_takeAll (found : s.view.containers[id]? = some c) (accepts : s.db.Accepts .containers)
    {order : List Replica} (own : ∀ r ∈ order, r.container = id) : Ends s id order (c.takeAll 0 order).size := by
  rintro told rfl
  obtain ⟨outcomes, s', run, found'⟩ := run_applyAll told (fun x mem => own x.2 (List.mem_map_of_mem mem)) found accepts
  exact ⟨outcomes, s', _, run, found', c.size_foldl_take told 0⟩

/-- The size that a container ends with does not depend on the order in which replicas are applied, nor on
how often, unless some of them close it, and another one that is quasi-closed or closed at another
generation is larger than the container and all of these. If there is such a replica, there are two orders
with different ends. -/
theorem ends_unless_contested {rs : List Replica} (found : s.view.containers[id]? = some c) (accepts : s.db.Accepts .containers)
    (own : ∀ r ∈ rs, r.container = id) :
    (¬ Contested c.info rs → ∃ size, ∀ order : List Replica, (∀ r, r ∈ order ↔ r ∈ rs) → Ends s id order size) ∧
    (Contested c.info rs → ∃ order order' size size', order.Perm rs ∧ order'.Perm rs ∧ size ≠ size' ∧
      Ends s id order size ∧ Ends s id order' size') := by
  constructor
  · refine fun calm => ⟨(c.takeAll 0 rs).size, fun order same => ?_⟩
    rw [← Container.size_takeAll_eq 0 0 calm same]
    exact ends_takeAll found accepts fun r mem => own r ((same r).1 mem)
  · intro contested
    have perm := Container.perm_graded c.info rs
    have perm' := (List.reverse_perm _).trans perm
    exact ⟨_, _, _, _, perm, perm', Container.size_takeAll_ne 0 contested,
      ends_takeAll found accepts fun r mem => own r (perm.mem_iff.1 mem),
      ends_takeAll found accepts fun r mem => own r (perm'.mem_iff.1 mem)⟩

section Generations

def closingContainer : Container := ⟨⟨⟨1⟩, .closing, 0, none, 0, 0, 0⟩, ∅⟩

def closingStore : Stored Directory :=
  ⟨{ containers := (∅ : Std.ExtTreeMap ContainerId Container).insert ⟨1⟩ closingContainer }, .empty⟩

def currentCopy : Replica := ⟨⟨1⟩, ⟨⟨4⟩⟩, .closed, 0, 5, 50, ⟨⟨4⟩⟩⟩

def otherCopy : Replica := ⟨⟨1⟩, ⟨⟨3⟩⟩, .closed, 7, 9, 100, ⟨⟨3⟩⟩⟩

def smallCopy : Replica := ⟨⟨1⟩, ⟨⟨5⟩⟩, .quasiClosed, 0, 2, 20, ⟨⟨5⟩⟩⟩

theorem found_closingStore : closingStore.view.containers[(⟨1⟩ : ContainerId)]? = some closingContainer := by
  simp [closingStore]

theorem accepts_closingStore : closingStore.db.Accepts .containers := ⟨⟨∅, rfl⟩, List.not_mem_nil⟩

theorem calm_smallCopy : ¬ Contested closingContainer.info [smallCopy, currentCopy] := by
  rintro ⟨-, exceeds | exceeds⟩
  all_goals
    obtain ⟨r, mem, doubtful, -, closers⟩ := exceeds
    simp only [List.mem_cons, List.not_mem_nil, or_false] at mem
    obtain rfl | rfl := mem
    · exact absurd (closers currentCopy (by simp) (by decide)) (by decide)
    · exact absurd doubtful (by unfold Container.Doubtful; decide)

theorem contested_otherCopy : Contested closingContainer.info [otherCopy, currentCopy] := by
  refine ⟨⟨.inl rfl, currentCopy, by simp, by decide⟩, .inl ⟨otherCopy, by simp, .inr (by decide), by decide, ?_⟩⟩
  intro m mem speaks
  simp only [List.mem_cons, List.not_mem_nil, or_false] at mem
  obtain rfl | rfl := mem
  · exact absurd speaks (by decide)
  · decide

theorem ends_unless_contested_copies : closingStore.view.containers[(⟨1⟩ : ContainerId)]? = some closingContainer ∧
    closingStore.db.Accepts .containers ∧ (∀ r ∈ [smallCopy, otherCopy, currentCopy], r.container = ⟨1⟩) ∧
    (∃ size, Ends closingStore ⟨1⟩ [smallCopy, currentCopy] size ∧ Ends closingStore ⟨1⟩ [currentCopy, smallCopy] size) ∧
    ∃ order order' size size', order.Perm [otherCopy, currentCopy] ∧ order'.Perm [otherCopy, currentCopy] ∧
      size ≠ size' ∧ Ends closingStore ⟨1⟩ order size ∧ Ends closingStore ⟨1⟩ order' size' := by
  have own : ∀ r ∈ [smallCopy, currentCopy], r.container = ⟨1⟩ := by decide
  obtain ⟨size, ends⟩ := (ends_unless_contested found_closingStore accepts_closingStore own).1 calm_smallCopy
  exact ⟨found_closingStore, accepts_closingStore, by decide,
    ⟨size, ends _ fun _ => Iff.rfl, ends _ fun _ => (List.Perm.swap ..).mem_iff⟩,
    (ends_unless_contested found_closingStore accepts_closingStore (by decide)).2 contested_otherCopy⟩

/-- The larger copy counts only after the other one, or when both are applied once more. -/
theorem ends_apart : otherCopy.node ≠ currentCopy.node ∧
    Ends closingStore ⟨1⟩ [otherCopy, currentCopy] (50, 5) ∧ Ends closingStore ⟨1⟩ [currentCopy, otherCopy] (100, 9) ∧
    Ends closingStore ⟨1⟩ ([otherCopy, currentCopy] ++ [otherCopy, currentCopy]) (100, 9) := by
  have ends {order : List Replica} (own : ∀ r ∈ order, r.container = ⟨1⟩) :=
    ends_takeAll found_closingStore accepts_closingStore own
  have once : (closingContainer.takeAll 0 [otherCopy, currentCopy]).size = (50, 5) := by decide +kernel
  have swapped : (closingContainer.takeAll 0 [currentCopy, otherCopy]).size = (100, 9) := by decide +kernel
  have twice : (closingContainer.takeAll 0 ([otherCopy, currentCopy] ++ [otherCopy, currentCopy])).size = (100, 9) := by
    decide +kernel
  exact ⟨by decide, once ▸ ends (by decide), swapped ▸ ends (by decide), twice ▸ ends (by decide)⟩

end Generations

end Directory

end ClusterCatalog
