import ClusterCatalog.Proofs.Lanes.Open
import ClusterCatalog.Proofs.Service.Marks
/-!
Reports on their way through the service, while the workers do the pieces of them in any order: what can happen, and
what is left to be done for a node on one executor.
-/
namespace ClusterCatalog

theorem Bus.publish_eq_ok {P H J : Type} [DecidableEq P] {bus bus' : Bus P H} {pools pools' : P → Lanes J}
    {job : H → Report → J} {r : Report} {n : Nat} {t : Subscription P H} (single : bus.subscriptions r.kind = [t])
    (accepted : bus.publish job r pools = (.ok n, bus', pools')) :
    ∃ lane pool, (pools t.pool).submit r.origin (job t.handler r) = (.ok lane, pool) ∧
      bus' = { bus with published := bus.published + 1 } ∧ pools' = fun p => if p = t.pool then pool else pools p := by
  rw [publish, single] at accepted
  split at accepted
  · cases accepted
  · rcases submitted : (pools t.pool).submit r.origin (job t.handler r) with ⟨e | lane, pool⟩
    · simp [deliver, submitted, Delivery.result] at accepted
    · simp only [deliver, submitted, Prod.mk.injEq] at accepted
      obtain ⟨-, rfl, rfl⟩ := accepted
      exact ⟨lane, pool, rfl, rfl, rfl⟩

namespace Service

variable {A : Type} {s s' : Service A}

theorem subscriptions_wiredBus (r : Report) :
    ∃ name, wiredBus.subscriptions r.kind = [⟨name, r.executor, ()⟩] := by
  cases r <;> exact ⟨_, rfl⟩

theorem publish_eq_ok {r : Report} {n : Nat} (wired : s.bus.subscriptions = wiredBus.subscriptions)
    (accepted : s.publish r = (.ok n, s')) :
    ∃ lane pool bus, (s.pools r.executor).submit r.origin r = (.ok lane, pool) ∧
      bus.subscriptions = wiredBus.subscriptions ∧
      s' = { s with bus, pools := fun e => if e = r.executor then pool else s.pools e } := by
  obtain ⟨name, handler⟩ := subscriptions_wiredBus r
  rcases published : s.bus.publish (fun _ report => report) r s.pools with ⟨result, bus, pools⟩
  rw [publish, published] at accepted
  cases accepted
  obtain ⟨lane, pool, submitted, rfl, rfl⟩ := Bus.publish_eq_ok (wired ▸ handler) published
  exact ⟨lane, pool, { s.bus with published := s.bus.published + 1 }, submitted, wired, rfl⟩

end Service

structure Underway (A : Type) where
  service : Service A
  left : Executor × Nat → List Chore := fun _ => []

namespace Underway

variable {A : Type} {u u' u₁ : Underway A} {node : NodeId} {published reports : List Report}

def catalog (u : Underway A) : Catalog := u.service.state.catalog

def leave (u : Underway A) (lane : Executor × Nat) (chores : List Chore) : Underway A :=
  { u with left := fun l => if l = lane then chores else u.left l }

def take (u : Underway A) (lane : Executor × Nat) : Underway A :=
  match (u.service.pools lane.1).runningIn? lane.2 with
  | some _ => u
  | none =>
    let taken := u.service.takeNext lane
    { u with service := taken }.leave lane
      ((((taken.pools lane.1).runningIn? lane.2).map fun r : Running Report => r.job.chores).getD [])

def work (u : Underway A) (lane : Executor × Nat) (order : List ContainerId) : Underway A :=
  match (u.service.pools lane.1).runningIn? lane.2 with
  | none => u
  | some r =>
    match u.left lane with
    | [] => { u with service := u.service.setPool lane.1 ((u.service.pools lane.1).finish lane.2 true) }
    | x :: rest =>
      match (Service.onCatalog (x.does r.job.origin)).run u.service with
      | (.ok (), s) => { u with service := s }.leave lane (x.leaves r.job.origin order u.catalog ++ rest)
      | (.error _, s) =>
        { u with service := s.setPool lane.1 ((s.pools lane.1).finish lane.2 false) }.leave lane []

/-- What can happen while nobody but the lanes works on the catalog: a report is published, workers take jobs and
do the pieces of them in any order, and time goes by. -/
inductive Step (u : Underway A) : List Report → Underway A → Prop where
  | publish {r : Report} {n : Nat} {s : Service A} (accepted : u.service.publish r = (.ok n, s)) :
      Step u [r] { u with service := s }
  | start (e : Executor) : Step u [] { u with service := u.service.setPool e (u.service.pools e).start }
  | take (lane : Executor × Nat) : Step u [] (u.take lane)
  | work (lane : Executor × Nat) {order : List ContainerId} (all : order.Perm u.catalog.directory.containers.keys) :
      Step u [] (u.work lane order)
  | wait (time : Nat) (clock : Millis) (instant : Instant) : Step u []
      { u with
        service.time := time
        service.state.catalog.clock := clock
        service.state.catalog.instant := instant }

inductive Runs : Underway A → List Report → Underway A → Prop where
  | done (u : Underway A) : Runs u [] u
  | step {u u₁ u' : Underway A} {reports rest : List Report} (first : Step u reports u₁) (later : Runs u₁ rest u') :
    Runs u (reports ++ rest) u'

section Unbroken

variable {lane : Executor × Nat} {r : Running Report}

def ended (u : Underway A) (lane : Executor × Nat) (result : Except CatalogError Unit × Catalog) : Underway A :=
  let s := { u.service with state.catalog := result.2 }
  { u with service := s.setPool lane.1 ((s.pools lane.1).finish lane.2 result.1.isOk) }.leave lane []

theorem leave_of_left {s : Service A} {left : Executor × Nat → List Chore} {chores : List Chore}
    (here : left lane = chores) : leave ⟨s, left⟩ lane chores = ⟨s, left⟩ := by
  have same : (fun l => if l = lane then chores else left l) = left := by
    funext l
    split
    · next at_lane => rw [at_lane, here]
    · rfl
  exact congrArg (Underway.mk s) same

theorem leave_leave {s : Service A} {left : Executor × Nat → List Chore} (chores chores' : List Chore) :
    ((leave ⟨s, left⟩ lane chores).leave lane chores') = leave ⟨s, left⟩ lane chores' := by
  refine congrArg (Underway.mk s) (funext fun l => ?_)
  dsimp only [leave]
  split <;> rfl

theorem work_of_empty (running : (u.service.pools lane.1).runningIn? lane.2 = some r) (left : u.left lane = [])
    (order : List ContainerId) : u.work lane order =
      { u with service := u.service.setPool lane.1 ((u.service.pools lane.1).finish lane.2 true) } := by
  rw [work, running]
  dsimp only
  rw [left]

theorem work_of_ok {x : Chore} {rest : List Chore} {c : Catalog}
    (running : (u.service.pools lane.1).runningIn? lane.2 = some r) (left : u.left lane = x :: rest)
    (ran : (x.does r.job.origin).run u.catalog = (.ok (), c)) (order : List ContainerId) : u.work lane order =
      { u with service.state.catalog := c }.leave lane (x.leaves r.job.origin order u.catalog ++ rest) := by
  have done : (Service.onCatalog (x.does r.job.origin)).run u.service =
      (.ok (), { u.service with state.catalog := c }) := by
    rw [Service.onCatalog, Action.run_within, ← catalog, ran]
  rw [work, running]
  dsimp only
  rw [left]
  dsimp only
  rw [done]

theorem work_of_error {x : Chore} {rest : List Chore} {c : Catalog} {e : CatalogError}
    (running : (u.service.pools lane.1).runningIn? lane.2 = some r) (left : u.left lane = x :: rest)
    (ran : (x.does r.job.origin).run u.catalog = (.error e, c)) (order : List ContainerId) :
    u.work lane order = u.ended lane (.error e, c) := by
  have done : (Service.onCatalog (x.does r.job.origin)).run u.service =
      (.error e, { u.service with state.catalog := c }) := by
    rw [Service.onCatalog, Action.run_within, ← catalog, ran]
  rw [work, running]
  dsimp only
  rw [left]
  dsimp only
  rw [done]
  rfl

theorem runs_of_done {chores : List Chore} {c : Catalog} {result : Except CatalogError Unit × Catalog}
    (done : Chore.Done r.job.origin chores c result) (running : (u.service.pools lane.1).runningIn? lane.2 = some r)
    (left : u.left lane = chores) (here : u.catalog = c) : Runs u [] (u.ended lane result) := by
  induction done generalizing u with
  | nothing c =>
    subst here
    have last : u.work lane u.catalog.directory.containers.keys = u.ended lane (.ok (), u.catalog) := by
      rw [work_of_empty running left]
      exact (leave_of_left left).symm
    exact last ▸ .step (.work lane (.refl _)) (.done _)
  | @chore x rest order c c' result all ran later ih =>
    subst here
    have next := work_of_ok running left ran order
    have later := ih (u := u.work lane order) (by rw [next]; exact running) (by rw [next]; exact if_pos rfl)
      (by rw [next]; rfl)
    have same : (u.work lane order).ended lane result = u.ended lane result := by
      rw [next]
      exact leave_leave ..
    exact same ▸ .step (.work lane all) later
  | @failed x rest c c' e ran =>
    subst here
    exact work_of_error running left ran u.catalog.directory.containers.keys ▸ .step (.work lane (.refl _)) (.done _)

/-- A job that is run to its end at once is one way for its pieces to be done. -/
theorem runs_runJob (running : (u.service.pools lane.1).runningIn? lane.2 = some r)
    (left : u.left lane = r.job.chores) :
    Runs u [] ({ u with service := u.service.runJob lane }.leave lane []) := by
  have whole := runs_of_done ((r.job.makeUp_chores u.catalog _).2 rfl) running left rfl
  have same : { u with service := u.service.runJob lane }.leave lane [] =
      u.ended lane ((Catalog.receive r.job).run u.catalog) := by
    have run : (Service.onCatalog (Catalog.receive r.job)).run u.service =
        (((Catalog.receive r.job).run u.catalog).1,
          { u.service with state.catalog := ((Catalog.receive r.job).run u.catalog).2 }) := rfl
    rw [Service.runJob, running]
    dsimp only
    rw [run]
    rcases (Catalog.receive r.job).run u.catalog with ⟨e | ⟨⟩, c⟩ <;> rfl
  exact same ▸ whole

end Unbroken

inductive Backlog (pool : Lanes Report) (left : Nat → List Chore) : List Report → List Chore → Prop where
  | idle (jobs : List Report) (idle : ∀ lane, pool.runningIn? lane = none) :
    Backlog pool left jobs (jobs.flatMap Report.chores)
  | busy {lane : Nat} {r : Running Report} (rest : List Report) (running : pool.runningIn? lane = some r) :
    Backlog pool left (r.job :: rest) (left lane ++ rest.flatMap Report.chores)

def Owes (node : NodeId) (pool : Lanes Report) (left : Nat → List Chore) (chores : List Chore) : Prop :=
  ∃ jobs, pool.Serves node jobs ∧ (∀ r ∈ jobs, r.origin = node) ∧ Backlog pool left jobs chores

namespace Owes

variable {node : NodeId} {pool pool' : Lanes Report} {left left' : Nat → List Chore} {chores : List Chore} {lane : Nat}

theorem empty (h : pool.Serves node []) : Owes node pool left [] := by
  refine ⟨[], h, by simp, .idle [] fun lane => ?_⟩
  cases running : pool.runningIn? lane with
  | none => rfl
  | some r =>
    obtain ⟨rest, wrong, -⟩ := h.finish running true
    cases wrong

variable (h : Owes node pool left chores)
include h

theorem submit {r : Report} {accepted : Nat} (own : r.origin = node)
    (submitted : pool.submit r.origin r = (.ok accepted, pool')) : Owes node pool' left (chores ++ r.chores) := by
  obtain ⟨jobs, serves, owned, backlog⟩ := h
  refine ⟨jobs ++ [r], serves.submit (own ▸ submitted), fun x mem => ?_, ?_⟩
  · obtain mem | mem := List.mem_append.1 mem
    · exact owned x mem
    · rwa [List.mem_singleton.1 mem]
  have more (rest : List Report) :
      (rest ++ [r]).flatMap Report.chores = rest.flatMap Report.chores ++ r.chores := by simp
  cases backlog with
  | idle jobs idle =>
    rw [← more]
    exact .idle _ fun lane => (Lanes.runningIn?_submit submitted).trans (idle lane)
  | busy rest running =>
    rw [List.append_assoc, ← more, List.cons_append]
    exact .busy _ ((Lanes.runningIn?_submit submitted).trans running)

theorem congr (serves : ∀ {jobs}, pool.Serves node jobs → pool'.Serves node jobs)
    (running : ∀ lane, pool'.runningIn? lane = pool.runningIn? lane)
    (same : ∀ lane, pool.runningIn? lane ≠ none → left' lane = left lane) : Owes node pool' left' chores := by
  obtain ⟨jobs, served, owned, backlog⟩ := h
  refine ⟨jobs, serves served, owned, ?_⟩
  cases backlog with
  | idle jobs idle => exact .idle jobs fun lane => (running lane).trans (idle lane)
  | @busy lane r rest runs =>
    rw [← same lane (by simp [runs])]
    exact .busy rest ((running lane).trans runs)

theorem take (idle : pool.runningIn? lane = none) (now : Nat) : Owes node (pool.take now lane)
    (fun l => if l = lane then ((((pool.take now lane).runningIn? lane).map fun r : Running Report => r.job.chores).getD [])
      else left l) chores := by
  have others {l : Nat} (busy : pool.runningIn? l ≠ none) : l ≠ lane := fun same => busy (same ▸ idle)
  obtain ⟨job, queue, found, taken⟩ | same := pool.take_cases now lane
  · obtain ⟨jobs, serves, owned, backlog⟩ := h
    have here : (pool.take now lane).runningIn? lane = some ⟨job, now, false⟩ :=
      (Lanes.runningIn?_set found (by rw [taken]) lane).trans (if_pos rfl)
    have waits : (pool.lanes.map Lane.pending)[lane]? = some (job :: queue) := by
      rw [List.getElem?_map, found]
      rfl
    have pinned : pool.pins[node]? = some lane := by
      by_contra other
      cases serves.others other waits
    obtain rfl : job :: queue = jobs := Option.some.inj (waits.symm.trans (serves.pinned pinned))
    refine ⟨job :: queue, serves.take now lane, owned, ?_⟩
    cases backlog with
    | idle jobs idle =>
      have begun : Backlog (pool.take now lane) (fun l => if l = lane then job.chores else left l) (job :: queue) _ :=
        .busy queue here
      rw [here]
      simpa using begun
    | busy rest running =>
      obtain rfl := Option.some.inj (pinned.symm.trans (serves.pinned_of_running running).1)
      rw [idle] at running
      cases running
  · rw [same]
    exact h.congr id (fun _ => rfl) fun l busy => if_neg (others busy)

/-- The job that runs is that of the node, and its chores are the first of those that are left. -/
theorem of_running {r : Running Report} (running : pool.runningIn? lane = some r) :
    r.job.origin = node ∧ ∃ later, chores = left lane ++ later ∧
      Owes node (pool.finish lane true) left later ∧
      ∀ more, Owes node pool (fun l => if l = lane then more else left l) (more ++ later) := by
  obtain ⟨jobs, serves, owned, backlog⟩ := h
  cases backlog with
  | idle jobs idle =>
    rw [idle lane] at running
    cases running
  | @busy lane' r' rest running' =>
    obtain rfl := serves.lane_eq running' running
    obtain rfl : r' = r := Option.some.inj (running'.symm.trans running)
    refine ⟨owned _ List.mem_cons_self, _, rfl, ?_, fun more => ⟨_, serves, owned, ?_⟩⟩
    · obtain ⟨rest', same, served⟩ := serves.finish running true
      obtain ⟨-, rfl⟩ := List.cons.inj same
      refine ⟨rest, served, fun x mem => owned x (List.mem_cons_of_mem _ mem), ?_⟩
      refine .idle rest fun l => ?_
      obtain ⟨was, r', found, -, ended⟩ | ⟨none, -⟩ := pool.finish_cases lane' true
      · rw [Lanes.runningIn?_set found (by rw [ended]) l]
        split
        · rfl
        · next other =>
          cases elsewhere : pool.runningIn? l with
          | none => rfl
          | some x => exact absurd (serves.lane_eq running elsewhere) other
      · rw [running] at none
        cases none
    · have next : Backlog pool (fun l => if l = lane' then more else left l) (r'.job :: rest) _ := .busy rest running
      simpa using next

theorem eq_nil_of_isIdle (idle : pool.isIdle = true) : chores = [] := by
  obtain ⟨jobs, serves, owned, backlog⟩ := h
  obtain rfl := serves.eq_nil_of_isIdle idle
  cases backlog
  rfl

end Owes

end Underway

end ClusterCatalog
