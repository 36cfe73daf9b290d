import ClusterCatalog.Proofs.Service.Underway
/-!
The reports of one node, handled piece by piece. Each executor keeps them in the order of their publication, but
nothing keeps the two executors in step.
-/
namespace ClusterCatalog.Underway

theorem foldl_filter_of_idle {α β : Type} {f : β → α → β} {p : α → Bool} {l : List α}
    (idle : ∀ a ∈ l, p a = false → ∀ b, f b a = b) (b : β) : (l.filter p).foldl f b = l.foldl f b := by
  rw [List.foldl_filter]
  refine List.foldl_ext _ _ b fun b a mem => ?_
  cases kept : p a with
  | true => rfl
  | false => exact (idle a mem kept b).symm

def on (e : Executor) (reports : List Report) : List Report := reports.filter (·.executor = e)

def madeOn (e : Executor) (made : List (Executor × Mark)) : List Mark := (made.filter (·.1 = e)).map (·.2)

def replay (now : Millis) (node : NodeId) (made : List (Executor × Mark)) (k : Container) : Container :=
  made.foldl (fun k m => m.2.act now node k) k

theorem on_concat (e : Executor) (reports : List Report) (r : Report) :
    on e (reports ++ [r]) = on e reports ++ if r.executor = e then [r] else [] := by
  unfold on
  rw [List.filter_append]
  split <;> simp [*]

theorem madeOn_append (e : Executor) (made more : List (Executor × Mark)) :
    madeOn e (made ++ more) = madeOn e made ++ madeOn e more := by
  simp [madeOn]

theorem madeOn_map (e lane : Executor) (marks : List Mark) :
    madeOn e (marks.map (lane, ·)) = if lane = e then marks else [] := by
  unfold madeOn
  rw [List.filter_map]
  split <;> simp [*, Function.comp_def]

theorem foldl_pipelines_on (reports : List Report) (pipelines : PipelineRegistry) :
    (on .control reports).foldl PipelineRegistry.receive pipelines = reports.foldl PipelineRegistry.receive pipelines :=
  foldl_filter_of_idle (fun r _ elsewhere pipelines => by
    cases r with
    | containerReport node replicas => rfl
    | incrementalContainerReport node replicas => rfl
    | nodeHeartbeat heartbeat => cases elsewhere
    | pipelineReport node entries => cases elsewhere
    | nodeStateChange node health => cases elsewhere) pipelines

def inTurn (id : ContainerId) (published : List Report) : List (Executor × Mark) :=
  published.flatMap fun r => (r.marks id).map (r.executor, ·)

section Replay

variable {node : NodeId} {id : ContainerId} {made made' : List (Executor × Mark)} {published : List Report}

theorem madeOn_inTurn (e : Executor) (id : ContainerId) (published : List Report) :
    madeOn e (inTurn id published) = (on e published).flatMap (Report.marks id) := by
  induction published with
  | nil => rfl
  | cons r rest ih =>
    have first : madeOn e (inTurn id (r :: rest)) =
        (if r.executor = e then r.marks id else []) ++ madeOn e (inTurn id rest) := by
      rw [inTurn, List.flatMap_cons, madeOn_append, madeOn_map]
      rfl
    rw [first, ih, on, on, List.filter_cons]
    by_cases here : r.executor = e <;> simp [here]

theorem replay_inTurn (own : ∀ r ∈ published, r.origin = node) (now : Millis) (id : ContainerId) (k : Container) :
    replay now node (inTurn id published) k = published.foldl (·.receive now id) k := by
  induction published generalizing k with
  | nil => rfl
  | cons r rest ih =>
    obtain ⟨mine, later⟩ := List.forall_mem_cons.1 own
    rw [List.foldl_cons, ← ih later, ← r.foldl_marks, replay, inTurn, List.flatMap_cons, List.foldl_append,
      List.foldl_map, mine]
    rfl

/-- On control replicas are only dropped. -/
theorem eq_dropped_of_control {m : Mark} (mem : m ∈ (on .control published).flatMap (Report.marks id)) :
    m = .dropped := by
  obtain ⟨r, published, marked⟩ := List.mem_flatMap.1 mem
  have control : r.executor = .control := by simpa using (List.mem_filter.1 published).2
  cases r with
  | nodeHeartbeat heartbeat => cases marked
  | containerReport node replicas => cases control
  | incrementalContainerReport node replicas => cases control
  | pipelineReport node entries => cases marked
  | nodeStateChange node health =>
    cases health with
    | healthy => cases marked
    | healthyReadonly => cases marked
    | stale => cases marked
    | dead => exact List.mem_singleton.1 marked

/-- But for the row of the node only the reports count. -/
theorem undated_drop_replay (dropped : ∀ m ∈ madeOn .control made, m = .dropped) (now : Millis) {k k' : Container}
    (h : (k.drop node).undated = (k'.drop node).undated) : ((replay now node made k).drop node).undated =
      (((madeOn .reports made).foldl (Mark.act now node) k').drop node).undated := by
  induction made generalizing k k' with
  | nil => exact h
  | cons m rest ih =>
    obtain ⟨e, m⟩ := m
    cases e with
    | control =>
      obtain ⟨rfl, others⟩ := List.forall_mem_cons.1 (show ∀ x ∈ m :: madeOn .control rest, x = .dropped from dropped)
      refine ih others ?_
      dsimp only [Mark.act]
      rwa [Container.drop_drop]
    | reports =>
      refine (ih dropped ?_ :
        _ = (((madeOn .reports rest).foldl (Mark.act now node) (m.act now node k')).drop node).undated)
      cases m with
      | fed report => exact Container.undated_drop_take now now rfl h
      | dropped =>
        dsimp only [Mark.act]
        rwa [Container.drop_drop, Container.drop_drop]

theorem undated_drop_congr (dropped : ∀ m ∈ madeOn .control made, m = .dropped)
    (same : ∀ e, madeOn e made = madeOn e made') (now : Millis) (k : Container) :
    ((replay now node made k).drop node).undated = ((replay now node made' k).drop node).undated := by
  rw [undated_drop_replay dropped now rfl, undated_drop_replay (same .control ▸ dropped) now rfl, same]

/-- Where one executor marks nothing there is one order only. -/
theorem eq_of_silent (same : ∀ e, madeOn e made = madeOn e made') {e : Executor} (silent : madeOn e made = []) :
    made = made' := by
  have once {made : List (Executor × Mark)} (silent : madeOn e made = []) {lane : Executor} (other : lane ≠ e) :
      (madeOn lane made).map (lane, ·) = made := by
    have none (m : Executor × Mark) (mem : m ∈ made) : m.1 ≠ e := by
      have filtered := List.map_eq_nil_iff.1 silent
      simpa using List.filter_eq_nil_iff.1 filtered m mem
    have all (m : Executor × Mark) (mem : m ∈ made) : m.1 = lane := by
      have elsewhere := none m mem
      cases lane <;> cases e <;> cases here : m.1 <;> first | rfl | exact absurd rfl other | exact absurd here elsewhere
    rw [madeOn, List.filter_eq_self.2 fun m mem => by simpa using all m mem, List.map_map]
    refine (List.map_congr_left fun m mem => ?_).trans (List.map_id made)
    exact Prod.ext (all m mem).symm rfl
  obtain ⟨lane, other⟩ : ∃ lane, lane ≠ e := by
    cases e with
    | reports => exact ⟨.control, nofun⟩
    | control => exact ⟨.reports, nofun⟩
  rw [← once silent other, same, once (same e ▸ silent) other]

end Replay

variable {A : Type} {u u' : Underway A} {node : NodeId} {published reports : List Report} {c : Catalog}
  {chores : Executor → List Chore}

/-- What has been done to a catalog and what is left to do are together what was published, on each executor. -/
structure Accounts (node : NodeId) (before : Catalog) (published : List Report) (after : Catalog)
    (chores : Executor → List Chore) : Prop where
  works : after.live.db.Works
  containers (id : ContainerId) : ∃ made : List (Executor × Mark),
    after.directory.containers[id]?.map Container.undated =
        before.directory.containers[id]?.map (fun k => (replay before.clock node made k).undated) ∧
      ∀ e, madeOn e made ++ (chores e).flatMap (Chore.marks id) = (on e published).flatMap (Report.marks id)
  pipelines : (chores .control).foldl (Chore.steer node) after.pipelines =
    (on .control published).foldl PipelineRegistry.receive before.pipelines
  still : ∀ x ∈ chores .reports, ∀ pipelines, Chore.steer node pipelines x = pipelines

section Accounts

variable {c₁ c₂ : Catalog}

theorem Accounts.publish {r : Report} (h : Accounts node c published c₁ chores) (own : r.origin = node) :
    Accounts node c (published ++ [r]) c₁ fun e => chores e ++ if r.executor = e then r.chores else [] := by
  refine ⟨h.works, fun id => ?_, ?_, fun x mem => ?_⟩
  · obtain ⟨made, shown, order⟩ := h.containers id
    refine ⟨made, shown, fun e => ?_⟩
    rw [on_concat, List.flatMap_append, List.flatMap_append, ← List.append_assoc, order]
    split <;> simp [Report.marks]
  · rw [on_concat, List.foldl_append, List.foldl_append]
    refine Eq.trans ?_ (congrArg (fun p => List.foldl PipelineRegistry.receive p _) h.pipelines)
    split
    · exact own ▸ r.foldl_steer _
    · rfl
  · obtain mem | mem := List.mem_append.1 mem
    · exact h.still x mem
    · split at mem
      · next here => exact Report.steer_of_reports here node mem
      · cases mem

theorem undated_marked {o o' : Option Container} {f : Container → Container} (now now' : Millis) (node : NodeId)
    (h : o.map Container.undated = o'.map fun k => (f k).undated) (marks : List Mark) :
    (o.map fun k => marks.foldl (Mark.act now node) k).map Container.undated =
      o'.map fun k => (marks.foldl (Mark.act now' node) (f k)).undated := by
  cases o with
  | none =>
    cases o' with
    | none => rfl
    | some k' => cases h
  | some k =>
    cases o' with
    | none => cases h
    | some k' =>
      refine congrArg some (Container.undated_foldl (fun k k' m same => ?_) marks (Option.some.inj h))
      exact m.undated_act now now' node same

theorem replay_append (now : Millis) (node : NodeId) (made : List (Executor × Mark)) (e : Executor) (marks : List Mark)
    (k : Container) :
    replay now node (made ++ marks.map (e, ·)) k = marks.foldl (Mark.act now node) (replay now node made k) := by
  rw [replay, List.foldl_append, List.foldl_map]
  rfl

/-- A chore that is done, with the ones that it leaves in its place. -/
theorem Accounts.work {e : Executor} {x : Chore} {later : List Chore} {order : List ContainerId}
    (h : Accounts node c published c₁ chores) (first : chores e = x :: later) (worked : x.Worked node order c₁ c₂) :
    Accounts node c published c₂ fun e' => if e' = e then x.leaves node order c₁ ++ later else chores e' := by
  refine ⟨worked.works, fun id => ?_, ?_, fun y mem => ?_⟩
  · obtain ⟨made, shown, total⟩ := h.containers id
    obtain ⟨marked, acted, marks⟩ := worked.containers id
    refine ⟨made ++ marked.map (e, ·), ?_, fun e' => ?_⟩
    · simp only [replay_append]
      exact (congrArg _ acted).trans (undated_marked c₁.clock c.clock node shown marked)
    · rw [madeOn_append, madeOn_map, ← total e']
      by_cases here : e' = e
      · subst here
        simp [first, marks]
      · simp [here, Ne.symm here]
  · refine Eq.trans ?_ h.pipelines
    cases e with
    | control =>
      rw [if_pos rfl, first, List.foldl_append, List.foldl_cons,
        Chore.foldl_still (fun y mem => Chore.steer_of_leaves mem)]
      exact congrArg (fun p => List.foldl _ p _) worked.pipelines
    | reports =>
      have same : Chore.steer node c₁.pipelines x = c₁.pipelines := h.still x (first ▸ List.mem_cons_self) _
      exact congrArg (fun p => List.foldl _ p _) (worked.pipelines.trans same)
  · cases e with
    | control => exact h.still y mem
    | reports =>
      obtain mem | mem := List.mem_append.1 mem
      · exact Chore.steer_of_leaves mem
      · exact h.still y (first ▸ List.mem_cons_of_mem x mem)

end Accounts

structure Keeps (node : NodeId) (c : Catalog) (published : List Report) (u : Underway A)
    (chores : Executor → List Chore) : Prop where
  wired : u.service.bus.subscriptions = Service.wiredBus.subscriptions
  owes (e : Executor) : Owes node (u.service.pools e) (fun lane => u.left (e, lane)) (chores e)
  accounts : Accounts node c published u.catalog chores

theorem Keeps.publish {r : Report} {n : Nat} {s : Service A} (h : Keeps node c published u chores)
    (own : r.origin = node) (accepted : u.service.publish r = (.ok n, s)) :
    Keeps node c (published ++ [r]) { u with service := s }
      fun e => chores e ++ if r.executor = e then r.chores else [] := by
  obtain ⟨lane, pool, bus, submitted, wired, rfl⟩ := Service.publish_eq_ok h.wired accepted
  refine ⟨wired, fun e => ?_, h.accounts.publish own⟩
  by_cases here : r.executor = e
  · subst here
    simp only [if_pos]
    exact (h.owes r.executor).submit own submitted
  · simp only [if_neg here, if_neg (Ne.symm here), List.append_nil]
    exact h.owes e

theorem Keeps.take (h : Keeps node c published u chores) (lane : Executor × Nat) :
    Keeps node c published (u.take lane) chores := by
  unfold Underway.take
  split
  · exact h
  · next idle =>
    refine ⟨h.wired, fun e => ?_, h.accounts⟩
    obtain ⟨e', lane⟩ := lane
    by_cases here : e = e'
    · subst here
      have taken := (h.owes e).take idle u.service.time
      simpa [leave, Service.takeNext, Service.setPool] using taken
    · have kept := h.owes e
      simpa [leave, Service.takeNext, Service.setPool, here] using kept

theorem Keeps.work (h : Keeps node c published u chores) (lane : Executor × Nat) {order : List ContainerId}
    (all : order.Perm u.catalog.directory.containers.keys) :
    ∃ chores', Keeps node c published (u.work lane order) chores' := by
  cases running : (u.service.pools lane.1).runningIn? lane.2 with
  | none =>
    refine ⟨chores, ?_⟩
    rw [Underway.work, running]
    exact h
  | some r =>
    obtain ⟨rfl, later, split, finished, next⟩ := (h.owes lane.1).of_running running
    cases left : u.left lane with
    | nil =>
      refine ⟨chores, ?_⟩
      rw [work_of_empty running left order]
      refine ⟨h.wired, fun e => ?_, h.accounts⟩
      by_cases here : e = lane.1
      · subst here
        rw [split, left, List.nil_append]
        simpa [Service.setPool] using finished
      · simpa [Service.setPool, here] using h.owes e
    | cons x rest =>
      obtain ⟨c', ran, worked⟩ := x.worked h.accounts.works all
      have first : chores lane.1 = x :: (rest ++ later) := by rw [split, left, List.cons_append]
      rw [work_of_ok running left ran order]
      refine ⟨_, h.wired, fun e => ?_, h.accounts.work first worked⟩
      by_cases here : e = lane.1
      · subst here
        have left (l : Nat) : (lane.1, l) = lane ↔ l = lane.2 := by simp [Prod.ext_iff]
        simpa [leave, left] using next (x.leaves r.job.origin order u.catalog ++ rest)
      · have left (l : Nat) : (e, l) ≠ lane := fun same => here (congrArg Prod.fst same)
        simpa [leave, left, here] using h.owes e

theorem Keeps.step (h : Keeps node c published u chores) (own : ∀ r ∈ reports, r.origin = node)
    (step : Step u reports u') : ∃ chores', Keeps node c (published ++ reports) u' chores' := by
  cases step with
  | publish accepted => exact ⟨_, h.publish (own _ List.mem_cons_self) accepted⟩
  | start e =>
    rw [List.append_nil]
    refine ⟨chores, h.wired, fun e' => ?_, h.accounts⟩
    by_cases here : e' = e
    · subst here
      have started := (h.owes e').congr (fun serves => serves.start) (fun _ => Lanes.runningIn?_start) fun _ _ => rfl
      simpa [Service.setPool] using started
    · simpa [Service.setPool, here] using h.owes e'
  | take lane =>
    rw [List.append_nil]
    exact ⟨chores, h.take lane⟩
  | work lane all =>
    rw [List.append_nil]
    exact h.work lane all
  | wait time clock instant =>
    rw [List.append_nil]
    obtain ⟨works, containers, pipelines, still⟩ := h.accounts
    exact ⟨chores, h.wired, h.owes, works, containers, pipelines, still⟩

theorem Keeps.run (h : Keeps node c published u chores) (own : ∀ r ∈ reports, r.origin = node)
    (runs : Runs u reports u') : ∃ chores', Keeps node c (published ++ reports) u' chores' := by
  induction runs generalizing published chores with
  | done u => exact ⟨chores, by rwa [List.append_nil]⟩
  | step first later ih =>
    obtain ⟨chores₁, h₁⟩ := h.step (fun r mem => own r (List.mem_append_left _ mem)) first
    obtain ⟨chores', h'⟩ := ih h₁ fun r mem => own r (List.mem_append_right _ mem)
    exact ⟨chores', List.append_assoc .. ▸ h'⟩

theorem keeps_start {s : Service A} (wired : s.bus.subscriptions = Service.wiredBus.subscriptions)
    (empty : ∀ e, (s.pools e).Serves node []) (works : s.state.catalog.live.db.Works) :
    Keeps node s.state.catalog [] ⟨s, fun _ => []⟩ fun _ => [] where
  wired := wired
  owes e := .empty (empty e)
  accounts := ⟨works, fun _ => ⟨[], rfl, fun _ => rfl⟩, rfl, fun _ mem => nomatch mem⟩

/-- Nothing that one of the executors does competes with what the other does to the container. -/
def Calm (id : ContainerId) (published : List Report) : Prop := ∃ e, (on e published).flatMap (Report.marks id) = []

/-- What the reports of a node have made of a container, beside what they make of it in the order of publication. -/
structure Merged (node : NodeId) (published : List Report) (before inOrder after : Catalog) (id : ContainerId) :
    Prop where
  merge : ∃ made : List (Executor × Mark), (∀ e, madeOn e made = (on e published).flatMap (Report.marks id)) ∧
    after.directory.containers[id]?.map Container.undated =
      before.directory.containers[id]?.map fun k => (replay before.clock node made k).undated
  others : after.directory.containers[id]?.map (fun k => (k.drop node).undated) =
    inOrder.directory.containers[id]?.map fun k => (k.drop node).undated
  calm (h : Calm id published) :
    after.directory.containers[id]?.map Container.undated = inOrder.directory.containers[id]?.map Container.undated

/-- Once all lanes are empty, the pipelines are those of the order of publication. What the reports do to a container
has been done to it with the work of each executor in its order, but the two merged in some way, which may be another
one for another container. It matters for the row of the node alone, and only where both executors do something. -/
theorem merged_of_runs {s : Service A} (wired : s.bus.subscriptions = Service.wiredBus.subscriptions)
    (empty : ∀ e, (s.pools e).Serves node []) (works : s.state.catalog.live.db.Works)
    (own : ∀ r ∈ published, r.origin = node) (runs : Runs { service := s } published u)
    (idle : ∀ e, (u.service.pools e).isIdle = true) :
    ∃ c, (published.forM Catalog.receive).run s.state.catalog = (.ok (), c) ∧
      u.catalog.pipelines = c.pipelines ∧ ∀ id, Merged node published s.state.catalog c u.catalog id := by
  obtain ⟨chores, kept⟩ := (keeps_start wired empty works).run own runs
  rw [List.nil_append] at kept
  have done (e : Executor) : chores e = [] := (kept.owes e).eq_nil_of_isIdle (idle e)
  obtain ⟨c, run, received⟩ := Catalog.run_receiveAll published works
  have pipelines : u.catalog.pipelines = c.pipelines := by
    have left := kept.accounts.pipelines
    rw [done, foldl_pipelines_on] at left
    exact left.trans received.pipelines.symm
  refine ⟨c, run, pipelines, fun id => ?_⟩
  obtain ⟨made, shown, order⟩ := kept.accounts.containers id
  replace order (e : Executor) : madeOn e made = (on e published).flatMap (Report.marks id) := by
    rw [← order, done, List.flatMap_nil, List.append_nil]
  have sequential : c.directory.containers[id]? =
      s.state.catalog.directory.containers[id]?.map (replay s.state.catalog.clock node (inTurn id published)) := by
    rw [received.containers]
    congr
    funext k
    rw [replay_inTurn own]
  have each (e : Executor) : madeOn e made = madeOn e (inTurn id published) :=
    (order e).trans (madeOn_inTurn e id published).symm
  refine ⟨⟨made, order, shown⟩, ?_, fun ⟨e, silent⟩ => ?_⟩
  · have dropped : ∀ m ∈ madeOn .control made, m = .dropped :=
      fun m mem => eq_dropped_of_control (order .control ▸ mem)
    rw [sequential]
    cases known : s.state.catalog.directory.containers[id]? with
    | none =>
      rw [known, Option.map_none, Option.map_eq_none_iff] at shown
      rw [shown]
      rfl
    | some k =>
      rw [known] at shown
      obtain ⟨k', found, same⟩ := Option.map_eq_some_iff.1 shown
      rw [found]
      exact congrArg some ((Container.undated_drop node same).trans (undated_drop_congr dropped each _ k))
  · rw [shown, sequential, eq_of_silent each ((order e).trans silent), Option.map_map]
    rfl

section Overtaking

def smallService : Service Unit where
  settings := {}
  authority := ()
  bus := Service.wiredBus
  pools := Service.createPool {}
  state :=
    { catalog :=
        { clock := 5
          directory.containers := (∅ : Std.ExtTreeMap ContainerId Container).insertMany
            [(⟨1⟩, ⟨.fresh 3 ⟨1⟩ .opened none, ∅⟩), (⟨2⟩, ⟨.fresh 3 ⟨2⟩ .opened none, ∅⟩)]
          live := ⟨"scm-1", .empty⟩
          disk := {} } }

inductive Turn where
  | take (lane : Executor × Nat)
  | work (lane : Executor × Nat)

def turn (u : Underway A) : Turn → Underway A
  | .take lane => u.take lane
  | .work lane => u.work lane u.catalog.directory.containers.keys

theorem runs_turns (u : Underway A) (turns : List Turn) : Runs u [] (turns.foldl turn u) := by
  induction turns generalizing u with
  | nil => exact .done u
  | cons t rest ih =>
    cases t with
    | take lane => exact .step (.take lane) (ih _)
    | work lane => exact .step (.work lane (.refl _)) (ih _)

def started (s : Service A) : Service A :=
  let s := s.setPool .reports (s.pools .reports).start
  s.setPool .control (s.pools .control).start

def interleaved (first second : Report) (turns : List Turn) : Underway Unit :=
  turns.foldl turn { service := started ((smallService.publish first).2.publish second).2 }

theorem runs_interleaved {first second : Report} (taken : (smallService.publish first).1.toOption = some 1)
    (taken' : ((smallService.publish first).2.publish second).1.toOption = some 1) (turns : List Turn) :
    Runs { service := smallService } [first, second] (interleaved first second turns) := by
  have published : Step { service := smallService } [first] { service := (smallService.publish first).2 } :=
    .publish (Prod.ext (eq_ok_of_toOption taken) rfl)
  have published' : Step { service := (smallService.publish first).2 } [second]
      { service := ((smallService.publish first).2.publish second).2 } :=
    .publish (Prod.ext (eq_ok_of_toOption taken') rfl)
  exact .step published (.step published' (.step (.start .reports) (.step (.start .control) (runs_turns _ turns))))

def smallReport : Report :=
  .containerReport ⟨⟨3⟩⟩ [⟨⟨1⟩, .opened, 0, 0, 0, none⟩, ⟨⟨2⟩, .opened, 0, 0, 0, none⟩]

def smallDeath : Report := .nodeStateChange ⟨⟨3⟩⟩ .dead

def between : List Turn :=
  [.take (.reports, 0), .work (.reports, 0), .work (.reports, 0), .take (.control, 0)] ++
    List.replicate 7 (.work (.control, 0)) ++ List.replicate 6 (.work (.reports, 0))

def rowsOf (c : Catalog) (id : ContainerId) : Option (List Replica) :=
  c.directory.containers[id]?.map (·.replicas.values)

/-- The death comes between the two containers of a report: the row in the first is gone, the one in the second
stays. -/
theorem merged_of_runs_between : ∃ c,
    ([smallReport, smallDeath].forM Catalog.receive).run smallService.state.catalog = (.ok (), c) ∧
    (interleaved smallReport smallDeath between).catalog.pipelines = c.pipelines ∧
    (∀ id, Merged ⟨⟨3⟩⟩ [smallReport, smallDeath] smallService.state.catalog c
      (interleaved smallReport smallDeath between).catalog id) ∧
    rowsOf (interleaved smallReport smallDeath between).catalog ⟨1⟩ = some [] ∧
    rowsOf (interleaved smallReport smallDeath between).catalog ⟨2⟩ = some [⟨⟨2⟩, ⟨⟨3⟩⟩, .opened, 0, 0, 0, ⟨⟨3⟩⟩⟩] := by
  have empty (e : Executor) : (smallService.pools e).Serves ⟨⟨3⟩⟩ [] := by
    cases e <;> exact Lanes.serves_create ..
  have idle (e : Executor) : ((interleaved smallReport smallDeath between).service.pools e).isIdle = true := by
    cases e <;> decide +kernel
  obtain ⟨c, run, pipelines, merged⟩ := merged_of_runs rfl empty Database.works_empty (by decide)
    (runs_interleaved (by decide +kernel) (by decide +kernel) between) idle
  exact ⟨c, run, pipelines, merged, by decide +kernel, by decide +kernel⟩

def deathFirst : List Turn :=
  .take (.control, 0) :: List.replicate 8 (.work (.control, 0)) ++
    .take (.reports, 0) :: List.replicate 8 (.work (.reports, 0))

/-- A container report that was published before the death of its node is handled after it, and its rows
stay. In the order of publication there are none in the end. -/
theorem row_outlives_death :
    Runs { service := smallService } [smallReport, smallDeath] (interleaved smallReport smallDeath deathFirst) ∧
      (∀ e, ((interleaved smallReport smallDeath deathFirst).service.pools e).isIdle = true) ∧
      rowsOf (interleaved smallReport smallDeath deathFirst).catalog ⟨1⟩ =
        some [⟨⟨1⟩, ⟨⟨3⟩⟩, .opened, 0, 0, 0, ⟨⟨3⟩⟩⟩] ∧
      rowsOf (([smallReport, smallDeath].forM Catalog.receive).run smallService.state.catalog).2 ⟨1⟩ = some [] := by
  refine ⟨runs_interleaved (by decide +kernel) (by decide +kernel) deathFirst, fun e => ?_, ?_, ?_⟩
  · cases e <;> decide +kernel
  · decide +kernel
  · decide +kernel

end Overtaking

end ClusterCatalog.Underway
