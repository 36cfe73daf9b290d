import Mathlib.Data.List.Induction
import ClusterCatalog.Bus
import ClusterCatalog.Proofs.Lanes.Intake
/-!
What a publication does, whatever was subscribed, published and closed before it and however full the lanes
are. Handlers that share a lane take its room from one another; nothing else passes between them.
-/
namespace ClusterCatalog

namespace Bus

variable {P H J : Type} {kind : ReportKind}

/-- What is done to a bus. The lanes that a report is published to may be in any state by then. -/
inductive Op (P H J : Type) where
  | subscribe (kind : ReportKind) (s : Subscription P H)
  | silence (kind : ReportKind) (silent : Bool)
  | publish (report : Report) (pools : P → Lanes J)
  | close

section Run

variable [DecidableEq P]

def step (job : H → Report → J) (bus : Bus P H) : Op P H J → Bus P H
  | .subscribe kind s => bus.subscribe kind s
  | .silence kind silent => bus.setSilent kind silent
  | .publish report pools => (bus.publish job report pools).2.1
  | .close => bus.close

def run (job : H → Report → J) (ops : List (Op P H J)) : Bus P H := ops.foldl (step job) {}

end Run

def subscribed (kind : ReportKind) (ops : List (Op P H J)) : List (Subscription P H) :=
  ops.filterMap fun
    | .subscribe k s => if k = kind then some s else none
    | _ => none

/-- The handlers that subscriptions leave: every name has the place of its first subscription, and the lanes and
the handler of its last. -/
structure Bound (given handlers : List (Subscription P H)) : Prop where
  names : handlers.map (·.name) = (given.map (·.name)).eraseDups
  distinct : (handlers.map (·.name)).Nodup
  last {s : Subscription P H} (h : s ∈ handlers) :
    ∃ before after, given = before ++ s :: after ∧ ∀ t ∈ after, t.name ≠ s.name

theorem map_name_bind (s : Subscription P H) (subscriptions : List (Subscription P H)) :
    (bind s subscriptions).map (·.name) =
      if s.name ∈ subscriptions.map (·.name) then subscriptions.map (·.name)
      else subscriptions.map (·.name) ++ [s.name] := by
  induction subscriptions with
  | nil => rfl
  | cons t rest ih =>
    unfold bind
    by_cases same : t.name = s.name
    · simp [same]
    · rw [if_neg same, List.map_cons, ih]
      simp only [List.map_cons, List.mem_cons, Ne.symm same, false_or]
      split <;> rfl

theorem mem_bind {s t : Subscription P H} {subscriptions : List (Subscription P H)}
    (distinct : (subscriptions.map (·.name)).Nodup) (h : t ∈ bind s subscriptions) :
    t = s ∨ t ∈ subscriptions ∧ t.name ≠ s.name := by
  induction subscriptions with
  | nil => exact .inl (List.mem_singleton.1 h)
  | cons u rest ih =>
    obtain ⟨apart, distinct⟩ := List.nodup_cons.1 (List.map_cons ▸ distinct)
    unfold bind at h
    split at h
    case isTrue same =>
      obtain rfl | here := List.mem_cons.1 h
      · exact .inl rfl
      · exact .inr ⟨List.mem_cons_of_mem _ here, fun again => apart (same ▸ again ▸ List.mem_map_of_mem here)⟩
    case isFalse other =>
      obtain rfl | here := List.mem_cons.1 h
      · exact .inr ⟨List.mem_cons_self, other⟩
      · exact (ih distinct here).imp id fun kept => ⟨List.mem_cons_of_mem _ kept.1, kept.2⟩

theorem bound_nil : Bound ([] : List (Subscription P H)) [] := ⟨rfl, List.nodup_nil, nofun⟩

theorem Bound.bind {given handlers : List (Subscription P H)} (h : Bound given handlers) (s : Subscription P H) :
    Bound (given ++ [s]) (bind s handlers) where
  names := by
    have known : s.name ∈ handlers.map (·.name) ↔ s.name ∈ given.map (·.name) := by
      rw [h.names, List.mem_eraseDups]
    rw [map_name_bind, List.map_append, List.eraseDups_append, List.map_singleton]
    by_cases there : s.name ∈ given.map (·.name)
    · have old : [s.name].removeAll (given.map (·.name)) = [] := by
        rw [List.removeAll, List.filter_cons_of_neg (by simpa using there), List.filter_nil]
      rw [if_pos (known.2 there), old, h.names, List.eraseDups_nil, List.append_nil]
    · have new : [s.name].removeAll (given.map (·.name)) = [s.name] := by
        rw [List.removeAll, List.filter_cons_of_pos (by simpa using there), List.filter_nil]
      rw [if_neg (mt known.1 there), new, h.names]
      rfl
  distinct := by
    rw [map_name_bind]
    split
    case isTrue => exact h.distinct
    case isFalse fresh => exact List.nodup_append.2 ⟨h.distinct, by simp, by
      rintro name there _ new rfl
      exact fresh (List.mem_singleton.1 new ▸ there)⟩
  last := by
    intro t here
    obtain rfl | ⟨kept, other⟩ := mem_bind h.distinct here
    · exact ⟨given, [], rfl, nofun⟩
    · obtain ⟨before, after, rfl, later⟩ := h.last kept
      refine ⟨before, after ++ [s], by simp, fun u there => ?_⟩
      obtain there | there := List.mem_append.1 there
      · exact later u there
      · obtain rfl := List.mem_singleton.1 there
        exact other.symm

section Run

variable [DecidableEq P] {job : H → Report → J} {ops : List (Op P H J)}

theorem run_concat (ops : List (Op P H J)) (op : Op P H J) : run job (ops ++ [op]) = step job (run job ops) op := by
  rw [run, List.foldl_append]
  rfl

theorem publish_keeps (job : H → Report → J) (report : Report) (bus : Bus P H) (pools : P → Lanes J) :
    ∃ published, (bus.publish job report pools).2.1 = { bus with published } := by
  unfold publish
  split
  · exact ⟨bus.published, rfl⟩
  · split
    · exact ⟨bus.published, rfl⟩
    · exact ⟨_, rfl⟩

theorem closed_run (ops : List (Op P H J)) : (run job ops).closed = true ↔ Op.close ∈ ops := by
  induction ops using List.reverseRecOn with
  | nil => simp [run]
  | append_singleton ops op ih =>
    rw [run_concat, List.mem_append, List.mem_singleton, ← ih]
    cases op with
    | subscribe kind s => simp [step, subscribe]
    | silence kind silent => simp [step, setSilent]
    | publish report pools =>
      obtain ⟨published, same⟩ := publish_keeps job report (run job ops) pools
      simp [step, same]
    | close => simp [step, close]

theorem bound_run (kind : ReportKind) (ops : List (Op P H J)) :
    Bound (subscribed kind ops) ((run job ops).subscriptions kind) := by
  induction ops using List.reverseRecOn with
  | nil => exact bound_nil
  | append_singleton ops op ih =>
    rw [run_concat, subscribed, List.filterMap_append, ← subscribed]
    cases op with
    | subscribe k s =>
      by_cases same : k = kind
      · subst same
        simpa [step, subscribe] using ih.bind s
      · simpa [step, subscribe, same, Ne.symm same] using ih
    | silence k silent => simpa [step, setSilent] using ih
    | publish report pools =>
      obtain ⟨published, same⟩ := publish_keeps job report (run job ops) pools
      simpa [step, same] using ih
    | close => simpa [step, close] using ih

def verdicts (node : NodeId) (subscriptions : List (Subscription P H)) (pools : P → Lanes J) :
    List (Except SubmitError Nat) :=
  subscriptions.mapIdx fun i s =>
    (pools s.pool).verdict node ((subscriptions.take i).countP fun t => t.pool = s.pool)

def jobsOn (pool : P) (job : H → J) (subscriptions : List (Subscription P H)) : List J :=
  (subscriptions.filter fun s => s.pool = pool).map fun s => job s.handler

def Delivery.note (d : Delivery) : Except SubmitError Nat → Delivery
  | .ok _ => { d with accepted := d.accepted + 1 }
  | .error e => { d with refusal? := some e }

section Deliver

variable {node : NodeId} {pools : P → Lanes J} {job : H → J}

theorem verdicts_concat (subscriptions : List (Subscription P H)) (s : Subscription P H) :
    verdicts node (subscriptions ++ [s]) pools = verdicts node subscriptions pools ++
      [(pools s.pool).verdict node (subscriptions.countP fun t => t.pool = s.pool)] := by
  unfold verdicts
  rw [List.mapIdx_append]
  congr 1
  · refine List.ext_getElem (by simp) fun i before _ => ?_
    rw [List.length_mapIdx] at before
    simp [List.take_append_of_le_length (Nat.le_of_lt before)]
  · simp

theorem jobsOn_concat (pool : P) (subscriptions : List (Subscription P H)) (s : Subscription P H) :
    jobsOn pool job (subscriptions ++ [s]) =
      jobsOn pool job subscriptions ++ if s.pool = pool then [job s.handler] else [] := by
  unfold jobsOn
  rw [List.filter_append, List.map_append]
  split <;> simp [*]

theorem deliver_concat (subscriptions : List (Subscription P H)) (s : Subscription P H) (d : Delivery)
    (pools : P → Lanes J) :
    deliver job node (subscriptions ++ [s]) d pools =
      (let (d, pools) := deliver job node subscriptions d pools
      let (result, pool) := (pools s.pool).submit node (job s.handler)
      (d.note result, fun p => if p = s.pool then pool else pools p)) := by
  induction subscriptions generalizing d pools with
  | nil =>
    simp only [List.nil_append, deliver]
    rcases (pools s.pool).submit node (job s.handler) with ⟨_ | _, _⟩ <;> rfl
  | cons t rest ih => exact ih _ _

/-- The lanes of each pool get the jobs of the handlers that are bound to it, whatever became of others. -/
theorem deliver_eq (placed : ∀ e, (pools e).Placed) (subscriptions : List (Subscription P H)) :
    deliver job node subscriptions {} pools = ((verdicts node subscriptions pools).foldl Delivery.note {},
      fun e => (pools e).handed node (jobsOn e job subscriptions)) := by
  induction subscriptions using List.reverseRecOn with
  | nil => rfl
  | append_singleton subscriptions s ih =>
    rw [deliver_concat, ih]
    dsimp only
    rw [Lanes.submit_handed (placed s.pool), verdicts_concat, List.foldl_append]
    refine Prod.ext ?_ (funext fun e => ?_)
    · simp [jobsOn, List.countP_eq_length_filter]
    · dsimp only
      rw [jobsOn_concat]
      by_cases same : e = s.pool
      · subst same
        simp
      · simp [same, Ne.symm same]

end Deliver

def taken (verdicts : List (Except SubmitError Nat)) : Nat := verdicts.countP (·.isOk)

theorem accepted_note (verdicts : List (Except SubmitError Nat)) :
    (verdicts.foldl Delivery.note {}).accepted = taken verdicts := by
  induction verdicts using List.reverseRecOn with
  | nil => rfl
  | append_singleton verdicts v ih =>
    rw [List.foldl_append, taken, List.countP_append, ← taken, ← ih]
    cases v <;> rfl

structure Told (verdicts : List (Except SubmitError Nat)) (result : Except SubmitError Nat) : Prop where
  accepted {n : Nat} (h : result = .ok n) : n = taken verdicts
  refused : (∃ e, result = .error e) ↔ verdicts ≠ [] ∧ taken verdicts = 0
  reason {e : SubmitError} (h : result = .error e) : verdicts.getLast? = some (.error e)

theorem told_note (verdicts : List (Except SubmitError Nat)) :
    Told verdicts (verdicts.foldl Delivery.note {}).result := by
  have accepted := accepted_note verdicts
  by_cases none : taken verdicts = 0
  · obtain rfl | ⟨earlier, last, rfl⟩ := verdicts.eq_nil_or_concat'
    · exact ⟨fun h => (Except.ok.inj h).symm, by simp [Delivery.result], fun h => by cases h⟩
    · cases last with
      | ok lane => simp [taken, Except.isOk, Except.toBool] at none
      | error e =>
        have refusal : ((earlier ++ [Except.error e]).foldl Delivery.note {}).refusal? = some e := by
          rw [List.foldl_append]
          rfl
        have result : ((earlier ++ [Except.error e]).foldl Delivery.note {}).result = .error e := by
          simp only [Delivery.result, refusal, accepted, none, if_true]
        rw [result]
        exact ⟨by simp, by simp [none], fun h => by rw [List.getLast?_concat, h]⟩
  · have result : (verdicts.foldl Delivery.note {}).result = .ok (taken verdicts) := by
      unfold Delivery.result
      split
      · rw [accepted, if_neg none]
      · rw [accepted]
    rw [result]
    exact ⟨fun h => (Except.ok.inj h).symm, by simp [none], by simp⟩

/-- A publisher learns whether any handler took the event. -/
theorem Told.any_taken {verdicts : List (Except SubmitError Nat)} {result : Except SubmitError Nat}
    (h : Told verdicts result) : result.toOption.any (0 < ·) = decide (0 < taken verdicts) := by
  cases result with
  | ok n => rw [← h.accepted rfl, Except.toOption, Option.any_some]
  | error e =>
    have none : taken verdicts = 0 := (h.refused.1 ⟨e, rfl⟩).2
    rw [none]
    rfl

structure Delivered (job : H → Report → J) (report : Report) (handlers : List (Subscription P H))
    (bus : Bus P H) (pools : P → Lanes J) (result : Except SubmitError Nat) (bus' : Bus P H)
    (pools' : P → Lanes J) : Prop where
  handed (e : P) : pools' e = (pools e).handed report.origin (jobsOn e (job · report) handlers)
  counted : bus' = { bus with published := bus.published + if handlers = [] then 0 else 1 }
  told : Told (verdicts report.origin handlers pools) result

theorem publish_eq {bus : Bus P H} {pools : P → Lanes J} (intake : bus.closed = false)
    (placed : ∀ e, (pools e).Placed) (report : Report) {handlers : List (Subscription P H)}
    (bound : bus.subscriptions report.kind = handlers) :
    bus.publish job report pools = (((verdicts report.origin handlers pools).foldl Delivery.note {}).result,
      { bus with published := bus.published + if handlers = [] then 0 else 1 },
      fun e => (pools e).handed report.origin (jobsOn e (job · report) handlers)) := by
  rw [publish, if_neg (by simp [intake]), bound]
  cases handlers with
  | nil => rfl
  | cons s rest =>
    dsimp only
    rw [deliver_eq placed]
    rfl

theorem delivered_publish {bus : Bus P H} {pools : P → Lanes J} (intake : bus.closed = false)
    (placed : ∀ e, (pools e).Placed) (report : Report) {handlers : List (Subscription P H)}
    (bound : bus.subscriptions report.kind = handlers) :
    Delivered job report handlers bus pools (bus.publish job report pools).1
      (bus.publish job report pools).2.1 (bus.publish job report pools).2.2 := by
  rw [publish_eq intake placed report bound]
  exact ⟨fun _ => rfl, rfl, told_note _⟩

/-- A publication hands the event to every handler that is bound by then, and on a closed bus to none. -/
theorem publish_run (ops : List (Op P H J)) (report : Report) {pools : P → Lanes J}
    (reached : ∀ e, (pools e).Reached) :
    (Op.close ∈ ops → (run job ops).publish job report pools = (.error (.closed "event-bus"), run job ops, pools)) ∧
    (Op.close ∉ ops → ∃ handlers, Bound (subscribed report.kind ops) handlers ∧
      ∃ result bus' pools', (run job ops).publish job report pools = (result, bus', pools') ∧
        Delivered job report handlers (run job ops) pools result bus' pools') := by
  constructor
  · intro closed
    rw [publish, if_pos ((closed_run ops).2 closed)]
  · intro intake
    have opened : (run job ops).closed = false := by
      rw [← Bool.not_eq_true, closed_run]
      exact intake
    exact ⟨_, bound_run report.kind ops, _, _, _, rfl,
      delivered_publish opened (fun e => (reached e).placed) report rfl⟩

/-- Two handlers share a lane that has room for one job, since the first was bound anew. It keeps its place, so the
second one is turned away, and the publisher is told of one. -/
theorem published_crowded :
    let ops : List (Op Bool Nat Nat) :=
      [.subscribe .nodeStateChange ⟨"first", false, 0⟩, .subscribe .nodeStateChange ⟨"second", true, 1⟩,
        .subscribe .nodeStateChange ⟨"first", true, 2⟩]
    let job : Nat → Report → Nat := fun handler _ => handler
    let report := Report.nodeStateChange ⟨⟨1⟩⟩ .dead
    let pools : Bool → Lanes Nat := fun _ => .create "control" 1 1
    (∀ e, (pools e).Reached) ∧ Op.close ∉ ops ∧ subscribed report.kind ops ≠ [] ∧
      ((run job ops).publish job report pools).1 = .ok 1 ∧
      ∃ handlers, Bound (subscribed report.kind ops) handlers ∧
        ∃ result bus' pools', (run job ops).publish job report pools = (result, bus', pools') ∧
          Delivered job report handlers (run job ops) pools result bus' pools' := by
  intro ops job report pools
  have reached (e : Bool) : (pools e).Reached := .create "control" 1 1
  have intake : Op.close ∉ ops := by simp [ops]
  exact ⟨reached, intake, by decide, by decide +kernel, (publish_run ops report reached).2 intake⟩

end Run

end Bus

end ClusterCatalog
