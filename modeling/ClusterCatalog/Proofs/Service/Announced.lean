import ClusterCatalog.Proofs.Bus.Delivery
import ClusterCatalog.Proofs.Node.Detector
import ClusterCatalog.Service.Basic
/-!
Rounds of the failure detector under load. The detector tells of each change once, and so it is published once.
A change that finds the lane full is lost: the registry has it, but nobody is told of it by a later round.
-/
namespace ClusterCatalog

open NodeRegistry (Own Turn pulse? ahead)

def NodeRegistry.Event.isOutside : NodeRegistry.Event → Bool
  | .check _ => false
  | _ => true

namespace Service

variable {A : Type}

inductive Bulletin where
  | heard (id : NodeId)
  | offered (id : NodeId) (health : NodeHealth) (taken : Bool)
  deriving DecidableEq, Repr

def announce : List (NodeId × NodeHealth) → Service A → List Bulletin × Service A
  | [], s => ([], s)
  | (id, health) :: rest, s =>
    let (result, published) := s.publish (.nodeStateChange id health)
    let (later, s) := announce rest published
    (.offered id health (result.toOption.any (0 < ·)) :: later, s)

def tick (s : Service A) : List Bulletin × Service A :=
  let (changes, s) := s.checkHealth s.state.catalog.instant
  s.announce changes

theorem announce_snd (changes : List (NodeId × NodeHealth)) (s : Service A) : (s.announce changes).2 =
    changes.foldl (fun s (id, health) => (s.publish (.nodeStateChange id health)).2) s := by
  induction changes generalizing s with
  | nil => rfl
  | cons change rest ih => exact ih _

theorem tick_snd (s : Service A) : s.tick.2 = s.healthRound := announce_snd _ _

def nodes (s : Service A) : NodeRegistry := s.state.catalog.nodes

def registry (s : Service A) : Stored NodeRegistry := ⟨s.nodes, s.state.catalog.live.db⟩

def heardIn (notes : List NodeRegistry.Note) : List Bulletin := notes.filterMap fun
  | .heard id _ _ => some (.heard id)
  | .checked .. => none

/-- What can happen between the rounds of the failure detector, and these. A round is one move with all that it
publishes: no heartbeat comes between the check and a publish. Time, the store, the bus and the lanes may be in any
state after an event or under load. -/
inductive Move (s : Service A) : List Bulletin → Service A → Prop where
  | tick : Move s s.tick.1 s.healthRound
  | event (e : NodeRegistry.Event) (outside : e.isOutside = true) {s' : Service A} (settings : s'.settings = s.settings)
    (nodes : s'.nodes = (NodeRegistry.step (silence s.settings) s.registry e).2.view) :
    Move s (heardIn (NodeRegistry.step (silence s.settings) s.registry e).1) s'
  | load {s' : Service A} (settings : s'.settings = s.settings) (nodes : s'.nodes = s.nodes) : Move s [] s'

inductive Moves (s : Service A) : List Bulletin → Service A → Prop where
  | done : Moves s [] s
  | step {s₁ s' : Service A} {log new : List Bulletin} (earlier : Moves s log s₁) (last : Move s₁ new s') :
    Moves s (log ++ new) s'

section Jobs

open Catalog

def KeepsNodes (c c' : Catalog) : Prop := c'.nodes = c.nodes

theorem composes_keepsNodes : Action.Composes KeepsNodes where
  refl _ := rfl
  trans h g := g.trans h

theorem keepsNodes_onDirectory {ε α : Type} (a : Action (Stored Directory) ε α) : (onDirectory a).Respects KeepsNodes :=
  fun _ => rfl

theorem keepsNodes_onPipelines {ε α : Type} (a : Action (Stored PipelineRegistry) ε α) :
    (onPipelines a).Respects KeepsNodes := fun _ => rfl

theorem keepsNodes_closePipelines (node : NodeId) : (closePipelines node).Respects KeepsNodes :=
  ((keepsNodes_onPipelines _).relabel _).discard

theorem nodes_register_bind {node : NodeId} {f : Unit → Action Catalog CatalogError Unit}
    (rest : ∀ x, (f x).Respects KeepsNodes) (limits : Silence) (c : Catalog) :
    ((register node >>= f).run c).2.nodes =
      (NodeRegistry.step limits ⟨c.nodes, c.live.db⟩ (.register node)).2.view := by
  have registered : ((register node).run c).2.nodes = ((NodeRegistry.register node).state ⟨c.nodes, c.live.db⟩).view := by
    rw [register, Action.run_discard]
    rfl
  rw [Action.run_bind]
  rcases ran : (register node).run c with ⟨e | x, c₁⟩
  · rw [ran] at registered
    exact registered
  · rw [ran] at registered
    exact (rest x c₁).trans registered

/-- A report does no more to the nodes than one event from outside. -/
theorem nodes_receive (r : Report) (limits : Silence) (c : Catalog) : ((receive r).run c).2.nodes = c.nodes ∨
    ∃ e : NodeRegistry.Event, e.isOutside = true ∧
      ((receive r).run c).2.nodes = (NodeRegistry.step limits ⟨c.nodes, c.live.db⟩ e).2.view := by
  cases r with
  | nodeHeartbeat h =>
    refine .inr ⟨.heartbeat c.instant h, rfl, ?_⟩
    rw [receive, Action.run_bind_ok (Action.run_get c), Action.run_discard]
    unfold NodeRegistry.step
    dsimp only
    split <;> next ran => exact congrArg (fun x => x.2.view) ran
  | containerReport node replicas =>
    refine .inr ⟨.register node, rfl, nodes_register_bind (fun _ => ?_) limits c⟩
    exact (Action.respects_get composes_keepsNodes).bind composes_keepsNodes fun _ => (keepsNodes_onDirectory _).discard
  | incrementalContainerReport node replicas =>
    refine .inr ⟨.register node, rfl, nodes_register_bind (fun _ => ?_) limits c⟩
    exact (Action.respects_get composes_keepsNodes).bind composes_keepsNodes fun _ => (keepsNodes_onDirectory _).discard
  | pipelineReport node entries =>
    exact .inr ⟨.register node, rfl, nodes_register_bind (fun _ => ((keepsNodes_onPipelines _).relabel _).discard) limits c⟩
  | nodeStateChange node health =>
    refine .inl ?_
    cases health with
    | healthy => rfl
    | healthyReadonly => rfl
    | stale => exact keepsNodes_closePipelines node c
    | dead =>
      exact (keepsNodes_closePipelines node).bind composes_keepsNodes (fun _ => (keepsNodes_onDirectory _).discard) c

/-- A lane that runs its job makes a move. -/
theorem moves_runJob (s : Service A) (lane : Executor × Nat) : ∃ log, Moves s log (s.runJob lane) := by
  unfold runJob
  split
  · exact ⟨[], .done⟩
  · next r _ =>
    have move : ∃ log, ∀ s' : Service A, s'.settings = s.settings →
        s'.nodes = ((receive r.job).run s.state.catalog).2.nodes → Move s log s' := by
      obtain same | ⟨e, outside, stepped⟩ := nodes_receive r.job (silence s.settings) s.state.catalog
      · exact ⟨[], fun s' settings nodes => .load settings (nodes.trans same)⟩
      · exact ⟨_, fun s' settings nodes => .event e outside settings (nodes.trans stepped)⟩
    obtain ⟨log, move⟩ := move
    refine ⟨[] ++ log, .step .done (move _ ?_ ?_)⟩
    · rcases ran : (onCatalog (receive r.job)).run s with ⟨e | x, s'⟩ <;> exact congrArg (·.2.settings) ran.symm
    · rcases ran : (onCatalog (receive r.job)).run s with ⟨e | x, s'⟩ <;> exact congrArg (·.2.nodes) ran.symm

end Jobs

def Bulletin.since (id : NodeId) (offers : List (NodeHealth × Bool)) : Bulletin → List (NodeHealth × Bool)
  | .heard node => if node = id then [] else offers
  | .offered node health taken => if node = id then offers ++ [(health, taken)] else offers

def offersSince (id : NodeId) (log : List Bulletin) : List (NodeHealth × Bool) := log.foldl (Bulletin.since id) []

theorem offersSince_append (id : NodeId) (log new : List Bulletin) :
    offersSince id (log ++ new) = new.foldl (Bulletin.since id) (offersSince id log) := List.foldl_append

structure Due (offers : List (NodeHealth × Bool)) (p? : Option Pulse) : Prop where
  forward : (offers.map Prod.fst ++ ahead p?).Sublist [.stale, .dead]
  current {p : Pulse} (known : p? = some p) (ill : p.health.isHealthy = false) :
    (offers.map Prod.fst).getLast? = some p.health

section Due

variable {limits : Silence} {id : NodeId} {offers : List (NodeHealth × Bool)} {before? after? p? : Option Pulse}
  {time? : Option Instant} {notes : List NodeRegistry.Note}

theorem due_healthy {since? : Option Instant} {well : NodeHealth} (alive : well.isHealthy = true) :
    Due [] (some ⟨well, since?⟩) where
  forward := by
    rw [NodeRegistry.ahead_healthy alive]
    exact .refl _
  current known ill := by
    cases known
    rw [alive] at ill
    cases ill

/-- Nothing was published of a node for which all changes are still to come. -/
theorem Due.eq_nil (h : Due offers p?) (all : ahead p? = [.stale, .dead]) : offers = [] := by
  have shorter := h.forward.length_le
  rw [all] at shorter
  simpa using shorter

theorem Due.turn (h : Due offers before?) (turn : Turn limits id before? time? notes after?)
    (outside : ∀ note ∈ notes, ∃ id now health, note = .heard id now health) :
    Due ((heardIn notes).foldl (Bulletin.since id) offers) after? := by
  cases turn with
  | @heard now health alive =>
    have mine : (heardIn [.heard id now health]).foldl (Bulletin.since id) offers = [] := by simp [heardIn, Bulletin.since]
    rw [mine]
    exact due_healthy alive
  | @another now health other different =>
    have others : (heardIn [.heard other now health]).foldl (Bulletin.since id) offers = offers := by
      simp [heardIn, Bulletin.since, different]
    rwa [others]
  | still => exact h
  | appeared new =>
    subst new
    rw [h.eq_nil rfl]
    exact due_healthy rfl
  | checked now saw returned =>
    obtain ⟨_, _, _, heard⟩ := outside _ List.mem_cons_self
    cases heard

/-- What a check changes is published. -/
theorem Due.checked {now : Instant} {new : List (NodeHealth × Bool)} (h : Due offers p?)
    (published : new.map Prod.fst = (p?.bind (Pulse.change? limits now)).toList) :
    Due (offers ++ new) (p?.map (·.checked limits now)) := by
  cases p? with
  | none =>
    obtain rfl : new = [] := List.map_eq_nil_iff.1 published
    rwa [List.append_nil]
  | some p =>
    rw [Option.bind_some] at published
    refine ⟨?_, fun {p'} known ill => ?_⟩
    · rw [List.map_append, List.append_assoc, published]
      exact ((NodeRegistry.ahead_checked limits now p).append_left _).trans h.forward
    · obtain rfl : p.checked limits now = p' := Option.some.inj known
      rw [List.map_append, published, Pulse.change?]
      by_cases same : (p.checked limits now).health = p.health
      · rw [if_pos same, Option.toList_none, List.append_nil, same]
        exact h.current rfl (same ▸ ill)
      · rw [if_neg same, Option.toList_some, List.getLast?_concat]

end Due

section Publishing

variable {s s' : Service A} {id : NodeId}

theorem announce_keeps (changes : List (NodeId × NodeHealth)) (s : Service A) :
    (s.announce changes).2.state = s.state ∧ (s.announce changes).2.settings = s.settings := by
  induction changes generalizing s with
  | nil => exact ⟨rfl, rfl⟩
  | cons change rest ih => exact ih _

/-- Every change is published once, whatever comes of it. -/
theorem foldl_since_announce (id : NodeId) (changes : List (NodeId × NodeHealth)) (s : Service A)
    (offers : List (NodeHealth × Bool)) :
    ∃ new, (s.announce changes).1.foldl (Bulletin.since id) offers = offers ++ new ∧
      new.map Prod.fst = changes.filterMap fun c => if c.1 = id then some c.2 else none := by
  induction changes generalizing s offers with
  | nil => exact ⟨[], (List.append_nil offers).symm, rfl⟩
  | cons change rest ih =>
    obtain ⟨node, health⟩ := change
    let published := s.publish (.nodeStateChange node health)
    by_cases mine : node = id
    · obtain ⟨new, log, shown⟩ := ih published.2 (offers ++ [(health, published.1.toOption.any (0 < ·))])
      refine ⟨(health, published.1.toOption.any (0 < ·)) :: new, ?_, ?_⟩
      · rw [announce, List.foldl_cons, Bulletin.since, if_pos mine]
        exact log.trans (List.append_assoc ..)
      · rw [List.map_cons, shown, List.filterMap_cons, if_pos mine]
    · obtain ⟨new, log, shown⟩ := ih published.2 offers
      refine ⟨new, ?_, ?_⟩
      · rw [announce, List.foldl_cons, Bulletin.since, if_neg mine]
        exact log
      · rw [shown, List.filterMap_cons, if_neg mine]

theorem nodes_healthRound (s : Service A) :
    s.healthRound.nodes = s.nodes.checkHealth (silence s.settings) s.state.catalog.instant := by
  rw [← tick_snd, nodes, tick, (announce_keeps _ _).1]
  rfl

theorem heard_of_step {limits : Silence} {nodes : Stored NodeRegistry} {e : NodeRegistry.Event} (outside : e.isOutside = true) :
    ∀ note ∈ (NodeRegistry.step limits nodes e).1, ∃ id now health, note = .heard id now health := by
  cases e with
  | heartbeat now h =>
    unfold NodeRegistry.step
    dsimp only
    split
    · exact fun note mem => ⟨_, _, _, List.mem_singleton.1 mem⟩
    · exact nofun
  | register id => exact nofun
  | setOpState id state => exact nofun
  | reload rows db => exact nofun
  | check now => cases outside

structure AllWell (s : Service A) : Prop where
  own : Own s.nodes
  alive {id : NodeId} {node : Node} (known : s.nodes[id]? = some node) : node.health.isHealthy = true

/-- Nodes that have been read from a store are well. -/
theorem allWell_of_reload {rows : List NodeRow} (loaded : s.nodes = NodeRegistry.reload ∅ rows) : s.AllWell where
  own := loaded ▸ NodeRegistry.own_reload NodeRegistry.own_empty rows
  alive {id node} known := by
    have pulse : pulse? (NodeRegistry.reload ∅ rows) id = some node.pulse := by
      rw [← loaded, pulse?, known]
      rfl
    obtain absent | ⟨-, fresh⟩ := NodeRegistry.unbeaten_reload ∅ rows id
    · rw [pulse, pulse?, Std.ExtTreeMap.getElem?_empty] at absent
      cases absent
    · have same : node.pulse = ⟨.healthy, none⟩ := Option.some.inj (pulse.symm.trans fresh)
      have healthy : node.health = .healthy := congrArg Pulse.health same
      rw [healthy]
      rfl

theorem AllWell.due (well : s.AllWell) (id : NodeId) : Due [] (pulse? s.nodes id) := by
  rw [pulse?]
  cases known : s.nodes[id]? with
  | none => exact ⟨.refl _, fun known => by cases known⟩
  | some node => exact due_healthy (well.alive known)

theorem due_of_moves {log : List Bulletin} (well : s.AllWell) (moves : Moves s log s') :
    Own s'.nodes ∧ ∀ id, Due (offersSince id log) (pulse? s'.nodes id) := by
  induction moves with
  | done => exact ⟨well.own, well.due⟩
  | @step s₁ s' log new earlier last ih =>
    obtain ⟨own, due⟩ := ih
    have own' (e : NodeRegistry.Event) : Own (NodeRegistry.step (silence s₁.settings) s₁.registry e).2.view :=
      NodeRegistry.own_step _ own e
    cases last with
    | tick =>
      have checked := nodes_healthRound s₁
      refine ⟨checked ▸ own' (.check s₁.state.catalog.instant), fun id => ?_⟩
      obtain ⟨new, shown, published⟩ := foldl_since_announce id _ (s₁.checkHealth s₁.state.catalog.instant).2 (offersSince id log)
      rw [checked, NodeRegistry.pulse?_checkHealth, offersSince_append]
      refine Eq.mpr (congrArg (Due · _) shown) ((due id).checked (published.trans ?_))
      exact NodeRegistry.changesOf_checked own id s₁.state.catalog.instant []
    | event e outside settings nodes =>
      refine ⟨nodes ▸ own' e, fun id => ?_⟩
      rw [nodes, offersSince_append]
      exact (due id).turn (NodeRegistry.turn_step (s := s₁.registry) _ own e id) (heard_of_step outside)
    | load settings nodes =>
      rw [nodes, List.append_nil]
      exact ⟨own, due⟩

end Publishing

/-- What was published of a node since it was last heard of. Each change was published once, the last one is its
health by now, and whether a handler has that depends on nothing but what became of it then. -/
structure Announced (offers : List (NodeHealth × Bool)) (node : Node) : Prop where
  forward : (offers.map Prod.fst).Sublist [.stale, .dead]
  well (alive : node.health.isHealthy = true) : offers = []
  current (ill : node.health.isHealthy = false) : ∃ earlier taken, offers = earlier ++ [(node.health, taken)] ∧
    ((node.health, true) ∈ offers ↔ taken = true)

theorem announced_of_due {offers : List (NodeHealth × Bool)} {node : Node} (h : Due offers (some node.pulse)) :
    Announced offers node where
  forward := (List.sublist_append_left _ _).trans h.forward
  well alive := h.eq_nil (NodeRegistry.ahead_healthy alive)
  current ill := by
    obtain rfl | ⟨earlier, ⟨health, taken⟩, rfl⟩ := offers.eq_nil_or_concat'
    · cases h.current rfl ill
    have last := h.current rfl ill
    rw [List.map_append, List.map_singleton, List.getLast?_concat] at last
    obtain rfl : health = node.health := Option.some.inj last
    have each : ((earlier ++ [(node.health, taken)]).map Prod.fst).Nodup :=
      ((List.sublist_append_left _ _).trans h.forward).nodup (by decide)
    refine ⟨earlier, taken, rfl, ?_⟩
    rw [List.map_append, List.map_singleton] at each
    have once : (node.health, true) ∉ earlier := fun mem =>
      (List.nodup_append.1 each).2.2 _ (List.mem_map_of_mem mem) _ List.mem_cons_self rfl
    simp [once, eq_comm]

structure Ready (s : Service A) : Prop where
  wired : s.bus.subscriptions = wiredBus.subscriptions
  intake : s.bus.closed = false
  placed (e : Executor) : (s.pools e).Placed
  serial : (s.pools .control).lanes.length = 1
  taking : (s.pools .control).isClosed = false

def controlRoom (s : Service A) : Nat := (s.pools .control).room 0

/-- A change is taken if there is room for it, whatever else goes on. -/
theorem Ready.publish {s : Service A} (ready : s.Ready) (id : NodeId) (health : NodeHealth) :
    ((s.publish (.nodeStateChange id health)).1.toOption.any (0 < ·) = decide (0 < s.controlRoom)) ∧
      (s.publish (.nodeStateChange id health)).2.Ready ∧
      (s.publish (.nodeStateChange id health)).2.controlRoom = s.controlRoom - 1 := by
  let change : Report := .nodeStateChange id health
  have bound : s.bus.subscriptions change.kind = [⟨"node-state-change", .control, ()⟩] := by
    rw [ready.wired]
    rfl
  have lane : ((s.pools .control).route id).1 = 0 := by
    have inRange := (ready.placed .control).route_lt id
    rw [ready.serial] at inRange
    exact Nat.lt_one_iff.1 inRange
  obtain ⟨result, bus, pools, published, delivered⟩ :
      ∃ result bus pools, s.bus.publish (fun _ report => report) change s.pools = (result, bus, pools) ∧
        Bus.Delivered (fun _ report => report) change _ s.bus s.pools result bus pools :=
    ⟨_, _, _, rfl, Bus.delivered_publish ready.intake ready.placed change bound⟩
  have run : s.publish change = (result, { s with bus, pools }) := by
    rw [Service.publish, published]
  rw [run]
  have handed : pools .control = (s.pools .control).handed id [change] := delivered.handed .control
  refine ⟨?_, ⟨?_, ?_, ?_, ?_, ?_⟩, ?_⟩
  · have told : Bus.verdicts id [⟨"node-state-change", .control, ()⟩] s.pools = [(s.pools .control).verdict id 0] := rfl
    have space := Lanes.isOk_verdict ready.taking id 0
    rw [lane] at space
    refine delivered.told.any_taken.trans (decide_eq_decide.2 ?_)
    rw [Bus.taken, List.countP_pos_iff]
    simp [change, Report.origin, told, space, controlRoom]
  · rw [delivered.counted]
    exact ready.wired
  · rw [delivered.counted]
    exact ready.intake
  · intro e
    dsimp only
    rw [delivered.handed]
    exact (ready.placed e).handed _ _
  · dsimp only
    rw [handed, Lanes.length_handed (ready.placed .control), ready.serial]
  · dsimp only
    rw [handed, Lanes.isClosed_handed (ready.placed .control), ready.taking]
  · have left := Lanes.room_handed (ready.placed .control) ready.taking id [change]
    rw [lane] at left
    exact (congrArg (Lanes.room · 0) handed).trans left

/-- A round publishes every change that it finds, and as many of them are taken as there is room for. -/
theorem Ready.announce {s : Service A} (ready : s.Ready) (changes : List (NodeId × NodeHealth)) :
    (s.announce changes).1 =
      changes.mapIdx fun i change => .offered change.1 change.2 (decide (i < s.controlRoom)) := by
  induction changes generalizing s with
  | nil => rfl
  | cons change rest ih =>
    obtain ⟨taken, ready', room⟩ := ready.publish change.1 change.2
    rw [Service.announce, List.mapIdx_cons]
    dsimp only
    rw [taken, ih ready', room]
    simp only [Nat.lt_sub_iff_add_lt]

/-- Whatever goes on between the rounds of the failure detector, every node that silence has moved was announced once
for the health that it has by now. A change is taken just if the lane of control has room for it and for those of
the same round before it. -/
theorem announced {s s' : Service A} {log : List Bulletin} (well : s.AllWell) (moves : Moves s log s') :
    (∀ (id : NodeId) (node : Node), s'.nodes[id]? = some node → Announced (offersSince id log) node) ∧
      (s'.Ready → s'.tick.1 = (s'.nodes.changes (silence s'.settings) s'.state.catalog.instant).mapIdx
        fun i change => .offered change.1 change.2 (decide (i < s'.controlRoom))) := by
  refine ⟨fun id node known => ?_, fun ready => ?_⟩
  · have due := (due_of_moves well moves).2 id
    rw [pulse?, known] at due
    exact announced_of_due due
  · have checked : (s'.checkHealth s'.state.catalog.instant).2.Ready :=
      ⟨ready.wired, ready.intake, ready.placed, ready.serial, ready.taking⟩
    exact checked.announce _

section Crowded

def crowded : Service Unit :=
  let settings : Settings := { reportQueueDepth := 1, staleNodeInterval := 10, deadNodeInterval := 20 }
  { settings
    authority := ()
    bus := wiredBus
    pools := createPool settings
    state :=
      { catalog :=
          { clock := 5
            nodes := NodeRegistry.reload ∅ [⟨.unresolved ⟨⟨3⟩⟩, .inService⟩, ⟨.unresolved ⟨⟨4⟩⟩, .inService⟩]
            live := ⟨"scm-1", .empty⟩
            disk := {} } } }

def later (instant : Instant) (s : Service A) : Service A :=
  { s with state := { s.state with catalog := { s.state.catalog with instant } } }

def joined (id : NodeId) (s : Service A) : Service A :=
  { s with state := { s.state with catalog := { s.state.catalog with
      nodes := (NodeRegistry.step (silence s.settings) s.registry (.register id)).2.view } } }

def relieved (s : Service A) : Service A :=
  ((s.setPool .control (s.pools .control).start).takeNext (.control, 0)).runJob (.control, 0)

def silent : Service Unit := (joined ⟨⟨5⟩⟩ crowded.healthRound).later 40

def calmer : Service Unit := silent.healthRound.relieved.later 80

def crowdedLog : List Bulletin :=
  [.offered ⟨⟨3⟩⟩ .dead true, .offered ⟨⟨4⟩⟩ .dead false, .offered ⟨⟨5⟩⟩ .dead true]

theorem moves_crowded : Moves crowded crowdedLog calmer.healthRound := by
  have quiet : crowded.tick.1 = [] := by decide +kernel
  have refused : silent.tick.1 = [.offered ⟨⟨3⟩⟩ .dead true, .offered ⟨⟨4⟩⟩ .dead false] := by decide +kernel
  have taken : calmer.tick.1 = [.offered ⟨⟨5⟩⟩ .dead true] := by decide +kernel
  have untouched : calmer.nodes = silent.healthRound.nodes := by decide +kernel
  have first : Moves crowded [] crowded.healthRound := quiet ▸ .step .done .tick
  have joins : Moves crowded [] silent := .step first (.event (.register ⟨⟨5⟩⟩) rfl rfl rfl)
  have crowds : Moves crowded _ silent.healthRound := .step joins .tick
  have calms : Moves crowded _ calmer := .step crowds (.load rfl untouched)
  have last : Moves crowded (([] ++ silent.tick.1 ++ []) ++ calmer.tick.1) calmer.healthRound := .step calms .tick
  rw [refused, taken] at last
  exact last

theorem announced_crowded : crowded.AllWell ∧ Moves crowded crowdedLog calmer.healthRound ∧
    (∀ (id : NodeId) (node : Node), calmer.healthRound.nodes[id]? = some node → Announced (offersSince id crowdedLog) node) ∧
    offersSince ⟨⟨3⟩⟩ crowdedLog = [(.dead, true)] ∧ crowded.Ready ∧ crowded.controlRoom = 1 := by
  have well : crowded.AllWell := allWell_of_reload rfl
  have placed (e : Executor) : (crowded.pools e).Placed := by
    cases e <;> exact Lanes.placed_create ..
  exact ⟨well, moves_crowded, (announced well moves_crowded).1, by decide, ⟨rfl, rfl, placed, rfl, rfl⟩, rfl⟩

/-- Two nodes die at once and the lane of control has room for one change. In a later round there is room, and all
that is published is taken, but the other node is not announced. -/
theorem unannounced_in_the_end : crowded.AllWell ∧ Moves crowded crowdedLog calmer.healthRound ∧
    calmer.controlRoom = 1 ∧ calmer.tick.1 = [.offered ⟨⟨5⟩⟩ .dead true] ∧
    calmer.healthRound.nodes[(⟨⟨4⟩⟩ : NodeId)]?.map Node.health = some .dead ∧
    (.dead, true) ∉ offersSince ⟨⟨4⟩⟩ crowdedLog :=
  ⟨allWell_of_reload rfl, moves_crowded, by decide +kernel, by decide +kernel, by decide +kernel, by decide⟩

end Crowded

end Service

end ClusterCatalog
