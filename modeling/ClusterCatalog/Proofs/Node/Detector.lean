import Mathlib.Data.List.Induction
import ClusterCatalog.Proofs.Node.Watch
/-!
The failure detector. Health is changed step by step, by rules that look at the health before; right after a
check it is nonetheless a function of the time for which the node has been silent.
-/
namespace ClusterCatalog

namespace NodeRegistry

def healthAfter (limits : Silence) (well : NodeHealth) (silent : Nat) : NodeHealth :=
  if limits.dead < silent then .dead else if limits.stale < silent then .stale else well

theorem healthAfter_self (limits : Silence) (well : NodeHealth) (now : Instant) :
    healthAfter limits well (now - now) = well := by
  simp [healthAfter]

/-- A look in between makes no difference. -/
theorem afterSilence_healthAfter (limits : Silence) {well : NodeHealth} (alive : well.isHealthy = true)
    {before after : Nat} (le : before ≤ after) :
    afterSilence limits (healthAfter limits well before) after = healthAfter limits well after := by
  unfold afterSilence healthAfter
  by_cases dead : limits.dead < after
  · rw [if_pos dead, if_pos dead]
  · have undead : ¬ limits.dead < before := by omega
    rw [if_neg dead, if_neg dead, if_neg undead]
    by_cases stale : limits.stale < after
    · by_cases was : limits.stale < before <;> simp [stale, was, alive]
    · have unstale : ¬ limits.stale < before := by omega
      simp [stale, unstale]

inductive Tracked (limits : Silence) (now : Instant) : Option (Instant × NodeHealth) → Option Pulse → Prop where
  | unknown : Tracked limits now none none
  | waiting : Tracked limits now none (some ⟨.healthy, none⟩)
  | timed {since looked : Instant} {well : NodeHealth} (alive : well.isHealthy = true) (started : since ≤ looked)
    (past : looked ≤ now) :
    Tracked limits now (some (since, well)) (some ⟨healthAfter limits well (looked - since), some since⟩)

section Run

variable {limits : Silence} {id : NodeId} {now later : Instant} {notes noted : List Note} {before? after? : Option Pulse}
  {time? : Option Instant} {started? : Option (Instant × NodeHealth)}

theorem Tracked.mono (h : Tracked limits now started? before?) (le : now ≤ later) : Tracked limits later started? before? := by
  cases h with
  | unknown => exact .unknown
  | waiting => exact .waiting
  | timed alive started past => exact .timed alive started (Nat.le_trans past le)

/-- A check makes the health of a known node a function of the time since its clock was started. -/
theorem Tracked.checked (h : Tracked limits now started? before?) (le : now ≤ later) :
    (started? = none ∧ before? = none) ∨ ∃ since well, started?.or (some (later, .healthy)) = some (since, well) ∧
      well.isHealthy = true ∧ since ≤ later ∧
      before?.map (·.checked limits later) = some ⟨healthAfter limits well (later - since), some since⟩ := by
  cases h with
  | unknown => exact .inl ⟨rfl, rfl⟩
  | waiting =>
    refine .inr ⟨later, .healthy, rfl, rfl, Nat.le_refl later, ?_⟩
    rw [healthAfter_self]
    rfl
  | @timed since looked well alive started past =>
    have silence : looked - since ≤ later - since := Nat.sub_le_sub_right (Nat.le_trans past le) since
    refine .inr ⟨since, well, rfl, alive, Nat.le_trans started (Nat.le_trans past le), ?_⟩
    exact congrArg (fun x => some (⟨x, some since⟩ : Pulse)) (afterSilence_healthAfter limits alive silence)

theorem Tracked.turn (h : Tracked limits now (clock? id notes) before?)
    (turn : Turn limits id before? time? noted after?) (le : now ≤ later) (inTime : ∀ t ∈ time?, now ≤ t ∧ t ≤ later) :
    Tracked limits later (clock? id (notes ++ noted)) after? := by
  cases turn with
  | @heard t health alive =>
    have started : ⟨health, some t⟩ = (⟨healthAfter limits health (t - t), some t⟩ : Pulse) := by
      rw [healthAfter_self]
    rw [clock?_heard, started]
    exact .timed alive (Nat.le_refl t) (inTime t rfl).2
  | another t health different =>
    rw [clock?_heard_of_ne different]
    exact h.mono le
  | still =>
    rw [List.append_nil]
    exact h.mono le
  | appeared new =>
    subst new
    rw [List.append_nil]
    generalize clock? id notes = started? at h ⊢
    cases h
    exact .waiting
  | checked t saw returned =>
    obtain ⟨after, before⟩ := inTime t rfl
    rw [clock?_checked]
    obtain ⟨unstarted, rfl⟩ | ⟨since, well, started, alive, past, checked⟩ := h.checked after
    · rw [unstarted, if_neg fun mem => Bool.false_ne_true (saw.1 mem)]
      exact .unknown
    · have known : before?.isSome = true := by
        have some := congrArg Option.isSome checked
        rwa [Option.isSome_map] at some
      rw [if_pos (saw.2 known), started, checked]
      exact .timed alive past before

theorem watch_concat (s : Stored NodeRegistry) (events : List Event) (e : Event) :
    watch limits s (events ++ [e]) = ((watch limits s events).1 ++ (step limits (watch limits s events).2 e).1,
      (step limits (watch limits s events).2 e).2) := by
  induction events generalizing s with
  | nil => simp [watch]
  | cons first rest ih => simp [watch, ih]

theorem own_watch (limits : Silence) {s : Stored NodeRegistry} (own : Own s.view) (events : List Event) :
    Own (watch limits s events).2.view := by
  induction events generalizing s with
  | nil => exact own
  | cons e rest ih => exact ih (own_step limits own e)

theorem inTime_concat {events : List Event} {e : Event} :
    InTime (events ++ [e]) ↔ InTime events ∧ ∀ t ∈ e.time?, ∀ before ∈ events.filterMap Event.time?, before ≤ t := by
  cases here : e.time? with
  | none => simp [InTime, here]
  | some t => simp [InTime, here, List.pairwise_append]

theorem own_empty : Own ∅ := by
  intro id node known
  simp at known

theorem tracked_watch (limits : Silence) (db : Database) {events : List Event} (inTime : InTime events) (id : NodeId)
    (past : ∀ t ∈ events.filterMap Event.time?, t ≤ now) :
    Tracked limits now (clock? id (watch limits ⟨∅, db⟩ events).1) (pulse? (watch limits ⟨∅, db⟩ events).2.view id) := by
  induction events using List.reverseRecOn generalizing now with
  | nil =>
    show Tracked limits now none (pulse? ∅ id)
    simp only [pulse?, Std.ExtTreeMap.getElem?_empty, Option.map_none]
    exact .unknown
  | append_singleton events e ih =>
    obtain ⟨earlier, since⟩ := inTime_concat.1 inTime
    have turn := turn_step limits (own_watch limits (s := ⟨∅, db⟩) own_empty events) e id
    rw [watch_concat]
    cases here : e.time? with
    | none =>
      rw [here] at turn
      exact (ih earlier fun t mem => past t (by simp [mem])).turn turn (Nat.le_refl now) fun _ same => by cases same
    | some t =>
      rw [here] at turn
      have le : t ≤ now := past t (by simp [here])
      exact (ih earlier (since t here)).turn turn le fun _ same => Option.some.inj same ▸ ⟨Nat.le_refl t, le⟩

/-- The changes that silence can still bring about. -/
def ahead : Option Pulse → List NodeHealth
  | none => [.stale, .dead]
  | some p => match p.health with
    | .healthy => [.stale, .dead]
    | .healthyReadonly => [.stale, .dead]
    | .stale => [.dead]
    | .dead => []

theorem ahead_healthy {p : Pulse} (alive : p.health.isHealthy = true) : ahead (some p) = [.stale, .dead] := by
  obtain ⟨health, since?⟩ := p
  cases health <;> simp_all [ahead, NodeHealth.isHealthy]

def told (id : NodeId) (notes : List Note) : List NodeHealth := notes.flatMap (Note.changesOf id)

def Unheard (id : NodeId) (notes : List Note) : Prop := ∀ note ∈ notes, note.heard? id = none

theorem ahead_checked (limits : Silence) (now : Instant) (p : Pulse) :
    ((p.change? limits now).toList ++ ahead (some (p.checked limits now))).Sublist (ahead (some p)) := by
  obtain ⟨health, since?⟩ := p
  cases since? with
  | none => simp [Pulse.change?, Pulse.checked, ahead]
  | some since =>
    by_cases dead : limits.dead < now - since
    · cases health <;> simp [Pulse.change?, Pulse.checked, afterSilence, ahead, dead]
    · by_cases stale : limits.stale < now - since
      · cases health <;> simp [Pulse.change?, Pulse.checked, afterSilence, ahead, dead, stale, NodeHealth.isHealthy]
      · simp [Pulse.change?, Pulse.checked, afterSilence, dead, stale]

theorem Turn.forward (turn : Turn limits id before? time? noted after?) (unheard : Unheard id noted) :
    (told id noted ++ ahead after?).Sublist (ahead before?) := by
  cases turn with
  | heard t alive =>
    have silent := unheard _ List.mem_cons_self
    simp [Note.heard?] at silent
  | another t health different => exact .refl _
  | still => exact .refl _
  | appeared new =>
    subst new
    exact .refl _
  | checked t saw returned =>
    rw [told, List.flatMap_singleton, returned]
    cases before? with
    | none => exact .refl _
    | some p => exact ahead_checked limits t p

theorem Turn.known (turn : Turn limits id before? time? noted after?) (known : before?.isSome = true) :
    after?.isSome = true := by
  cases turn with
  | heard t alive => rfl
  | another t health different => exact known
  | still => exact known
  | appeared new => rfl
  | checked t saw returned => rwa [Option.isSome_map]

theorem forward_watch {s : Stored NodeRegistry} (own : Own s.view) (events : List Event)
    (unheard : Unheard id (watch limits s events).1) :
    (told id (watch limits s events).1 ++ ahead (pulse? (watch limits s events).2.view id)).Sublist
      (ahead (pulse? s.view id)) := by
  induction events generalizing s with
  | nil => exact .refl _
  | cons e rest ih =>
    have first := (turn_step limits own e id).forward fun note mem => unheard note (List.mem_append_left _ mem)
    have later := ih (own_step limits own e) fun note mem => unheard note (List.mem_append_right _ mem)
    rw [watch, told, List.flatMap_append, List.append_assoc]
    exact (later.append_left _).trans first

theorem known_watch (limits : Silence) (id : NodeId) {s : Stored NodeRegistry} (own : Own s.view) (events : List Event)
    (known : (pulse? s.view id).isSome = true) : (pulse? (watch limits s events).2.view id).isSome = true := by
  induction events generalizing s with
  | nil => exact known
  | cons e rest ih => exact ih (own_step limits own e) ((turn_step limits own e id).known known)

structure Judged (limits : Silence) (silent : Nat) (well health : NodeHealth) : Prop where
  dead : health = .dead ↔ limits.dead < silent
  stale : health = .stale ↔ limits.stale < silent ∧ silent ≤ limits.dead
  well : ¬ limits.dead < silent → ¬ (limits.stale < silent ∧ silent ≤ limits.dead) → health = well

theorem judged_healthAfter {well : NodeHealth} (alive : well.isHealthy = true) (silent : Nat) :
    Judged limits silent well (healthAfter limits well silent) := by
  unfold healthAfter
  by_cases dead : limits.dead < silent
  · rw [if_pos dead]
    exact ⟨by simp [dead], by simp [Nat.not_le.2 dead], fun undead => absurd dead undead⟩
  · have le := Nat.not_lt.1 dead
    rw [if_neg dead]
    by_cases stale : limits.stale < silent
    · rw [if_pos stale]
      exact ⟨by simp [dead], by simp [stale, le], fun _ unstale => absurd ⟨stale, le⟩ unstale⟩
    · rw [if_neg stale]
      refine ⟨?_, ?_, fun _ _ => rfl⟩
      · cases well <;> simp_all [NodeHealth.isHealthy]
      · cases well <;> simp_all [NodeHealth.isHealthy]

structure Detects (limits : Silence) (now : Instant) (notes : List Note) (s : Stored NodeRegistry) : Prop where
  /-- Right after a check health is a function of the time since the clock of the node was started. -/
  judged {id : NodeId} {node : Node} (known : (step limits s (.check now)).2.view[id]? = some node) :
    ∃ since well, clock? id (notes ++ (step limits s (.check now)).1) = some (since, well) ∧ since ≤ now ∧
      Judged limits (now - since) well node.health
  /-- The check returns the nodes whose health it changed, each once. -/
  returned {id : NodeId} {health : NodeHealth} : (id, health) ∈ s.view.changes limits now ↔
    ((step limits s (.check now)).2.view[id]?.map Node.health = some health ∧ s.view[id]?.map Node.health ≠ some health)
  once : ((s.view.changes limits now).map Prod.fst).Nodup
  noted : (step limits s (.check now)).1 = [.checked now s.view.keys (s.view.changes limits now)]
  forward {id : NodeId} {events : List Event} (unheard : Unheard id (watch limits s events).1) :
    (told id (watch limits s events).1).Sublist [.stale, .dead]
  back {id : NodeId} {events : List Event} (unheard : Unheard id (watch limits s events).1) {node : Node}
    (known : s.view[id]? = some node) (ill : node.health.isHealthy = false) :
    ∃ node', (watch limits s events).2.view[id]? = some node' ∧ node'.health.isHealthy = false

/-- The changes of a check are the nodes whose health is another one after it. -/
theorem mem_changes_iff_health {nodes : NodeRegistry} (own : Own nodes) {health : NodeHealth} :
    (id, health) ∈ nodes.changes limits now ↔
      ((nodes.checkHealth limits now)[id]?.map Node.health = some health ∧
        nodes[id]?.map Node.health ≠ some health) := by
  have shown (nodes : NodeRegistry) : nodes[id]?.map Node.health = (pulse? nodes id).map Pulse.health := by
    rw [pulse?, Option.map_map]
    rfl
  rw [mem_changes_iff own, shown, shown, pulse?_checkHealth]
  cases pulse? nodes id with
  | none => simp
  | some p =>
    by_cases same : (p.checked limits now).health = p.health
    · simp [Pulse.change?, same]
    · by_cases new : (p.checked limits now).health = health
      · simp [Pulse.change?, ← new, same, Ne.symm same]
      · simp [Pulse.change?, same, new]

/-- Silence can bring about no more than going stale and then dead. -/
theorem ahead_sublist (p? : Option Pulse) : (ahead p?).Sublist [.stale, .dead] := by
  cases p? with
  | none => exact .refl _
  | some p => cases here : p.health <;> simp [ahead, here]

/-- Without a heartbeat no node gets well again. -/
theorem ill_watch {s : Stored NodeRegistry} (own : Own s.view) {events : List Event}
    (unheard : Unheard id (watch limits s events).1) {node : Node} (known : s.view[id]? = some node)
    (ill : node.health.isHealthy = false) :
    ∃ node', (watch limits s events).2.view[id]? = some node' ∧ node'.health.isHealthy = false := by
  have was : pulse? s.view id = some node.pulse := by
    rw [pulse?, known]
    rfl
  have left := (List.sublist_append_right _ _).trans (forward_watch own events unheard)
  have still := known_watch limits id own events (by rw [was]; rfl)
  rw [pulse?, Option.isSome_map] at still
  obtain ⟨node', found⟩ := Option.isSome_iff_exists.1 still
  refine ⟨node', found, ?_⟩
  rw [was, pulse?, found] at left
  have shorter := left.length_le
  cases here : node.health <;> cases here' : node'.health <;>
    simp_all [ahead, Node.pulse, NodeHealth.isHealthy]

/-- A check judges every node that it sees by its clock. -/
theorem judged_check {nodes : NodeRegistry} (tracked : Tracked limits now (clock? id notes) (pulse? nodes id))
    {node : Node} (known : (nodes.checkHealth limits now)[id]? = some node) :
    ∃ since well, clock? id (notes ++ [.checked now nodes.keys (nodes.changes limits now)]) = some (since, well) ∧
      since ≤ now ∧ Judged limits (now - since) well node.health := by
  have beats : (pulse? nodes id).map (·.checked limits now) = some node.pulse := by
    rw [← pulse?_checkHealth, pulse?, known]
    rfl
  have seen : id ∈ nodes.keys := by
    have some := congrArg Option.isSome beats
    rw [Option.isSome_map, pulse?, Option.isSome_map] at some
    rwa [Std.ExtTreeMap.mem_keys, Std.ExtTreeMap.mem_iff_isSome_getElem?]
  obtain ⟨-, unknown⟩ | ⟨since, well, started, alive, past, checked⟩ := tracked.checked (Nat.le_refl now)
  · rw [unknown] at beats
    cases beats
  · have health : node.health = healthAfter limits well (now - since) :=
      congrArg Pulse.health (Option.some.inj (beats.symm.trans checked))
    refine ⟨since, well, ?_, past, health ▸ judged_healthAfter alive (now - since)⟩
    exact clock?_checked.trans ((if_pos seen).symm ▸ started)

theorem detects (limits : Silence) (db : Database) {events : List Event} {now : Instant}
    (inTime : InTime (events ++ [.check now])) :
    Detects limits now (watch limits ⟨∅, db⟩ events).1 (watch limits ⟨∅, db⟩ events).2 := by
  obtain ⟨earlier, past⟩ := inTime_concat.1 inTime
  have own : Own (watch limits ⟨∅, db⟩ events).2.view := own_watch limits own_empty events
  exact
    { judged := fun {id node} known => judged_check (tracked_watch limits db earlier id (past now rfl)) known
      returned := mem_changes_iff_health own
      once := nodup_changes own
      noted := rfl
      forward := fun {id events} unheard =>
        ((List.sublist_append_left _ _).trans (forward_watch own events unheard)).trans (ahead_sublist _)
      back := fun {id events} unheard {node} known ill => ill_watch own unheard known ill }

end Run

section Mixed

def smallDetails (id : NodeId) : NodeDetails := ⟨id, "small", .unspecified⟩

def fussyDatabase : Database := ⟨fun _ => .rows ∅, fun name => if name = .nodes then [false, true] else []⟩

def mixedEvents : List Event :=
  [.heartbeat 0 ⟨smallDetails ⟨⟨1⟩⟩, true⟩, .heartbeat 0 ⟨smallDetails ⟨⟨5⟩⟩, false⟩, .register ⟨⟨2⟩⟩, .check 5,
    .reload [⟨smallDetails ⟨⟨3⟩⟩, .inService⟩] .empty, .check 12, .heartbeat 30 ⟨smallDetails ⟨⟨1⟩⟩, true⟩]

theorem detects_mixed : InTime (mixedEvents ++ [.check 36]) ∧
    Detects ⟨10, 30⟩ 36 (watch ⟨10, 30⟩ ⟨∅, fussyDatabase⟩ mixedEvents).1 (watch ⟨10, 30⟩ ⟨∅, fussyDatabase⟩ mixedEvents).2 ∧
    told ⟨⟨1⟩⟩ (watch ⟨10, 30⟩ ⟨∅, fussyDatabase⟩ mixedEvents).1 = [.stale] ∧
    (watch ⟨10, 30⟩ ⟨∅, fussyDatabase⟩ mixedEvents).2.view.changes ⟨10, 30⟩ 36 = [(⟨⟨2⟩⟩, .dead), (⟨⟨3⟩⟩, .stale)] ∧
    (watch ⟨10, 30⟩ ⟨∅, fussyDatabase⟩ (mixedEvents ++ [.check 36])).2.view.values.map Node.health =
      [.healthyReadonly, .dead, .stale] := by
  have inTime : InTime (mixedEvents ++ [.check 36]) := by
    unfold InTime
    decide
  refine ⟨inTime, detects ⟨10, 30⟩ fussyDatabase inTime, ?_, ?_, ?_⟩
  · decide +kernel
  · decide +kernel
  · decide +kernel

end Mixed

end NodeRegistry

end ClusterCatalog
