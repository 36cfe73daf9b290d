import ClusterCatalog.Proofs.Node.Known
/-!
The registry of nodes under watch: heartbeats, registrations, rows and checks in any order, with what can be seen of
them. All that one of them can do to a node is said once.
-/
namespace ClusterCatalog

theorem values_eq_map_toList {κ α : Type} {cmp : κ → κ → Ordering} [Std.TransCmp cmp] (m : Std.ExtTreeMap κ α cmp) :
    m.values = m.toList.map Prod.snd := by
  obtain ⟨m⟩ := m
  induction m using Std.ExtDTreeMap.inductionOn with
  | mk t =>
    show t.inner.values = (Std.DTreeMap.Internal.Impl.Const.toList t.inner).map Prod.snd
    rw [Std.DTreeMap.Internal.Impl.values_eq_map_snd, Std.DTreeMap.Internal.Impl.Const.toList_eq_toListModel_map,
      List.map_map]
    rfl

/-- What the failure detector goes by: the health of a node, and when its clock was started. -/
structure Pulse where
  health : NodeHealth
  since? : Option Instant
  deriving DecidableEq, Repr

def Node.pulse (n : Node) : Pulse := ⟨n.health, n.lastHeartbeat?⟩

namespace NodeRegistry

def Own (nodes : NodeRegistry) : Prop := ∀ (id : NodeId) (node : Node), nodes[id]? = some node → node.details.id = id

def pulse? (nodes : NodeRegistry) (id : NodeId) : Option Pulse := nodes[id]?.map Node.pulse

inductive Event where
  | heartbeat (now : Instant) (h : Heartbeat)
  | register (id : NodeId)
  | setOpState (id : NodeId) (state : OperationalState)
  /-- Rows are taken over, and it may be another store that is live from then on. -/
  | reload (rows : List NodeRow) (db : Database)
  | check (now : Instant)

inductive Note where
  | heard (id : NodeId) (now : Instant) (health : NodeHealth)
  | checked (now : Instant) (seen : List NodeId) (changes : List (NodeId × NodeHealth))
  deriving DecidableEq, Repr

def step (limits : Silence) (s : Stored NodeRegistry) : Event → List Note × Stored NodeRegistry
  | .heartbeat now h => match (heartbeat now h).run s with
    | (.ok _, t) => ([.heard h.details.id now (healthOf h)], t)
    | (.error _, t) => ([], t)
  | .register id => ([], (register id).state s)
  | .setOpState id state => ([], (setOpState id state).state s)
  | .reload rows db => ([], ⟨s.view.reload rows, db⟩)
  | .check now => ([.checked now s.view.keys (s.view.changes limits now)], { s with view := s.view.checkHealth limits now })

def watch (limits : Silence) (s : Stored NodeRegistry) : List Event → List Note × Stored NodeRegistry
  | [] => ([], s)
  | e :: rest =>
    let later := watch limits (step limits s e).2 rest
    ((step limits s e).1 ++ later.1, later.2)

def Event.time? : Event → Option Instant
  | .heartbeat now _ => some now
  | .check now => some now
  | _ => none

def InTime (events : List Event) : Prop := (events.filterMap Event.time?).Pairwise (· ≤ ·)

section Notes

variable {id other : NodeId} {now : Instant} {health : NodeHealth} {notes : List Note} {seen : List NodeId}
  {changes : List (NodeId × NodeHealth)}

def Note.heard? (id : NodeId) : Note → Option (Instant × NodeHealth)
  | .heard node now health => if node = id then some (now, health) else none
  | .checked .. => none

def Note.seen? (id : NodeId) : Note → Option Instant
  | .heard .. => none
  | .checked now seen _ => if id ∈ seen then some now else none

def Note.changesOf (id : NodeId) : Note → List NodeHealth
  | .heard .. => []
  | .checked _ _ changes => changes.filterMap fun c => if c.1 = id then some c.2 else none

/-- When the clock of a node was started, with the health that it starts from: by its last heartbeat, or by the first
check that saw it if it never sent one. -/
def clock? (id : NodeId) (notes : List Note) : Option (Instant × NodeHealth) :=
  (notes.filterMap (Note.heard? id)).getLast?.or ((notes.findSome? (Note.seen? id)).map (·, .healthy))

theorem clock?_heard : clock? id (notes ++ [.heard id now health]) = some (now, health) := by
  simp [clock?, Note.heard?]

theorem clock?_heard_of_ne (h : other ≠ id) : clock? id (notes ++ [.heard other now health]) = clock? id notes := by
  simp [clock?, Note.heard?, Note.seen?, h, List.findSome?_append]

theorem clock?_checked : clock? id (notes ++ [.checked now seen changes]) =
    (clock? id notes).or (if id ∈ seen then some (now, .healthy) else none) := by
  have heard : (notes ++ [Note.checked now seen changes]).filterMap (Note.heard? id) = notes.filterMap (Note.heard? id) := by
    simp [Note.heard?]
  have saw : (notes ++ [Note.checked now seen changes]).findSome? (Note.seen? id) =
      (notes.findSome? (Note.seen? id)).or (if id ∈ seen then some now else none) := by
    rw [List.findSome?_append]
    by_cases h : id ∈ seen <;> simp [Note.seen?, h]
  rw [clock?, heard, saw, clock?, Option.or_assoc]
  congr 1
  by_cases h : id ∈ seen <;> cases notes.findSome? (Note.seen? id) <;> simp [h]

end Notes

end NodeRegistry

namespace Pulse

def checked (limits : Silence) (now : Instant) (p : Pulse) : Pulse :=
  match p.since? with
  | none => { p with since? := some now }
  | some since => { p with health := NodeRegistry.afterSilence limits p.health (now - since) }

def change? (limits : Silence) (now : Instant) (p : Pulse) : Option NodeHealth :=
  if (p.checked limits now).health = p.health then none else some (p.checked limits now).health

theorem pulse_checked (limits : Silence) (now : Instant) (node : Node) :
    (NodeRegistry.checked limits now node).pulse = node.pulse.checked limits now := by
  unfold NodeRegistry.checked checked Node.pulse
  cases node.lastHeartbeat? <;> rfl

end Pulse

namespace NodeRegistry

section Steps

variable {limits : Silence} {s : Stored NodeRegistry} {nodes : NodeRegistry} {id other : NodeId} {now : Instant}

/-- A node is put under its own identifier, or the nodes stay as they are. -/
theorem own_insert (own : Own nodes) (node : Node) : Own (nodes.insert node.details.id node) := by
  intro id node' known
  rw [Std.ExtTreeMap.getElem?_insert] at known
  split at known
  · next same =>
    obtain rfl := Option.some.inj known
    exact Std.LawfulEqOrd.eq_of_compare same
  · exact own id node' known

theorem pulse?_insert (nodes : NodeRegistry) (node : Node) (id : NodeId) :
    pulse? (nodes.insert node.details.id node) id = if node.details.id = id then some node.pulse else pulse? nodes id := by
  rw [pulse?, Std.ExtTreeMap.getElem?_insert]
  by_cases same : node.details.id = id <;> simp [same, pulse?]

def Unbeaten (nodes nodes' : NodeRegistry) : Prop := ∀ id, pulse? nodes' id = pulse? nodes id ∨
  pulse? nodes id = none ∧ pulse? nodes' id = some ⟨.healthy, none⟩

theorem Unbeaten.refl (nodes : NodeRegistry) : Unbeaten nodes nodes := fun _ => .inl rfl

theorem Unbeaten.trans {nodes nodes' nodes'' : NodeRegistry} (h : Unbeaten nodes nodes') (g : Unbeaten nodes' nodes'') :
    Unbeaten nodes nodes'' := by
  intro id
  obtain same | ⟨new, appeared⟩ := h id
  · rw [← same]
    exact g id
  · obtain kept | ⟨absent, -⟩ := g id
    · exact .inr ⟨new, kept.trans appeared⟩
    · rw [appeared] at absent
      cases absent

theorem unbeaten_insert (node : Node) (h : pulse? nodes node.details.id = some node.pulse ∨
    pulse? nodes node.details.id = none ∧ node.pulse = ⟨.healthy, none⟩) :
    Unbeaten nodes (nodes.insert node.details.id node) := by
  intro id
  rw [pulse?_insert]
  split
  · next same =>
    subst same
    exact h.imp Eq.symm fun ⟨new, fresh⟩ => ⟨new, congrArg some fresh⟩
  · exact .inl rfl

theorem unbeaten_accept (nodes : NodeRegistry) (row : NodeRow) : Unbeaten nodes (accept nodes row) := by
  intro id
  by_cases same : row.details.id = id
  · subst same
    cases known : nodes[row.details.id]? with
    | none => exact .inr ⟨by simp [pulse?, known], by simp [pulse?, accept, known, Node.ofRow, Node.pulse]⟩
    | some node => exact .inl (by simp [pulse?, accept, known, Node.pulse])
  · exact .inl (by simp [pulse?, accept, Std.ExtTreeMap.getElem?_insert, same])

theorem own_accept (own : Own nodes) (row : NodeRow) : Own (accept nodes row) := by
  rw [accept_eq]
  have here : (taken nodes[row.details.id]? row).details.id = row.details.id :=
    congrArg (·.details.id) (row_taken nodes[row.details.id]? row)
  have inserted := own_insert own (taken nodes[row.details.id]? row)
  rwa [here] at inserted

theorem own_reload (own : Own nodes) (rows : List NodeRow) : Own (nodes.reload rows) :=
  List.foldlRecOn (motive := Own) rows _ own fun _ own row _ => own_accept own row

theorem unbeaten_reload (nodes : NodeRegistry) (rows : List NodeRow) : Unbeaten nodes (nodes.reload rows) :=
  List.foldlRecOn (motive := Unbeaten nodes) rows _ (.refl nodes) fun _ h row _ => h.trans (unbeaten_accept _ row)

/-- A node is stored and then kept, or the write is refused and the nodes stay as they are. -/
theorem run_store_keep {β : Type} (node : Node) (f : Unit → Action (Stored NodeRegistry) NodeError β)
    (s : Stored NodeRegistry) :
    (∃ db, (store node >>= fun _ => keep node >>= f).run s = (f ()).run ⟨s.view.insert node.details.id node, db⟩) ∨
      ∃ e db, (store node >>= fun _ => keep node >>= f).run s = (.error e, ⟨s.view, db⟩) := by
  rcases ran : ((TypedTable.nodes.put node.details.id node.row).relabel NodeError.store).run s.db with ⟨e | _, db⟩
  · exact .inr ⟨e, db, Stored.run_onStore_bind_error ran _⟩
  · exact .inl ⟨db, Stored.run_onStore_bind_ok ran _⟩

theorem heartbeat_cases (now : Instant) (h : Heartbeat) (s : Stored NodeRegistry) :
    (∃ before? node db, (heartbeat now h).run s = (.ok before?, ⟨s.view.insert h.details.id node, db⟩) ∧
      node.details.id = h.details.id ∧ node.pulse = ⟨healthOf h, some now⟩) ∨
    ∃ e db, (heartbeat now h).run s = (.error e, ⟨s.view, db⟩) := by
  rw [heartbeat, Action.run_bind_ok (Stored.run_getView s)]
  split
  · let node : Node := ⟨h.details, .inService, healthOf h, some now⟩
    obtain ⟨db, run⟩ | refused := run_store_keep node (fun _ => pure none) s
    · exact .inl ⟨none, node, db, run, rfl, rfl⟩
    · exact .inr refused
  · next known _ =>
    let node : Node := { known with details := h.details, health := healthOf h, lastHeartbeat? := some now }
    dsimp only
    split
    · obtain ⟨db, run⟩ | refused := run_store_keep node (fun _ => pure (some known.health)) s
      · exact .inl ⟨some known.health, node, db, run, rfl, rfl⟩
      · exact .inr refused
    · exact .inl ⟨some known.health, node, s.db, rfl, rfl, rfl⟩

theorem register_cases (id : NodeId) (s : Stored NodeRegistry) :
    (s.view[id]? = none ∧ ((register id).state s).view =
      s.view.insert id ⟨.unresolved id, .inService, .healthy, none⟩) ∨ ((register id).state s).view = s.view := by
  show (_ ∧ ((register id).run s).2.view = _) ∨ ((register id).run s).2.view = s.view
  rw [register, Action.run_bind_ok (Stored.run_getView s)]
  split
  · exact .inr rfl
  · next absent =>
    obtain ⟨db, run⟩ | ⟨e, db, run⟩ :=
      run_store_keep ⟨.unresolved id, .inService, .healthy, none⟩ (fun _ => pure true) s
    · exact .inl ⟨by simpa using absent, by rw [run]; rfl⟩
    · exact .inr (by rw [run])

theorem setOpState_cases (id : NodeId) (state : OperationalState) (s : Stored NodeRegistry) :
    (∃ node, s.view[id]? = some node ∧
      ((setOpState id state).state s).view = s.view.insert node.details.id { node with opState := state }) ∨
    ((setOpState id state).state s).view = s.view := by
  show (∃ node, _ ∧ ((setOpState id state).run s).2.view = _) ∨ ((setOpState id state).run s).2.view = s.view
  obtain ⟨node, found, run⟩ | run := getNode_cases id s
  · rw [setOpState, Action.run_bind_ok run]
    split
    · obtain ⟨db, stored⟩ | ⟨e, db, refused⟩ := run_store_keep { node with opState := state } pure s
      · rw [bind_pure] at stored
        exact .inl ⟨node, found, by rw [stored]; rfl⟩
      · rw [bind_pure] at refused
        exact .inr (by rw [refused])
    · exact .inr rfl
  · exact .inr (by rw [setOpState, Action.run_bind_error run])

theorem filterMap_of_nodup {κ α : Type} [DecidableEq κ] {l : List (κ × α)} (distinct : (l.map Prod.fst).Nodup) {k : κ}
    {a : α} (mem : (k, a) ∈ l) : l.filterMap (fun c => if c.1 = k then some c.2 else none) = [a] := by
  induction l with
  | nil => cases mem
  | cons c l ih =>
    obtain ⟨fresh, distinct⟩ := List.nodup_cons.1 distinct
    obtain rfl | later := List.mem_cons.1 mem
    · have none : l.filterMap (fun c => if c.1 = k then some c.2 else none) = [] := by
        exact List.filterMap_eq_nil_iff.2 fun c mem => if_neg fun same => fresh (List.mem_map.2 ⟨c, mem, same⟩)
      simp [none]
    · have different : c.1 ≠ k := fun same => fresh (List.mem_map.2 ⟨(k, a), later, same.symm⟩)
      simp [different, ih distinct later]

theorem change?_eq (limits : Silence) (now : Instant) (node : Node) :
    NodeRegistry.change? limits now node = (node.pulse.change? limits now).map (node.details.id, ·) := by
  rw [NodeRegistry.change?, Pulse.change?, ← Pulse.pulse_checked]
  by_cases same : (checked limits now node).health = node.health <;> simp [same, Node.pulse]

theorem mem_changes_iff (own : Own nodes) {health : NodeHealth} : (id, health) ∈ nodes.changes limits now ↔
    ∃ p, pulse? nodes id = some p ∧ p.change? limits now = some health := by
  simp only [changes, values_eq_map_toList, List.mem_filterMap, List.mem_map, Prod.exists, exists_eq_right,
    Std.ExtTreeMap.mem_toList_iff_getElem?_eq_some, change?_eq, Option.map_eq_some_iff, pulse?, Prod.mk.injEq]
  constructor
  · rintro ⟨node, ⟨id', found⟩, health', changed, rfl, rfl⟩
    rw [own id' node found]
    exact ⟨node.pulse, ⟨node, found, rfl⟩, changed⟩
  · rintro ⟨-, ⟨node, found, rfl⟩, changed⟩
    exact ⟨node, ⟨id, found⟩, health, changed, own id node found, rfl⟩

theorem nodup_changes (own : Own nodes) : ((nodes.changes limits now).map Prod.fst).Nodup := by
  rw [changes, values_eq_map_toList, List.filterMap_map, List.Nodup, List.pairwise_map, List.pairwise_filterMap]
  refine Std.ExtTreeMap.distinct_keys_toList.imp_of_mem fun {a b} mem mem' different => ?_
  have here (c : NodeId × Node) (mem : c ∈ nodes.toList) (x : NodeId × NodeHealth)
      (changed : NodeRegistry.change? limits now c.2 = some x) : x.1 = c.1 := by
    rw [change?_eq] at changed
    obtain ⟨health, -, rfl⟩ := Option.map_eq_some_iff.1 changed
    exact own c.1 c.2 (Std.ExtTreeMap.mem_toList_iff_getElem?_eq_some.1 mem)
  rintro x changed y changed' same
  rw [here a mem x changed, here b mem' y changed'] at same
  exact different (Std.LawfulEqCmp.compare_eq_iff_eq.2 same)

/-- What a check says about one node. -/
theorem changesOf_checked (own : Own nodes) (id : NodeId) (now' : Instant) (seen : List NodeId) :
    Note.changesOf id (.checked now' seen (nodes.changes limits now)) =
      ((pulse? nodes id).bind (Pulse.change? limits now)).toList := by
  cases changed : (pulse? nodes id).bind (Pulse.change? limits now) with
  | some health =>
    exact filterMap_of_nodup (nodup_changes own) ((mem_changes_iff own).2 (Option.bind_eq_some_iff.1 changed))
  | none =>
    refine List.filterMap_eq_nil_iff.2 fun c mem => if_neg ?_
    rintro rfl
    rw [Option.bind_eq_some_iff.2 ((mem_changes_iff own).1 mem)] at changed
    cases changed

theorem own_step (limits : Silence) (own : Own s.view) (e : Event) : Own (step limits s e).2.view := by
  cases e with
  | heartbeat now h =>
    unfold step
    dsimp only
    obtain ⟨before?, node, db, run, here, -⟩ | ⟨e, db, run⟩ := heartbeat_cases now h s
    · rw [run, ← here]
      exact own_insert own node
    · rw [run]
      exact own
  | register id =>
    show Own ((register id).state s).view
    obtain ⟨-, run⟩ | run := register_cases id s
    · rw [run]
      exact own_insert own ⟨.unresolved id, .inService, .healthy, none⟩
    · rwa [run]
  | setOpState id state =>
    show Own ((setOpState id state).state s).view
    obtain ⟨node, -, run⟩ | run := setOpState_cases id state s
    · rw [run]
      exact own_insert own { node with opState := state }
    · rwa [run]
  | reload rows db => exact own_reload own rows
  | check now =>
    intro id node known
    obtain ⟨was, found, rfl⟩ := Option.map_eq_some_iff.1 (Std.ExtTreeMap.getElem?_map.symm.trans known)
    exact (congrArg (·.details.id) (row_checked limits now was)).trans (own id was found)

theorem pulse?_checkHealth (nodes : NodeRegistry) :
    pulse? (nodes.checkHealth limits now) id = (pulse? nodes id).map (·.checked limits now) := by
  simp [pulse?, checkHealth, Function.comp_def, Pulse.pulse_checked]

inductive Turn (limits : Silence) (id : NodeId) (before? : Option Pulse) :
    Option Instant → List Note → Option Pulse → Prop where
  | heard (now : Instant) {health : NodeHealth} (alive : health.isHealthy = true) :
    Turn limits id before? (some now) [.heard id now health] (some ⟨health, some now⟩)
  | another (now : Instant) (health : NodeHealth) {other : NodeId} (different : other ≠ id) :
    Turn limits id before? (some now) [.heard other now health] before?
  | still (time? : Option Instant) : Turn limits id before? time? [] before?
  | appeared (new : before? = none) : Turn limits id before? none [] (some ⟨.healthy, none⟩)
  | checked (now : Instant) {seen : List NodeId} {changes : List (NodeId × NodeHealth)}
    (saw : id ∈ seen ↔ before?.isSome)
    (returned : Note.changesOf id (.checked now seen changes) = (before?.bind (Pulse.change? limits now)).toList) :
    Turn limits id before? (some now) [.checked now seen changes] (before?.map (·.checked limits now))

theorem isHealthy_healthOf (h : Heartbeat) : (healthOf h).isHealthy = true := by
  unfold healthOf
  split <;> rfl

/-- What has no time of its own touches no clock. -/
theorem unbeaten_step (limits : Silence) (own : Own s.view) {e : Event} (timeless : e.time? = none) :
    (step limits s e).1 = [] ∧ Unbeaten s.view (step limits s e).2.view := by
  cases e with
  | heartbeat now h => cases timeless
  | check now => cases timeless
  | reload rows db => exact ⟨rfl, unbeaten_reload s.view rows⟩
  | register id =>
    refine ⟨rfl, ?_⟩
    show Unbeaten s.view ((register id).state s).view
    obtain ⟨new, run⟩ | run := register_cases id s
    · rw [run]
      refine unbeaten_insert ⟨.unresolved id, .inService, .healthy, none⟩ (.inr ⟨?_, rfl⟩)
      show s.view[id]?.map Node.pulse = none
      rw [new, Option.map_none]
    · rw [run]
      exact .refl s.view
  | setOpState id state =>
    refine ⟨rfl, ?_⟩
    show Unbeaten s.view ((setOpState id state).state s).view
    obtain ⟨node, found, run⟩ | run := setOpState_cases id state s
    · rw [run]
      refine unbeaten_insert { node with opState := state } (.inl ?_)
      show s.view[node.details.id]?.map Node.pulse = some node.pulse
      rw [own id node found, found, Option.map_some]
    · rw [run]
      exact .refl s.view

theorem turn_step (limits : Silence) (own : Own s.view) (e : Event) (id : NodeId) :
    Turn limits id (pulse? s.view id) e.time? (step limits s e).1 (pulse? (step limits s e).2.view id) := by
  cases timed : e.time? with
  | none =>
    obtain ⟨silent, unbeaten⟩ := unbeaten_step limits own timed
    rw [silent]
    obtain same | ⟨new, appeared⟩ := unbeaten id
    · rw [same]
      exact .still none
    · rw [appeared]
      exact .appeared new
  | some instant =>
    cases e with
    | register | setOpState | reload => cases timed
    | heartbeat now h =>
      obtain rfl := Option.some.inj timed
      unfold step
      dsimp only
      obtain ⟨before?, node, db, run, here, beat⟩ | ⟨e, db, run⟩ := heartbeat_cases now h s
      · rw [run, ← here]
        dsimp only
        rw [pulse?_insert]
        split
        · next same =>
          rw [same, beat]
          exact .heard now (isHealthy_healthOf h)
        · next different => exact .another now _ different
      · rw [run]
        exact .still _
    | check now =>
      obtain rfl := Option.some.inj timed
      refine Eq.mpr (congrArg _ (pulse?_checkHealth s.view)) ?_
      refine .checked now ?_ (changesOf_checked own id now s.view.keys)
      rw [Std.ExtTreeMap.mem_keys, Std.ExtTreeMap.mem_iff_isSome_getElem?, pulse?, Option.isSome_map]

end Steps

end NodeRegistry

end ClusterCatalog
