import ClusterCatalog.Node.Registry
import ClusterCatalog.Proofs.Storage.WriteThrough
/-! The registry of nodes and its table stay in step; only the rows of nodes are stored. -/
namespace ClusterCatalog

theorem Utf8.length_encode_ofList_le (text : List Char) :
    (Utf8.encode (String.ofList text)).length ≤ 4 * text.length := by
  have bytes : (Utf8.encode (String.ofList text)).length = (text.flatMap String.utf8EncodeChar).length := by
    simp [Utf8.encode, List.utf8Encode]
  rw [bytes]
  clear bytes
  induction text with
  | nil => simp
  | cons c text ih =>
    have size := c.utf8Size_le_four
    rw [List.flatMap_cons, List.length_append, String.length_utf8EncodeChar, List.length_cons]
    omega

namespace NodeRegistry

open Database (Confined)
open TypedTable (lengthBound)

def shown (node : Node) : NodeRow := node.row.stored

def InStep (s : Stored NodeRegistry) : Prop :=
  TypedTable.nodes.Mirrors (·.details.id) s.db fun id => (s.view[id]?).map shown

abbrev Keeps := Stored.Keeps InStep [.nodes]

theorem composes : Action.Composes Keeps := Stored.composes_keeps ..

theorem length_render (id : NodeId) : (Utf8.encode id.render).length < lengthBound := by
  refine Nat.lt_of_le_of_lt (Utf8.length_encode_ofList_le _) ?_
  simp [Uuid.digits, lengthBound]

variable {β : Type}

/-- A node is stored and then taken over, or it stays as it was. -/
theorem keeps_store_keep (node : Node) (fit : (Utf8.encode node.details.hostname).length < lengthBound)
    {f : Unit → Action (Stored NodeRegistry) NodeError β} (next : ∀ x, (f x).Respects Keeps) :
    (store node >>= fun _ => keep node >>= f).Respects Keeps := by
  intro s inStep
  obtain ⟨db, confined, mirrors, run⟩ | ⟨e, db, confined, run⟩ :=
    TypedTable.Mirrors.run_put TypedTable.sound_nodes inStep (a := node.row) fit NodeError.store
  · have kept : InStep ⟨s.view.insert node.details.id node, db⟩ := by
      have after : TypedTable.nodes.Mirrors _ db (Function.update _ node.details.id (some (shown node))) := mirrors
      rwa [update_getElem?_insert shown] at after
    obtain ⟨inStep', confined'⟩ := next () _ kept
    have went : (store node >>= fun _ => keep node >>= f).run s = _ := run _
    rw [went, keep, Action.run_bind_ok (Stored.run_modifyView ..)]
    exact ⟨inStep', confined.trans confined'⟩
  · have went : (store node >>= fun _ => keep node >>= f).run s = _ := run _
    rw [went]
    exact ⟨inStep.confined confined (by simp), confined.mono (by simp)⟩

/-- The details of a known node stand under its identifier. -/
theorem InStep.own {s : Stored NodeRegistry} (inStep : InStep s) {id : NodeId} {node : Node}
    (found : s.view[id]? = some node) : node.details.id = id :=
  TypedTable.Mirrors.own inStep (a := shown node) (by simp [found])

/-- Health and heartbeats are not stored. -/
theorem InStep.congr {s : Stored NodeRegistry} (inStep : InStep s) {nodes : NodeRegistry}
    (same : ∀ id : NodeId, (nodes[id]?).map shown = (s.view[id]?).map shown) : InStep ⟨nodes, s.db⟩ := by
  have views : (fun id : NodeId => (nodes[id]?).map shown) = fun id : NodeId => (s.view[id]?).map shown :=
    funext same
  unfold InStep
  rwa [views]

theorem InStep.keep {s : Stored NodeRegistry} (inStep : InStep s) (node : Node) {known : Node} {id : NodeId}
    (found : s.view[id]? = some known) (same : node.row = known.row) :
    InStep ⟨s.view.insert node.details.id node, s.db⟩ := by
  have here : node.details.id = id := (congrArg (·.details.id) same).trans (inStep.own found)
  refine inStep.congr fun other => ?_
  by_cases this : id = other
  · subst this
    simp [here, found, shown, same]
  · simp [here, Std.ExtTreeMap.getElem?_insert, this]

theorem InStep.fits {s : Stored NodeRegistry} (inStep : InStep s) {id : NodeId} {node : Node}
    (found : s.view[id]? = some node) : (Utf8.encode node.details.hostname).length < lengthBound :=
  (TypedTable.Mirrors.of_shown TypedTable.sound_nodes inStep (k := id) (a := shown node) (by simp [found])).1

theorem keeps_heartbeat {h : Heartbeat} (fit : (Utf8.encode h.details.hostname).length < lengthBound)
    (now : Instant) : (heartbeat now h).Respects Keeps := by
  intro s inStep
  rw [heartbeat, Action.run_bind_ok (Stored.run_getView s)]
  split
  · exact keeps_store_keep ⟨h.details, .inService, healthOf h, some now⟩ fit
      (fun _ => Action.respects_pure composes _) s inStep
  · next known found =>
    dsimp only
    split
    · exact keeps_store_keep { known with details := h.details, health := healthOf h, lastHeartbeat? := some now }
        fit (fun _ => Action.respects_pure composes _) s inStep
    · next same =>
      refine ⟨inStep.keep { known with details := h.details, health := healthOf h, lastHeartbeat? := some now }
        found ?_, .refl ..⟩
      rw [Node.row, Node.row, not_ne_iff.1 same]

theorem keeps_register (id : NodeId) : (register id).Respects Keeps := by
  intro s inStep
  rw [register, Action.run_bind_ok (Stored.run_getView s)]
  split
  · exact Action.respects_pure composes _ s inStep
  · exact keeps_store_keep ⟨.unresolved id, .inService, .healthy, none⟩ (length_render id)
      (fun _ => Action.respects_pure composes _) s inStep

theorem getNode_cases (id : NodeId) (s : Stored NodeRegistry) :
    (∃ node, s.view[id]? = some node ∧ (getNode id).run s = (.ok node, s)) ∨
      (getNode id).run s = (.error (.notFound id), s) := by
  rw [getNode, Action.run_bind_ok (Stored.run_getView s)]
  split
  · exact .inr rfl
  · next node found => exact .inl ⟨node, found, rfl⟩

theorem keeps_setOpState (id : NodeId) (state : OperationalState) : (setOpState id state).Respects Keeps := by
  intro s inStep
  obtain ⟨node, found, run⟩ | run := getNode_cases id s
  · rw [setOpState, Action.run_bind_ok run]
    split
    · -- the name was stored before, so it is short enough to be stored again
      have fit : (Utf8.encode node.details.hostname).length < lengthBound := inStep.fits found
      have stored := keeps_store_keep { node with opState := state } fit
        (fun x => Action.respects_pure composes x) s inStep
      rwa [bind_pure] at stored
    · exact Action.respects_pure composes _ s inStep
  · rw [setOpState, Action.run_bind_error run]
    exact ⟨inStep, .refl ..⟩

theorem keeps_markStale (id : NodeId) : (markStale id).Respects Keeps := by
  intro s inStep
  obtain ⟨node, found, run⟩ | run := getNode_cases id s
  · rw [markStale, Action.run_bind_ok run]
    split
    · exact ⟨inStep.keep { node with health := .stale } found rfl, .refl ..⟩
    · exact ⟨inStep, .refl ..⟩
  · rw [markStale, Action.run_bind_error run]
    exact ⟨inStep, .refl ..⟩

theorem keeps_markDead (id : NodeId) : (markDead id).Respects Keeps := by
  intro s inStep
  obtain ⟨node, found, run⟩ | run := getNode_cases id s
  · rw [markDead, Action.run_bind_ok run]
    split
    · exact ⟨inStep.keep { node with health := .dead } found rfl, .refl ..⟩
    · exact ⟨inStep, .refl ..⟩
  · rw [markDead, Action.run_bind_error run]
    exact ⟨inStep, .refl ..⟩

section WritesTo

open Stored (WritesTo composes_writesTo)

/-- Nodes with names of any length are written to the table of nodes and to no other. -/
theorem writesTo_store_keep (node : Node) {f : Unit → Action (Stored NodeRegistry) NodeError β}
    (next : ∀ x, (f x).Respects (WritesTo [.nodes])) :
    (store node >>= fun _ => keep node >>= f).Respects (WritesTo [.nodes]) :=
  (Stored.writesTo_put TypedTable.nodes _ _ _).bind (composes_writesTo _) fun _ =>
    (Stored.writesTo_modifyView _ _).bind (composes_writesTo _) next

theorem writesTo_heartbeat (now : Instant) (h : Heartbeat) :
    (heartbeat now h).Respects (WritesTo [.nodes]) := by
  intro s
  rw [heartbeat, Action.run_bind_ok (Stored.run_getView s)]
  split
  · exact writesTo_store_keep _ (fun _ => Action.respects_pure (composes_writesTo _) _) s
  · dsimp only
    split
    · exact writesTo_store_keep _ (fun _ => Action.respects_pure (composes_writesTo _) _) s
    · exact .refl ..

theorem writesTo_register (id : NodeId) : (register id).Respects (WritesTo [.nodes]) := by
  intro s
  rw [register, Action.run_bind_ok (Stored.run_getView s)]
  split
  · exact .refl ..
  · exact writesTo_store_keep _ (fun _ => Action.respects_pure (composes_writesTo _) _) s

theorem writesTo_setOpState (id : NodeId) (state : OperationalState) :
    (setOpState id state).Respects (WritesTo [.nodes]) := by
  intro s
  obtain ⟨node, -, run⟩ | run := getNode_cases id s
  · rw [setOpState, Action.run_bind_ok run]
    split
    · have stored := writesTo_store_keep { node with opState := state }
        (fun x => Action.respects_pure (composes_writesTo _) x) s
      rwa [bind_pure] at stored
    · exact .refl ..
  · rw [setOpState, Action.run_bind_error run]
    exact .refl ..

theorem writesTo_markStale (id : NodeId) : (markStale id).Respects (WritesTo [.nodes]) := by
  intro s
  obtain ⟨node, -, run⟩ | run := getNode_cases id s
  · rw [markStale, Action.run_bind_ok run]
    split <;> exact .refl ..
  · rw [markStale, Action.run_bind_error run]
    exact .refl ..

theorem writesTo_markDead (id : NodeId) : (markDead id).Respects (WritesTo [.nodes]) := by
  intro s
  obtain ⟨node, -, run⟩ | run := getNode_cases id s
  · rw [markDead, Action.run_bind_ok run]
    split <;> exact .refl ..
  · rw [markDead, Action.run_bind_error run]
    exact .refl ..

end WritesTo

theorem row_checked (limits : Silence) (now : Instant) (node : Node) :
    (checked limits now node).row = node.row := by
  unfold checked
  split <;> rfl

theorem InStep.checkHealth {s : Stored NodeRegistry} (inStep : InStep s) (limits : Silence) (now : Instant) :
    InStep ⟨checkHealth limits now s.view, s.db⟩ := by
  refine inStep.congr fun id => ?_
  rw [NodeRegistry.checkHealth, Std.ExtTreeMap.getElem?_map, Option.map_map]
  congr 1
  funext node
  simp [shown, row_checked]

def taken (known? : Option Node) (row : NodeRow) : Node :=
  match known? with
  | some node => { node with details := row.details, opState := row.opState }
  | none => .ofRow row

theorem row_taken (known? : Option Node) (row : NodeRow) : (taken known? row).row = row := by
  cases known? <;> rfl

theorem accept_eq : accept = fun nodes row => nodes.insert row.details.id (taken nodes[row.details.id]? row) := rfl

/-- A node with a row is known as the row says, and one without a row stays as it is. -/
theorem getElem?_reload {nodes : NodeRegistry} {db : Database} {rows : List NodeRow} {view : NodeId → Option NodeRow}
    (mirrors : TypedTable.nodes.Mirrors (·.details.id) db view) (read : TypedTable.nodes.values db = .ok rows)
    (id : NodeId) : (nodes.reload rows)[id]? = ((view id).map (taken nodes[id]?)).or nodes[id]? := by
  obtain ⟨rows', read', distinct, find⟩ := mirrors.values KeyCodec.exact_node
  rw [read] at read'
  cases read'
  rw [reload, accept_eq, getElem?_foldl_upsert (fun row : NodeRow => row.details.id) taken distinct nodes id, find]
  cases view id <;> rfl

/-- Taking over the rows of a store that has a row for every known node brings both in step. -/
theorem inStep_reload {nodes : NodeRegistry} {db : Database} {rows : List NodeRow} {view : NodeId → Option NodeRow}
    (mirrors : TypedTable.nodes.Mirrors (·.details.id) db view) (read : TypedTable.nodes.values db = .ok rows)
    (covered : ∀ id : NodeId, view id = none → nodes[id]? = none) : InStep ⟨nodes.reload rows, db⟩ := by
  have views : (fun id : NodeId => ((nodes.reload rows)[id]?).map shown) = view := by
    funext id
    rw [getElem?_reload mirrors read]
    cases row : view id with
    | some row' =>
      have kept : row'.stored = row' := (mirrors.of_shown TypedTable.sound_nodes row).2
      simp [shown, row_taken, kept]
    | none => simp [covered id row]
  unfold InStep
  rwa [views]

structure Carried (nodes : NodeRegistry) (db db' : Database) (rows : List NodeRow) : Prop where
  confined : Confined [.nodes] db db'
  inStep : InStep ⟨nodes.reload rows, db'⟩
  known {id : NodeId} {node : Node} (before : nodes[id]? = some node) : (nodes.reload rows)[id]? =
    some { node with details := { node.details with address := node.details.address.stored } }
  unknown {id : NodeId} (before : nodes[id]? = none) :
    ∃ row?, TypedTable.nodes.get db id = .ok row? ∧ (nodes.reload rows)[id]? = row?.map Node.ofRow

theorem carried_of_copyFrom {nodes : NodeRegistry} {old db db' : Database} {n : Nat} {rows : List NodeRow}
    (inStep : InStep ⟨nodes, old⟩) (own : TypedTable.nodes.OwnKeys (·.details.id) db)
    (copied : (TypedTable.nodes.copyFrom old).run db = (.ok n, db'))
    (read : TypedTable.nodes.values db' = .ok rows) : Carried nodes db db' rows := by
  obtain ⟨confined, view, mirrors, covers, untouched⟩ := TypedTable.Mirrors.copyFrom inStep copied own read
  have reloaded (id : NodeId) : (nodes.reload rows)[id]? = ((view id).map (taken nodes[id]?)).or nodes[id]? :=
    getElem?_reload mirrors read id
  refine ⟨confined, inStep_reload mirrors read fun id absent => ?_, fun {id node} before => ?_, fun {id} before => ?_⟩
  · cases found : nodes[id]? with
    | none => rfl
    | some node =>
      rw [covers id (shown node) (by simp [found])] at absent
      cases absent
  · have row := covers id (shown node) (by simp [before])
    rw [reloaded, row, before]
    rfl
  · refine ⟨view id, untouched id (by simp [before]), (reloaded id).trans ?_⟩
    rw [before]
    cases view id <;> rfl

end NodeRegistry

end ClusterCatalog
