import ClusterCatalog.Proofs.Node.WriteThrough
/-! Nodes that are known stay known, whatever is done to their registry and whichever writes are refused. -/
namespace ClusterCatalog.NodeRegistry

def Grows (s t : Stored NodeRegistry) : Prop := ∀ node ∈ s.view, node ∈ t.view

theorem composes_grows : Action.Composes Grows where
  refl _ _ := id
  trans h g node known := g node (h node known)

variable {β : Type}

theorem mem_insert {nodes : NodeRegistry} {id : NodeId} (known : id ∈ nodes) (other : NodeId) (node : Node) :
    id ∈ nodes.insert other node := Std.ExtTreeMap.mem_insert.2 (.inr known)

theorem grows_store (node : Node) : (store node).Respects Grows := fun _ _ => id

theorem grows_keep {ε : Type} (node : Node) : (keep node : Action (Stored NodeRegistry) ε Unit).Respects Grows :=
  fun _ _ known => mem_insert known _ _

theorem grows_store_keep (node : Node) {f : Unit → Action (Stored NodeRegistry) NodeError β}
    (next : ∀ x, (f x).Respects Grows) : (store node >>= fun _ => keep node >>= f).Respects Grows :=
  (grows_store node).bind composes_grows fun _ => (grows_keep node).bind composes_grows next

theorem grows_heartbeat (now : Instant) (h : Heartbeat) : (heartbeat now h).Respects Grows := by
  intro s
  have still (x : Option NodeHealth) := Action.respects_pure (ε := NodeError) composes_grows x
  rw [heartbeat, Action.run_bind_ok (Stored.run_getView s)]
  split
  · exact grows_store_keep _ (fun _ => still _) s
  · dsimp only
    split
    · exact grows_store_keep _ (fun _ => still _) s
    · exact (grows_keep _).bind composes_grows (fun _ => still _) s

theorem grows_register (id : NodeId) : (register id).Respects Grows := by
  intro s
  rw [register, Action.run_bind_ok (Stored.run_getView s)]
  split
  · exact composes_grows.refl s
  · exact grows_store_keep _ (fun _ => Action.respects_pure composes_grows _) s

/-- A registration that succeeds leaves the node known. -/
theorem mem_of_register {id : NodeId} {s t : Stored NodeRegistry} {new : Bool}
    (ran : (register id).run s = (.ok new, t)) : id ∈ t.view := by
  rw [register, Action.run_bind_ok (Stored.run_getView s)] at ran
  split at ran
  · next known =>
    cases ran
    exact known
  · obtain ⟨_, u, -, ran⟩ := Action.run_bind_eq_ok ran
    obtain ⟨_, v, kept, ran⟩ := Action.run_bind_eq_ok ran
    cases kept
    cases ran
    exact Std.ExtTreeMap.mem_insert_self

section Getting

variable {id : NodeId}

/-- What is done with one node changes nothing unless the node is known. -/
theorem grows_getNode_bind {f : Node → Action (Stored NodeRegistry) NodeError β} (next : ∀ x, (f x).Respects Grows) :
    (getNode id >>= f).Respects Grows := by
  intro s
  obtain ⟨node, -, run⟩ | run := getNode_cases id s
  · rw [Action.run_bind_ok run]
    exact next node s
  · rw [Action.run_bind_error run]
    exact composes_grows.refl s

theorem grows_setOpState (state : OperationalState) : (setOpState id state).Respects Grows := by
  refine grows_getNode_bind fun node => ?_
  split
  · exact (grows_store _).bind composes_grows fun _ => grows_keep _
  · exact Action.respects_pure composes_grows _

theorem grows_markStale : (markStale id).Respects Grows := by
  refine grows_getNode_bind fun node => ?_
  split
  · exact (grows_keep _).bind composes_grows fun _ => Action.respects_pure composes_grows _
  · exact Action.respects_pure composes_grows _

theorem grows_markDead : (markDead id).Respects Grows := by
  refine grows_getNode_bind fun node => ?_
  split
  · exact (grows_keep _).bind composes_grows fun _ => Action.respects_pure composes_grows _
  · exact Action.respects_pure composes_grows _

end Getting

theorem mem_checkHealth {nodes : NodeRegistry} {id : NodeId} (known : id ∈ nodes) (limits : Silence) (now : Instant) :
    id ∈ checkHealth limits now nodes := Std.ExtTreeMap.mem_map.2 known

/-- Rows that are taken over add nodes and change some, but none is dropped. -/
theorem mem_reload {nodes : NodeRegistry} {id : NodeId} (known : id ∈ nodes) (rows : List NodeRow) :
    id ∈ nodes.reload rows := by
  induction rows generalizing nodes with
  | nil => exact known
  | cons row rows ih => exact ih (mem_insert known _ _)

end ClusterCatalog.NodeRegistry
