import Mathlib.Data.List.Induction
import ClusterCatalog.Proofs.Container.Interleaving
/-!
What a batch of replicas makes of a container, when every write is taken. The replicas are fed one by
one, but the result can be read off the batch as a whole.
-/
namespace ClusterCatalog

open Directory (reached reached_moved)

namespace Container

def takeAll (c : Container) (now : Millis) (replicas : List Replica) : Container :=
  replicas.foldl (fun c r => c.take now r) c

variable {c : Container} {now : Millis} {replicas : List Replica}

theorem takeAll_cons (c : Container) (now : Millis) (r : Replica) (rest : List Replica) :
    c.takeAll now (r :: rest) = (c.take now r).takeAll now rest := rfl

theorem takeAll_concat (c : Container) (now : Millis) (before : List Replica) (r : Replica) :
    c.takeAll now (before ++ [r]) = (c.takeAll now before).take now r := by
  rw [takeAll, List.foldl_append]
  rfl

def fired (c : Container) (now : Millis) : List Replica → Nat
  | [] => 0
  | r :: rest =>
    (if (Lifecycle.moved? c.info.state r.state r.sequence c.info.sequence).isSome then 1 else 0) +
      (c.take now r).fired now rest

theorem sameIdentity_takeAll (c : Container) (now : Millis) (replicas : List Replica) :
    ContainerInfo.SameIdentity (c.takeAll now replicas).info c.info := by
  induction replicas generalizing c with
  | nil => exact .refl _
  | cons r rest ih => exact (ih (c.take now r)).trans (c.sameIdentity_take now r)

def closes (info : ContainerInfo) (r : Replica) : Bool := r.state = .closed ∧ r.sequence = info.sequence

def heard (info : ContainerInfo) (replicas : List Replica) : Lifecycle :=
  reached info.state (replicas.any (·.state = .quasiClosed)) (replicas.any (closes info))

theorem heard_nil (info : ContainerInfo) : heard info [] = info.state := by
  unfold heard
  cases info.state <;> rfl

theorem state_takeAll (c : Container) (now : Millis) (replicas : List Replica) :
    (c.takeAll now replicas).info.state = heard c.info replicas := by
  induction replicas generalizing c with
  | nil => rw [heard_nil]; rfl
  | cons r rest ih =>
    have sequence := (c.sameIdentity_take now r).sequence
    have same : closes (c.take now r).info = closes c.info := by
      funext x
      rw [closes, closes, sequence]
    rw [takeAll_cons, ih, heard, heard, state_take, reached_moved, same, List.any_cons, List.any_cons]
    rfl

theorem takeAll_of_deleted (deleted : c.info.state = .deleted) : c.takeAll now replicas = c := by
  induction replicas with
  | nil => rfl
  | cons r rest ih =>
    have first : c.take now r = c := by rw [take, if_pos deleted]
    rw [takeAll_cons, first, ih]

/-- A row after some replicas of its node: the last of them, with the origin that was known first. -/
theorem foldl_inheriting (row : Option Replica) (listed : List Replica) :
    listed.foldl (fun row r => some (Held.inheriting row r)) row =
      match listed.getLast? with
      | none => row
      | some last => some { last with origin := ((row.or listed.head?).getD last).origin } := by
  induction listed generalizing row with
  | nil => rfl
  | cons r rest ih =>
    rw [List.foldl_cons, ih]
    cases rest with
    | nil => cases row <;> rfl
    | cons r' rest =>
      rw [List.getLast?_cons_cons]
      cases last : (r' :: rest).getLast? with
      | none => simp at last
      | some l => cases row <;> rfl

theorem replicas_takeAll (live : c.info.state ≠ .deleted) (node : NodeId) :
    (c.takeAll now replicas).replicas[node]? =
      (replicas.filter (·.node = node)).foldl (fun row r => some (Held.inheriting row r)) c.replicas[node]? := by
  induction replicas generalizing c with
  | nil => rfl
  | cons r rest ih =>
    have still : (c.take now r).info.state ≠ .deleted := mt (c.deleted_take now r).1 live
    rw [takeAll_cons, ih still, c.getElem?_replicas_take, List.filter_cons]
    by_cases mine : r.node = node <;> simp [mine, live]

theorem stateEntered_take (c : Container) (now : Millis) (r : Replica) :
    (c.take now r).info.stateEntered =
      if (Lifecycle.moved? c.info.state r.state r.sequence c.info.sequence).isSome then now
      else c.info.stateEntered := by
  unfold take
  split
  · next deleted => simp [Lifecycle.moved?, deleted, Lifecycle.decide_deleted, Lifecycle.Decision.event?]
  · rw [ContainerInfo.stateEntered_sized, ContainerInfo.stateEntered_moved, Held.state_keepOrigin,
      Held.sequence_keepOrigin]

/-- The container was moved just if its state is another one, and then it entered that now. -/
theorem stateEntered_takeAll (c : Container) (now : Millis) (replicas : List Replica) :
    (c.takeAll now replicas).info.stateEntered =
      if (c.takeAll now replicas).info.state = c.info.state then c.info.stateEntered else now := by
  induction replicas generalizing c with
  | nil => exact (if_pos rfl).symm
  | cons r rest ih =>
    rw [takeAll_cons, ih]
    have state := c.state_take now r
    have entered := c.stateEntered_take now r
    have later := state_takeAll (c.take now r) now rest
    cases moved : Lifecycle.moved? c.info.state r.state r.sequence c.info.sequence with
    | none =>
      rw [moved] at state entered
      rw [state, entered]
      rfl
    | some t =>
      -- no later replica moves the container back
      rw [moved] at state entered
      have onwards : ((c.take now r).takeAll now rest).info.state ≠ c.info.state := by
        rw [later, heard, state]
        obtain ⟨before, -, after⟩ | ⟨before | before, -, -, after⟩ := Lifecycle.moved?_eq_some_iff.1 moved <;>
          cases rest.any (·.state = .quasiClosed) <;> cases rest.any (closes (c.take now r).info) <;>
          simp [before, after, reached]
      rw [if_neg onwards, entered]
      exact ite_self now

def Tells (info : ContainerInfo) (replicas : List Replica) (r : Replica) : Prop :=
  ∃ before after, replicas = before ++ r :: after ∧ Held.tellsSize (heard info (before ++ [r])) r.state = true

theorem tells_concat {info : ContainerInfo} {before : List Replica} {r x : Replica} :
    Tells info (before ++ [r]) x ↔
      Tells info before x ∨ x = r ∧ Held.tellsSize (heard info (before ++ [r])) r.state = true := by
  constructor
  · rintro ⟨front, back, split, tells⟩
    cases back using List.reverseRecOn with
    | nil =>
      obtain ⟨rfl, same⟩ := List.append_inj' split rfl
      cases same
      exact .inr ⟨rfl, tells⟩
    | append_singleton back last =>
      rw [← List.cons_append, ← List.append_assoc] at split
      obtain ⟨rfl, -⟩ := List.append_inj' split rfl
      exact .inl ⟨front, back, rfl, tells⟩
  · rintro (⟨front, back, rfl, tells⟩ | ⟨rfl, tells⟩)
    · exact ⟨front, back ++ [r], by simp, tells⟩
    · exact ⟨before, [], rfl, tells⟩

structure Raised (least : UInt64) (told : Replica → Prop) (said : Replica → UInt64) (n : UInt64) : Prop where
  least_le : least ≤ n
  said_le {r : Replica} (h : told r) : said r ≤ n
  attained : n = least ∨ ∃ r, told r ∧ n = said r

/-- Both numbers of the size go by the same rule. -/
theorem raised_takeAll {size : ContainerInfo → UInt64} {said : Replica → UInt64}
    (step : ∀ c : Container, ∀ r, size (c.take now r).info =
      if Held.tellsSize (c.take now r).info.state r.state then max (size c.info) (said r) else size c.info)
    (c : Container) (replicas : List Replica) :
    Raised (size c.info) (Tells c.info replicas) said (size (c.takeAll now replicas).info) := by
  induction replicas using List.reverseRecOn with
  | nil => exact ⟨UInt64.le_refl _, fun ⟨_, _, split, _⟩ => by simp at split, .inl rfl⟩
  | append_singleton before r ih =>
    have state : ((c.takeAll now before).take now r).info.state = heard c.info (before ++ [r]) := by
      rw [← takeAll_concat, state_takeAll]
    rw [takeAll_concat, step, state]
    by_cases tells : Held.tellsSize (heard c.info (before ++ [r])) r.state = true
    · rw [if_pos tells]
      refine ⟨UInt64.le_trans ih.least_le Std.left_le_max, fun {x} told => ?_, ?_⟩
      · obtain told | ⟨rfl, -⟩ := tells_concat.1 told
        · exact UInt64.le_trans (ih.said_le told) Std.left_le_max
        · exact Std.right_le_max
      · rw [max_uint64]
        split
        · exact .inr ⟨r, tells_concat.2 (.inr ⟨rfl, tells⟩), rfl⟩
        · exact ih.attained.imp_right fun ⟨x, told, same⟩ => ⟨x, tells_concat.2 (.inl told), same⟩
    · rw [if_neg tells]
      refine ⟨ih.least_le, fun {x} told => ?_, ih.attained.imp_right fun ⟨x, told, same⟩ =>
        ⟨x, tells_concat.2 (.inl told), same⟩⟩
      obtain told | ⟨-, tells'⟩ := tells_concat.1 told
      · exact ih.said_le told
      · exact absurd tells' tells

theorem usedBytes_take (c : Container) (now : Millis) (r : Replica) :
    (c.take now r).info.usedBytes =
      if Held.tellsSize (c.take now r).info.state r.state then max c.info.usedBytes r.bytesUsed
      else c.info.usedBytes := by
  unfold take
  split
  · next deleted => simp [deleted, Held.tellsSize]
  · simp only [ContainerInfo.usedBytes_sized, ContainerInfo.usedBytes_moved, ContainerInfo.state_sized,
      Held.state_keepOrigin, Held.bytesUsed_keepOrigin]

theorem keyCount_take (c : Container) (now : Millis) (r : Replica) :
    (c.take now r).info.keyCount =
      if Held.tellsSize (c.take now r).info.state r.state then max c.info.keyCount r.keyCount
      else c.info.keyCount := by
  unfold take
  split
  · next deleted => simp [deleted, Held.tellsSize]
  · simp only [ContainerInfo.keyCount_sized, ContainerInfo.keyCount_moved, ContainerInfo.state_sized,
      Held.state_keepOrigin, Held.keyCount_keepOrigin]

structure CaughtUp (c : Container) (now : Millis) (replicas : List Replica) (k : Container) : Prop where
  identity : ContainerInfo.SameIdentity k.info c.info
  state : k.info.state =
    if (c.info.state = .closing ∨ c.info.state = .quasiClosed) ∧
        ∃ r ∈ replicas, r.state = .closed ∧ r.sequence = c.info.sequence then .closed
    else if c.info.state = .closing ∧ ∃ r ∈ replicas, r.state = .quasiClosed then .quasiClosed
    else c.info.state
  entered : k.info.stateEntered = if k.info.state = c.info.state then c.info.stateEntered else now
  usedBytes : Raised c.info.usedBytes (Tells c.info replicas) Replica.bytesUsed k.info.usedBytes
  keyCount : Raised c.info.keyCount (Tells c.info replicas) Replica.keyCount k.info.keyCount
  /-- The last row given for a node, with the origin that was known, or else the one given first. -/
  row {node : NodeId} {first last : Replica} (live : c.info.state ≠ .deleted)
    (head : (replicas.filter (·.node = node)).head? = some first)
    (tail : (replicas.filter (·.node = node)).getLast? = some last) :
    k.replicas[node]? = some { last with origin := (c.replicas[node]?.getD first).origin }
  kept {node : NodeId} (other : ∀ r ∈ replicas, r.node ≠ node) : k.replicas[node]? = c.replicas[node]?
  deleted (h : c.info.state = .deleted) : k = c

theorem heard_eq (info : ContainerInfo) (replicas : List Replica) : heard info replicas =
    if (info.state = .closing ∨ info.state = .quasiClosed) ∧
        ∃ r ∈ replicas, r.state = .closed ∧ r.sequence = info.sequence then .closed
    else if info.state = .closing ∧ ∃ r ∈ replicas, r.state = .quasiClosed then .quasiClosed
    else info.state := by
  have closed : replicas.any (closes info) = true ↔
      ∃ r ∈ replicas, r.state = .closed ∧ r.sequence = info.sequence := by
    simp [List.any_eq_true, closes]
  have quasi : replicas.any (·.state = .quasiClosed) = true ↔ ∃ r ∈ replicas, r.state = .quasiClosed := by
    simp [List.any_eq_true]
  simp only [← closed, ← quasi, heard]
  cases info.state <;> cases replicas.any (·.state = .quasiClosed) <;>
    cases replicas.any (closes info) <;> simp [reached]

theorem caughtUp_takeAll (c : Container) (now : Millis) (replicas : List Replica) :
    CaughtUp c now replicas (c.takeAll now replicas) where
  identity := sameIdentity_takeAll c now replicas
  state := (state_takeAll c now replicas).trans (heard_eq c.info replicas)
  entered := stateEntered_takeAll c now replicas
  usedBytes := raised_takeAll (fun c r => c.usedBytes_take now r) c replicas
  keyCount := raised_takeAll (fun c r => c.keyCount_take now r) c replicas
  row {node _ _} live head tail := by
    rw [replicas_takeAll live, foldl_inheriting, tail, head]
    dsimp only
    cases c.replicas[node]? <;> rfl
  kept other := by
    by_cases deleted : c.info.state = .deleted
    · rw [takeAll_of_deleted deleted]
    · rw [replicas_takeAll deleted, List.filter_eq_nil_iff.2 (by simpa using other)]
      rfl
  deleted h := takeAll_of_deleted h

end Container

end ClusterCatalog
