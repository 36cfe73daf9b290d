import Mathlib.Data.Int.CardIntervalMod
import Mathlib.Data.List.Induction
import ClusterCatalog.Proofs.Lanes.Intake
/-!
Nodes are dealt out to lanes in turn. The turn of a node is the place that it has among those that came, each
counted once, and so no lane is ever two nodes ahead of another.
-/
namespace ClusterCatalog

variable {J : Type}

namespace Pins

variable {pins : Pins} {node : NodeId} {order : List NodeId} {lanes lane : Nat}

def load (pins : Pins) (lane : Nat) : Nat := pins.table.toList.countP (·.2 == lane)

theorem mem_toList_iff {entry : NodeId × Nat} : entry ∈ pins.table.toList ↔ pins[entry.1]? = some entry.2 :=
  Std.ExtTreeMap.mem_toList_iff_getElem?_eq_some

theorem nodup_toList (pins : Pins) : pins.table.toList.Nodup :=
  Std.ExtTreeMap.distinct_keys_toList.imp fun {a b} apart (same : a = b) => apart (same ▸ Std.ReflCmp.compare_self)

theorem perm_toList_deal (new : pins[node]? = none) (lanes : Nat) :
    (pins.deal node lanes).table.toList.Perm ((node, pins.next % lanes) :: pins.table.toList) := by
  have absent (lane : Nat) : (node, lane) ∉ pins.table.toList := by
    rw [mem_toList_iff, new]
    exact nofun
  refine (List.perm_ext_iff_of_nodup (nodup_toList _) (List.nodup_cons.2 ⟨absent _, nodup_toList _⟩)).2 ?_
  rintro ⟨other, lane⟩
  rw [List.mem_cons, mem_toList_iff, mem_toList_iff]
  by_cases same : other = node
  · subst same
    simp [new, eq_comm]
  · simp [getElem?_deal_of_ne same, same]

theorem load_deal (new : pins[node]? = none) (lanes lane : Nat) :
    (pins.deal node lanes).load lane = pins.load lane + if pins.next % lanes = lane then 1 else 0 := by
  rw [load, (perm_toList_deal new lanes).countP_eq, List.countP_cons, load]
  simp only [beq_iff_eq]

/-- Pins of nodes that came in some order, each to the lane of its turn. -/
structure Dealt (pins : Pins) (lanes : Nat) (order : List NodeId) : Prop where
  next : pins.next = order.length
  turn (node : NodeId) : pins[node]? = (order.idxOf? node).map (· % lanes)
  load (lane : Nat) : pins.load lane = order.length.count (· % lanes = lane)

theorem dealt_empty (lanes : Nat) : (∅ : Pins).Dealt lanes [] where
  next := rfl
  turn node := getElem?_empty node
  load _ := rfl

theorem Dealt.getElem?_eq_none_iff (h : pins.Dealt lanes order) : pins[node]? = none ↔ node ∉ order := by
  rw [h.turn, Option.map_eq_none_iff, List.idxOf?_eq_none_iff]

theorem Dealt.deal (h : pins.Dealt lanes order) (new : node ∉ order) :
    (pins.deal node lanes).Dealt lanes (order ++ [node]) where
  next := by
    rw [List.length_append, List.length_singleton, ← h.next]
    rfl
  turn other := by
    rw [List.idxOf?, List.findIdx?_append, ← List.idxOf?]
    by_cases same : other = node
    · subst same
      rw [getElem?_deal_self, h.next, List.idxOf?_eq_none_iff.2 new]
      simp
    · rw [getElem?_deal_of_ne same, h.turn]
      simp [Ne.symm same]
  load lane := by
    rw [load_deal (h.getElem?_eq_none_iff.2 new), h.load, h.next, List.length_append, List.length_singleton,
      Nat.count_succ]

theorem count_turns (inRange : lane < lanes) (turns : Nat) :
    turns.count (· % lanes = lane) = turns / lanes + if lane < turns % lanes then 1 else 0 := by
  have counted := Nat.count_modEq_card turns (Nat.zero_lt_of_lt inRange) lane
  simpa only [Nat.ModEq, Nat.mod_eq_of_lt inRange] using counted

/-- Each lane has its share of the nodes, and the first lanes have one of those that are left over. -/
theorem Dealt.load_eq (h : pins.Dealt lanes order) (inRange : lane < lanes) :
    pins.load lane = order.length / lanes + if lane < order.length % lanes then 1 else 0 :=
  (h.load lane).trans (count_turns inRange order.length)

end Pins

namespace Lanes

variable {p : Lanes J} {node : NodeId} {lane : Nat}

inductive Deed (J : Type) where
  | act (a : Act J)
  | close
  | abandon

def Deed.node? : Deed J → Option NodeId
  | .act a => a.node?
  | .close | .abandon => none

def undergo (p : Lanes J) : Deed J → Lanes J
  | .act a => p.act a
  | .close => p.close
  | .abandon => p.abandon

def live (p : Lanes J) (deeds : List (Deed J)) : Lanes J := deeds.foldl undergo p

def arrivals (deeds : List (Deed J)) : List NodeId := (deeds.filterMap Deed.node?).eraseDups

theorem eraseDups_concat {α : Type} [DecidableEq α] (xs : List α) (x : α) :
    (xs ++ [x]).eraseDups = if x ∈ xs.eraseDups then xs.eraseDups else xs.eraseDups ++ [x] := by
  rw [List.eraseDups_append]
  by_cases known : x ∈ xs
  · simp [known, List.removeAll]
  · simp [known, List.removeAll, List.eraseDups_cons]

theorem arrivals_concat (deeds : List (Deed J)) (d : Deed J) :
    arrivals (deeds ++ [d]) = d.node?.elim (arrivals deeds) fun node =>
      if node ∈ arrivals deeds then arrivals deeds else arrivals deeds ++ [node] := by
  unfold arrivals
  rw [List.filterMap_append, List.filterMap_cons, List.filterMap_nil]
  cases d.node? with
  | none => rw [List.append_nil, Option.elim_none]
  | some node => exact eraseDups_concat _ node

theorem length_undergo (p : Lanes J) (d : Deed J) : (p.undergo d).lanes.length = p.lanes.length := by
  cases d with
  | act a => exact p.length_act a
  | close =>
    rw [undergo, Lanes.close]
    split
    · exact List.length_map _
    · rfl
    · rfl
  | abandon => exact List.length_map _

theorem pins_undergo (p : Lanes J) (d : Deed J) :
    (p.undergo d).pins = d.node?.elim p.pins fun node => (p.route node).2.pins := by
  cases d with
  | act a => exact p.pins_act a
  | close =>
    rw [undergo, Lanes.close]
    split <;> rfl
  | abandon => rfl

theorem length_live (p : Lanes J) (deeds : List (Deed J)) : (p.live deeds).lanes.length = p.lanes.length := by
  induction deeds generalizing p with
  | nil => rfl
  | cons d rest ih => exact (ih _).trans (p.length_undergo d)

/-- A node is never moved to another lane. -/
theorem pinned_undergo (pin : p.pins[node]? = some lane) (d : Deed J) : (p.undergo d).pins[node]? = some lane := by
  rw [pins_undergo]
  cases d.node? with
  | none => exact pin
  | some other =>
    obtain ⟨_, pins, routed, pinned⟩ := p.exists_route other
    rw [Option.elim_some, routed]
    exact pinned.kept pin

theorem pinned_live (pin : p.pins[node]? = some lane) (deeds : List (Deed J)) :
    (p.live deeds).pins[node]? = some lane := by
  induction deeds generalizing p with
  | nil => exact pin
  | cons d rest ih => exact ih (pinned_undergo pin d)

/-- A node that has come before is where it was, and the next new one has the next turn. -/
theorem dealt_undergo {deeds : List (Deed J)} (h : p.pins.Dealt p.lanes.length (arrivals deeds)) (d : Deed J) :
    (p.undergo d).pins.Dealt p.lanes.length (arrivals (deeds ++ [d])) := by
  rw [pins_undergo, arrivals_concat]
  cases d.node? with
  | none => exact h
  | some node =>
    dsimp only [Option.elim_some]
    split
    case isTrue known =>
      obtain ⟨lane, pin⟩ := Option.ne_none_iff_exists'.1 (h.getElem?_eq_none_iff.not_left.2 known)
      rw [route_of_pinned pin]
      exact h
    case isFalse new =>
      rw [route_of_unpinned (h.getElem?_eq_none_iff.2 new)]
      exact h.deal new

theorem dealt_live (name : String) (lanes depth : Nat) (deeds : List (Deed J)) :
    ((create name lanes depth : Lanes J).live deeds).pins.Dealt (max 1 lanes) (arrivals deeds) := by
  have many (deeds : List (Deed J)) : ((create name lanes depth : Lanes J).live deeds).lanes.length = max 1 lanes :=
    (length_live _ deeds).trans List.length_replicate
  induction deeds using List.reverseRecOn with
  | nil => exact Pins.dealt_empty _
  | append_singleton deeds d ih =>
    rw [← many deeds] at ih ⊢
    rw [live, List.foldl_append]
    exact dealt_undergo ih d

theorem pinned_route (p : Lanes J) (node : NodeId) : (p.route node).2.pins[node]? = some (p.route node).1 := by
  obtain ⟨lane, pins, routed, pinned⟩ := p.exists_route node
  rw [routed]
  exact pinned.here

theorem lane_of_verdict {earlier : Nat}
    (answer : p.verdict node earlier = .ok lane ∨ p.verdict node earlier = .error (.laneFull p.name lane)) :
    (p.route node).1 = lane := by
  unfold verdict at answer
  split at answer
  case isTrue closed => simp at answer
  case isFalse =>
    split at answer
    case isTrue space => simpa using answer
    case isFalse full => simpa using answer

structure Spread (p : Lanes J) (lanes : Nat) (order : List NodeId) : Prop where
  /-- A node that has come has the lane of its turn, and no other node has one. -/
  turn (node : NodeId) : p.pins[node]? = (order.idxOf? node).map (· % lanes)
  next : p.pins.next = order.length
  below {node : NodeId} {lane : Nat} (pin : p.pins[node]? = some lane) : lane < lanes
  share {lane : Nat} (inRange : lane < lanes) :
    p.pins.load lane = order.length / lanes + if lane < order.length % lanes then 1 else 0
  even {i j : Nat} (first : i < lanes) (second : j < lanes) : p.pins.load i ≤ p.pins.load j + 1
  kept {node : NodeId} {lane : Nat} (pin : p.pins[node]? = some lane) (deeds : List (Deed J)) :
    (p.live deeds).pins[node]? = some lane
  routed (node : NodeId) : (p.route node).2.pins[node]? = some (p.route node).1
  /-- A node is pinned also by a job that is refused. -/
  submitted (node : NodeId) (job : J) : (p.submit node job).2.pins[node]? = some (p.route node).1
  told {node : NodeId} {job : J} {lane : Nat}
    (answer : (p.submit node job).1 = .ok lane ∨ (p.submit node job).1 = .error (.laneFull p.name lane)) :
    (p.submit node job).2.pins[node]? = some lane

/-- Whatever is done to lanes, and however often each node comes. -/
theorem spread_live (name : String) (lanes depth : Nat) (deeds : List (Deed J)) :
    ((create name lanes depth).live deeds).Spread (max 1 lanes) (arrivals deeds) := by
  have dealt := dealt_live name lanes depth deeds
  generalize (create name lanes depth : Lanes J).live deeds = p at dealt ⊢
  have submitted (node : NodeId) (job : J) : (p.submit node job).2.pins[node]? = some (p.route node).1 := by
    rw [pins_submit]
    exact p.pinned_route node
  refine
    { turn := dealt.turn
      next := dealt.next
      below := fun {node lane} pin => ?below
      share := dealt.load_eq
      even := fun {i j} first second => ?even
      kept := pinned_live
      routed := p.pinned_route
      submitted
      told := fun {node job lane} answer => ?told }
  case below =>
    rw [dealt.turn, Option.map_eq_some_iff] at pin
    obtain ⟨turn, -, rfl⟩ := pin
    exact Nat.mod_lt _ (Nat.le_max_left 1 lanes)
  case even =>
    rw [dealt.load_eq first, dealt.load_eq second]
    split <;> split <;> omega
  case told =>
    rw [submit_eq] at answer
    rw [submitted, lane_of_verdict answer]

/-- Jobs that are refused, by a full lane or by closed ones, pin their nodes too. -/
example :
    let node (n : Nat) : NodeId := ⟨⟨n⟩⟩
    let p := (create "pool" 2 1).live
      [.act (.submit (node 7) ()), .act (.submit (node 7) ()), .act (.route (node 5)), .close,
        .act (.submit (node 9) ())]
    p.pins.table.toList = [(node 5, 1), (node 7, 0), (node 9, 0)] := by
  decide +kernel

end Lanes

end ClusterCatalog
