import Mathlib.Data.List.DropRight
import ClusterCatalog.Proofs.Container.Alike
import ClusterCatalog.Proofs.Container.FullReport
/-!
A full report beside an incremental one that has the same entries and tells of the departure of all that the
full one leaves out. A full report takes an entry in state `deleted` for a copy, an incremental one drops the
row; there and only there the two may leave different rows.
-/
namespace ClusterCatalog

namespace Container

variable {c : Container} {node : NodeId} {own : List ReplicaReport} {row : Option Replica}

def heldRow (node : NodeId) (row : Option Replica) (r : ReplicaReport) : Option Replica :=
  some (Held.inheriting row (r.toReplica node))

def changedRow (node : NodeId) (row : Option Replica) (r : ReplicaReport) : Option Replica :=
  if r.state = .deleted then none else heldRow node row r

theorem replicas_foldl_take (live : c.info.state ≠ .deleted) (now : Millis) (node : NodeId) (own : List ReplicaReport) :
    (own.foldl (fun c r => c.take now (r.toReplica node)) c).replicas[node]? =
      own.foldl (heldRow node) c.replicas[node]? := by
  induction own generalizing c with
  | nil => rfl
  | cons r rest ih =>
    rw [List.foldl_cons, ih (mt (c.deleted_take now _).1 live), c.getElem?_replicas_take, if_pos ⟨live, rfl⟩]
    rfl

theorem replicas_foldl_change (live : c.info.state ≠ .deleted) (now : Millis) (node : NodeId)
    (own : List ReplicaReport) :
    (own.foldl (change now node) c).replicas[node]? = own.foldl (changedRow node) c.replicas[node]? := by
  induction own generalizing c with
  | nil => rfl
  | cons r rest ih =>
    rw [List.foldl_cons, List.foldl_cons, change, changedRow]
    split
    · rw [ih (c := c.drop node) live]
      simp [drop]
    · rw [ih (mt (c.deleted_take now _).1 live), c.getElem?_replicas_take, if_pos ⟨live, rfl⟩]
      rfl

/-- In a container that is deleted an incremental report can only drop. -/
theorem replicas_foldl_change_of_deleted (deleted : c.info.state = .deleted) (now : Millis) (node : NodeId)
    (own : List ReplicaReport) : (own.foldl (change now node) c).replicas[node]? =
      if ∀ r ∈ own, r.state ≠ .deleted then c.replicas[node]? else none := by
  induction own generalizing c with
  | nil => simp
  | cons r rest ih =>
    rw [List.foldl_cons, change]
    split
    · next gone =>
      rw [ih (c := c.drop node) deleted]
      simp [drop, gone]
    · next there =>
      rw [take, if_pos deleted, ih deleted]
      simp [there]

def sinceDeparture (own : List ReplicaReport) : List ReplicaReport := own.rtakeWhile (·.state ≠ .deleted)

/-- Of the changes only those count that come after the last departure. -/
theorem foldl_changedRow (node : NodeId) (own : List ReplicaReport) (row : Option Replica) :
    own.foldl (changedRow node) row =
      (sinceDeparture own).foldl (heldRow node) (if ∀ r ∈ own, r.state ≠ .deleted then row else none) := by
  induction own using List.reverseRecOn with
  | nil => simp [sinceDeparture]
  | append_singleton before r ih =>
    rw [List.foldl_append, ih, sinceDeparture, sinceDeparture]
    by_cases gone : r.state = .deleted
    · have told : ¬ ∀ x ∈ before ++ [r], x.state ≠ .deleted := fun kept => kept r (by simp) gone
      rw [List.rtakeWhile_concat_neg _ _ _ (by simp [gone]), if_neg told]
      simp [changedRow, gone]
    · rw [List.rtakeWhile_concat_pos _ _ _ (by simp [gone]), List.foldl_append]
      simp [changedRow, gone, or_imp, forall_and]

/-- The last entry, with the origin that was known, or else the one that is told first. -/
theorem foldl_heldRow {first last : ReplicaReport} (head : own.head? = some first) (tail : own.getLast? = some last)
    (row : Option Replica) : own.foldl (heldRow node) row =
      some { last.toReplica node with origin := (row.getD (first.toReplica node)).origin } := by
  have fold : own.foldl (heldRow node) row =
      (own.map (·.toReplica node)).foldl (fun row r => some (Held.inheriting row r)) row := by
    rw [List.foldl_map]
    rfl
  rw [fold, foldl_inheriting, List.getLast?_map, List.head?_map, head, tail]
  cases row <;> rfl

/-- A departure shows in the row unless the node has a copy again, and one of the same origin. -/
theorem foldl_heldRow_eq_iff {first : ReplicaReport} (head : own.head? = some first) (row : Option Replica) :
    own.foldl (heldRow node) row = own.foldl (changedRow node) row ↔
      (∀ r ∈ own, r.state ≠ .deleted) ∨ ∃ back, (sinceDeparture own).head? = some back ∧
        (row.getD (first.toReplica node)).origin = (back.toReplica node).origin := by
  by_cases kept : ∀ r ∈ own, r.state ≠ .deleted
  · have whole : sinceDeparture own = own := List.rtakeWhile_eq_self_iff.2 (by simpa using kept)
    rw [foldl_changedRow, if_pos kept, whole]
    exact iff_of_true rfl (.inl kept)
  obtain ⟨last, tail⟩ : ∃ last, own.getLast? = some last := by
    cases tail : own.getLast? with
    | none => simp [List.getLast?_eq_none_iff.1 tail] at head
    | some last => exact ⟨last, rfl⟩
  rw [foldl_changedRow, if_neg kept, foldl_heldRow head tail, or_iff_right kept]
  cases back : (sinceDeparture own).head? with
  | none =>
    rw [List.head?_eq_none_iff.1 back]
    simp
  | some x =>
    have tail' : (sinceDeparture own).getLast? = some last := by
      obtain ⟨front, whole⟩ : sinceDeparture own <:+ own := List.rtakeWhile_suffix _ _
      rw [← whole, List.getLast?_append] at tail
      cases ending : (sinceDeparture own).getLast? with
      | none => simp [List.getLast?_eq_none_iff.1 ending] at back
      | some y => rwa [ending] at tail
    rw [foldl_heldRow back tail']
    simp

inductive Concordant (c : Container) (node : NodeId) (own : List ReplicaReport) : Prop where
  | kept (kept : ∀ r ∈ own, r.state ≠ .deleted)
  | bare (deleted : c.info.state = .deleted) (absent : c.replicas[node]? = none)
  /-- The node has a copy again, and it is of the origin that is known already. -/
  | returned {first back : ReplicaReport} (live : c.info.state ≠ .deleted) (head : own.head? = some first)
      (since : (sinceDeparture own).head? = some back)
      (origin : (c.replicas[node]?.getD (first.toReplica node)).origin = (back.toReplica node).origin)

theorem foldl_take_eq_foldl_change_iff (now : Millis) {first : ReplicaReport} (head : own.head? = some first) :
    (own.foldl (fun c r => c.take now (r.toReplica node)) c).replicas[node]? =
        (own.foldl (change now node) c).replicas[node]? ↔ Concordant c node own := by
  by_cases deleted : c.info.state = .deleted
  · have still : c.takeAll now (own.map (·.toReplica node)) = c := takeAll_of_deleted deleted
    rw [takeAll, List.foldl_map] at still
    rw [still, replicas_foldl_change_of_deleted deleted]
    constructor
    · intro same
      split at same
      · next kept => exact .kept kept
      · exact .bare deleted same
    · rintro (kept | ⟨-, absent⟩ | ⟨live, -, -, -⟩)
      · rw [if_pos kept]
      · rw [absent, ite_self]
      · exact absurd deleted live
  · rw [replicas_foldl_take deleted, replicas_foldl_change deleted, foldl_heldRow_eq_iff head]
    constructor
    · rintro (kept | ⟨back, since, origin⟩)
      · exact .kept kept
      · exact .returned deleted head since origin
    · rintro (kept | ⟨gone, -⟩ | ⟨-, head', since, origin⟩)
      · exact .inl kept
      · exact absurd gone deleted
      · cases head.symm.trans head'
        exact .inr ⟨_, since, origin⟩

end Container

namespace Directory

open Container (Concordant)

variable {ε : Type} {shown : ContainerId → NodeId → Prop} {s s' : Stored Directory} {id : ContainerId} {node : NodeId}
  {now : Millis} {replicas departed : List ReplicaReport}

def changed (now : Millis) (node : NodeId) (replicas : List ReplicaReport) (s : Stored Directory) : Stored Directory :=
  replicas.foldl (fun s r => (change now node r).run s) s

/-- A full report and an incremental one leave the same but for the rows of copies that are gone. -/
theorem alike_fed_changed (alike : Alike shown s s')
    (hidden : ∀ r ∈ replicas, r.state = .deleted → ¬ shown r.container node) :
    Alike shown (fed now node replicas s) (changed now node replicas s') := by
  induction replicas generalizing s s' with
  | nil => exact alike
  | cons r rest ih =>
    obtain ⟨here, later⟩ := List.forall_mem_cons.1 hidden
    suffices step : Alike shown ((Single.feed now r.container (r.toReplica node)).run s) ((change now node r).run s') from
      ih step later
    unfold change
    split
    · next gone =>
      have fed : Alike shown s ((Single.feed now r.container (r.toReplica node)).run s) :=
        alike_feed_of_deleted gone (here gone) now s
      exact fed.symm.trans (alike.trans (alike_drop (here gone) s'))
    · exact alike.feed now r.container (r.toReplica node)

theorem alike_foldl_drop {ids : List ContainerId} (hidden : ∀ id ∈ ids, ¬ shown id node) (s : Stored Directory) :
    Alike shown s (ids.foldl (fun s id => (Single.drop id node).run s) s) :=
  List.foldlRecOn (motive := fun k => Alike shown s k) ids _ (.refl s)
    fun k alike id mem => alike.trans (alike_drop (hidden id mem) k)

/-- After its own entries an incremental report drops what has departed. -/
theorem changed_append (gone : ∀ r ∈ departed, r.state = .deleted) (now : Millis) (s : Stored Directory) :
    changed now node (replicas ++ departed) s =
      (departed.map ReplicaReport.container).foldl (fun s id => (Single.drop id node).run s)
        (changed now node replicas s) := by
  rw [changed, changed, List.foldl_append, List.foldl_map]
  refine List.foldl_ext _ _ _ fun s r mem => ?_
  rw [change, if_pos (gone r mem)]

structure Departures (d : Directory) (node : NodeId) (replicas departed : List ReplicaReport) : Prop where
  gone : ∀ r ∈ departed, r.state = .deleted
  exact (id : ContainerId) : (∃ r ∈ departed, r.container = id) ↔
    (row? d.containers id node).isSome ∧ ∀ r ∈ replicas, r.container ≠ id

/-- How far two directories agree, one after a full report and one after an incremental report. -/
structure Agree (s : Stored Directory) (node : NodeId) (replicas : List ReplicaReport) (full incremental : Stored Directory) :
    Prop where
  db : incremental.db = full.db
  info (id : ContainerId) : incremental.view.containers[id]?.map Container.info =
    full.view.containers[id]?.map Container.info
  others {other : NodeId} (different : other ≠ node) (id : ContainerId) :
    row? incremental.view.containers id other = row? full.view.containers id other
  /-- No copy of the container is reported as deleted. -/
  kept {id : ContainerId} (kept : ∀ r ∈ entriesOf replicas id, r.state ≠ .deleted) :
    row? incremental.view.containers id node = row? full.view.containers id node
  concordant {id : ContainerId} {c : Container} (accepts : s.db.Accepts .containers)
    (found : s.view.containers[id]? = some c) :
    row? full.view.containers id node = row? incremental.view.containers id node ↔
      Concordant c node (entriesOf replicas id)

theorem mem_departed_iff (departures : Departures s.view node replicas departed) :
    id ∈ departed.map ReplicaReport.container ↔
      (row? s.view.containers id node).isSome ∧ ∀ r ∈ replicas, r.container ≠ id :=
  List.mem_map.trans (departures.exact id)

/-- The rows of the node after the incremental report: those of its own entries, and no others. -/
theorem row?_changed_append (departures : Departures s.view node replicas departed) (now : Millis) (id : ContainerId) :
    row? (changed now node (replicas ++ departed) s).view.containers id node =
      if ∀ r ∈ replicas, r.container ≠ id then none
      else row? (changed now node replicas s).view.containers id node := by
  rw [changed_append departures.gone, row?_foldl_drop]
  simp only [mem_departed_iff departures, and_true]
  by_cases unlisted : ∀ r ∈ replicas, r.container ≠ id
  · have untouched : row? (changed now node replicas s).view.containers id node = row? s.view.containers id node := by
      have alike : Alike (fun other _ => other = id) (fed now node replicas s) (changed now node replicas s) :=
        alike_fed_changed (.refl s) fun r mem _ => unlisted r mem
      rw [alike.row rfl, row?_fed_of_unlisted unlisted]
    rw [untouched, if_pos unlisted]
    cases row : row? s.view.containers id node with
    | none => simp
    | some x => simpa using unlisted
  · rw [if_neg unlisted, if_neg fun both => unlisted both.2]

/-- A full report and an incremental one that tells of every departure leave the same metadata, and the same rows but
for those of copies that the report itself calls deleted. -/
theorem agree_of_departures (departures : Departures s.view node replicas departed) (now : Millis) :
    ∃ t full t' incremental, (fullReport now node replicas : Action _ ε _).run s = (.ok t, full) ∧
      (incrementalReport now node (replicas ++ departed) : Action _ ε _).run s = (.ok t', incremental) ∧
      Agree s node replicas full incremental := by
  obtain ⟨t, run⟩ := run_fullReport (ε := ε) now node replicas s
  obtain ⟨t', run'⟩ := run_incrementalReport (ε := ε) now node (replicas ++ departed) s
  refine ⟨t, swept node replicas (fed now node replicas s), t', changed now node (replicas ++ departed) s, run, run', ?_⟩
  have alike : Alike (fun id other => other = node → ∀ r ∈ entriesOf replicas id, r.state ≠ .deleted)
      (fed now node replicas s) (changed now node replicas s) :=
    alike_fed_changed (.refl s) fun r mem gone visible =>
      visible rfl r (List.mem_filter.2 ⟨mem, decide_eq_true rfl⟩) gone
  have unseen : Alike (fun _ other => other ≠ node) (swept node replicas (fed now node replicas s))
      (changed now node (replicas ++ departed) s) := by
    have swept : Alike (fun _ other => other ≠ node) (fed now node replicas s)
        (swept node replicas (fed now node replicas s)) := alike_foldl_drop (fun _ _ visible => visible rfl) _
    have between : Alike (fun _ other => other ≠ node) (fed now node replicas s) (changed now node replicas s) :=
      alike.mono fun _ _ different same => absurd same different
    have dropped : Alike (fun _ other => other ≠ node) (changed now node replicas s)
        (changed now node (replicas ++ departed) s) := by
      rw [changed_append departures.gone]
      exact alike_foldl_drop (fun _ _ visible => visible rfl) _
    exact swept.symm.trans (between.trans dropped)
  have kept {id : ContainerId} (kept : ∀ r ∈ entriesOf replicas id, r.state ≠ .deleted) :
      row? (changed now node (replicas ++ departed) s).view.containers id node =
        row? (swept node replicas (fed now node replicas s)).view.containers id node := by
    rw [row?_changed_append departures, row?_swept, alike.row fun _ => kept]
    simp
  refine ⟨unseen.db, unseen.info, fun different id => unseen.row different, kept, fun {id c} accepts found => ?_⟩
  cases own : entriesOf replicas id with
  | nil =>
    have none : ∀ r ∈ entriesOf replicas id, r.state ≠ .deleted := by simp [own]
    exact iff_of_true (kept none).symm (.kept (by simp))
  | cons first rest =>
    have listed : ¬ ∀ r ∈ replicas, r.container ≠ id := mt entriesOf_eq_nil_iff.2 (by simp [own])
    have held := (touchesWhile_fed node (touchesWhile_feed now) replicas s accepts).2 id
    have changes := (touchesWhile_incremental node (touchesWhile_feed now) replicas s accepts).2 id
    rw [row?_swept, if_neg fun both => listed both.1, row?_changed_append departures, if_neg listed, row?, row?, fed, changed,
      held, changes, found, ← own]
    have head : (entriesOf replicas id).head? = some first := by rw [own]; rfl
    exact Container.foldl_take_eq_foldl_change_iff now head

section Parting

def parting : List ReplicaReport :=
  [⟨⟨1⟩, .deleted, 0, 0, 0, none⟩, ⟨⟨1⟩, .opened, 0, 2, 20, some ⟨⟨9⟩⟩⟩, ⟨⟨2⟩, .deleted, 0, 0, 0, none⟩]

def parted : List ReplicaReport := [⟨⟨4⟩, .deleted, 0, 0, 0, none⟩, ⟨⟨3⟩, .deleted, 0, 0, 0, none⟩]

theorem departures_parting : Departures reportingStore.view reporter parting parted where
  gone := by decide
  exact id := by
    let hosted : List ContainerId := [⟨1⟩, ⟨2⟩, ⟨3⟩, ⟨4⟩]
    have held : reportingStore.view.onNode reporter = hosted := by decide +kernel
    have told : ∀ r ∈ parted, r.container ∈ hosted ∧ ∀ x ∈ parting, x.container ≠ r.container := by decide
    have all : ∀ id ∈ hosted, (∀ x ∈ parting, x.container ≠ id) → ∃ r ∈ parted, r.container = id := by decide
    rw [← mem_onNode_iff, held]
    constructor
    · rintro ⟨r, mem, rfl⟩
      exact told r mem
    · rintro ⟨mem, unlisted⟩
      exact all id mem unlisted

/-- The rows of the first container agree, and those of the second one, which is deleted and has a row, do not. -/
theorem agree_of_departures_parting : Departures reportingStore.view reporter parting parted ∧
    ∃ t full t' incremental,
      (fullReport 5 reporter parting : Action _ ContainerError _).run reportingStore = (.ok t, full) ∧
      (incrementalReport 5 reporter (parting ++ parted) : Action _ ContainerError _).run reportingStore =
        (.ok t', incremental) ∧
      Agree reportingStore reporter parting full incremental ∧
      row? full.view.containers ⟨1⟩ reporter = row? incremental.view.containers ⟨1⟩ reporter ∧
      row? full.view.containers ⟨2⟩ reporter ≠ row? incremental.view.containers ⟨2⟩ reporter := by
  obtain ⟨t, full, t', incremental, run, run', agree⟩ :=
    agree_of_departures (ε := ContainerError) departures_parting 5
  have accepts : reportingStore.db.Accepts .containers := ⟨⟨∅, rfl⟩, List.not_mem_nil⟩
  have found₁ : reportingStore.view.containers[(⟨1⟩ : ContainerId)]? = some (hosting ⟨1⟩ .opened) := by decide +kernel
  have found₂ : reportingStore.view.containers[(⟨2⟩ : ContainerId)]? = some (hosting ⟨2⟩ .deleted) := by decide +kernel
  refine ⟨departures_parting, t, full, t', incremental, run, run', agree, ?_, ?_⟩
  · exact (agree.concordant accepts found₁).2 (.returned (by decide) rfl rfl rfl)
  · intro same
    obtain kept | ⟨-, absent⟩ | ⟨live, -, -, -⟩ := (agree.concordant accepts found₂).1 same
    · exact absurd kept (by decide)
    · exact absurd absent (by decide +kernel)
    · exact live rfl

def hostingStore : Stored Directory :=
  ⟨{ containers := (∅ : Std.ExtTreeMap ContainerId Container).insert ⟨1⟩ ⟨.fresh 0 ⟨1⟩ .opened none,
      (∅ : Std.ExtTreeMap NodeId Replica).insert reporter ⟨⟨1⟩, reporter, .opened, 0, 0, 0, reporter⟩⟩ }, .empty⟩

/-- The node says that its copy is gone: after an incremental report it is, after a full one a row is left. -/
theorem row_left_by_full_report :
    Departures hostingStore.view reporter [⟨⟨1⟩, .deleted, 0, 0, 0, none⟩] [] ∧
    row? ((fullReport 5 reporter [⟨⟨1⟩, .deleted, 0, 0, 0, none⟩] : Action _ ContainerError _).state
      hostingStore).view.containers ⟨1⟩ reporter = some ⟨⟨1⟩, reporter, .deleted, 0, 0, 0, reporter⟩ ∧
    row? ((incrementalReport 5 reporter ([⟨⟨1⟩, .deleted, 0, 0, 0, none⟩] ++ []) : Action _ ContainerError _).state
      hostingStore).view.containers ⟨1⟩ reporter = none := by
  refine ⟨⟨by simp, fun id => ?_⟩, by decide +kernel, by decide +kernel⟩
  have held : hostingStore.view.onNode reporter = [⟨1⟩] := by decide +kernel
  rw [← mem_onNode_iff, held]
  simp [eq_comm]

end Parting

end Directory

end ClusterCatalog
