import ClusterCatalog.Proofs.Container.Rows
/-!
A full report replaces what is known of its node: the rows are those of the report, and what it leaves out
is gone. The two loops are counted apart: the first one applies every entry of a container that is known,
the second one drops just the rows that are left over.
-/
namespace ClusterCatalog.Directory

variable {ε : Type} {s : Stored Directory} {id other : ContainerId} {node node' : NodeId} {now : Millis}
  {replicas : List ReplicaReport}

def entriesOf (replicas : List ReplicaReport) (id : ContainerId) : List ReplicaReport :=
  replicas.filter (·.container = id)

theorem entriesOf_eq_nil_iff : entriesOf replicas id = [] ↔ ∀ r ∈ replicas, r.container ≠ id := by
  simp [entriesOf, List.filter_eq_nil_iff]

structure Renewed (s : Stored Directory) (node : NodeId) (replicas : List ReplicaReport) (t : Tally)
    (s' : Stored Directory) : Prop where
  known (id : ContainerId) : id ∈ s'.view.containers ↔ id ∈ s.view.containers
  deletion {id : ContainerId} {c c' : Container} (found : s.view.containers[id]? = some c)
    (found' : s'.view.containers[id]? = some c') : c'.info.state = .deleted ↔ c.info.state = .deleted
  /-- The last entry, with the origin that was known already, or else the one given first. -/
  listed {id : ContainerId} {c : Container} {first last : ReplicaReport} (found : s.view.containers[id]? = some c)
    (live : c.info.state ≠ .deleted) (head : (entriesOf replicas id).head? = some first)
    (tail : (entriesOf replicas id).getLast? = some last) :
    row? s'.view.containers id node =
      some { last.toReplica node with origin := (c.replicas[node]?.getD (first.toReplica node)).origin }
  unlisted {id : ContainerId} (left : entriesOf replicas id = []) : row? s'.view.containers id node = none
  /-- A container that is deleted takes no row, but the one that it has stays while it is listed. -/
  deleted {id : ContainerId} {c : Container} (found : s.view.containers[id]? = some c)
    (deleted : c.info.state = .deleted) (listed : entriesOf replicas id ≠ []) :
    row? s'.view.containers id node = c.replicas[node]?
  others {other : NodeId} (different : other ≠ node) (id : ContainerId) :
    row? s'.view.containers id other = row? s.view.containers id other
  applied : t.applied = replicas.countP fun r => s.view.containers.contains r.container
  unknown : t.unknown = replicas.countP fun r => !s.view.containers.contains r.container
  all : t.applied + t.unknown = replicas.length
  failed : t.failed = 0
  removed : t.removed = ((s.view.onNode node).filter (· ∉ s'.view.onNode node)).length

/-! The first loop. -/

theorem contains_feed (accepts : s.db.Accepts .containers) (now : Millis) (id : ContainerId) (x : Replica)
    (other : ContainerId) :
    ((Single.feed now id x).run s).view.containers.contains other = s.view.containers.contains other := by
  rw [Std.ExtTreeMap.contains_eq_isSome_getElem?, Single.getElem?_feed now id x accepts, Option.isSome_map,
    Std.ExtTreeMap.contains_eq_isSome_getElem?]

structure Applying (known : ContainerId → Bool) (replicas : List ReplicaReport) (t t' : Tally) : Prop where
  applied : t'.applied = t.applied + replicas.countP fun r => known r.container
  unknown : t'.unknown = t.unknown + replicas.countP fun r => !known r.container
  failed : t'.failed = t.failed
  removed : t'.removed = t.removed

theorem applying_addApplied (accepts : s.db.Accepts .containers) (now : Millis) (node : NodeId) (r : ReplicaReport)
    (t : Tally) : Applying s.view.containers.contains [r] t
      (t.addApplied ((applyReplica now (r.toReplica node)).run s).1) := by
  have known : s.view.containers.contains r.container = s.view.containers[r.container]?.isSome :=
    Std.ExtTreeMap.contains_eq_isSome_getElem?
  cases found : s.view.containers[(r.toReplica node).container]? with
  | none =>
    rw [show s.view.containers[r.container]? = none from found] at known
    rw [applyReplica, run_withContainer_of_none _ found]
    exact ⟨by simp [known, Tally.addApplied, Tally.fault], by simp [known, Tally.addApplied, Tally.fault], rfl, rfl⟩
  | some c =>
    rw [show s.view.containers[r.container]? = some c from found] at known
    obtain ⟨db, run, -⟩ := run_withContainer_apply now (r.toReplica node) found accepts
    rw [applyReplica, run]
    exact ⟨by simp [known, Tally.addApplied], by simp [known, Tally.addApplied], rfl, rfl⟩

theorem run_applyReports (accepts : s.db.Accepts .containers) (now : Millis) (node : NodeId)
    (replicas : List ReplicaReport) (t : Tally) :
    ∃ t', (replicas.foldlM (applyReport now node) t : Action _ ε _).run s = (.ok t', fed now node replicas s) ∧
      Applying s.view.containers.contains replicas t t' := by
  induction replicas generalizing s t with
  | nil => exact ⟨t, rfl, rfl, rfl, rfl, rfl⟩
  | cons r rest ih =>
    have first := applying_addApplied accepts now node r t
    obtain ⟨t', run, later⟩ := ih (Single.accepts_feed accepts now r.container (r.toReplica node))
      (t.addApplied ((applyReplica now (r.toReplica node)).run s).1)
    refine ⟨t', ?_, ?_, ?_, later.failed.trans first.failed, later.removed.trans first.removed⟩
    · rw [List.foldlM_cons, Action.run_bind_ok (run_applyReport now node t r s), run]
      rfl
    · rw [later.applied, first.applied, List.countP_singleton, List.countP_cons]
      simp only [contains_feed accepts]
      omega
    · rw [later.unknown, first.unknown, List.countP_singleton, List.countP_cons]
      simp only [contains_feed accepts]
      omega

/-! The second loop. -/

theorem nodup_onNode (d : Directory) (node : NodeId) : (d.onNode node).Nodup := Std.ExtTreeMap.nodup_keys

theorem run_dropMissing_of_row {x : Replica} (here : row? s.view.containers id node = some x) (t : Tally) :
    (dropMissing node t id : Action _ ε _).run s =
      (.ok { t with removed := t.removed + 1 }, (Single.drop id node).run s) := by
  obtain ⟨c, found, row⟩ := Option.bind_eq_some_iff.1 here
  have removes := fst_removeReplica id node s
  rw [found] at removes
  dsimp only at removes
  rw [dropMissing, Action.run_bind_ok (Action.run_attempt _ s), removes, row]
  rfl

theorem nodup_missing (d : Directory) (node : NodeId) (replicas : List ReplicaReport) : (d.missing node replicas).Nodup :=
  (nodup_onNode d node).filter _

/-- Every row that is looked for is there, and is counted once. -/
theorem run_dropMissings {ids : List ContainerId} (distinct : ids.Nodup)
    (held : ∀ id ∈ ids, (row? s.view.containers id node).isSome) (t : Tally) :
    (ids.foldlM (dropMissing node) t : Action _ ε _).run s =
      (.ok { t with removed := t.removed + ids.length }, ids.foldl (fun s id => (Single.drop id node).run s) s) := by
  induction ids generalizing s t with
  | nil => rfl
  | cons id rest ih =>
    obtain ⟨apart, distinct⟩ := List.nodup_cons.1 distinct
    obtain ⟨here, later⟩ := List.forall_mem_cons.1 held
    obtain ⟨x, here⟩ := Option.isSome_iff_exists.1 here
    have held' : ∀ other ∈ rest, (row? ((Single.drop id node).run s).view.containers other node).isSome := by
      intro other mem
      rw [row?_drop, if_neg fun same : other = id ∧ node = node => apart (same.1 ▸ mem)]
      exact later other mem
    rw [List.foldlM_cons, Action.run_bind_ok (run_dropMissing_of_row here t), ih distinct held']
    simp only [List.length_cons, List.foldl_cons, Nat.add_assoc, Nat.add_comm 1]

/-! What both loops make of one container. -/

theorem receive_eq_takeAll (now : Millis) (node : NodeId) (c : Container) (listed : entriesOf replicas id ≠ []) :
    c.receive now id (.containerReport node replicas) =
      c.takeAll now ((entriesOf replicas id).map (·.toReplica node)) :=
  (Container.receive_of_listed now node c listed).trans List.foldl_map.symm

theorem getElem?_renewed (accepts : s.db.Accepts .containers) (now : Millis) (node : NodeId)
    (replicas : List ReplicaReport) (id : ContainerId) :
    (swept node replicas (fed now node replicas s)).view.containers[id]? =
      s.view.containers[id]?.map fun c => c.receive now id (.containerReport node replicas) :=
  (touchesWhile_full node (touchesWhile_feed now) replicas s accepts).2 id

theorem row?_renewed (accepts : s.db.Accepts .containers) (now : Millis) {c : Container}
    (found : s.view.containers[id]? = some c) (listed : entriesOf replicas id ≠ []) (node' : NodeId) :
    row? (swept node replicas (fed now node replicas s)).view.containers id node' =
      (c.takeAll now ((entriesOf replicas id).map (·.toReplica node))).replicas[node']? := by
  rw [row?, getElem?_renewed accepts, found, ← receive_eq_takeAll now node c listed]
  rfl

theorem deleted_receive (now : Millis) (id : ContainerId) (c : Container) (node : NodeId) (replicas : List ReplicaReport) :
    (c.receive now id (.containerReport node replicas)).info.state = .deleted ↔ c.info.state = .deleted := by
  by_cases left : entriesOf replicas id = []
  · rw [Container.receive_of_unlisted now node c left]
    rfl
  · rw [receive_eq_takeAll now node c left]
    exact List.foldlRecOn (motive := fun k : Container => k.info.state = .deleted ↔ c.info.state = .deleted) _ _ Iff.rfl
      fun k same r _ => (k.deleted_take now r).trans same

/-- A row stays while replicas are taken. -/
theorem isSome_takeAll {c : Container} (held : c.replicas[node]?.isSome) (now : Millis) (taken : List Replica) :
    (c.takeAll now taken).replicas[node]?.isSome := by
  refine List.foldlRecOn (motive := fun k : Container => k.replicas[node]?.isSome) taken _ held fun k held r _ => ?_
  rw [k.getElem?_replicas_take]
  split
  · rfl
  · exact held

/-- What is missing once the entries were fed is what the node loses. -/
theorem perm_missing_fed (accepts : s.db.Accepts .containers) (now : Millis) (node : NodeId)
    (replicas : List ReplicaReport) : ((fed now node replicas s).view.missing node replicas).Perm
      ((s.view.onNode node).filter (· ∉ (swept node replicas (fed now node replicas s)).view.onNode node)) := by
  refine (List.perm_ext_iff_of_nodup (nodup_missing ..) ((nodup_onNode ..).filter _)).2 fun id => ?_
  rw [mem_missing_iff, List.mem_filter, decide_eq_true_iff, mem_onNode_iff, mem_onNode_iff]
  constructor
  · rintro ⟨held, unlisted⟩
    rw [row?_fed_of_unlisted unlisted] at held
    exact ⟨held, by rw [row?_swept, if_pos ⟨unlisted, rfl⟩]; exact Bool.false_ne_true⟩
  · rintro ⟨held, lost⟩
    have left : entriesOf replicas id = [] := by
      refine Classical.byContradiction fun listed => lost ?_
      obtain ⟨x, row⟩ := Option.isSome_iff_exists.1 held
      obtain ⟨c, found, here⟩ := Option.bind_eq_some_iff.1 row
      rw [row?_renewed accepts now found listed]
      exact isSome_takeAll (by rw [here]; rfl) now _
    have unlisted := entriesOf_eq_nil_iff.1 left
    exact ⟨by rwa [row?_fed_of_unlisted unlisted], unlisted⟩

theorem filter_toReplica (node : NodeId) (own : List ReplicaReport) :
    (own.map (·.toReplica node)).filter (·.node = node) = own.map (·.toReplica node) := by
  simp [ReplicaReport.toReplica]

/-- With a store that takes its writes, a full report is taken as a whole. -/
theorem renewed_fullReport (accepts : s.db.Accepts .containers) (now : Millis) (node : NodeId)
    (replicas : List ReplicaReport) :
    ∃ t s', (fullReport now node replicas : Action _ ε _).run s = (.ok t, s') ∧ Renewed s node replicas t s' := by
  obtain ⟨t, applied, counted⟩ := run_applyReports (ε := ε) accepts now node replicas {}
  have dropped := run_dropMissings (ε := ε) (nodup_missing (fed now node replicas s).view node replicas)
    (fun id mem => (mem_missing_iff.1 mem).1) t
  have known : t.applied = replicas.countP fun r => s.view.containers.contains r.container :=
    counted.applied.trans (Nat.zero_add _)
  have unknown : t.unknown = replicas.countP fun r => !s.view.containers.contains r.container :=
    counted.unknown.trans (Nat.zero_add _)
  refine ⟨_, swept node replicas (fed now node replicas s), (run_fullReport_of_applied applied).trans dropped, ?_⟩
  exact {
    known := fun id => by
      rw [Std.ExtTreeMap.mem_iff_isSome_getElem?, getElem?_renewed accepts, Option.isSome_map,
        Std.ExtTreeMap.mem_iff_isSome_getElem?]
    deletion := fun {id c c'} found found' => by
      rw [getElem?_renewed accepts, found] at found'
      cases found'
      exact deleted_receive now id c node replicas
    listed := fun {id c first last} found live head tail => by
      have listed : entriesOf replicas id ≠ [] := fun left => by simp [left] at head
      rw [row?_renewed accepts now found listed]
      let own := (entriesOf replicas id).map (·.toReplica node)
      have head' : (own.filter (·.node = node)).head? = some (first.toReplica node) := by
        rw [filter_toReplica, List.head?_map, head]
        rfl
      have tail' : (own.filter (·.node = node)).getLast? = some (last.toReplica node) := by
        rw [filter_toReplica, List.getLast?_map, tail]
        rfl
      exact (c.caughtUp_takeAll now own).row live head' tail'
    unlisted := fun {id} left => by
      rw [row?_swept, if_pos ⟨entriesOf_eq_nil_iff.1 left, rfl⟩]
    deleted := fun {id c} found deleted listed => by
      rw [row?_renewed accepts now found listed, Container.takeAll_of_deleted deleted]
    others := fun {other} different id => by
      rw [row?_swept, if_neg fun mine => different mine.2, row?_fed_of_node_ne (Ne.symm different)]
    applied := known
    unknown := unknown
    all := by
      rw [known, unknown, List.length_eq_countP_add_countP fun r : ReplicaReport => s.view.containers.contains r.container]
      simp only [decide_not, Bool.decide_eq_true]
    failed := counted.failed
    removed := (congrArg (· + _) counted.removed).trans
      ((Nat.zero_add _).trans (perm_missing_fed accepts now node replicas).length_eq) }

section Reporting

def reporter : NodeId := ⟨⟨3⟩⟩

def adopted (id : ContainerId) : Replica := ⟨id, reporter, .opened, 0, 1, 10, ⟨⟨9⟩⟩⟩

def hosting (id : ContainerId) (state : Lifecycle) : Container :=
  ⟨.fresh 0 id state none, (∅ : Std.ExtTreeMap NodeId Replica).insert reporter (adopted id)⟩

def reportingStore : Stored Directory :=
  ⟨{ containers := (((∅ : Std.ExtTreeMap ContainerId Container).insert ⟨1⟩ (hosting ⟨1⟩ .opened)).insert ⟨2⟩
      (hosting ⟨2⟩ .deleted)).insert ⟨3⟩ (hosting ⟨3⟩ .opened) |>.insert ⟨4⟩ (hosting ⟨4⟩ .deleted) }, .empty⟩

def listing : List ReplicaReport :=
  [⟨⟨1⟩, .opened, 0, 2, 20, none⟩, ⟨⟨2⟩, .closed, 0, 2, 20, none⟩, ⟨⟨7⟩, .opened, 0, 0, 0, none⟩,
    ⟨⟨1⟩, .unhealthy, 5, 3, 30, none⟩]

theorem renewed_fullReport_listing : reportingStore.db.Accepts .containers ∧
    ∃ t s', (fullReport 5 reporter listing : Action _ ContainerError _).run reportingStore = (.ok t, s') ∧
      Renewed reportingStore reporter listing t s' ∧
      row? s'.view.containers ⟨1⟩ reporter = some ⟨⟨1⟩, reporter, .unhealthy, 5, 3, 30, ⟨⟨9⟩⟩⟩ ∧
      row? s'.view.containers ⟨2⟩ reporter = some (adopted ⟨2⟩) ∧ row? s'.view.containers ⟨3⟩ reporter = none ∧
      row? s'.view.containers ⟨4⟩ reporter = none ∧ t = ⟨3, 0, 2, 1, 0⟩ := by
  have accepts : reportingStore.db.Accepts .containers := ⟨⟨∅, rfl⟩, List.not_mem_nil⟩
  obtain ⟨t, s', run, renewed⟩ := renewed_fullReport (ε := ContainerError) accepts 5 reporter listing
  have found₁ : reportingStore.view.containers[(⟨1⟩ : ContainerId)]? = some (hosting ⟨1⟩ .opened) := by decide +kernel
  have found₂ : reportingStore.view.containers[(⟨2⟩ : ContainerId)]? = some (hosting ⟨2⟩ .deleted) := by decide +kernel
  have counted : ((fullReport 5 reporter listing : Action _ ContainerError _).run reportingStore).1 =
      .ok ⟨3, 0, 2, 1, 0⟩ := eq_ok_of_toOption (by decide +kernel)
  rw [run] at counted
  exact ⟨accepts, t, s', run, renewed, renewed.listed found₁ (by decide) rfl rfl,
    renewed.deleted found₂ rfl (by decide), renewed.unlisted rfl, renewed.unlisted rfl, Except.ok.inj counted⟩

end Reporting

end ClusterCatalog.Directory
