import ClusterCatalog.Proofs.Container.Rows
import ClusterCatalog.Proofs.Container.Steady
/-!
A report that is handled twice in a row. Each entry leaves the directory in a state in which the same entry
has nothing left to do but to note a time; entries on other containers and the sweep keep that.
-/
namespace ClusterCatalog

def Sighting.undated (s : Sighting) : Sighting := { s with lastSeen := 0 }

namespace History

variable {h : History} {now : Millis} {x : Replica} {key : ReplicaKey}

structure Knows (h : History) (x : Replica) : Prop where
  entry : ∃ seen, h.entries[x.key]? = some seen ∧ { seen with sequence := x.sequence, state := x.state } = seen
  pending : x.key ∈ h.pending

theorem knows_record (h : History) (now : Millis) (x : Replica) : (h.record now x).Knows x where
  entry := by
    rw [getElem?_record, if_pos rfl]
    refine ⟨_, rfl, ?_⟩
    cases h.entries[x.key]? <;> rfl
  pending := Std.ExtTreeSet.mem_insert_self

theorem Knows.pending_record (knows : h.Knows x) (now : Millis) : (h.record now x).pending = h.pending := by
  refine Std.ExtTreeSet.ext_mem fun key => ?_
  rw [record, Std.ExtTreeSet.mem_insert, or_iff_right_iff_imp]
  intro same
  exact Std.LawfulEqCmp.eq_of_compare same ▸ knows.pending

theorem Knows.undated_record (knows : h.Knows x) (now : Millis) (key : ReplicaKey) :
    (h.record now x).entries[key]?.map Sighting.undated = h.entries[key]?.map Sighting.undated := by
  rw [getElem?_record]
  split
  · next same =>
    obtain ⟨seen, found, told⟩ := knows.entry
    rw [← same, found]
    exact congrArg (fun s => some s.undated) told
  · rfl

/-- What the history knows of a replica depends on the entry of the pair only, whatever its time. -/
theorem Knows.congr {h' : History} (knows : h.Knows x)
    (entry : h'.entries[x.key]?.map Sighting.undated = h.entries[x.key]?.map Sighting.undated)
    (pending : x.key ∈ h.pending → x.key ∈ h'.pending) : h'.Knows x where
  entry := by
    obtain ⟨seen, found, told⟩ := knows.entry
    rw [found] at entry
    obtain ⟨seen', found', same⟩ := Option.map_eq_some_iff.1 entry
    refine ⟨seen', found', ?_⟩
    simp only [Sighting.undated, Sighting.mk.injEq] at same
    obtain ⟨-, -, -, -, sequence, state⟩ := same
    rw [← told] at sequence state
    rw [← show seen'.sequence = x.sequence from sequence, ← show seen'.state = x.state from state]
  pending := pending knows.pending

end History

structure Tally.Idle (t t' : Tally) : Prop where
  transitions : t'.transitions = t.transitions
  removed : t'.removed = t.removed

namespace Tally

variable {t t' t'' : Tally}

theorem Idle.trans (h : t.Idle t') (g : t'.Idle t'') : t.Idle t'' :=
  ⟨g.transitions.trans h.transitions, g.removed.trans h.removed⟩

theorem idle_fault (t : Tally) (e : ContainerError) : t.Idle (t.fault e) := by
  cases e <;> exact ⟨rfl, rfl⟩

theorem idle_addApplied {result : Except ContainerError ReplicaOutcome}
    (still : ∀ outcome, result = .ok outcome → outcome.newState? = none) : t.Idle (t.addApplied result) := by
  cases result with
  | error e => exact t.idle_fault e
  | ok outcome => exact ⟨by simp [addApplied, still outcome rfl], rfl⟩

theorem idle_addRemoved {result : Except ContainerError (Option Replica)} (none : ∀ x, result ≠ .ok (some x)) :
    t.Idle (t.addRemoved result) := by
  cases result with
  | error e => exact t.idle_fault e
  | ok removed? =>
    cases removed? with
    | none => exact ⟨rfl, rfl⟩
    | some x => exact absurd rfl (none x)

end Tally

namespace Directory

variable {ε : Type} {s s' s'' : Stored Directory} {now : Millis} {x y : Replica} {id : ContainerId} {node : NodeId}

structure Unaltered (s s' : Stored Directory) : Prop where
  containers : s'.view.containers = s.view.containers
  db : s'.db = s.db
  pending : s'.view.history.pending = s.view.history.pending
  sighting (key : ReplicaKey) : s'.view.history.entries[key]?.map Sighting.undated =
    s.view.history.entries[key]?.map Sighting.undated

namespace Unaltered

theorem refl (s : Stored Directory) : Unaltered s s := ⟨rfl, rfl, rfl, fun _ => rfl⟩

theorem trans (h : Unaltered s s') (g : Unaltered s' s'') : Unaltered s s'' :=
  ⟨g.containers.trans h.containers, g.db.trans h.db, g.pending.trans h.pending,
    fun key => (g.sighting key).trans (h.sighting key)⟩

end Unaltered

structure Noted (s : Stored Directory) (x : Replica) : Prop where
  settled {c : Container} (found : s.view.containers[x.container]? = some c) : c.info.Settled x
  still {c : Container} (found : s.view.containers[x.container]? = some c) (now : Millis) : c.take now x = c
  knows {c : Container} (found : s.view.containers[x.container]? = some c) (live : c.info.state ≠ .deleted) :
    s.view.history.Knows x

theorem Noted.congr (noted : Noted s x)
    (container : s'.view.containers[x.container]? = s.view.containers[x.container]?)
    (entry : s'.view.history.entries[x.key]?.map Sighting.undated = s.view.history.entries[x.key]?.map Sighting.undated)
    (pending : x.key ∈ s.view.history.pending → x.key ∈ s'.view.history.pending) : Noted s' x where
  settled found := noted.settled (container ▸ found)
  still found := noted.still (container ▸ found)
  knows found live := (noted.knows (container ▸ found) live).congr entry pending

theorem recorded_eq (now : Millis) (x : Replica) (h : Held) : Held.recorded now x h =
    if h.container.info.state = .deleted then h.history else h.history.record now x := by
  rw [Held.recorded, History.record_keepOrigin]

theorem noted_feed (accepts : s.db.Accepts .containers) (now : Millis) (x : Replica) :
    Noted ((Single.feed now x.container x).run s) x := by
  cases found : s.view.containers[x.container]? with
  | none =>
    rw [Single.run_feed_of_none found]
    exact ⟨fun h => by simp [found] at h, fun h => by simp [found] at h, fun h => by simp [found] at h⟩
  | some c =>
    obtain ⟨db, run, -⟩ := run_withContainer_apply now x found accepts
    have fed : (Single.feed now x.container x).run s = _ := congrArg Prod.snd run
    rw [fed]
    have only {k : Container} (h : (s.view.containers.insert x.container (c.take now x))[x.container]? = some k) :
        c.take now x = k := by simpa using h
    refine ⟨fun h => ?_, fun h now' => ?_, fun h live => ?_⟩
    · cases only h
      exact ContainerInfo.settled_take c now x
    · cases only h
      exact c.take_take now now' x
    · cases only h
      dsimp only
      rw [recorded_eq, if_neg (mt (c.deleted_take now x).2 live)]
      exact History.knows_record ..

theorem Noted.feed_of_ne (noted : Noted s x) (accepts : s.db.Accepts .containers) (now : Millis)
    (other : y.container ≠ x.container) : Noted ((Single.feed now y.container y).run s) x := by
  have container : ((Single.feed now y.container y).run s).view.containers[x.container]? =
      s.view.containers[x.container]? := Single.getElem?_feed_of_ne other s
  cases found : s.view.containers[y.container]? with
  | none => rwa [Single.run_feed_of_none found]
  | some c =>
    obtain ⟨db, run, -⟩ := run_withContainer_apply now y found accepts
    have fed : (Single.feed now y.container y).run s = _ := congrArg Prod.snd run
    have key : y.key ≠ x.key := mt (congrArg ReplicaKey.container) other
    refine noted.congr container ?_ ?_
    · rw [fed]
      dsimp only
      rw [recorded_eq]
      split
      · rfl
      · rw [History.getElem?_record, if_neg key]
    · rw [fed]
      dsimp only
      rw [recorded_eq]
      split
      · exact fun mem => mem
      · exact Std.ExtTreeSet.mem_insert.2 ∘ .inr

theorem history_drop (id : ContainerId) (node : NodeId) (s : Stored Directory) :
    ((Single.drop id node).run s).view.history = s.view.history := by
  cases found : s.view.containers[id]? with
  | none => rw [Single.run_drop_of_none found]
  | some c => rw [Single.run_drop_of_some found]

theorem Noted.drop_of_ne (noted : Noted s x) (node : NodeId) (other : id ≠ x.container) :
    Noted ((Single.drop id node).run s) x :=
  noted.congr (Single.getElem?_drop_of_ne other s) (by rw [history_drop]) (by rw [history_drop]; exact fun mem => mem)

theorem Noted.run_applyReplica (noted : Noted s x) (now : Millis) {c : Container}
    (found : s.view.containers[x.container]? = some c) : (applyReplica now x).run s = (.ok (Held.outcome x c.info),
      { s with view := { s.view with history := Held.recorded now x ⟨c, s.view.history, s.db⟩ } }) := by
  have run := run_withContainer_of_some (Held.apply now x) found
  rw [Held.run_apply_of_settled now (noted.settled found)] at run
  dsimp only at run
  rwa [noted.still found, insert_of_getElem? found] at run

/-- A replica that was taken in moves nothing. -/
theorem Noted.newState?_eq_none (noted : Noted s x) (now : Millis) {outcome : ReplicaOutcome}
    (h : ((applyReplica now x).run s).1 = .ok outcome) : outcome.newState? = none := by
  cases found : s.view.containers[x.container]? with
  | none =>
    rw [applyReplica, run_withContainer_of_none _ found] at h
    cases h
  | some c =>
    rw [noted.run_applyReplica now found] at h
    cases h
    exact (noted.settled found).still

theorem Noted.unaltered (noted : Noted s x) (now : Millis) :
    Unaltered s ((Single.feed now x.container x).run s) := by
  cases found : s.view.containers[x.container]? with
  | none =>
    rw [Single.run_feed_of_none found]
    exact .refl s
  | some c =>
    have fed : (Single.feed now x.container x).run s = _ := congrArg Prod.snd (noted.run_applyReplica now found)
    rw [fed, recorded_eq]
    dsimp only
    split
    · exact .refl s
    · next live =>
      have knows := noted.knows found live
      exact ⟨rfl, rfl, knows.pending_record now, knows.undated_record now⟩

/-- What there is to do was done: but for a time, it would change nothing. -/
def Heeded (s : Stored Directory) : Single → Prop
  | .feed _ _ x => Noted s x
  | .drop id node => row? s.view.containers id node = none
  | .add info => info.id ∈ s.view.containers

theorem Heeded.congr {op : Single} (heeded : Heeded s op) (same : Unaltered s s') : Heeded s' op := by
  cases op with
  | feed now id x =>
    exact Noted.congr heeded (by rw [same.containers]) (same.sighting x.key) fun mem => same.pending ▸ mem
  | drop id node => rwa [Heeded, same.containers]
  | add info => rwa [Heeded, same.containers]

namespace NodeReport

def replicas : NodeReport → List ReplicaReport
  | .full replicas | .incremental replicas => replicas

def entry (report : NodeReport) (now : Millis) (node : NodeId) (r : ReplicaReport) : Single :=
  match report with
  | .full _ => .feed now r.container (r.toReplica node)
  | .incremental _ => change now node r

def work (now : Millis) (node : NodeId) : NodeReport → Action (Stored Directory) ε Tally
  | .full replicas => fullReport now node replicas
  | .incremental replicas => incrementalReport now node replicas

variable {report : NodeReport} {r other : ReplicaReport} {now' : Millis}

theorem entry_cases (report : NodeReport) (now : Millis) (node : NodeId) (r : ReplicaReport) :
    report.entry now node r = .feed now r.container (r.toReplica node) ∨
      report.entry now node r = .drop r.container node := by
  cases report with
  | full _ => exact .inl rfl
  | incremental _ =>
    rw [entry, change]
    split
    · exact .inr rfl
    · exact .inl rfl

theorem heeded_entry_congr (report : NodeReport) (now now' : Millis) (node : NodeId) (r : ReplicaReport) :
    Heeded s (report.entry now node r) ↔ Heeded s (report.entry now' node r) := by
  cases report with
  | full _ => exact Iff.rfl
  | incremental _ =>
    rw [entry, entry, change, change]
    split <;> exact Iff.rfl

theorem accepts_entry (accepts : s.db.Accepts .containers) (report : NodeReport) (now : Millis) (node : NodeId)
    (r : ReplicaReport) : ((report.entry now node r).run s).db.Accepts .containers := by
  obtain fed | dropped := report.entry_cases now node r
  · exact fed ▸ Single.accepts_feed accepts ..
  · rwa [dropped, Single.db_drop]

theorem heeded_entry (accepts : s.db.Accepts .containers) (report : NodeReport) (now : Millis) (node : NodeId)
    (r : ReplicaReport) : Heeded ((report.entry now node r).run s) (report.entry now node r) := by
  obtain fed | dropped := report.entry_cases now node r
  · rw [fed]
    exact noted_feed accepts now (r.toReplica node)
  · rw [dropped, Heeded, row?_drop, if_pos ⟨rfl, rfl⟩]

theorem heeded_entry_of_ne (accepts : s.db.Accepts .containers) (different : other.container ≠ r.container)
    (heeded : Heeded s (report.entry now node r)) :
    Heeded ((report.entry now node other).run s) (report.entry now node r) := by
  obtain fed | dropped := report.entry_cases now node r
  · rw [fed] at heeded ⊢
    obtain fed' | dropped' := report.entry_cases now node other
    · rw [fed']
      exact Noted.feed_of_ne heeded accepts now (y := other.toReplica node) different
    · rw [dropped']
      exact Noted.drop_of_ne heeded node different
  · rw [dropped, Heeded] at heeded ⊢
    obtain fed' | dropped' := report.entry_cases now node other
    · rwa [fed', row?_feed_of_ne different]
    · rw [dropped', row?_drop, heeded, ite_self]

/-- Each entry is heeded once it was worked on, and those on other containers leave that. -/
theorem heeded_foldl (accepts : s.db.Accepts .containers) (report : NodeReport) (now : Millis) (node : NodeId)
    (entries : List ReplicaReport) (once : (entries.map ReplicaReport.container).Nodup) :
    ∀ r ∈ entries, Heeded (entries.foldl (fun s r => (report.entry now node r).run s) s) (report.entry now node r) := by
  induction entries using List.reverseRecOn with
  | nil => simp
  | append_singleton before last ih =>
    rw [List.map_append, List.nodup_append] at once
    obtain ⟨earlier, -, apart⟩ := once
    have kept : (before.foldl (fun s r => (report.entry now node r).run s) s).db.Accepts .containers :=
      List.foldlRecOn (motive := fun s : Stored Directory => s.db.Accepts .containers) before _ accepts
        fun s accepts r _ => accepts_entry accepts report now node r
    rw [List.foldl_append]
    intro r mem
    obtain mem | mem := List.mem_append.1 mem
    · refine heeded_entry_of_ne kept ?_ (ih earlier r mem)
      exact (apart _ (List.mem_map_of_mem mem) _ (by simp)).symm
    · cases List.mem_singleton.1 mem
      exact heeded_entry kept report now node last

end NodeReport

theorem run_applyReport_of_noted {r : ReplicaReport} (noted : Noted s (r.toReplica node)) (now : Millis) (t : Tally) :
    ∃ t', (applyReport now node t r : Action _ ε _).run s =
        (.ok t', (Single.feed now r.container (r.toReplica node)).run s) ∧ t.Idle t' ∧
      Unaltered s ((Single.feed now r.container (r.toReplica node)).run s) :=
  ⟨_, run_applyReport now node t r s, Tally.idle_addApplied fun _ => noted.newState?_eq_none now, noted.unaltered now⟩

theorem run_applyChange_of_heeded {r : ReplicaReport} (heeded : Heeded s (change now node r)) (t : Tally) :
    ∃ t', (applyChange now node t r : Action _ ε _).run s = (.ok t', (change now node r).run s) ∧ t.Idle t' ∧
      Unaltered s ((change now node r).run s) := by
  unfold applyChange change at *
  split
  · next gone =>
    rw [if_pos gone] at heeded
    refine ⟨_, run_dropReplica node t r.container s, Tally.idle_addRemoved fun x => ?_, ?_⟩
    · have absent : row? s.view.containers r.container node = none := heeded
      rw [fst_removeReplica]
      cases found : s.view.containers[r.container]? with
      | none => simp
      | some c =>
        rw [row?, found] at absent
        simp [show c.replicas[node]? = none from absent]
    · rw [run_drop_of_absent heeded]
      exact .refl s
  · next there =>
    rw [if_neg there] at heeded
    exact run_applyReport_of_noted heeded now t

/-- Entries that were heeded before alter nothing, one after another. -/
theorem run_foldlM_of_heeded {work : Tally → ReplicaReport → Action (Stored Directory) ε Tally}
    (step : ReplicaReport → Single)
    (calm : ∀ t r s, Heeded s (step r) → ∃ t', (work t r).run s = (.ok t', (step r).run s) ∧ t.Idle t' ∧
      Unaltered s ((step r).run s))
    (entries : List ReplicaReport) (heeded : ∀ r ∈ entries, Heeded s (step r)) (t : Tally) :
    ∃ t' s', (entries.foldlM work t).run s = (.ok t', s') ∧ t.Idle t' ∧ Unaltered s s' := by
  induction entries generalizing s t with
  | nil => exact ⟨t, s, rfl, ⟨rfl, rfl⟩, .refl s⟩
  | cons r rest ih =>
    obtain ⟨here, later⟩ := List.forall_mem_cons.1 heeded
    obtain ⟨t₁, run, idle, same⟩ := calm t r s here
    obtain ⟨t₂, s₂, run', idle', same'⟩ := ih (fun r' mem => (later r' mem).congr same) t₁
    exact ⟨t₂, s₂, by rw [List.foldlM_cons, Action.run_bind_ok run, run'], idle.trans idle', same.trans same'⟩

theorem Noted.foldl_drop (noted : Noted s x) (node : NodeId) {ids : List ContainerId} (others : ∀ id ∈ ids, id ≠ x.container) :
    Noted (ids.foldl (fun s id => (Single.drop id node).run s) s) x :=
  List.foldlRecOn (motive := fun s => Noted s x) ids _ noted fun _ noted id mem => noted.drop_of_ne node (others id mem)

theorem missing_congr {d d' : Directory} (same : d'.containers = d.containers) (node : NodeId)
    (replicas : List ReplicaReport) : d'.missing node replicas = d.missing node replicas := by
  rw [missing, missing, onNode, onNode, same]

/-- A report that names no container twice is handled a second time: it moves nothing, removes nothing and writes
nothing, and at most the times at which replicas were seen last are others. -/
theorem handled_twice (accepts : s.db.Accepts .containers) (now now' : Millis) (node : NodeId) (report : NodeReport)
    (once : (report.replicas.map ReplicaReport.container).Nodup) :
    ∃ t s' t' s'', (report.work now node : Action _ ε _).run s = (.ok t, s') ∧
      (report.work now' node : Action _ ε _).run s' = (.ok t', s'') ∧
      Unaltered s' s'' ∧ t'.transitions = 0 ∧ t'.removed = 0 := by
  have heeded := NodeReport.heeded_foldl accepts report now node report.replicas once
  cases report with
  | incremental entries =>
    obtain ⟨t, run⟩ := run_incrementalReport (ε := ε) now node entries s
    obtain ⟨t', s'', run', idle, same⟩ := run_foldlM_of_heeded (ε := ε) (change now' node)
      (fun t r s heeded => run_applyChange_of_heeded heeded t) entries
      (fun r mem => (NodeReport.heeded_entry_congr (.incremental entries) now now' node r).1 (heeded r mem)) {}
    exact ⟨t, _, t', s'', run, run', same, idle.transitions, idle.removed⟩
  | full entries =>
    obtain ⟨t, run⟩ := run_fullReport (ε := ε) now node entries s
    have noted (r : ReplicaReport) (mem : r ∈ entries) :
        Noted (swept node entries (fed now node entries s)) (r.toReplica node) :=
      Noted.foldl_drop (heeded r mem) node fun id gone => ((mem_missing_iff.1 gone).2 r mem).symm
    obtain ⟨t', s'', run', idle, same⟩ := run_foldlM_of_heeded (ε := ε)
      (fun r => .feed now' r.container (r.toReplica node))
      (fun t r s noted => run_applyReport_of_noted noted now' t) entries noted {}
    have none : s''.view.missing node entries = [] :=
      (missing_congr same.containers node entries).trans (missing_swept node entries _)
    refine ⟨t, swept node entries (fed now node entries s), t', s'', run, ?_, same, idle.transitions, idle.removed⟩
    rw [NodeReport.work, run_fullReport_of_applied run', none]
    rfl

def replayed : NodeReport := .incremental [⟨⟨1⟩, .quasiClosed, 3, 5, 50, none⟩, ⟨⟨2⟩, .deleted, 0, 0, 0, none⟩]

/-- The container is quasi-closed the first time, and the size is raised; the second time nothing is left to do. -/
theorem handled_twice_replayed : Workload.contested.db.Accepts .containers ∧
    (replayed.replicas.map ReplicaReport.container).Nodup ∧
    ∃ t s' t' s'', (replayed.work 5 ⟨⟨1⟩⟩ : Action _ ContainerError _).run Workload.contested = (.ok t, s') ∧
      t.transitions = 1 ∧ (replayed.work 9 ⟨⟨1⟩⟩ : Action _ ContainerError _).run s' = (.ok t', s'') ∧
      Unaltered s' s'' ∧ t'.transitions = 0 ∧ t'.removed = 0 := by
  have accepts : Workload.contested.db.Accepts .containers := ⟨⟨∅, rfl⟩, List.not_mem_nil⟩
  have once : (replayed.replicas.map ReplicaReport.container).Nodup := by decide
  obtain ⟨t, s', t', s'', run, run', same, moves, removes⟩ :=
    handled_twice (ε := ContainerError) accepts 5 9 ⟨⟨1⟩⟩ replayed once
  have counted : (((replayed.work 5 ⟨⟨1⟩⟩ : Action _ ContainerError _).run Workload.contested).1.toOption.map
      Tally.transitions) = some 1 := by decide +kernel
  rw [run] at counted
  exact ⟨accepts, once, t, s', t', s'', run, Option.some.inj counted, run', same, moves, removes⟩

end Directory

end ClusterCatalog
