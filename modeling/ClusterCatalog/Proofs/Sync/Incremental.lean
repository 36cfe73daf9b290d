import ClusterCatalog.Proofs.Catalog.Working
import ClusterCatalog.Proofs.Sync.Failure
/-!
An incremental pass over a store that works, with nobody else at work. What it makes of a container
depends on what the authority says of that container and on nothing else, and what it cannot look up
it leaves alone.
-/
namespace ClusterCatalog.Sync

open Activity

structure Turned (c : Catalog) (id : ContainerId) (k? : Option Container) (c' : Catalog) : Prop where
  clock : c'.clock = c.clock
  works : c'.live.db.Works
  containers (other : ContainerId) :
    c'.directory.containers[other]? = if other = id then k? else c.directory.containers[other]?
  nodes {node : NodeId} (known : node ∈ c.nodes) : node ∈ c'.nodes

section Steps

variable {c : Catalog}

theorem turned_refl (works : c.live.db.Works) (id : ContainerId) :
    Turned c id c.directory.containers[id]? c :=
  ⟨rfl, works, fun other => by split <;> simp [*], fun known => known⟩

theorem Turned.trans {c' c'' : Catalog} {id : ContainerId} {k? l? : Option Container} (h : Turned c id k? c')
    (g : Turned c' id l? c'') : Turned c id l? c'' :=
  ⟨g.clock.trans h.clock, g.works, fun other => by rw [g.containers, h.containers]; split <;> rfl,
    g.nodes ∘ h.nodes⟩

theorem run_registerNodes (replicas : List ReplicaSummary) (works : c.live.db.Works) :
    ∃ db, (registerNodes replicas).run c =
        (.ok (), { c with nodes := c.nodes.enrolAll (replicas.map (·.node)), live := { c.live with db } }) ∧
      db.Works := by
  induction replicas generalizing c with
  | nil => exact ⟨c.live.db, rfl, works⟩
  | cons r rest ih =>
    obtain ⟨db, run, works'⟩ := Catalog.run_register r.node works
    obtain ⟨db', run', works''⟩ :=
      ih (c := { c with nodes := c.nodes.enrol r.node, live := { c.live with db } }) works'
    exact ⟨db', (Action.run_bind_ok run fun _ => registerNodes rest).trans run', works''⟩

/-- Nothing but the container and the nodes of its replicas is touched. -/
theorem run_takeReplicas_eq (replicas : List ReplicaSummary) (r : DiffReport) (works : c.live.db.Works)
    {id : ContainerId} {k : Container} (known : c.directory.containers[id]? = some k) :
    ∃ history db, (takeReplicas id replicas r).run c =
        (.ok (r.counting replicas.length (k.fired c.clock (replicas.map (·.toReplica)))), { c with
          directory := ⟨c.directory.containers.insert id (k.takeAll c.clock (replicas.map (·.toReplica))), history⟩
          nodes := c.nodes.enrolAll (replicas.map (·.node))
          live := { c.live with db } }) ∧ db.Works := by
  obtain ⟨db, registered, works'⟩ := run_registerNodes replicas works
  obtain ⟨history, db', run, works''⟩ :=
    Directory.run_takeBatch c.clock replicas r (s := ⟨c.directory, db⟩) works' known
  have taken := Catalog.run_onDirectory_of_run
    (c := { c with nodes := c.nodes.enrolAll (replicas.map (·.node)), live := { c.live with db } }) run
  refine ⟨history, db', ?_, works''⟩
  rw [takeReplicas, Action.run_bind_ok registered, Action.run_bind_ok (Action.run_get _), Action.run_relabel, taken]
  rfl

theorem run_takeReplicas (replicas : List ReplicaSummary) (r : DiffReport) (works : c.live.db.Works)
    {id : ContainerId} {k : Container} (known : c.directory.containers[id]? = some k) :
    ∃ transitions c', (takeReplicas id replicas r).run c = (.ok (r.counting replicas.length transitions), c') ∧
      Turned c id (some (k.takeAll c.clock (replicas.map (·.toReplica)))) c' := by
  obtain ⟨history, db, run, works'⟩ := run_takeReplicas_eq replicas r works known
  refine ⟨_, _, run, rfl, works', fun other => ?_, fun known => NodeRegistry.mem_enrolAll.2 (.inr known)⟩
  by_cases same : other = id
  · simp [same]
  · simp [Std.ExtTreeMap.getElem?_insert, same, Ne.symm same]

theorem run_addContainer_bare (given : ContainerSummary) (works : c.live.db.Works)
    (unknown : c.directory.containers[given.id]? = none) :
    ∃ c', (addContainer ⟨given, none⟩).run c = (.ok true, c') ∧
      Turned c given.id (some ⟨given.toInfo c.clock, ∅⟩) c' := by
  obtain ⟨c', run, turned⟩ : ∃ c', (Catalog.onDirectory (Directory.add (given.toInfo c.clock))).run c = (.ok (), c') ∧
      Turned c given.id (some ⟨given.toInfo c.clock, ∅⟩) c' := by
    obtain ⟨db, run, works'⟩ :=
      Catalog.run_onDirectory (Directory.leads_add (given.toInfo c.clock) unknown) works
    refine ⟨_, run, rfl, works', fun other => ?_, id⟩
    by_cases same : other = given.id
    · simp [same, ContainerSummary.toInfo]
    · simp [ContainerSummary.toInfo, Std.ExtTreeMap.getElem?_insert, same, Ne.symm same]
  have attempted : ((Catalog.onDirectory (Directory.add (given.toInfo c.clock))).attempt :
      Action Catalog CatalogError _).run c = (.ok (.ok ()), c') := by
    rw [Action.run_attempt, run]
  exact ⟨c', (Action.run_bind_ok (Action.run_get c) _).trans (Action.run_bind_ok attempted _), turned⟩

theorem run_addContainer (given : ContainerWithPipeline) (works : c.live.db.Works)
    (unknown : c.directory.containers[given.container.id]? = none) :
    ∃ c', (addContainer given).run c = (.ok true, c') ∧
      Turned c given.container.id (some ⟨given.container.toInfo c.clock, ∅⟩) c' := by
  obtain ⟨container, _ | p⟩ := given
  · exact run_addContainer_bare container works unknown
  · obtain ⟨isNew, pipelines, leads⟩ := PipelineRegistry.leads_add p c.pipelines
    obtain ⟨db, run, works'⟩ := Catalog.run_onPipelines leads works
    have stored : (discard ((Catalog.onPipelines (PipelineRegistry.add p)).relabel .store) :
        Action Catalog CatalogError PUnit).run c = (.ok (), { c with pipelines, live := { c.live with db } }) :=
      Action.run_discard_ok (x := isNew) (Action.run_relabel_ok run _)
    obtain ⟨c', added, turned⟩ := run_addContainer_bare
      (c := { c with pipelines, live := { c.live with db } }) container works' unknown
    refine ⟨c', (Action.run_bind_ok stored fun _ => addContainer ⟨container, none⟩).trans added, ?_⟩
    exact ⟨turned.clock, turned.works, turned.containers, turned.nodes⟩

end Steps

def Setting.Alone (t : Setting) : Prop := ∀ q c, t.meanwhile q c = c

/-- What the authority says of a container is about that container. -/
def Setting.Describes (t : Setting) : Prop :=
  ∀ id given, t.reply (.containerWithPipeline id) = .ok given → given.container.id = id

namespace Setting

variable (t : Setting) (now : Millis) (known? : Option Container) (id : ContainerId)

def skips : Bool :=
  !(t.reply (.replicas id)).isOk || known?.isNone && !(t.reply (.containerWithPipeline id)).isOk

def adds : Bool := known?.isNone && !t.skips known? id

def met? : Option Container :=
  known?.or ((t.reply (.containerWithPipeline id)).toOption.map fun given : ContainerWithPipeline =>
    ⟨given.container.toInfo now, ∅⟩)

def caughtUp? : Option Container :=
  match t.reply (.replicas id) with
  | .error _ => known?
  | .ok replicas => (t.met? now known? id).map (·.takeAll now (replicas.map (·.toReplica)))

end Setting

inductive Setting.StartsFrom (t : Setting) (c : Catalog) (id : ContainerId) : Container → Prop where
  | known {k : Container} (h : c.directory.containers[id]? = some k) : StartsFrom t c id k
  | fetched {given : ContainerWithPipeline} (unknown : c.directory.containers[id]? = none)
    (replied : t.reply (.containerWithPipeline id) = .ok given) :
    StartsFrom t c id ⟨given.container.toInfo c.clock, ∅⟩

section Pass

variable {t : Setting} {c : Catalog}

section Skips

variable {id : ContainerId} {replicas : List ReplicaSummary}

theorem skips_of_error {e : AuthorityError} (failed : t.reply (.replicas id) = .error e) (known? : Option Container) :
    t.skips known? id = true := by
  rw [Setting.skips, failed]
  rfl

theorem skips_of_unfetched {e : AuthorityError} (failed : t.reply (.containerWithPipeline id) = .error e) :
    t.skips none id = true := by
  rw [Setting.skips, failed]
  exact Bool.or_true _

variable (replied : t.reply (.replicas id) = .ok replicas)
include replied

theorem skips_of_known (k : Container) : t.skips (some k) id = false := by
  rw [Setting.skips, replied]
  rfl

theorem skips_of_fetched {given : ContainerWithPipeline} (fetched : t.reply (.containerWithPipeline id) = .ok given) :
    t.skips none id = false := by
  rw [Setting.skips, replied, fetched]
  rfl

end Skips

theorem caughtUp?_of_skips {now : Millis} {known? : Option Container} {id : ContainerId}
    (skips : t.skips known? id = true) : t.caughtUp? now known? id = known? := by
  cases replied : (t.reply (.replicas id) : Except AuthorityError (List ReplicaSummary)) with
  | error e => rw [Setting.caughtUp?, replied]
  | ok replicas =>
    rw [Setting.skips, replied] at skips
    rw [Setting.caughtUp?, replied]
    cases known? with
    | some k => cases skips
    | none =>
      cases fetched : (t.reply (.containerWithPipeline id) : Except AuthorityError ContainerWithPipeline) with
      | error e =>
        rw [Setting.met?, fetched]
        rfl
      | ok given =>
        rw [fetched] at skips
        cases skips

theorem caughtUp?_of_not_skips {c : Catalog} {id : ContainerId}
    (skips : t.skips c.directory.containers[id]? id = false) :
    ∃ replicas start, t.reply (.replicas id) = .ok replicas ∧ t.StartsFrom c id start ∧
      t.caughtUp? c.clock c.directory.containers[id]? id =
        some (start.takeAll c.clock (replicas.map (·.toReplica))) := by
  cases replied : (t.reply (.replicas id) : Except AuthorityError (List ReplicaSummary)) with
  | error e =>
    rw [Setting.skips, replied] at skips
    cases skips
  | ok replicas =>
    rw [Setting.skips, replied] at skips
    rw [Setting.caughtUp?, replied]
    cases known : c.directory.containers[id]? with
    | some k => exact ⟨replicas, k, rfl, .known known, rfl⟩
    | none =>
      rw [known] at skips
      cases fetched : (t.reply (.containerWithPipeline id) : Except AuthorityError ContainerWithPipeline) with
      | error e =>
        rw [fetched] at skips
        cases skips
      | ok given =>
        refine ⟨replicas, _, rfl, .fetched known fetched, ?_⟩
        rw [Setting.met?, fetched]
        rfl

theorem yields_ask_alone (alone : t.Alone) (q : Question) (c : Catalog) : Yields t (ask q) c (t.reply q) c := by
  have asked := yields_ask (t := t) q c
  rwa [alone] at asked

theorem yields_fetchContainer_known {id : ContainerId} {k : Container}
    (known : c.directory.containers[id]? = some k) : Yields t (fetchContainer id) c (some false) c := by
  have here : c.directory.containers.contains id = true := by
    rw [Std.ExtTreeMap.contains_eq_isSome_getElem?, known]
    rfl
  intro guard status
  rw [fetchContainer, finish_bind (finish_get _), if_pos here]
  rfl

section Unknown

variable {id : ContainerId} (unknown : c.directory.containers[id]? = none)
include unknown

theorem yields_fetchContainer_failed {e : AuthorityError} (replied : t.reply (.containerWithPipeline id) = .error e) :
    Yields t (fetchContainer id) c none (t.meanwhile (.containerWithPipeline id) c) := by
  have asked := yields_ask (t := t) (.containerWithPipeline id) c
  rw [replied] at asked
  intro guard status
  rw [fetchContainer, finish_bind (finish_get _), if_neg (Directory.not_contains unknown)]
  exact asked.bind (yields_pure none _) guard status

theorem yields_fetchContainer {given : ContainerWithPipeline} {c' : Catalog}
    (replied : t.reply (.containerWithPipeline id) = .ok given)
    (run : (addContainer given).run (t.meanwhile (.containerWithPipeline id) c) = (.ok true, c')) :
    Yields t (fetchContainer id) c (some true) c' := by
  have asked := yields_ask (t := t) (.containerWithPipeline id) c
  rw [replied] at asked
  intro guard status
  rw [fetchContainer, finish_bind (finish_get _), if_neg (Directory.not_contains unknown)]
  exact asked.bind ((yields_onCatalog run).bind (yields_pure (some true) c')) guard status

end Unknown

/-! Where a step of a pass leads to, whatever others do while it waits. -/

section Waits

variable {x : ContainerSummary} {r r' : DiffReport} {replicas : List ReplicaSummary} {c₁ c' : Catalog} {e : AuthorityError}

theorem yields_sync_of_error (failed : t.reply (.replicas x.id) = .error e) :
    Yields t (syncContainer r x) c r.fail (t.meanwhile (.replicas x.id) c) := by
  have asked := yields_ask (t := t) (.replicas x.id) c
  rw [failed] at asked
  exact asked.bind (yields_pure r.fail _)

variable (replied : t.reply (.replicas x.id) = .ok replicas)
include replied

theorem yields_sync_known {k : Container}
    (known : (t.meanwhile (.replicas x.id) c).directory.containers[x.id]? = some k)
    (taken : (takeReplicas x.id replicas r).run (t.meanwhile (.replicas x.id) c) = (.ok r', c')) :
    Yields t (syncContainer r x) c r' c' := by
  have asked := yields_ask (t := t) (.replicas x.id) c
  rw [replied] at asked
  exact asked.bind ((yields_fetchContainer_known known).bind ((yields_onCatalog taken).bind (yields_pure r' c')))

variable (unknown : (t.meanwhile (.replicas x.id) c).directory.containers[x.id]? = none)
include unknown

theorem yields_sync_unfetched (failed : t.reply (.containerWithPipeline x.id) = .error e) :
    Yields t (syncContainer r x) c r.fail
      (t.meanwhile (.containerWithPipeline x.id) (t.meanwhile (.replicas x.id) c)) := by
  have asked := yields_ask (t := t) (.replicas x.id) c
  rw [replied] at asked
  exact asked.bind ((yields_fetchContainer_failed unknown failed).bind (yields_pure r.fail _))

theorem yields_sync_fetched {given : ContainerWithPipeline}
    (fetched : t.reply (.containerWithPipeline x.id) = .ok given)
    (added : (addContainer given).run (t.meanwhile (.containerWithPipeline x.id) (t.meanwhile (.replicas x.id) c)) =
      (.ok true, c₁))
    (taken : (takeReplicas x.id replicas { r with added := r.added + 1 }).run c₁ = (.ok r', c')) :
    Yields t (syncContainer r x) c r' c' := by
  have asked := yields_ask (t := t) (.replicas x.id) c
  rw [replied] at asked
  exact asked.bind ((yields_fetchContainer unknown fetched added).bind
    ((yields_onCatalog taken).bind (yields_pure r' c')))

end Waits

structure Tallied (t : Setting) (known? : Option Container) (id : ContainerId) (r r' : DiffReport) : Prop where
  seen : r'.seen = r.seen
  added : r'.added = r.added + if t.adds known? id then 1 else 0
  failed : r'.failed = r.failed + if t.skips known? id then 1 else 0

theorem left_of_skips (works : c.live.db.Works) (id : ContainerId)
    (skips : t.skips c.directory.containers[id]? id = true) (r : DiffReport) :
    Turned c id (t.caughtUp? c.clock c.directory.containers[id]? id) c ∧
      Tallied t c.directory.containers[id]? id r r.fail := by
  rw [caughtUp?_of_skips skips]
  refine ⟨turned_refl works id, rfl, ?_, ?_⟩
  · simp [Setting.adds, skips, DiffReport.fail]
  · simp [skips, DiffReport.fail]

section Replied

variable {replicas : List ReplicaSummary} {x : ContainerSummary} (alone : t.Alone) (works : c.live.db.Works)
  (replied : t.reply (.replicas x.id) = .ok replicas)
include alone works replied

theorem yields_syncContainer_known (r : DiffReport) {k : Container}
    (known : c.directory.containers[x.id]? = some k) :
    ∃ r' c', Yields t (syncContainer r x) c r' c' ∧ Turned c x.id (t.caughtUp? c.clock (some k) x.id) c' ∧
      Tallied t (some k) x.id r r' := by
  have caught : t.caughtUp? c.clock (some k) x.id = some (k.takeAll c.clock (replicas.map (·.toReplica))) := by
    rw [Setting.caughtUp?, replied]
    rfl
  have skips := skips_of_known replied k
  obtain ⟨transitions, c', taken, turned⟩ := run_takeReplicas replicas r works known
  refine ⟨r.counting replicas.length transitions, c', ?_, caught ▸ turned, rfl, ?_, ?_⟩
  · rw [← alone (.replicas x.id) c] at known taken
    exact yields_sync_known replied known taken
  · simp [Setting.adds, DiffReport.counting]
  · simp [skips, DiffReport.counting]

theorem yields_syncContainer_fetched (describes : t.Describes) (r : DiffReport) {given : ContainerWithPipeline}
    (unknown : c.directory.containers[x.id]? = none) (fetched : t.reply (.containerWithPipeline x.id) = .ok given) :
    ∃ r' c', Yields t (syncContainer r x) c r' c' ∧ Turned c x.id (t.caughtUp? c.clock none x.id) c' ∧
      Tallied t none x.id r r' := by
  have own := describes _ _ fetched
  have caught : t.caughtUp? c.clock none x.id = some (Container.takeAll ⟨given.container.toInfo c.clock, ∅⟩
      c.clock (replicas.map (·.toReplica))) := by
    rw [Setting.caughtUp?, replied, Setting.met?, fetched]
    rfl
  have skips := skips_of_fetched replied fetched
  obtain ⟨c₁, added, turned₁⟩ := run_addContainer given works (own ▸ unknown)
  rw [own] at turned₁
  have known₁ : c₁.directory.containers[x.id]? = some ⟨given.container.toInfo c.clock, ∅⟩ := by
    rw [turned₁.containers, if_pos rfl]
  obtain ⟨transitions, c', taken, turned⟩ :=
    run_takeReplicas replicas { r with added := r.added + 1 } turned₁.works known₁
  rw [turned₁.clock] at turned
  refine ⟨DiffReport.counting { r with added := r.added + 1 } replicas.length transitions, c', ?_,
    caught ▸ turned₁.trans turned, rfl, ?_, ?_⟩
  · exact yields_sync_fetched replied (by rw [alone, unknown]) fetched (by rw [alone, alone, added]) taken
  · simp [Setting.adds, skips, DiffReport.counting]
  · simp [skips, DiffReport.counting]

end Replied

theorem yields_syncContainer (alone : t.Alone) (describes : t.Describes) (works : c.live.db.Works)
    (r : DiffReport) (x : ContainerSummary) :
    ∃ r' c', Yields t (syncContainer r x) c r' c' ∧
      Turned c x.id (t.caughtUp? c.clock c.directory.containers[x.id]? x.id) c' ∧
      Tallied t c.directory.containers[x.id]? x.id r r' := by
  cases replied : (t.reply (.replicas x.id) : Except AuthorityError (List ReplicaSummary)) with
  | error e =>
    have run := yields_sync_of_error (c := c) (r := r) replied
    rw [alone] at run
    exact ⟨r.fail, c, run, left_of_skips works x.id (skips_of_error replied _) r⟩
  | ok replicas =>
    cases known : c.directory.containers[x.id]? with
    | some k => exact yields_syncContainer_known alone works replied r known
    | none =>
      cases fetched : (t.reply (.containerWithPipeline x.id) : Except AuthorityError ContainerWithPipeline) with
      | error e =>
        have left := left_of_skips (t := t) works x.id (by rw [known, skips_of_unfetched fetched]) r
        rw [known] at left
        have run := yields_sync_unfetched (c := c) (r := r) replied (by rw [alone, known]) fetched
        rw [alone, alone] at run
        exact ⟨r.fail, c, run, left⟩
      | ok given => exact yields_syncContainer_fetched alone works replied describes r known fetched

structure Swept (t : Setting) (c : Catalog) (listing : List ContainerSummary) (c' : Catalog) : Prop where
  clock : c'.clock = c.clock
  works : c'.live.db.Works
  containers (id : ContainerId) : c'.directory.containers[id]? =
    if id ∈ listing.map (·.id) then t.caughtUp? c.clock c.directory.containers[id]? id
    else c.directory.containers[id]?

structure Counted (t : Setting) (c : Catalog) (listing : List ContainerSummary) (r r' : DiffReport) : Prop where
  seen : r'.seen = r.seen
  added : r'.added = r.added + listing.countP fun x => t.adds c.directory.containers[x.id]? x.id
  failed : r'.failed = r.failed + listing.countP fun x => t.skips c.directory.containers[x.id]? x.id

/-- The listed containers do not meddle with each other, since each step changes its own one only. -/
theorem yields_syncContainers (alone : t.Alone) (describes : t.Describes) (works : c.live.db.Works)
    {listing : List ContainerSummary} (distinct : (listing.map (·.id)).Nodup) (r : DiffReport) :
    ∃ r' c', Yields t (syncContainers r listing) c r' c' ∧ Swept t c listing c' ∧ Counted t c listing r r' := by
  induction listing generalizing r c with
  | nil => exact ⟨r, c, yields_pure r c, ⟨rfl, works, fun id => by simp⟩, rfl, by simp, by simp⟩
  | cons x rest ih =>
    obtain ⟨fresh, distinct⟩ := List.nodup_cons.1 (List.map_cons ▸ distinct)
    obtain ⟨r₁, c₁, first, turned, tallied⟩ := yields_syncContainer alone describes works r x
    obtain ⟨r', c', run, swept, counted⟩ := ih turned.works distinct r₁
    -- the rest of the listing still finds its containers as they were
    have others {y : ContainerSummary} (mem : y ∈ rest) :
        c₁.directory.containers[y.id]? = c.directory.containers[y.id]? := by
      have other : y.id ≠ x.id := fun same => fresh (same ▸ List.mem_map_of_mem mem)
      rw [turned.containers, if_neg other]
    refine ⟨r', c', first.bind run, ⟨swept.clock.trans turned.clock, swept.works, fun id => ?_⟩,
      counted.seen.trans tallied.seen, ?_, ?_⟩
    · rw [swept.containers, turned.containers, turned.clock, List.map_cons]
      by_cases mine : id = x.id
      · subst mine
        simp [fresh]
      · simp [mine]
    · rw [counted.added, tallied.added, List.countP_cons,
        List.countP_congr (q := fun y => t.adds c.directory.containers[y.id]? y.id)
          fun y mem => by rw [others mem]]
      omega
    · rw [counted.failed, tallied.failed, List.countP_cons,
        List.countP_congr (q := fun y => t.skips c.directory.containers[y.id]? y.id)
          fun y mem => by rw [others mem]]
      omega

def DiffReport.outcome (r : DiffReport) : List ContainerSummary → Outcome
  | [] => .nothingFromAuthority
  | _ :: _ => .incremental r

/-- The catalog `c'` is `c` after an incremental pass over a listing. -/
structure Reconciled (t : Setting) (c : Catalog) (listing : List ContainerSummary) (report : DiffReport)
    (c' : Catalog) : Prop where
  skipped {x : ContainerSummary} (listed : x ∈ listing)
    (skips : t.skips c.directory.containers[x.id]? x.id = true) :
    c'.directory.containers[x.id]? = c.directory.containers[x.id]?
  caughtUp {x : ContainerSummary} (listed : x ∈ listing)
    (skips : t.skips c.directory.containers[x.id]? x.id = false) :
    ∃ replicas start k, t.reply (.replicas x.id) = .ok replicas ∧ t.StartsFrom c x.id start ∧
      c'.directory.containers[x.id]? = some k ∧
      Container.CaughtUp start c.clock (replicas.map (·.toReplica)) k
  unlisted {id : ContainerId} (h : id ∉ listing.map (·.id)) :
    c'.directory.containers[id]? = c.directory.containers[id]?
  seen : report.seen = listing.length
  added : report.added =
    listing.countP fun x => x.id ∉ c.directory.containers ∧ x.id ∈ c'.directory.containers
  failed : report.failed = listing.countP fun x => t.skips c.directory.containers[x.id]? x.id

theorem reconciled_of_swept {c c' : Catalog} {listing : List ContainerSummary} {report : DiffReport}
    (swept : Swept t c listing c') (counted : Counted t c listing { seen := listing.length } report) :
    Reconciled t c listing report c' where
  skipped listed skips := by
    rw [swept.containers, if_pos (List.mem_map_of_mem listed), caughtUp?_of_skips skips]
  caughtUp {x} listed skips := by
    obtain ⟨replicas, start, replied, starts, caught⟩ := caughtUp?_of_not_skips skips
    refine ⟨replicas, start, _, replied, starts, ?_, Container.caughtUp_takeAll ..⟩
    rw [swept.containers, if_pos (List.mem_map_of_mem listed), caught]
  unlisted h := by rw [swept.containers, if_neg h]
  seen := counted.seen
  added := by
    rw [counted.added, Nat.zero_add]
    refine List.countP_congr fun x listed => ?_
    have after := swept.containers x.id
    rw [if_pos (List.mem_map_of_mem listed)] at after
    rw [decide_eq_true_iff, Std.ExtTreeMap.mem_iff_isSome_getElem?, Std.ExtTreeMap.mem_iff_isSome_getElem?, after,
      Setting.adds]
    cases skips : t.skips c.directory.containers[x.id]? x.id with
    | true => simp [caughtUp?_of_skips skips]
    | false =>
      obtain ⟨replicas, start, -, -, caught⟩ := caughtUp?_of_not_skips skips
      simp [caught]
  failed := by rw [counted.failed, Nat.zero_add]

theorem yields_diff (alone : t.Alone) (describes : t.Describes) (works : c.live.db.Works)
    {listing : List ContainerSummary} (listed : t.reply .containers = .ok listing)
    (distinct : (listing.map (·.id)).Nodup) :
    ∃ report c', Yields t diff c (report.outcome listing) c' ∧ Reconciled t c listing report c' := by
  have asked := yields_ask_alone alone .containers c
  rw [listed] at asked
  obtain ⟨report, c', run, swept, counted⟩ :=
    yields_syncContainers alone describes works distinct { seen := listing.length }
  refine ⟨report, c', asked.bind ?_, reconciled_of_swept swept counted⟩
  cases listing with
  | nil =>
    have same := run {} {}
    obtain rfl : c = c' := congrArg (·.2.catalog) same
    exact yields_pure Outcome.nothingFromAuthority c
  | cons x rest => exact run.bind (yields_pure (Outcome.incremental report) c')

/-- An incremental pass, be it asked for or made by the timer, over a store that works and with nobody else
at work: each listed container is caught up with the authority or else left for the next pass, whatever
becomes of the other ones. -/
theorem reconciled_of_diff {s : State} {listing : List ContainerSummary} (free : s.guard.taken = false)
    (alone : t.Alone) (describes : t.Describes) (works : s.catalog.live.db.Works)
    (listed : t.reply .containers = .ok listing) (distinct : (listing.map (·.id)).Nodup) :
    ∃ report s', incrementalDiff.finish t.respond s = (report.outcome listing, s') ∧
      Reconciled t s.catalog listing report s'.catalog ∧ s'.guard.taken = false ∧
      ∀ settings count, t.reply .count = .ok count →
        (diverged (UInt64.ofNat s.catalog.directory.size) count settings.containerThreshold &&
          settings.snapshotSync) = false →
        (pass settings).finish t.respond s = (report.outcome listing, s') := by
  obtain ⟨report, c', yields, reconciled⟩ := yields_diff alone describes works listed distinct
  refine ⟨report, _, yields.finish_guarded free, reconciled, rfl, fun settings count counted choice => ?_⟩
  have met : Yields t (if false then resync else diff) (t.meanwhile .count s.catalog) (report.outcome listing) c' := by
    rw [alone]
    exact yields
  exact finish_pass_of_yields false free counted choice met

end Pass

section Patchy

def patchyState : State where
  catalog :=
    { clock := 5
      directory.containers := (∅ : Std.ExtTreeMap ContainerId Container).insert ⟨1⟩ ⟨.fresh 3 ⟨1⟩ .closing none,
        (∅ : Std.ExtTreeMap NodeId Replica).insert ⟨⟨3⟩⟩ ⟨⟨1⟩, ⟨⟨3⟩⟩, .closing, 0, 0, 0, ⟨⟨3⟩⟩⟩⟩
      live := ⟨"scm-1", .empty⟩
      disk := {} }

def patchyReplicas : List ReplicaSummary :=
  [⟨⟨1⟩, ⟨⟨4⟩⟩, .closed, 7, 0, 0, none⟩, ⟨⟨1⟩, ⟨⟨3⟩⟩, .quasiClosed, 0, 2, 2, some ⟨⟨6⟩⟩⟩,
    ⟨⟨1⟩, ⟨⟨3⟩⟩, .closed, 0, 4, 4, some ⟨⟨6⟩⟩⟩]

def patchySetting : Setting where
  home := "stores"
  reply
    | .count => .ok (3 : UInt64)
    | .containers => .ok ([1, 2, 3].map fun id => ⟨⟨id⟩, .closed, 0, none, 5, 5⟩ : List ContainerSummary)
    | .replicas id =>
      if id = ⟨1⟩ then .ok patchyReplicas
      else if id = ⟨2⟩ then .ok ([⟨⟨2⟩, ⟨⟨4⟩⟩, .closed, 0, 9, 9, none⟩] : List ReplicaSummary)
      else .error (.lookupTimedOut id)
    | .containerWithPipeline id =>
      if id = ⟨2⟩ then .ok (⟨⟨id, .closed, 0, none, 5, 5⟩, none⟩ : ContainerWithPipeline)
      else .error (.unknownContainer id)
    | _ => .error .brokenBody
  meanwhile _ c := c

theorem describes_patchy : patchySetting.Describes := by
  intro id given replied
  simp only [patchySetting] at replied
  split at replied
  · cases replied
    rfl
  · cases replied

theorem reconciled_of_diff_patchy :
    patchyState.guard.taken = false ∧ patchySetting.Alone ∧ patchySetting.Describes ∧
      patchyState.catalog.live.db.Works ∧ ∃ listing report s', patchySetting.reply .containers = .ok listing ∧
      (listing.map (·.id)).Nodup ∧
      incrementalDiff.finish patchySetting.respond patchyState = (report.outcome listing, s') ∧
      (pass {}).finish patchySetting.respond patchyState = (report.outcome listing, s') ∧
      Reconciled patchySetting patchyState.catalog listing report s'.catalog := by
  have distinct : (([1, 2, 3].map fun id => ⟨⟨id⟩, .closed, 0, none, 5, 5⟩ : List ContainerSummary).map (·.id)).Nodup := by
    decide
  obtain ⟨report, s', done, reconciled, -, timed⟩ := reconciled_of_diff (t := patchySetting) (s := patchyState) rfl
    (fun _ _ => rfl) describes_patchy Database.works_empty rfl distinct
  exact ⟨rfl, fun _ _ => rfl, describes_patchy, Database.works_empty, _, report, s', rfl, distinct, done,
    timed {} (3 : UInt64) rfl (by decide +kernel), reconciled⟩

/-- The row of a known replica is not the last one given, for its origin stays; and the size of a container
that was missing is not the authority's, for a replica tells more. -/
theorem last_row_not_taken_whole :
    let containers := (incrementalDiff.finish patchySetting.respond patchyState).2.catalog.directory.containers
    patchySetting.Describes ∧ patchyState.catalog.live.db.Works ∧
      patchySetting.reply (.replicas ⟨1⟩) = .ok patchyReplicas ∧
      containers[(⟨1⟩ : ContainerId)]?.map (·.info.state) = some .closed ∧
      (containers[(⟨1⟩ : ContainerId)]?.bind fun k => k.replicas[(⟨⟨3⟩⟩ : NodeId)]?) ≠
        (patchyReplicas.filter (·.node = ⟨⟨3⟩⟩)).getLast?.map (·.toReplica) ∧
      containers[(⟨2⟩ : ContainerId)]?.map (·.info.usedBytes) = some 9 := by
  refine ⟨describes_patchy, Database.works_empty, rfl, ?_, ?_, ?_⟩
  all_goals decide +kernel

end Patchy

end ClusterCatalog.Sync
