import ClusterCatalog.Proofs.Container.Steady
import ClusterCatalog.Proofs.Sync.Incremental
/-!
An incremental pass right after another one, with the same authority. The first is done with every listed
container: it took over what there was, or could not look up what it needs. So the second finds nothing new.
-/
namespace ClusterCatalog.Sync

open Activity

/-- While a pass waits the time goes on, and nothing else happens. -/
def Setting.Undisturbed (t : Setting) : Prop :=
  ∀ q c, ∃ clock instant, t.meanwhile q c = { c with clock, instant }

structure Unmoved (c c' : Catalog) : Prop where
  containers (id : ContainerId) :
    c'.directory.containers[id]?.map Container.unsized = c.directory.containers[id]?.map Container.unsized
  nodes : c'.nodes = c.nodes
  pipelines : c'.pipelines = c.pipelines

theorem Unmoved.refl (c : Catalog) : Unmoved c c := ⟨fun _ => rfl, rfl, rfl⟩

theorem Unmoved.trans {c c' c'' : Catalog} (h : Unmoved c c') (g : Unmoved c' c'') : Unmoved c c'' :=
  ⟨fun id => (g.containers id).trans (h.containers id), g.nodes.trans h.nodes, g.pipelines.trans h.pipelines⟩

inductive Setting.DoneWith (t : Setting) (c : Catalog) (id : ContainerId) : Prop
  | skipped (skips : t.skips c.directory.containers[id]? id = true)
  | taken {replicas : List ReplicaSummary} {k : Container} (replied : t.reply (.replicas id) = .ok replicas)
    (known : c.directory.containers[id]? = some k) (heeds : k.Heeds (replicas.map (·.toReplica)))
    (nodes : ∀ r ∈ replicas, r.node ∈ c.nodes)

structure Worked (t : Setting) (ids : List ContainerId) (c c' : Catalog) : Prop where
  works : c'.live.db.Works
  skips (id : ContainerId) : t.skips c'.directory.containers[id]? id = t.skips c.directory.containers[id]? id
  keeps {id : ContainerId} (done : t.DoneWith c id) : t.DoneWith c' id
  done {id : ContainerId} (mem : id ∈ ids) : t.DoneWith c' id

def DiffReport.quiet (r : DiffReport) : DiffReport := { r with added := 0, transitions := 0 }

def Outcome.quiet : Outcome → Outcome
  | .incremental r => .incremental r.quiet
  | outcome => outcome

theorem quiet_outcome (r : DiffReport) (listing : List ContainerSummary) :
    (r.outcome listing).quiet = r.quiet.outcome listing := by
  cases listing with
  | nil => rfl
  | cons x rest => rfl

def Setting.billed (t : Setting) (c : Catalog) (r : DiffReport) (x : ContainerSummary) : DiffReport :=
  if t.skips c.directory.containers[x.id]? x.id then r.fail
  else match t.reply (.replicas x.id) with
    | .error _ => r.fail
    | .ok replicas => r.counting replicas.length 0

def Setting.verdict (t : Setting) (c : Catalog) : Outcome :=
  match t.reply .containers with
  | .error e => .failed e.message
  | .ok listing => DiffReport.outcome (listing.foldl (t.billed c) { seen := listing.length }) listing

variable {t : Setting} {c c' : Catalog} {id : ContainerId}

theorem Worked.trans {c'' : Catalog} {ids ids' : List ContainerId} (h : Worked t ids c c') (g : Worked t ids' c' c'') :
    Worked t (ids ++ ids') c c'' where
  works := g.works
  skips id := (g.skips id).trans (h.skips id)
  keeps done := g.keeps (h.keeps done)
  done mem := (List.mem_append.1 mem).elim (fun mem => g.keeps (h.done mem)) g.done

theorem Worked.finishing (h : Worked t [] c c') (done : t.DoneWith c' id) : Worked t [id] c c' :=
  { h with done := fun mem => by rwa [List.mem_singleton.1 mem] }

/-- Work on one container, in which nodes may have become known, leaves the other ones as done as they were. -/
theorem worked_own (works : c'.live.db.Works)
    (others : ∀ other, other ≠ id → c'.directory.containers[other]? = c.directory.containers[other]?)
    (nodes : ∀ node, node ∈ c.nodes → node ∈ c'.nodes)
    (skips : t.skips c'.directory.containers[id]? id = t.skips c.directory.containers[id]? id)
    (own : t.DoneWith c id → t.DoneWith c' id) : Worked t [] c c' where
  works := works
  skips other := by
    by_cases same : other = id
    · rw [same, skips]
    · rw [others other same]
  keeps {other} before := by
    by_cases same : other = id
    · exact same ▸ own (same ▸ before)
    cases before with
    | skipped skips => exact .skipped (by rwa [others other same])
    | taken replied known heeds known' =>
      exact .taken replied (by rwa [others other same]) heeds fun r mem => nodes _ (known' r mem)
  done mem := absurd mem List.not_mem_nil

theorem worked_single (works : c'.live.db.Works)
    (others : ∀ other, other ≠ id → c'.directory.containers[other]? = c.directory.containers[other]?)
    (nodes : ∀ node, node ∈ c.nodes → node ∈ c'.nodes)
    (skips : t.skips c'.directory.containers[id]? id = t.skips c.directory.containers[id]? id)
    (done : t.DoneWith c' id) : Worked t [id] c c' :=
  (worked_own works others nodes skips fun _ => done).finishing done

theorem worked_later (works : c.live.db.Works) (clock : Millis) (instant : Instant) :
    Worked t [] c { c with clock, instant } where
  works := works
  skips _ := rfl
  keeps done := by
    cases done with
    | skipped skips => exact .skipped skips
    | taken replied known heeds nodes => exact .taken replied known heeds nodes
  done mem := absurd mem List.not_mem_nil

theorem unmoved_later (c : Catalog) (clock : Millis) (instant : Instant) : Unmoved c { c with clock, instant } :=
  ⟨fun _ => rfl, rfl, rfl⟩

theorem billed_of_skips {x : ContainerSummary} (skips : t.skips c.directory.containers[x.id]? x.id = true) (r : DiffReport) :
    t.billed c r x = r.fail := if_pos skips

theorem billed_of_not_skips {x : ContainerSummary} {replicas : List ReplicaSummary}
    (replied : t.reply (.replicas x.id) = .ok replicas) (skips : t.skips c.directory.containers[x.id]? x.id = false)
    (r : DiffReport) : t.billed c r x = r.counting replicas.length 0 := by
  rw [Setting.billed, if_neg (by rw [skips]; decide), replied]

theorem Worked.billed {ids : List ContainerId} (h : Worked t ids c c') : t.billed c' = t.billed c := by
  funext r x
  rw [Setting.billed, Setting.billed, h.skips]

theorem Worked.verdict {ids : List ContainerId} (h : Worked t ids c c') : t.verdict c' = t.verdict c := by
  rw [Setting.verdict, Setting.verdict, h.billed]

/-- A container that is known takes its replicas over, and then heeds them. -/
theorem worked_takeReplicas {replicas : List ReplicaSummary} {k : Container} (works : c.live.db.Works)
    (replied : t.reply (.replicas id) = .ok replicas) (known : c.directory.containers[id]? = some k) (r : DiffReport) :
    ∃ transitions c', (takeReplicas id replicas r).run c = (.ok (r.counting replicas.length transitions), c') ∧
      Worked t [id] c c' ∧ (k.Heeds (replicas.map (·.toReplica)) → (∀ r ∈ replicas, r.node ∈ c.nodes) →
        Unmoved c c' ∧ transitions = 0) := by
  obtain ⟨history, db, run, works'⟩ := run_takeReplicas_eq replicas r works known
  refine ⟨_, _, run, worked_single works' (fun other ne => ?_) (fun node there => ?_) ?_ ?_, fun heeds nodes =>
    ⟨⟨fun other => ?_, NodeRegistry.enrolAll_of_mem (by simpa using nodes), rfl⟩, heeds.fired_eq_zero _⟩⟩
  · simp [Std.ExtTreeMap.getElem?_insert, Ne.symm ne]
  · exact NodeRegistry.mem_enrolAll.2 (.inr there)
  · rw [Std.ExtTreeMap.getElem?_insert_self, known, skips_of_known replied, skips_of_known replied]
  · exact .taken replied Std.ExtTreeMap.getElem?_insert_self (k.heeds_takeAll c.clock _) fun r mem =>
      NodeRegistry.mem_enrolAll.2 (.inl (List.mem_map_of_mem mem))
  · by_cases same : other = id
    · rw [same, known, Std.ExtTreeMap.getElem?_insert_self]
      exact congrArg some (heeds.unsized_takeAll c.clock)
    · simp [Std.ExtTreeMap.getElem?_insert, Ne.symm same]

structure Synced (t : Setting) (c : Catalog) (r : DiffReport) (x : ContainerSummary) (r' : DiffReport) (c' : Catalog) :
    Prop where
  worked : Worked t [x.id] c c'
  report : r'.quiet = t.billed c r.quiet x
  again (done : t.DoneWith c x.id) : Unmoved c c' ∧ r' = t.billed c r x

theorem yields_ask_undisturbed (undisturbed : t.Undisturbed) (q : Question) (c : Catalog) :
    ∃ clock instant, Yields t (ask q) c (t.reply q) { c with clock, instant } := by
  obtain ⟨clock, instant, later⟩ := undisturbed q c
  exact ⟨clock, instant, later ▸ yields_ask q c⟩

theorem synced_of_skips {x : ContainerSummary} (works : c.live.db.Works)
    (skips : t.skips c.directory.containers[x.id]? x.id = true) (r : DiffReport) (clock : Millis) (instant : Instant) :
    Synced t c r x r.fail { c with clock, instant } where
  worked := (worked_later works clock instant).finishing (.skipped skips)
  report := (billed_of_skips skips r.quiet).symm
  again _ := ⟨unmoved_later c clock instant, (billed_of_skips skips r).symm⟩

section Replied

variable {replicas : List ReplicaSummary} {x : ContainerSummary} (undisturbed : t.Undisturbed) (works : c.live.db.Works)
  (replied : t.reply (.replicas x.id) = .ok replicas)
include undisturbed works replied

theorem yields_known (r : DiffReport) {k : Container} (known : c.directory.containers[x.id]? = some k) :
    ∃ r' c', Yields t (syncContainer r x) c r' c' ∧ Synced t c r x r' c' := by
  obtain ⟨clock, instant, later⟩ := undisturbed (.replicas x.id) c
  have skips : t.skips c.directory.containers[x.id]? x.id = false := by rw [known, skips_of_known replied]
  obtain ⟨transitions, c', taken, worked, unmoved⟩ :=
    worked_takeReplicas (c := { c with clock, instant }) works replied known r
  refine ⟨r.counting replicas.length transitions, c', yields_sync_known replied (by rw [later, known]) (later ▸ taken),
    (worked_later works clock instant).trans worked, ?_, fun done => ?_⟩
  · rw [billed_of_not_skips replied skips]
    rfl
  · rw [billed_of_not_skips replied skips]
    cases done with
    | skipped skips' => exact absurd (skips.symm.trans skips') (by decide)
    | taken replied' known' heeds nodes =>
      cases replied.symm.trans replied'
      cases known.symm.trans known'
      obtain ⟨unmoved, none⟩ := unmoved heeds nodes
      exact ⟨(unmoved_later c clock instant).trans unmoved, by rw [none]⟩

theorem yields_fetched (describes : t.Describes) (r : DiffReport) {given : ContainerWithPipeline}
    (unknown : c.directory.containers[x.id]? = none) (fetched : t.reply (.containerWithPipeline x.id) = .ok given) :
    ∃ r' c', Yields t (syncContainer r x) c r' c' ∧ Synced t c r x r' c' := by
  obtain ⟨clock, instant, later⟩ := undisturbed (.replicas x.id) c
  obtain ⟨clock', instant', later'⟩ := undisturbed (.containerWithPipeline x.id) { c with clock, instant }
  have skips : t.skips c.directory.containers[x.id]? x.id = false := by rw [unknown, skips_of_fetched replied fetched]
  have unfinished : ¬ t.DoneWith c x.id := by
    rintro (skips' | ⟨-, known, -, -⟩)
    · exact absurd (skips.symm.trans skips') (by decide)
    · cases unknown.symm.trans known
  obtain ⟨c₁, added, turned⟩ := run_addContainer (c := { c with clock := clock', instant := instant' }) given works
    (describes _ _ fetched ▸ unknown)
  rw [describes _ _ fetched] at turned
  have known : c₁.directory.containers[x.id]? = some ⟨given.container.toInfo clock', ∅⟩ := by
    rw [turned.containers, if_pos rfl]
  have first : Worked t [] c c₁ := worked_own turned.works
    (fun other (ne : other ≠ x.id) => by rw [turned.containers, if_neg ne]) (fun _ => turned.nodes)
    (by rw [known, skips, skips_of_known replied]) (absurd · unfinished)
  obtain ⟨transitions, c', taken, worked, -⟩ :=
    worked_takeReplicas turned.works replied known { r with added := r.added + 1 }
  refine ⟨DiffReport.counting { r with added := r.added + 1 } replicas.length transitions, c',
    yields_sync_fetched replied (by rw [later, unknown]) fetched ?_ taken, first.trans worked, ?_, (absurd · unfinished)⟩
  · rw [later, later', added]
  · rw [billed_of_not_skips replied skips]
    rfl

end Replied

theorem yields_synced (undisturbed : t.Undisturbed) (describes : t.Describes) (works : c.live.db.Works) (r : DiffReport)
    (x : ContainerSummary) : ∃ r' c', Yields t (syncContainer r x) c r' c' ∧ Synced t c r x r' c' := by
  obtain ⟨clock, instant, later⟩ := undisturbed (.replicas x.id) c
  cases replied : (t.reply (.replicas x.id) : Except AuthorityError (List ReplicaSummary)) with
  | error e =>
    have run := yields_sync_of_error (c := c) (r := r) replied
    rw [later] at run
    exact ⟨r.fail, _, run, synced_of_skips works (skips_of_error replied _) r clock instant⟩
  | ok replicas =>
    cases known : c.directory.containers[x.id]? with
    | some k => exact yields_known undisturbed works replied r known
    | none =>
      cases fetched : (t.reply (.containerWithPipeline x.id) : Except AuthorityError ContainerWithPipeline) with
      | error e =>
        obtain ⟨clock', instant', later'⟩ := undisturbed (.containerWithPipeline x.id) { c with clock, instant }
        have run := yields_sync_unfetched (c := c) (r := r) replied (by rw [later, known]) fetched
        rw [later, later'] at run
        have skips : t.skips c.directory.containers[x.id]? x.id = true := by rw [known, skips_of_unfetched fetched]
        exact ⟨r.fail, _, run, synced_of_skips works skips r clock' instant'⟩
      | ok given => exact yields_fetched undisturbed works replied describes r known fetched

structure SyncedAll (t : Setting) (c : Catalog) (r : DiffReport) (listing : List ContainerSummary) (r' : DiffReport)
    (c' : Catalog) : Prop where
  worked : Worked t (listing.map (·.id)) c c'
  report : r'.quiet = listing.foldl (t.billed c) r.quiet
  again (done : ∀ x ∈ listing, t.DoneWith c x.id) : Unmoved c c' ∧ r' = listing.foldl (t.billed c) r

/-- No container undoes what was done with another one, nor a container that is listed twice what was done
with it before. -/
theorem yields_syncedAll (undisturbed : t.Undisturbed) (describes : t.Describes) (works : c.live.db.Works)
    (listing : List ContainerSummary) (r : DiffReport) :
    ∃ r' c', Yields t (syncContainers r listing) c r' c' ∧ SyncedAll t c r listing r' c' := by
  induction listing generalizing r c with
  | nil => exact ⟨r, c, yields_pure r c, worked_later works c.clock c.instant, rfl, fun _ => ⟨.refl c, rfl⟩⟩
  | cons x rest ih =>
    obtain ⟨r₁, c₁, first, synced⟩ := yields_synced undisturbed describes works r x
    obtain ⟨r', c', run, all⟩ := ih synced.worked.works r₁
    have billed := synced.worked.billed
    refine ⟨r', c', first.bind run, synced.worked.trans all.worked, ?_, fun done => ?_⟩
    · rw [all.report, billed, synced.report, List.foldl_cons]
    · obtain ⟨here, there⟩ := List.forall_mem_cons.1 done
      obtain ⟨unmoved, told⟩ := synced.again here
      obtain ⟨unmoved', told'⟩ := all.again fun y mem => synced.worked.keeps (there y mem)
      exact ⟨unmoved.trans unmoved', by rw [told', billed, told, List.foldl_cons]⟩

def Setting.Done (t : Setting) (c : Catalog) : Prop :=
  ∀ listing : List ContainerSummary, t.reply .containers = .ok listing → ∀ x ∈ listing, t.DoneWith c x.id

structure Passed (t : Setting) (c : Catalog) (outcome : Outcome) (c' : Catalog) : Prop where
  works : c'.live.db.Works
  done : t.Done c'
  verdict : t.verdict c' = t.verdict c
  told : outcome.quiet = t.verdict c
  again (done : t.Done c) : Unmoved c c' ∧ outcome = t.verdict c

theorem yields_listed (undisturbed : t.Undisturbed) (describes : t.Describes) (works : c.live.db.Works)
    {listing : List ContainerSummary} (listed : t.reply .containers = .ok listing) :
    ∃ outcome c', Yields t diff c outcome c' ∧ Passed t c outcome c' := by
  obtain ⟨clock, instant, asked⟩ := yields_ask_undisturbed undisturbed .containers c
  rw [listed] at asked
  obtain ⟨report, c', run, all⟩ := yields_syncedAll (c := { c with clock, instant }) undisturbed describes works listing
    { seen := listing.length }
  have later : Worked t [] c { c with clock, instant } := worked_later works clock instant
  have worked := later.trans all.worked
  have verdict : t.verdict c = DiffReport.outcome (listing.foldl (t.billed c) { seen := listing.length }) listing := by
    rw [Setting.verdict, listed]
  refine ⟨report.outcome listing, c', asked.bind ?_, worked.works, fun listing' same x mem => ?_, worked.verdict, ?_,
    fun done => ?_⟩
  · cases listing with
    | nil =>
      obtain rfl : { c with clock, instant } = c' := congrArg (·.2.catalog) (run {} {})
      exact yields_pure Outcome.nothingFromAuthority _
    | cons x rest => exact run.bind (yields_pure (Outcome.incremental report) c')
  · cases listed.symm.trans same
    exact worked.done (List.mem_map_of_mem mem)
  · rw [verdict, quiet_outcome, all.report, later.billed]
    rfl
  · obtain ⟨unmoved, told⟩ := all.again fun x mem => later.keeps (done listing listed x mem)
    exact ⟨(unmoved_later c clock instant).trans unmoved, by rw [verdict, told, later.billed]⟩

theorem yields_passed (undisturbed : t.Undisturbed) (describes : t.Describes) (works : c.live.db.Works) :
    ∃ outcome c', Yields t diff c outcome c' ∧ Passed t c outcome c' := by
  cases listed : (t.reply .containers : Except AuthorityError (List ContainerSummary)) with
  | ok listing => exact yields_listed undisturbed describes works listed
  | error e =>
    obtain ⟨clock, instant, asked⟩ := yields_ask_undisturbed undisturbed .containers c
    rw [listed] at asked
    have later : Worked t [] c { c with clock, instant } := worked_later works clock instant
    have verdict : t.verdict c = .failed e.message := by rw [Setting.verdict, listed]
    refine ⟨.failed e.message, _, asked.bind (yields_pure _ _), works, fun listing same => ?_, later.verdict,
      verdict.symm, fun _ => ⟨unmoved_later c clock instant, verdict.symm⟩⟩
    cases listed.symm.trans same

inductive Incremental (t : Setting) (s : State) : Activity State Outcome → Prop
  | asked : Incremental t s incrementalDiff
  | timed {settings : Settings} {count : UInt64} (counted : t.reply .count = .ok count)
    (choice : (diverged (UInt64.ofNat s.catalog.directory.size) count settings.containerThreshold &&
      settings.snapshotSync) = false) : Incremental t s (pass settings)

section Passes

variable {s : State} {work : Activity State Outcome}

theorem Incremental.finish_of_taken (h : Incremental t s work) (taken : s.guard.taken = true) :
    work.finish t.respond s = (.skipped, s) := by
  cases h with
  | asked => exact finish_guarded_of_taken taken
  | timed => exact finish_guarded_of_taken taken

theorem Passed.of_later {clock : Millis} {instant : Instant} {outcome : Outcome}
    (h : Passed t { c with clock, instant } outcome c') (works : c.live.db.Works) : Passed t c outcome c' where
  works := h.works
  done := h.done
  verdict := h.verdict
  told := h.told
  again done := by
    obtain ⟨unmoved, told⟩ := h.again fun listing listed x mem =>
      (worked_later works clock instant).keeps (done listing listed x mem)
    exact ⟨(unmoved_later c clock instant).trans unmoved, told⟩

theorem Incremental.finish (h : Incremental t s work) (free : s.guard.taken = false) (undisturbed : t.Undisturbed)
    (describes : t.Describes) (works : s.catalog.live.db.Works) :
    ∃ outcome s', work.finish t.respond s = (outcome, s') ∧ s'.guard.taken = false ∧
      Passed t s.catalog outcome s'.catalog := by
  cases h with
  | asked =>
    obtain ⟨outcome, c', yields, passed⟩ := yields_passed undisturbed describes works
    exact ⟨outcome, _, yields.finish_guarded free, rfl, passed⟩
  | timed counted choice =>
    obtain ⟨clock, instant, later⟩ := undisturbed .count s.catalog
    obtain ⟨outcome, c', yields, passed⟩ :=
      yields_passed (c := { s.catalog with clock, instant }) undisturbed describes works
    exact ⟨outcome, _, finish_pass_of_yields false free counted choice (later ▸ yields), rfl, passed.of_later works⟩

section Unchanged

variable {t' : Setting} (unchanged : t'.reply = t.reply)
include unchanged

theorem skips_of_unchanged : t'.skips = t.skips := by
  unfold Setting.skips
  rw [unchanged]

theorem Setting.Done.of_unchanged (done : t.Done c) : t'.Done c := by
  intro listing listed x mem
  cases done listing (unchanged ▸ listed) x mem with
  | skipped skips => exact .skipped (by rw [skips_of_unchanged unchanged, skips])
  | taken replied known heeds nodes => exact .taken (by rw [unchanged, replied]) known heeds nodes

theorem verdict_of_unchanged (c : Catalog) : t'.verdict c = t.verdict c := by
  have billed : t'.billed = t.billed := by
    unfold Setting.billed
    rw [skips_of_unchanged unchanged, unchanged]
  unfold Setting.verdict
  rw [billed, unchanged]

end Unchanged

/-- A second incremental pass right after the first, each of them asked for or made by the timer, over a
store that works, with the same authority and nobody else at work. It comes to what the first came to, less
what was new, and finds the containers, the nodes and the pipelines as the first left them, save for sizes. -/
theorem unmoved_of_again {t' : Setting} {work' : Activity State Outcome} (undisturbed : t.Undisturbed)
    (undisturbed' : t'.Undisturbed) (unchanged : t'.reply = t.reply) (describes : t.Describes)
    (works : s.catalog.live.db.Works) (first : Incremental t s work)
    (second : Incremental t' (work.finish t.respond s).2 work') :
    ∃ outcome s' s'', work.finish t.respond s = (outcome, s') ∧
      work'.finish t'.respond s' = (outcome.quiet, s'') ∧ Unmoved s'.catalog s''.catalog := by
  cases taken : s.guard.taken with
  | true =>
    have skipped := first.finish_of_taken taken
    rw [skipped] at second
    exact ⟨.skipped, s, s, skipped, second.finish_of_taken taken, .refl _⟩
  | false =>
    obtain ⟨outcome, s', ran, free, passed⟩ := first.finish taken undisturbed describes works
    rw [ran] at second
    have describes' : t'.Describes := by rwa [Setting.Describes, unchanged]
    obtain ⟨outcome', s'', ran', -, passed'⟩ := second.finish free undisturbed' describes' passed.works
    obtain ⟨unmoved, told⟩ := passed'.again (passed.done.of_unchanged unchanged)
    rw [verdict_of_unchanged unchanged, passed.verdict, ← passed.told] at told
    exact ⟨outcome, s', s'', ran, told ▸ ran', unmoved⟩

end Passes

section Patchy

def patchyLater : Setting := { patchySetting with meanwhile := fun _ c => { c with clock := c.clock + 1 } }

theorem unmoved_of_again_patchy :
    patchySetting.Undisturbed ∧ patchyLater.Undisturbed ∧ patchyLater.reply = patchySetting.reply ∧
      patchySetting.Describes ∧ patchyState.catalog.live.db.Works ∧ ∃ s' s'',
      incrementalDiff.finish patchySetting.respond patchyState = (.incremental ⟨3, 1, 4, 2, 1⟩, s') ∧
      (pass {}).finish patchyLater.respond s' = (.incremental ⟨3, 0, 4, 0, 1⟩, s'') ∧
      Unmoved s'.catalog s''.catalog := by
  have undisturbed : patchySetting.Undisturbed := fun _ c => ⟨c.clock, c.instant, rfl⟩
  have undisturbed' : patchyLater.Undisturbed := fun _ c => ⟨c.clock + 1, c.instant, rfl⟩
  have counted : patchyLater.reply .count = .ok (3 : UInt64) := rfl
  have second : Incremental patchyLater (incrementalDiff.finish patchySetting.respond patchyState).2 (pass {}) :=
    .timed counted (by decide +kernel)
  obtain ⟨outcome, s', s'', ran, ran', unmoved⟩ := unmoved_of_again (s := patchyState) undisturbed undisturbed' rfl
    describes_patchy Database.works_empty .asked second
  have first : (incrementalDiff.finish patchySetting.respond patchyState).1 = .incremental ⟨3, 1, 4, 2, 1⟩ := by
    decide +kernel
  rw [ran] at first
  subst first
  exact ⟨undisturbed, undisturbed', rfl, describes_patchy, Database.works_empty, s', s'', ran, ran', unmoved⟩

def mislabelledSetting : Setting where
  home := "stores"
  reply
    | .containers => .ok ([1, 2].map fun id => ⟨⟨id⟩, .closing, 0, none, 0, 0⟩ : List ContainerSummary)
    | .replicas id =>
      .ok (if id = ⟨1⟩ then [⟨⟨1⟩, ⟨⟨4⟩⟩, .closed, 0, 0, 0, none⟩] else [] : List ReplicaSummary)
    | .containerWithPipeline id =>
      if id = ⟨2⟩ then .ok (⟨⟨⟨1⟩, .closing, 0, none, 0, 0⟩, none⟩ : ContainerWithPipeline)
      else .error (.unknownContainer id)
    | _ => .error .brokenBody
  meanwhile _ c := c

def mislabelledState : State := { catalog := { clock := 5, live := ⟨"scm-1", .empty⟩, disk := {} } }

/-- So it matters that the authority's answers are about what was asked for: the second pass closes the
container that the first one added in another's place. -/
theorem moved_again_mislabelled :
    let later := (incrementalDiff.finish mislabelledSetting.respond mislabelledState).2
    let after := (incrementalDiff.finish mislabelledSetting.respond later).2
    mislabelledSetting.Undisturbed ∧ mislabelledState.catalog.live.db.Works ∧
      mislabelledState.guard.taken = false ∧
      (incrementalDiff.finish mislabelledSetting.respond later).1 = .incremental ⟨2, 0, 1, 1, 1⟩ ∧
      later.catalog.directory.containers[(⟨1⟩ : ContainerId)]?.map (·.info.state) = some .closing ∧
      after.catalog.directory.containers[(⟨1⟩ : ContainerId)]?.map (·.info.state) = some .closed := by
  refine ⟨fun _ c => ⟨c.clock, c.instant, rfl⟩, Database.works_empty, rfl, ?_, ?_, ?_⟩
  all_goals decide +kernel

end Patchy

end ClusterCatalog.Sync
