import ClusterCatalog.Sync.Pass
import ClusterCatalog.Proofs.Action
/-!
What holds along an activity, whoever works on the state while it waits. Between two waits the state
moves as a relation says, and what is known from outside grows with every answer.
-/
namespace ClusterCatalog.Sync

inductive Told where
  | report (r : Report)
  | reply (q : Question) (reply : Reply q)

namespace Request

def told : (r : Request) → r.Response → List Told
  | .ask q, reply => [.reply q reply]
  | .install _, _ => []

def Founded (known : List Told) : Request → Prop
  | .ask _ => True
  | .install snapshot => Told.reply .snapshot (.ok (some snapshot)) ∈ known

theorem Founded.mono {known more : List Told} (le : known ⊆ more) {r : Request} (h : r.Founded known) :
    r.Founded more := by
  cases r with
  | ask q => trivial
  | install snapshot => exact le h

end Request

variable {σ ε α β : Type}

structure Chained (R : List Told → σ → σ → Prop) : Prop where
  refl (known : List Told) (s : σ) : R known s s
  trans {known : List Told} {s t u : σ} (h : R known s t) (g : R known t u) : R known s u
  mono {known more : List Told} {s t : σ} (le : known ⊆ more) (h : R known s t) : R more s t

/-- Every stretch is as `R` says and the result as `Q` says, each with what is known at its time. -/
def Progress.Follows (R : List Told → σ → σ → Prop) (Q : List Told → α → Prop) :
    List Told → σ → Progress σ α → Prop
  | known, s, .finished a t => R known s t ∧ Q known a
  | known, s, .waiting r t resume => R known s t ∧ r.Founded known ∧
      ∀ response t', Follows R Q (known ++ r.told response) t' (resume response t')

def Activity.Follows (R : List Told → σ → σ → Prop) (Q : List Told → α → Prop) (known : List Told)
    (x : Activity σ α) : Prop := ∀ s, (x s).Follows R Q known s

def anyResult (_ : List Told) (_ : α) : Prop := True

namespace Progress

variable {R : List Told → σ → σ → Prop} {Q : List Told → α → Prop} {Q' : List Told → β → Prop}

theorem Follows.prepend (chained : Chained R) {known : List Told} {s t : σ} {p : Progress σ α}
    (first : R known s t) (h : p.Follows R Q known t) : p.Follows R Q known s := by
  cases p with
  | finished a u => exact ⟨chained.trans first h.1, h.2⟩
  | waiting r u resume => exact ⟨chained.trans first h.1, h.2⟩

theorem Follows.bind (chained : Chained R) {known : List Told} {s : σ} {p : Progress σ α}
    {f : α → Activity σ β} (h : p.Follows R Q known s)
    (next : ∀ more a, known ⊆ more → Q more a → (f a).Follows R Q' more) :
    (p.bind f).Follows R Q' known s := by
  induction p generalizing known s with
  | finished a t => exact .prepend chained h.1 (next known a (List.Subset.refl known) h.2 t)
  | waiting r t resume ih =>
    -- what the next activity starts from is known at least since this answer
    obtain ⟨stretch, founded, rest⟩ := h
    refine ⟨stretch, founded, fun response t' => ih response t' (rest response t') ?_⟩
    intro more a le
    exact next more a (List.Subset.trans (List.subset_append_left ..) le)

theorem Follows.mono (chained : Chained R) {known more : List Told} {s : σ} {p : Progress σ α}
    (le : known ⊆ more) (h : p.Follows R anyResult known s) : p.Follows R anyResult more s := by
  induction p generalizing known more s with
  | finished a t => exact ⟨chained.mono le h.1, trivial⟩
  | waiting r t resume ih =>
    obtain ⟨stretch, founded, rest⟩ := h
    refine ⟨chained.mono le stretch, founded.mono le, fun response t' => ?_⟩
    exact ih response t' (List.append_subset.2 ⟨List.Subset.trans le (List.subset_append_left ..),
      List.subset_append_right ..⟩) (rest response t')

end Progress

namespace Activity

variable {R : List Told → σ → σ → Prop} {Q : List Told → α → Prop} {Q' : List Told → β → Prop}
  {known : List Told}

theorem Follows.bind (chained : Chained R) {x : Activity σ α} {f : α → Activity σ β}
    (h : x.Follows R Q known)
    (next : ∀ more a, known ⊆ more → Q more a → (f a).Follows R Q' more) :
    (x >>= f).Follows R Q' known := fun s => (h s).bind chained next

theorem Follows.then (chained : Chained R) {x : Activity σ α} {f : α → Activity σ β}
    (h : x.Follows R anyResult known) (next : ∀ more a, known ⊆ more → (f a).Follows R Q' more) :
    (x >>= f).Follows R Q' known := h.bind chained fun more a le _ => next more a le

theorem follows_pure (chained : Chained R) {a : α} (h : Q known a) :
    (pure a : Activity σ α).Follows R Q known := fun s => ⟨chained.refl known s, h⟩

theorem follows_get (chained : Chained R) : (get : Activity σ σ).Follows R anyResult known :=
  fun s => ⟨chained.refl known s, trivial⟩

theorem follows_modify {f : σ → σ} (h : ∀ s, R known s (f s)) :
    (modify f : Activity σ PUnit).Follows R anyResult known := fun s => ⟨h s, trivial⟩

theorem follows_ask (chained : Chained R) (q : Question) :
    (ask q : Activity σ (Reply q)).Follows R (fun more reply => .reply q reply ∈ more) known :=
  fun s => ⟨chained.refl known s, trivial, fun _ t' =>
    ⟨chained.refl _ t', List.mem_append_right known (List.mem_singleton.2 rfl)⟩⟩

theorem follows_install (chained : Chained R) {snapshot : Snapshot}
    (h : Told.reply .snapshot (.ok (some snapshot)) ∈ known) :
    (install snapshot : Activity σ _).Follows R anyResult known :=
  fun s => ⟨chained.refl known s, h, fun _ t' => ⟨chained.refl _ t', trivial⟩⟩

theorem follows_act {a : Action σ ε α} (h : ∀ s, R known s (a.run s).2) :
    (act a).Follows R anyResult known := fun s => ⟨h s, trivial⟩

theorem Follows.map (chained : Chained R) {x : Activity σ α} (f : α → β) (h : x.Follows R anyResult known) :
    (f <$> x).Follows R anyResult known :=
  h.then chained fun _ _ _ => follows_pure chained trivial

end Activity

section Steps

variable {R : Catalog → Catalog → Prop}

theorem respects_takeReplicas (composes : Action.Composes R) {id : ContainerId} {replicas : List ReplicaSummary}
    {r : DiffReport} (register : ∀ node, (Catalog.register node).Respects R)
    (take : ∀ now, (Catalog.onDirectory (Directory.withContainer id (applyReplicas now replicas r))).Respects R) :
    (takeReplicas id replicas r).Respects R := by
  refine (Action.respects_forM composes fun x _ => register x.node).bind composes fun _ => ?_
  exact (Action.respects_get composes).bind composes fun c => (take c.clock).relabel _

theorem respects_addContainer (composes : Action.Composes R) {given : ContainerWithPipeline}
    (pipeline : ∀ p, given.pipeline? = some p → (Catalog.onPipelines (PipelineRegistry.add p)).Respects R)
    (container : ∀ info, (Catalog.onDirectory (Directory.add info)).Respects R) :
    (addContainer given).Respects R := by
  unfold addContainer
  rcases known : given.pipeline? with _ | p
  case' some => refine ((pipeline p known).relabel _).discard.bind composes fun _ => ?_
  all_goals
    refine (Action.respects_get composes).bind composes fun c => ?_
    refine (container _).attempt.bind composes fun result => ?_
    split
    · exact Action.respects_pure composes _
    · exact Action.respects_pure composes _
    · exact Action.respects_throw composes _

end Steps

structure Respected (C : List Told → Catalog → Catalog → Prop) : Prop extends Chained C where
  replicas {known : List Told} {id : ContainerId} {replicas : List ReplicaSummary} (r : DiffReport)
    (h : Told.reply (.replicas id) (.ok replicas) ∈ known) (c : Catalog) :
    C known c ((takeReplicas id replicas r).run c).2
  container {known : List Told} {id : ContainerId} {given : ContainerWithPipeline}
    (h : Told.reply (.containerWithPipeline id) (.ok given) ∈ known) (c : Catalog) :
    C known c ((addContainer given).run c).2
  pipelines {known : List Told} {given : List Pipeline} (h : Told.reply .pipelines (.ok given) ∈ known)
    (c : Catalog) : C known c ((Catalog.onPipelines (PipelineRegistry.replaceWith given)).run c).2

structure Stepwise (R : List Told → State → State → Prop) : Prop extends Chained R where
  replicas {known : List Told} {id : ContainerId} {replicas : List ReplicaSummary} (r : DiffReport)
    (h : Told.reply (.replicas id) (.ok replicas) ∈ known) (s : State) :
    R known s { s with catalog := ((takeReplicas id replicas r).run s.catalog).2 }
  container {known : List Told} {id : ContainerId} {given : ContainerWithPipeline}
    (h : Told.reply (.containerWithPipeline id) (.ok given) ∈ known) (s : State) :
    R known s { s with catalog := ((addContainer given).run s.catalog).2 }
  pipelines {known : List Told} {given : List Pipeline} (h : Told.reply .pipelines (.ok given) ∈ known) (s : State) :
    R known s { s with catalog := ((Catalog.onPipelines (PipelineRegistry.replaceWith given)).run s.catalog).2 }

def passWork (settings : Settings) : Activity State Outcome := do
  match ← needsResync settings with
  | .error e => return .failed e.message
  | .ok true => resync
  | .ok false => diff

theorem pass_eq (settings : Settings) : pass settings = guarded .skipped (recorded (passWork settings)) := rfl

def notSkipped (_ : List Told) (outcome : Outcome) : Prop := outcome ≠ .skipped

namespace Stepwise

variable {R : List Told → State → State → Prop} {known : List Told}

theorem follows_onCatalog {ε α : Type} {a : Action Catalog ε α}
    (h : ∀ s : State, R known s { s with catalog := (a.run s.catalog).2 }) :
    (State.onCatalog a).Follows R anyResult known := Activity.follows_act h

theorem fetchContainer (stepwise : Stepwise R) (id : ContainerId) :
    (fetchContainer id).Follows R anyResult known := by
  have chained := stepwise.toChained
  refine (Activity.follows_get chained).then chained fun more s _ => ?_
  split
  · exact Activity.follows_pure chained trivial
  · refine (Activity.follows_ask chained _).bind chained fun more reply _ told => ?_
    cases reply with
    | error e => exact Activity.follows_pure chained trivial
    | ok given =>
      refine (follows_onCatalog (stepwise.container told)).then chained fun _ _ _ => ?_
      exact Activity.follows_pure chained trivial

theorem syncContainer (stepwise : Stepwise R) (r : DiffReport) (s : ContainerSummary) :
    (syncContainer r s).Follows R anyResult known := by
  have chained := stepwise.toChained
  refine (Activity.follows_ask chained _).bind chained fun more reply _ told => ?_
  cases reply with
  | error e => exact Activity.follows_pure chained trivial
  | ok replicas =>
    refine (stepwise.fetchContainer s.id).then chained fun most added? le => ?_
    cases added? with
    | none => exact Activity.follows_pure chained trivial
    | some added =>
      refine (follows_onCatalog (stepwise.replicas _ (le told))).then chained fun _ result _ => ?_
      cases result with
      | error e => exact Activity.follows_pure chained trivial
      | ok r => exact Activity.follows_pure chained trivial

theorem syncContainers (stepwise : Stepwise R) (r : DiffReport) (listing : List ContainerSummary) :
    (syncContainers r listing).Follows R anyResult known := by
  induction listing generalizing r known with
  | nil => exact Activity.follows_pure stepwise.toChained trivial
  | cons s rest ih => exact (stepwise.syncContainer r s).then stepwise.toChained fun _ r _ => ih r

theorem diff (stepwise : Stepwise R) : diff.Follows R notSkipped known := by
  have chained := stepwise.toChained
  refine (Activity.follows_ask chained _).bind chained fun more reply _ told => ?_
  match reply with
  | .error e => exact Activity.follows_pure chained nofun
  | .ok [] => exact Activity.follows_pure chained nofun
  | .ok (s :: rest) =>
    refine (stepwise.syncContainers _ _).then chained fun _ r _ => ?_
    exact Activity.follows_pure chained nofun

theorem resync (stepwise : Stepwise R) : resync.Follows R notSkipped known := by
  have chained := stepwise.toChained
  refine (Activity.follows_ask chained _).bind chained fun more reply _ told => ?_
  match reply with
  | .error e => exact Activity.follows_pure chained nofun
  | .ok none => exact Activity.follows_pure chained nofun
  | .ok (some snapshot) =>
    refine (Activity.follows_install chained told).then chained fun _ result _ => ?_
    cases result with
    | error e => exact Activity.follows_pure chained nofun
    | ok report => exact Activity.follows_pure chained nofun

theorem needsResync (stepwise : Stepwise R) (settings : Settings) :
    (needsResync settings).Follows R anyResult known := by
  have chained := stepwise.toChained
  refine (Activity.follows_get chained).then chained fun _ s _ => ?_
  refine (Activity.follows_ask chained _).bind chained fun _ reply _ _ => ?_
  cases reply with
  | error e => exact Activity.follows_pure chained trivial
  | ok count => exact Activity.follows_pure chained trivial

theorem passWork (stepwise : Stepwise R) (settings : Settings) : (passWork settings).Follows R notSkipped known := by
  have chained := stepwise.toChained
  refine (stepwise.needsResync settings).then chained fun _ result _ => ?_
  match result with
  | .error e => exact Activity.follows_pure chained nofun
  | .ok true => exact stepwise.resync
  | .ok false => exact stepwise.diff

theorem syncPipelines (stepwise : Stepwise R) : syncPipelines.Follows R anyResult known := by
  have chained := stepwise.toChained
  refine (Activity.follows_ask chained _).bind chained fun _ reply _ told => ?_
  cases reply with
  | error e => exact Activity.follows_pure chained trivial
  | ok given =>
    refine (follows_onCatalog (stepwise.pipelines told)).then chained fun _ _ _ => ?_
    exact Activity.follows_pure chained trivial

end Stepwise

def OnCatalog (C : List Told → Catalog → Catalog → Prop) (known : List Told) (s t : State) : Prop :=
  C known s.catalog t.catalog

namespace Respected

variable {C : List Told → Catalog → Catalog → Prop} {known : List Told}

theorem stepwise (respected : Respected C) : Stepwise (OnCatalog C) where
  refl known s := respected.refl known s.catalog
  trans h g := respected.trans h g
  mono le h := respected.mono le h
  replicas r h s := respected.replicas r h s.catalog
  container h s := respected.container h s.catalog
  pipelines h s := respected.pipelines h s.catalog

theorem chained (respected : Respected C) : Chained (OnCatalog C) := respected.stepwise.toChained

theorem follows_quiet (respected : Respected C) {f : State → State} (h : ∀ s, (f s).catalog = s.catalog) :
    (modify f : Activity State PUnit).Follows (OnCatalog C) anyResult known :=
  Activity.follows_modify fun s => by
    rw [OnCatalog, h]
    exact respected.refl known s.catalog

theorem syncPipelines (respected : Respected C) : syncPipelines.Follows (OnCatalog C) anyResult known :=
  respected.stepwise.syncPipelines

/-- The guard is no part of the catalog. -/
theorem guarded (respected : Respected C) {α : Type} (otherwise : α) {work : Activity State α}
    (h : ∀ more, known ⊆ more → work.Follows (OnCatalog C) anyResult more) :
    (guarded otherwise work).Follows (OnCatalog C) anyResult known := by
  refine (Activity.follows_get respected.chained).then respected.chained fun more s le => ?_
  cases s.guard.acquire? with
  | none => exact Activity.follows_pure respected.chained trivial
  | some guard =>
    refine Activity.Follows.then respected.chained (respected.follows_quiet fun _ => rfl) fun most _ le' => ?_
    refine (h most (List.Subset.trans le le')).then respected.chained fun _ result _ => ?_
    refine Activity.Follows.then respected.chained (respected.follows_quiet fun _ => rfl) fun _ _ _ => ?_
    exact Activity.follows_pure respected.chained trivial

theorem recorded (respected : Respected C) {work : Activity State Outcome}
    (h : ∀ more, known ⊆ more → work.Follows (OnCatalog C) notSkipped more) :
    (recorded work).Follows (OnCatalog C) anyResult known := by
  refine Activity.Follows.then respected.chained (respected.follows_quiet fun _ => rfl) fun more _ le => ?_
  refine (h more le).bind respected.chained fun _ outcome _ _ => ?_
  refine Activity.Follows.then respected.chained (respected.follows_quiet fun _ => rfl) fun _ _ _ => ?_
  exact Activity.follows_pure respected.chained trivial

theorem pass (respected : Respected C) (settings : Settings) :
    (pass settings).Follows (OnCatalog C) anyResult known := by
  rw [pass_eq]
  exact respected.guarded _ fun _ _ => respected.recorded fun _ _ => respected.stepwise.passWork settings

theorem fullResync (respected : Respected C) : fullResync.Follows (OnCatalog C) anyResult known :=
  respected.guarded _ fun _ _ => respected.recorded fun _ _ => respected.stepwise.resync

theorem incrementalDiff (respected : Respected C) :
    incrementalDiff.Follows (OnCatalog C) anyResult known :=
  respected.guarded _ fun _ _ => respected.recorded fun _ _ => respected.stepwise.diff

theorem startup (respected : Respected C) (settings : Settings) :
    (startup settings).Follows (OnCatalog C) anyResult known := by
  refine respected.guarded _ fun _ _ => ?_
  refine (respected.stepwise.needsResync settings).then respected.chained fun _ result _ => ?_
  match result with
  | .error e => exact Activity.follows_pure respected.chained trivial
  | .ok true =>
    refine (respected.recorded fun _ _ => respected.stepwise.resync).then respected.chained fun _ outcome _ => ?_
    split
    · exact Activity.follows_pure respected.chained trivial
    · exact Activity.follows_pure respected.chained trivial
  | .ok false => exact respected.syncPipelines.map respected.chained _

end Respected

end ClusterCatalog.Sync
