import ClusterCatalog.Proofs.Sync.Traffic
/-!
The calls that take the guard. Each of them finds it taken and does nothing, or keeps it while it waits
and has given it back when it ends. What it comes to is what is written into the status.
-/
namespace ClusterCatalog.Sync

def Status.books (s : Status) : Nat × Option Outcome := (s.passes, s.lastOutcome?)

def book (books : Nat × Option Outcome) : Option Outcome → Nat × Option Outcome
  | none => books
  | some outcome => (books.1 + 1, some outcome)

def Quiet (_ : List Told) (s t : State) : Prop := t.guard = s.guard ∧ t.status = s.status

theorem quiet_stepwise : Stepwise Quiet where
  refl _ _ := ⟨rfl, rfl⟩
  trans h g := ⟨g.1.trans h.1, g.2.trans h.2⟩
  mono _ h := h
  replicas _ _ _ := ⟨rfl, rfl⟩
  container _ _ := ⟨rfl, rfl⟩
  pipelines _ _ := ⟨rfl, rfl⟩

section Guarded

variable {α β : Type}

theorem run_guarded (otherwise : α) (work : Activity State α) (s : State) :
    guarded otherwise work s =
      if s.guard.taken then .finished otherwise s
      else (work { s with guard := ⟨true⟩ }).bind fun result t => .finished result t.release := by
  have looks (f : State → Activity State α) : (get >>= f) s = f s s := rfl
  rw [guarded, looks]
  cases taken : s.guard.taken <;> simp only [Guard.acquire?, taken] <;> rfl

theorem map_guarded (f : α → β) (otherwise : α) (work : Activity State α) :
    f <$> guarded otherwise work = guarded (f otherwise) (f <$> work) := by
  funext s
  change (guarded otherwise work s).bind (fun result t => .finished (f result) t) = _
  rw [run_guarded, run_guarded]
  split
  · rfl
  · calc
      _ = (work { s with guard := ⟨true⟩ }).bind fun result t => .finished (f result) t.release :=
        Progress.bind_assoc ..
      _ = _ :=
        (Progress.bind_assoc (work { s with guard := ⟨true⟩ }) (fun result t => .finished (f result) t) fun result t =>
          .finished result t.release).symm

end Guarded

/-- Others find the guard taken and the books untouched while it waits. In the end the guard is as given
and the books show what it came to. -/
def Progress.Books (taken : Bool) (books : Nat × Option Outcome) : Progress State (Option Outcome) → Prop
  | .finished outcome? s => s.guard.taken = taken ∧ s.status.books = book books outcome? ∧ outcome? ≠ some .skipped
  | .waiting _ s resume => s.guard.taken = true ∧ s.status.books = books ∧
      ∀ response t, t.guard.taken = true → Books taken t.status.books (resume response t)

def Activity.Books (x : Activity State (Option Outcome)) : Prop :=
  ∀ s, s.guard.taken = true → (x s).Books true s.status.books

/-- As long as nothing touches the guard and the status, they are what the next activity finds. -/
theorem Progress.Follows.books {α : Type} {Q : List Told → α → Prop} {known : List Told} {s : State}
    {p : Progress State α} {taken : Bool} {f : α → Activity State (Option Outcome)}
    (h : p.Follows Quiet Q known s) (held : s.guard.taken = true)
    (next : ∀ more a t, Q more a → t.guard.taken = true → (f a t).Books taken t.status.books) :
    (p.bind f).Books taken s.status.books := by
  induction p generalizing known s with
  | finished a t =>
    obtain ⟨⟨guard, status⟩, result⟩ := h
    rw [← guard] at held
    rw [← status]
    exact next known a t result held
  | waiting r t resume ih =>
    obtain ⟨⟨guard, status⟩, -, rest⟩ := h
    refine ⟨by rwa [guard], by rw [status], fun response u held => ?_⟩
    exact ih response u (rest response u) held

theorem books_recorded {work : Activity State Outcome} (h : work.Follows Quiet notSkipped []) :
    Activity.Books (some <$> recorded work) := by
  intro s held
  let started : State := { s with status := s.status.started s.catalog.clock }
  let finished (outcome : Outcome) (t : State) : Progress State (Option Outcome) :=
    .finished (some outcome) { t with status := t.status.finished t.catalog.clock outcome }
  have booked : ((work started).bind finished).Books true started.status.books :=
    (h started).books held fun _ outcome t real held => ⟨held, rfl, by simpa [notSkipped] using real⟩
  have same : (some <$> recorded work) s = (work started).bind finished :=
    Progress.bind_assoc (work started) _ _
  rw [same]
  exact booked

/-- Whoever keeps the guard gives it back in the end. -/
theorem Progress.Books.release {books : Nat × Option Outcome} {p : Progress State (Option Outcome)}
    (h : p.Books true books) :
    (p.bind fun outcome? s => .finished outcome? s.release).Books false books := by
  induction p generalizing books with
  | finished outcome? s => exact ⟨rfl, h.2⟩
  | waiting r s resume ih => exact ⟨h.1, h.2.1, fun response t held => ih response t (h.2.2 response t held)⟩

def startupRun (settings : Settings) : Activity State (Option Outcome × Except String Unit) :=
  guarded (none, .ok ()) do
    match ← needsResync settings with
    | .error e => return (none, .error e.message)
    | .ok true => match ← recorded resync with
      | .failed reason => return (some (.failed reason), .error ("startup resync failed: " ++ reason))
      | outcome => return (some outcome, .ok ())
    | .ok false => return (none, (← syncPipelines).map fun _ => ())

theorem snd_startupRun (settings : Settings) : Prod.snd <$> startupRun settings = startup settings := by
  rw [startupRun, map_guarded, startup, map_bind]
  congr 2
  funext result
  match result with
  | .error e => rfl
  | .ok true =>
    simp only [map_bind]
    congr 1
    funext outcome
    cases outcome <;> rfl
  | .ok false =>
    simp only [map_bind, map_pure]

def startupWork (settings : Settings) : Activity State (Option Outcome) := do
  match ← needsResync settings with
  | .error _ => return none
  | .ok true => some <$> recorded resync
  | .ok false => (fun _ => none) <$> syncPipelines

theorem fst_startupRun (settings : Settings) :
    Prod.fst <$> startupRun settings = guarded none (startupWork settings) := by
  rw [startupRun, map_guarded, startupWork, map_bind]
  congr 2
  funext result
  match result with
  | .error e => rfl
  | .ok true =>
    simp only [map_eq_pure_bind, bind_assoc]
    congr 1
    funext outcome
    cases outcome <;> rfl
  | .ok false =>
    simp only [map_eq_pure_bind, bind_assoc, pure_bind]

theorem books_startupWork (settings : Settings) : (startupWork settings).Books := by
  intro s held
  have first : (needsResync settings).Follows Quiet anyResult [] := quiet_stepwise.needsResync settings
  refine (first s).books held fun _ result t _ held => ?_
  match result with
  | .error e => exact ⟨held, rfl, nofun⟩
  | .ok true => exact books_recorded quiet_stepwise.resync t held
  | .ok false =>
    have rest : syncPipelines.Follows Quiet anyResult [] := quiet_stepwise.syncPipelines
    exact (rest t).books held fun _ _ u _ held => ⟨held, rfl, nofun⟩

inductive Trigger where
  | pass (settings : Settings)
  | fullResync
  | incrementalDiff
  | startup (settings : Settings)

namespace Trigger

def run : Trigger → Activity State (Option Outcome)
  | pass settings => some <$> Sync.pass settings
  | fullResync => some <$> Sync.fullResync
  | incrementalDiff => some <$> Sync.incrementalDiff
  | startup settings => Prod.fst <$> startupRun settings

def work : Trigger → Activity State (Option Outcome)
  | pass settings => some <$> recorded (passWork settings)
  | fullResync => some <$> recorded resync
  | incrementalDiff => some <$> recorded diff
  | startup settings => startupWork settings

def skipped? : Trigger → Option Outcome
  | startup _ => none
  | _ => some .skipped

theorem run_eq (trigger : Trigger) : trigger.run = guarded trigger.skipped? trigger.work := by
  cases trigger with
  | startup settings => exact fst_startupRun settings
  | _ => exact map_guarded ..

theorem books_work (trigger : Trigger) : trigger.work.Books := by
  cases trigger with
  | pass settings => exact books_recorded (quiet_stepwise.passWork settings)
  | fullResync => exact books_recorded quiet_stepwise.resync
  | incrementalDiff => exact books_recorded quiet_stepwise.diff
  | startup settings => exact books_startupWork settings

variable {s : State}

theorem run_of_taken (taken : s.guard.taken = true) (trigger : Trigger) :
    trigger.run s = .finished trigger.skipped? s := by
  rw [run_eq, run_guarded, if_pos taken]

/-- A call that finds the guard free takes it with its first question. -/
theorem run_of_free (free : s.guard.taken = false) (trigger : Trigger) :
    (trigger.run s).Books false s.status.books ∧ ∃ q t resume, trigger.run s = .waiting (.ask q) t resume := by
  have eq : trigger.run s = (trigger.work { s with guard := ⟨true⟩ }).bind fun outcome? t =>
      .finished outcome? t.release := by
    rw [run_eq, run_guarded, free]
    rfl
  rw [eq]
  refine ⟨(trigger.books_work { s with guard := ⟨true⟩ } rfl).release, ?_⟩
  cases trigger <;> exact ⟨_, _, _, rfl⟩

end Trigger

end ClusterCatalog.Sync
