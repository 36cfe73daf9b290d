import ClusterCatalog.Proofs.Sync.Contention
/-!
What the guard and the lock of installs exclude. At most one call is past the guard, and the guard is free
whenever none is. At most one install is running; it outlives the call that began it, and then only the
lock stays with it.
-/
namespace ClusterCatalog.Sync

structure TurnsAway (s : State) : Prop where
  pass (settings : Settings) : pass settings s = .finished .skipped s
  fullResync : fullResync s = .finished .skipped s
  incrementalDiff : incrementalDiff s = .finished .skipped s
  startup (settings : Settings) : startup settings s = .finished (.ok ()) s

theorem turnsAway_of_inProgress {s : State} (taken : s.inProgress = true) : TurnsAway s where
  pass _ := (run_guarded ..).trans (if_pos taken)
  fullResync := (run_guarded ..).trans (if_pos taken)
  incrementalDiff := (run_guarded ..).trans (if_pos taken)
  startup settings := by
    rw [← snd_startupRun, startupRun, map_guarded, run_guarded]
    exact if_pos taken

namespace Contention

variable {t : Contention} {i : Nat}

def LetsIn (t : Contention) (trigger : Trigger) : Prop :=
  (t.call trigger).state.inProgress = true ∧
    ∃ q resume, (t.call trigger).calls = t.calls ++ [.asking q resume]

theorem letsIn_of_free (free : t.state.inProgress = false) (trigger : Trigger) : t.LetsIn trigger := by
  obtain ⟨books, q, s, resume, waits⟩ := Trigger.run_of_free free trigger
  rw [waits] at books
  rw [LetsIn, call, waits]
  exact ⟨books.1, q, resume, rfl⟩

/-- The guard is taken exactly while a call is past it. -/
theorem Sound.inProgress_iff (sound : t.Sound) :
    t.state.inProgress = true ↔ ∃ call ∈ t.calls, call.past = true := by
  rw [← List.countP_pos_iff, sound.past]
  cases taken : t.state.guard.taken <;> simp [State.inProgress, taken]

theorem Sound.locked_iff (sound : t.Sound) : t.locked = true ↔ ∃ call ∈ t.calls, call.installs = true := by
  rw [← List.countP_pos_iff, sound.lock]
  cases t.locked <;> simp

/-- Calls that want the guard come, wait, go on, end and are given up in any order. At most one is past the
guard, and the guard is free unless one is. While it is taken whoever comes is turned away, while it is free
whoever comes is let in, and the status tells of all that were not skipped. -/
theorem exclusive (catalog : Catalog) (events : List Event) :
    let t := (fresh catalog).run events
    t.calls.countP Call.past ≤ 1 ∧
      (t.state.inProgress = true ↔ ∃ call ∈ t.calls, call.past = true) ∧
      (t.state.inProgress = true → TurnsAway t.state) ∧
      (t.state.inProgress = false → ∀ trigger, t.LetsIn trigger) ∧
      t.state.status.passes = (t.outcomes.filter (· ≠ .skipped)).length ∧
      t.state.status.lastOutcome? = (t.outcomes.filter (· ≠ .skipped)).getLast? := by
  intro t
  have sound : t.Sound := sound_run (sound_fresh catalog) events
  refine ⟨?_, sound.inProgress_iff, turnsAway_of_inProgress, letsIn_of_free, ?_, ?_⟩
  · rw [sound.past]
    exact Bool.toNat_le _
  · exact congrArg Prod.fst sound.books
  · exact congrArg Prod.snd sound.books

def bare : Catalog := { clock := 5, live := ⟨"scm-5", .empty⟩, disk := {} }

def contested : List Event :=
  [.call (.pass {}), .call .fullResync, .abandon 0, .call .incrementalDiff, .answer 0 .containers (.ok [])]

theorem exclusive_contested :
    let t := (fresh bare).run (contested.take 2)
    let u := (fresh bare).run contested
    t.outcomes = [.skipped] ∧ TurnsAway t.state ∧ t.state.status.passes = 0 ∧
      u.outcomes = [.skipped, .nothingFromAuthority] ∧ (∀ trigger, u.LetsIn trigger) ∧
        u.state.status.passes = 1 ∧ u.state.status.lastOutcome? = some .nothingFromAuthority := by
  intro t u
  have taken : t.state.inProgress = true := by decide +kernel
  have free : u.state.inProgress = false := by decide +kernel
  have skipped : ((fresh bare).run (contested.take 2)).outcomes = [.skipped] := by decide +kernel
  have ended : ((fresh bare).run contested).outcomes = [.skipped, .nothingFromAuthority] := by decide +kernel
  obtain ⟨-, -, turnsAway, -, none, -⟩ := exclusive bare (contested.take 2)
  obtain ⟨-, -, -, letsIn, passes, last⟩ := exclusive bare contested
  refine ⟨skipped, turnsAway taken, none.trans ?_, ended, letsIn free, passes.trans ?_, last.trans ?_⟩
  · rw [skipped]
    rfl
  · rw [ended]
    rfl
  · rw [ended]
    rfl

theorem locked_proceed (t : Contention) (p : Progress State (Option Outcome)) : (t.proceed p).locked = t.locked := by
  match p with
  | .finished .. | .waiting (.ask _) .. | .waiting (.install _) .. => rfl

/-- Only its end ends an install. -/
theorem locked_step (locked : t.locked = true) {e : Event} (goesOn : ∀ i home, e ≠ .endInstall i home) :
    (t.step e).locked = true := by
  cases e with
  | operate op => exact locked
  | call trigger => exact (locked_proceed ..).trans locked
  | answer i q reply =>
    change (t.answer i q reply).locked = true
    unfold answer
    split
    · split
      · exact (locked_proceed ..).trans locked
      · exact locked
    · exact locked
  | startInstall i =>
    change (t.startInstall i).locked = true
    rwa [startInstall, if_pos locked]
  | endInstall i home => exact absurd rfl (goesOn i home)
  | resume i =>
    change (t.resume i).locked = true
    unfold resume
    split
    · exact (locked_proceed ..).trans locked
    · exact locked
  | abandon i =>
    change (t.abandon i).locked = true
    unfold abandon
    split <;> exact locked

theorem locked_run (locked : t.locked = true) {events : List Event}
    (goesOn : ∀ e ∈ events, ∀ i home, e ≠ .endInstall i home) : (t.run events).locked = true := by
  induction events generalizing t with
  | nil => exact locked
  | cons e events ih =>
    exact ih (locked_step locked (goesOn e List.mem_cons_self)) fun e' mem => goesOn e' (List.mem_cons_of_mem e mem)

/-- In any order of events the install that is running is the only one, and no other begins before it has
ended. As long as the call that began it has not been given up the guard is taken, and whoever comes is
turned away. Once it was given up the guard is free, although its install goes on. -/
theorem install_excludes (catalog : Catalog) (events : List Event) :
    let t := (fresh catalog).run events
    t.calls.countP Call.installs ≤ 1 ∧
      (∀ snapshot resume, .installing snapshot resume ∈ t.calls → t.state.inProgress = true ∧ TurnsAway t.state) ∧
      (∀ i snapshot resume, t.calls[i]? = some (.installing snapshot resume) →
        .detached snapshot ∈ (t.abandon i).calls ∧ (t.abandon i).state.inProgress = false ∧
          ∀ trigger, (t.abandon i).LetsIn trigger) ∧
      ((∃ call ∈ t.calls, call.installs = true) →
        ∀ later : List Event, (∀ e ∈ later, ∀ i home, e ≠ .endInstall i home) →
          (∃ call ∈ (t.run later).calls, call.installs = true) ∧ ∀ i, (t.run later).startInstall i = t.run later) := by
  intro t
  have sound : t.Sound := sound_run (sound_fresh catalog) events
  refine ⟨?_, ?_, ?_, ?_⟩
  · rw [sound.lock]
    exact Bool.toNat_le _
  · intro snapshot resume mem
    have taken := sound.inProgress_iff.2 ⟨_, mem, rfl⟩
    exact ⟨taken, turnsAway_of_inProgress taken⟩
  · intro i snapshot resume found
    have given : t.abandon i =
        { t with state := t.state.release, calls := t.calls.set i (.detached snapshot) } := by
      rw [abandon, found]
    rw [given]
    refine ⟨?_, rfl, letsIn_of_free rfl⟩
    exact List.mem_set (List.getElem?_eq_some_iff.1 found).1 _
  · intro running later goesOn
    have locked := locked_run (sound.locked_iff.2 running) goesOn
    refine ⟨(sound_run sound later).locked_iff.1 locked, fun i => ?_⟩
    rw [startInstall, if_pos locked]

def cutShort : List Event :=
  [.call (.pass {}), .answer 0 .count (.ok (1000 : UInt64)),
    .answer 0 .snapshot (.ok (some ⟨"snapshot", some (.database .empty)⟩)), .startInstall 0, .abandon 0]

theorem install_excludes_cutShort :
    let t := (fresh bare).run (cutShort.take 4)
    TurnsAway t.state ∧ (t.abandon 0).state.inProgress = false ∧ (t.abandon 0).LetsIn .incrementalDiff := by
  intro t
  have installing : ∃ snapshot resume, t.calls[0]? = some (.installing snapshot resume) := ⟨_, _, rfl⟩
  obtain ⟨snapshot, resume, found⟩ := installing
  obtain ⟨-, held, givenUp, -⟩ := install_excludes bare (cutShort.take 4)
  obtain ⟨-, free, letsIn⟩ := givenUp 0 snapshot resume found
  exact ⟨(held snapshot resume (List.mem_of_getElem? found)).2, free, letsIn _⟩

/-- The install of the pass that was given up is still running when the next pass has gone through. -/
theorem pass_during_install :
    let t := (fresh bare).run cutShort
    let u := t.run [.call .incrementalDiff, .answer 1 .containers (.ok [])]
    t.calls.any Call.installs = true ∧ t.state.inProgress = false ∧
      u.calls.any Call.installs = true ∧ u.outcomes = [.nothingFromAuthority] := by
  decide +kernel

end Contention

end ClusterCatalog.Sync
