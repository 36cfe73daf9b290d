import Mathlib.Data.List.Perm.Basic
import ClusterCatalog.Proofs.Sync.Trigger
/-!
Calls that want the guard, in any order: they wait, go on, end and are given up, while operations are made
and while installs take their time, one after another.
-/
namespace ClusterCatalog.Sync

inductive Contention.Call where
  | asking (q : Question) (resume : Reply q → Activity State (Option Outcome))
  | queued (snapshot : Snapshot) (resume : Except InstallError ResyncReport → Activity State (Option Outcome))
  | installing (snapshot : Snapshot) (resume : Except InstallError ResyncReport → Activity State (Option Outcome))
  | installed (go : Activity State (Option Outcome))
  /-- It was given up during its install, which goes on by itself. -/
  | detached (snapshot : Snapshot)

structure Contention where
  state : State
  locked : Bool := false
  calls : List Contention.Call := []
  outcomes : List Outcome := []

namespace Contention

namespace Call

def past : Call → Bool
  | detached _ => false
  | _ => true

def installs : Call → Bool
  | installing .. | detached _ => true
  | _ => false

end Call

inductive Event where
  | operate (op : Operation)
  | call (trigger : Trigger)
  | answer (i : Nat) (q : Question) (reply : Reply q)
  | startInstall (i : Nat)
  | endInstall (i : Nat) (home : String)
  | resume (i : Nat)
  /-- A call is given up, or breaks off; an install of it that is running goes on. -/
  | abandon (i : Nat)

def proceed (t : Contention) : Progress State (Option Outcome) → Contention
  | .finished outcome? s => { t with state := s, outcomes := t.outcomes ++ outcome?.toList }
  | .waiting (.ask q) s resume => { t with state := s, calls := t.calls ++ [.asking q resume] }
  | .waiting (.install snapshot) s resume => { t with state := s, calls := t.calls ++ [.queued snapshot resume] }

def operate (t : Contention) (op : Operation) : Contention :=
  { t with state := { t.state with catalog := op.perform t.state.catalog } }

def call (t : Contention) (trigger : Trigger) : Contention := t.proceed (trigger.run t.state)

def answer (t : Contention) (i : Nat) (q : Question) (reply : Reply q) : Contention :=
  match t.calls[i]? with
  | some (.asking asked resume) =>
    if same : q = asked then
      proceed { t with calls := t.calls.eraseIdx i } (resume (same ▸ reply) t.state)
    else t
  | _ => t

def startInstall (t : Contention) (i : Nat) : Contention :=
  if t.locked then t
  else match t.calls[i]? with
    | some (.queued snapshot resume) =>
      { t with locked := true, calls := t.calls.set i (.installing snapshot resume) }
    | _ => t

def endInstall (t : Contention) (i : Nat) (home : String) : Contention :=
  match t.calls[i]? with
  | some (.installing snapshot resume) =>
    let (result, catalog) := (Sync.install home snapshot).run t.state.catalog
    { t with
      state := { t.state with catalog }
      locked := false
      calls := t.calls.set i (.installed (resume result)) }
  | some (.detached snapshot) =>
    { t with
      state := { t.state with catalog := ((Sync.install home snapshot).run t.state.catalog).2 }
      locked := false
      calls := t.calls.eraseIdx i }
  | _ => t

def resume (t : Contention) (i : Nat) : Contention :=
  match t.calls[i]? with
  | some (.installed go) => proceed { t with calls := t.calls.eraseIdx i } (go t.state)
  | _ => t

def abandon (t : Contention) (i : Nat) : Contention :=
  match t.calls[i]? with
  | some (.asking ..) | some (.queued ..) | some (.installed _) =>
    { t with state := t.state.release, calls := t.calls.eraseIdx i }
  | some (.installing snapshot _) => { t with state := t.state.release, calls := t.calls.set i (.detached snapshot) }
  | some (.detached _) | none => t

def step (t : Contention) : Event → Contention
  | .operate op => t.operate op
  | .call trigger => t.call trigger
  | .answer i q reply => t.answer i q reply
  | .startInstall i => t.startInstall i
  | .endInstall i home => t.endInstall i home
  | .resume i => t.resume i
  | .abandon i => t.abandon i

def run (t : Contention) (events : List Event) : Contention := events.foldl step t

def tally (outcomes : List Outcome) : Nat × Option Outcome :=
  ((outcomes.filter (· ≠ .skipped)).length, (outcomes.filter (· ≠ .skipped)).getLast?)

theorem tally_append {outcome? : Option Outcome} (real : outcome? ≠ some .skipped) (outcomes : List Outcome) :
    tally (outcomes ++ outcome?.toList) = book (tally outcomes) outcome? := by
  cases outcome? with
  | none => simp [book]
  | some outcome =>
    have real : outcome ≠ .skipped := fun h => real (h ▸ rfl)
    simp [tally, book, real]

theorem tally_skipped (outcomes : List Outcome) (trigger : Trigger) :
    tally (outcomes ++ trigger.skipped?.toList) = tally outcomes := by
  cases trigger <;> simp [tally, Trigger.skipped?]

def Call.Sound : Call → Prop
  | asking _ resume => ∀ reply s, s.guard.taken = true → (resume reply s).Books false s.status.books
  | queued _ resume | installing _ resume =>
    ∀ result s, s.guard.taken = true → (resume result s).Books false s.status.books
  | installed go => ∀ s, s.guard.taken = true → (go s).Books false s.status.books
  | detached _ => True

structure Accounted (t : Contention) (past : Nat) : Prop where
  past : t.calls.countP Call.past = past
  lock : t.calls.countP Call.installs = t.locked.toNat
  calls : ∀ call ∈ t.calls, call.Sound
  books : t.state.status.books = tally t.outcomes

def Sound (t : Contention) : Prop := t.Accounted t.state.guard.taken.toNat

section Counting

variable {calls : List Call} {i : Nat} {call : Call}

theorem countP_of_getElem? (found : calls[i]? = some call) (p : Call → Bool) :
    calls.countP p = (calls.eraseIdx i).countP p + (p call).toNat := by
  obtain ⟨lt, rfl⟩ := List.getElem?_eq_some_iff.1 found
  rw [← List.Perm.countP_eq p (List.getElem_cons_eraseIdx_perm lt), List.countP_cons]
  cases p calls[i] <;> rfl

theorem countP_set (found : calls[i]? = some call) (p : Call → Bool) (next : Call) :
    (calls.set i next).countP p = (calls.eraseIdx i).countP p + (p next).toNat := by
  obtain ⟨lt, -⟩ := List.getElem?_eq_some_iff.1 found
  rw [List.Perm.countP_eq p (List.set_perm_cons_eraseIdx lt next), List.countP_cons]
  cases p next <;> rfl

end Counting

variable {t : Contention} {i : Nat} {call : Call}

/-- Who is past the guard is the only one, and has taken it. -/
theorem Sound.holds (sound : t.Sound) (found : t.calls[i]? = some call) (past : call.past = true) :
    t.state.guard.taken = true ∧ (t.calls.eraseIdx i).countP Call.past = 0 := by
  have count := sound.past
  rw [countP_of_getElem? found, past] at count
  cases taken : t.state.guard.taken with
  | false => simp [taken] at count
  | true => exact ⟨rfl, by simpa [taken] using count⟩

theorem Sound.locks (sound : t.Sound) (found : t.calls[i]? = some call) (installs : call.installs = true) :
    t.locked = true := by
  have count := sound.lock
  rw [countP_of_getElem? found, installs] at count
  cases locked : t.locked with
  | false => simp [locked] at count
  | true => rfl

/-- A call comes to another stage, and the guard and the lock change with it. -/
theorem Sound.replace (sound : t.Sound) (found : t.calls[i]? = some call) {next : Call} (ok : next.Sound)
    {s : State} {locked : Bool} (books : s.status.books = t.state.status.books)
    (past : s.guard.taken.toNat + call.past.toNat = t.state.guard.taken.toNat + next.past.toNat)
    (installs : locked.toNat + call.installs.toNat = t.locked.toNat + next.installs.toNat) :
    ({ t with state := s, locked, calls := t.calls.set i next } : Contention).Sound where
  past := by
    have count := sound.past
    rw [countP_of_getElem? found] at count
    change (t.calls.set i next).countP Call.past = s.guard.taken.toNat
    rw [countP_set found]
    omega
  lock := by
    have count := sound.lock
    rw [countP_of_getElem? found] at count
    change (t.calls.set i next).countP Call.installs = locked.toNat
    rw [countP_set found]
    omega
  calls other mem := by
    obtain mem | rfl := List.mem_or_eq_of_mem_set mem
    · exact sound.calls other mem
    · exact ok
  books := books.trans sound.books

/-- Without the only call past the guard nobody is past it. -/
theorem Sound.withdraw (sound : t.Sound) (found : t.calls[i]? = some call) (past : call.past = true)
    (idle : call.installs = false) : ({ t with calls := t.calls.eraseIdx i } : Contention).Accounted 0 where
  past := (sound.holds found past).2
  lock := by
    have count := sound.lock
    rwa [countP_of_getElem? found, idle] at count
  calls other mem := sound.calls other (List.mem_of_mem_eraseIdx mem)
  books := sound.books

/-- Where nobody is past the guard it may as well be free. -/
theorem Accounted.release (vacant : t.Accounted 0) : ({ t with state := t.state.release } : Contention).Sound :=
  ⟨vacant.past, vacant.lock, vacant.calls, vacant.books⟩

/-- Who has taken the guard waits with it. -/
theorem Accounted.wait (vacant : t.Accounted 0) {s : State} (held : s.guard.taken = true)
    (books : s.status.books = t.state.status.books) {call : Call} (sound : call.Sound) (past : call.past = true)
    (idle : call.installs = false) : ({ t with state := s, calls := t.calls ++ [call] } : Contention).Sound where
  past := by simp [List.countP_append, vacant.past, past, held]
  lock := by simpa [List.countP_append, idle] using vacant.lock
  calls other mem := by
    obtain mem | rfl := List.mem_append.1 mem |>.imp_right List.mem_singleton.1
    · exact vacant.calls other mem
    · exact sound
  books := books.trans vacant.books

/-- The only call past the guard goes on. -/
theorem Accounted.proceed (vacant : t.Accounted 0) {p : Progress State (Option Outcome)}
    (h : p.Books false t.state.status.books) : (t.proceed p).Sound := by
  match p, h with
  | .finished outcome? s, ⟨free, booked, real⟩ =>
    refine ⟨?_, vacant.lock, vacant.calls, ?_⟩
    · change t.calls.countP Call.past = s.guard.taken.toNat
      rw [free]
      exact vacant.past
    · change s.status.books = tally (t.outcomes ++ outcome?.toList)
      rw [tally_append real, ← vacant.books, booked]
  | .waiting (.ask q) s resume, ⟨held, books, rest⟩ => exact vacant.wait held books rest rfl rfl
  | .waiting (.install snapshot) s resume, ⟨held, books, rest⟩ => exact vacant.wait held books rest rfl rfl

theorem sound_operate (sound : t.Sound) (op : Operation) : (t.operate op).Sound :=
  ⟨sound.past, sound.lock, sound.calls, sound.books⟩

/-- A call that is skipped changes nothing. -/
theorem call_of_taken (taken : t.state.guard.taken = true) (trigger : Trigger) :
    t.call trigger = { t with outcomes := t.outcomes ++ trigger.skipped?.toList } := by
  rw [call, Trigger.run_of_taken taken, proceed]

theorem sound_call (sound : t.Sound) (trigger : Trigger) : (t.call trigger).Sound := by
  cases guard : t.state.guard.taken with
  | true =>
    rw [call_of_taken guard]
    exact ⟨sound.past, sound.lock, sound.calls, sound.books.trans (tally_skipped ..).symm⟩
  | false =>
    have vacant : t.Accounted 0 := by simpa [Sound, guard] using sound
    exact vacant.proceed (Trigger.run_of_free guard trigger).1

theorem sound_answer (sound : t.Sound) (i : Nat) (q : Question) (reply : Reply q) : (t.answer i q reply).Sound := by
  unfold answer
  split
  · next asked resume found =>
    split
    · next same =>
      subst same
      have rest : (Call.asking q resume).Sound := sound.calls _ (List.mem_of_getElem? found)
      exact (sound.withdraw found rfl rfl).proceed (rest reply t.state (sound.holds found rfl).1)
    · exact sound
  · exact sound

theorem sound_startInstall (sound : t.Sound) (i : Nat) : (t.startInstall i).Sound := by
  unfold startInstall
  split
  · exact sound
  · next free =>
    rw [Bool.not_eq_true] at free
    split
    · next snapshot resume found =>
      have rest : (Call.queued snapshot resume).Sound := sound.calls _ (List.mem_of_getElem? found)
      have ok : (Call.installing snapshot resume).Sound := rest
      exact sound.replace found ok rfl rfl (by simp [Call.installs, free])
    · exact sound

theorem sound_endInstall (sound : t.Sound) (i : Nat) (home : String) : (t.endInstall i home).Sound := by
  unfold endInstall
  split
  · next snapshot resume found =>
    have rest : (Call.installing snapshot resume).Sound := sound.calls _ (List.mem_of_getElem? found)
    have ok : (Call.installed (resume ((Sync.install home snapshot).run t.state.catalog).1)).Sound := rest _
    exact sound.replace found ok rfl rfl (by simp [Call.installs, sound.locks found rfl])
  · next snapshot found =>
    have locked := sound.locks found rfl
    have past := sound.past
    have lock := sound.lock
    rw [countP_of_getElem? found] at past lock
    refine ⟨past, ?_, fun other mem => sound.calls other (List.mem_of_mem_eraseIdx mem), sound.books⟩
    simpa [Call.installs, locked] using lock
  · exact sound

theorem sound_resume (sound : t.Sound) (i : Nat) : (t.resume i).Sound := by
  unfold resume
  split
  · next go found =>
    have rest : (Call.installed go).Sound := sound.calls _ (List.mem_of_getElem? found)
    exact (sound.withdraw found rfl rfl).proceed (rest t.state (sound.holds found rfl).1)
  · exact sound

/-- Whoever is given up gives the guard back, but not the lock. -/
theorem sound_abandon (sound : t.Sound) (i : Nat) : (t.abandon i).Sound := by
  unfold abandon
  split
  · next found => exact (sound.withdraw found rfl rfl).release
  · next found => exact (sound.withdraw found rfl rfl).release
  · next found => exact (sound.withdraw found rfl rfl).release
  · next snapshot resume found =>
    have ok : (Call.detached snapshot).Sound := trivial
    refine sound.replace found ok rfl ?_ rfl
    rw [(sound.holds found rfl).1]
    rfl
  · exact sound
  · exact sound

theorem sound_step (sound : t.Sound) (e : Event) : (t.step e).Sound := by
  cases e with
  | operate op => exact sound_operate sound op
  | call trigger => exact sound_call sound trigger
  | answer i q reply => exact sound_answer sound i q reply
  | startInstall i => exact sound_startInstall sound i
  | endInstall i home => exact sound_endInstall sound i home
  | resume i => exact sound_resume sound i
  | abandon i => exact sound_abandon sound i

theorem sound_run (sound : t.Sound) (events : List Event) : (t.run events).Sound := by
  induction events generalizing t with
  | nil => exact sound
  | cons e events ih => exact ih (sound_step sound e)

def fresh (catalog : Catalog) : Contention := { state := ⟨catalog, {}, {}⟩ }

theorem sound_fresh (catalog : Catalog) : (fresh catalog).Sound := ⟨rfl, rfl, nofun, rfl⟩

end Contention

end ClusterCatalog.Sync
