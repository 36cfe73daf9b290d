import ClusterCatalog.Proofs.Sync.Install
import ClusterCatalog.Sync.Pass
/-!
A full resync whose install breaks off ends as failed, and the catalog is what it was when the snapshot
arrived. Until then reports may have come in.
-/
namespace ClusterCatalog.Sync

namespace Activity

variable {σ α β : Type}

def finish (respond : (r : Request) → σ → r.Response × σ) (x : Activity σ α) (s : σ) : α × σ :=
  Progress.complete respond (x s)

variable {respond : (r : Request) → σ → r.Response × σ} {s t : σ}

theorem finish_pure (a : α) (s : σ) : (pure a : Activity σ α).finish respond s = (a, s) := rfl

theorem finish_get (s : σ) : (get : Activity σ σ).finish respond s = (s, s) := rfl

theorem finish_modify (f : σ → σ) (s : σ) :
    (modify f : Activity σ PUnit).finish respond s = ((), f s) := rfl

theorem finish_install (snapshot : Snapshot) (s : σ) :
    (install snapshot : Activity σ _).finish respond s = respond (.install snapshot) s := rfl

theorem finish_bind {x : Activity σ α} {a : α} (h : x.finish respond s = (a, t)) (f : α → Activity σ β) :
    (x >>= f).finish respond s = (f a).finish respond t := by
  have whole : (x >>= f).finish respond s =
      (f (x.finish respond s).1).finish respond (x.finish respond s).2 :=
    Progress.complete_bind respond (x s) f
  rw [whole, h]

end Activity

open Activity

section Passes

variable {respond : (r : Request) → State → r.Response × State} {s u : State} {α : Type}

theorem finish_recorded {work : Activity State Outcome} {outcome : Outcome}
    (h : work.finish respond { s with status := s.status.started s.catalog.clock } = (outcome, u)) :
    (recorded work).finish respond s =
      (outcome, { u with status := u.status.finished u.catalog.clock outcome }) := by
  rw [recorded, finish_bind (finish_modify ..), finish_bind h, finish_bind (finish_modify ..), finish_pure]

theorem finish_guarded (free : s.guard.taken = false) {otherwise a : α} {work : Activity State α}
    (h : work.finish respond { s with guard := ⟨true⟩ } = (a, u)) :
    (guarded otherwise work).finish respond s = (a, u.release) := by
  have acquired : s.guard.acquire? = some ⟨true⟩ := by
    rw [Guard.acquire?, free]
    rfl
  rw [guarded, finish_bind (finish_get s), acquired]
  dsimp only
  rw [finish_bind (finish_modify ..), finish_bind h, finish_bind (finish_modify ..), finish_pure]

theorem finish_guarded_of_taken (taken : s.guard.taken = true) {otherwise : α} {work : Activity State α} :
    (guarded otherwise work).finish respond s = (otherwise, s) := by
  have busy : s.guard.acquire? = none := if_pos taken
  rw [guarded, finish_bind (finish_get s), busy]
  rfl

end Passes

/-- What a pass meets with: the authority's replies, and what others do while it waits for them. -/
structure Setting where
  home : String
  reply : (q : Question) → Reply q
  meanwhile : Question → Catalog → Catalog

def Setting.respond (t : Setting) : (r : Request) → State → r.Response × State
  | .ask q, s => (t.reply q, { s with catalog := t.meanwhile q s.catalog })
  | .install snapshot, s =>
    let (result, catalog) := (install t.home snapshot).run s.catalog
    (result, { s with catalog })

def Yields {α : Type} (t : Setting) (x : Activity State α) (c : Catalog) (a : α) (c' : Catalog) : Prop :=
  ∀ guard status, x.finish t.respond ⟨c, guard, status⟩ = (a, ⟨c', guard, status⟩)

variable {t : Setting} {s : State} {snapshot : Snapshot} {cause : InstallError}

section Yields

variable {α β ε : Type} {c c' c'' : Catalog}

theorem yields_pure (a : α) (c : Catalog) : Yields t (pure a) c a c := fun _ _ => rfl

theorem Yields.bind {x : Activity State α} {f : α → Activity State β} {a : α} {b : β} (first : Yields t x c a c')
    (next : Yields t (f a) c' b c'') : Yields t (x >>= f) c b c'' := fun guard status =>
  (finish_bind (first guard status) f).trans (next guard status)

theorem yields_ask (q : Question) (c : Catalog) : Yields t (ask q) c (t.reply q) (t.meanwhile q c) := fun _ _ => rfl

theorem yields_onCatalog {a : Action Catalog ε α} {result : Except ε α} (run : a.run c = (result, c')) :
    Yields t (State.onCatalog a) c result c' := fun guard status => by
  change ((a.run c).1, (⟨(a.run c).2, guard, status⟩ : State)) = _
  rw [run]

theorem yields_install {result : Except InstallError ResyncReport}
    (run : (install t.home snapshot).run c = (result, c')) : Yields t (Activity.install snapshot) c result c' :=
  fun guard status => by
    rw [finish_install, Setting.respond, run]
    rfl

end Yields

section Offered

variable {c c' : Catalog} (offered : t.reply .snapshot = .ok (some snapshot))
include offered

theorem yields_resync {result : Except InstallError ResyncReport} {outcome : Outcome}
    (run : (install t.home snapshot).run (t.meanwhile .snapshot c) = (result, c'))
    (told : outcome = match result with
      | .error e => .failed e.message
      | .ok report => .fullResync report) : Yields t resync c outcome c' := by
  have asked : Yields t (ask .snapshot) c (.ok (some snapshot)) (t.meanwhile .snapshot c) :=
    offered ▸ yields_ask .snapshot c
  refine asked.bind ((yields_install run).bind ?_)
  subst told
  cases result with
  | error e => exact yields_pure _ c'
  | ok report => exact yields_pure _ c'

theorem yields_of_breaks (breaks : Breaks (t.meanwhile .snapshot c) snapshot cause) :
    Yields t resync c (.failed cause.message) (t.meanwhile .snapshot c) :=
  yields_resync offered (breaks.run_install t.home) rfl

theorem yields_of_installed {report : ResyncReport}
    (installed : (install t.home snapshot).run (t.meanwhile .snapshot c) = (.ok report, c')) :
    Yields t resync c (.fullResync report) c' :=
  yields_resync offered installed rfl

end Offered

def State.ended (s : State) (c : Catalog) (began : Millis) (outcome : Outcome) : State where
  catalog := c
  guard := {}
  status := (s.status.started began).finished c.clock outcome

def State.failed (s : State) (c : Catalog) (began : Millis) (reason : String) : State :=
  s.ended c began (.failed reason)

section Ended

variable {work : Activity State Outcome} {c' : Catalog} {outcome : Outcome}

theorem Yields.finish_recorded (yields : Yields t work s.catalog outcome c') :
    (recorded work).finish t.respond s =
      (outcome, { s.ended c' s.catalog.clock outcome with guard := s.guard }) :=
  Sync.finish_recorded (yields s.guard (s.status.started s.catalog.clock))

theorem Yields.finish_guarded (free : s.guard.taken = false) (yields : Yields t work s.catalog outcome c') :
    (guarded .skipped (recorded work)).finish t.respond s = (outcome, s.ended c' s.catalog.clock outcome) :=
  Sync.finish_guarded free (Yields.finish_recorded (s := { s with guard := ⟨true⟩ }) yields)

end Ended

section Diverged

variable {settings : Settings} {count : UInt64}

theorem yields_needsResync (settings : Settings) {c : Catalog} (counted : t.reply .count = .ok count) :
    Yields t (needsResync settings) c (.ok (diverged (UInt64.ofNat c.directory.size) count
      settings.containerThreshold && settings.snapshotSync)) (t.meanwhile .count c) := fun guard status => by
  have asked : Yields t (ask .count) c (.ok count) (t.meanwhile .count c) := counted ▸ yields_ask .count c
  rw [needsResync, finish_bind (finish_get _), finish_bind (asked guard status)]
  rfl

structure CallsForResync (t : Setting) (s : State) (settings : Settings) (count : UInt64) : Prop where
  counted : t.reply .count = .ok count
  diverged : diverged (UInt64.ofNat s.catalog.directory.size) count settings.containerThreshold = true
  enabled : settings.snapshotSync = true

theorem CallsForResync.yields (needs : CallsForResync t s settings count) :
    Yields t (needsResync settings) s.catalog (.ok true) (t.meanwhile .count s.catalog) := by
  have yields := yields_needsResync settings (c := s.catalog) needs.counted
  rwa [needs.diverged, needs.enabled, Bool.and_self] at yields

/-- A pass of the timer is a resync or a diff, as the counts say. -/
theorem finish_pass_of_yields (full : Bool) {outcome : Outcome} {c' : Catalog} (free : s.guard.taken = false)
    (counted : t.reply .count = .ok count)
    (choice : (diverged (UInt64.ofNat s.catalog.directory.size) count settings.containerThreshold &&
      settings.snapshotSync) = full)
    (yields : Yields t (if full then resync else diff) (t.meanwhile .count s.catalog) outcome c') :
    (pass settings).finish t.respond s = (outcome, s.ended c' s.catalog.clock outcome) := by
  have asked := yields_needsResync settings (c := s.catalog) counted
  rw [choice] at asked
  refine Yields.finish_guarded free (asked.bind ?_)
  cases full with
  | true => exact yields
  | false => exact yields

variable (free : s.guard.taken = false) (needs : CallsForResync t s settings count) {c' : Catalog}
include free needs

theorem Yields.finish_pass {outcome : Outcome} (yields : Yields t resync (t.meanwhile .count s.catalog) outcome c') :
    (pass settings).finish t.respond s = (outcome, s.ended c' s.catalog.clock outcome) :=
  finish_pass_of_yields true free needs.counted (by rw [needs.diverged, needs.enabled, Bool.and_self]) yields

theorem Yields.finish_startup_failed {reason : String}
    (yields : Yields t resync (t.meanwhile .count s.catalog) (.failed reason) c') :
    (startup settings).finish t.respond s = (.error ("startup resync failed: " ++ reason),
      s.ended c' (t.meanwhile .count s.catalog).clock (.failed reason)) := by
  let began := (t.meanwhile .count s.catalog).clock
  refine Sync.finish_guarded (u := { s.ended c' began (.failed reason) with guard := ⟨true⟩ }) free ?_
  rw [finish_bind (needs.yields ⟨true⟩ s.status)]
  dsimp only
  rw [finish_bind (yields.finish_recorded (s := ⟨_, ⟨true⟩, s.status⟩))]
  rfl

theorem Yields.finish_startup {report : ResyncReport}
    (yields : Yields t resync (t.meanwhile .count s.catalog) (.fullResync report) c') :
    (startup settings).finish t.respond s =
      (.ok (), s.ended c' (t.meanwhile .count s.catalog).clock (.fullResync report)) := by
  let began := (t.meanwhile .count s.catalog).clock
  refine Sync.finish_guarded (u := { s.ended c' began (.fullResync report) with guard := ⟨true⟩ }) free ?_
  rw [finish_bind (needs.yields ⟨true⟩ s.status)]
  dsimp only
  rw [finish_bind (yields.finish_recorded (s := ⟨_, ⟨true⟩, s.status⟩))]
  rfl

end Diverged

theorem finish_fullResync (free : s.guard.taken = false) (offered : t.reply .snapshot = .ok (some snapshot))
    (breaks : Breaks (t.meanwhile .snapshot s.catalog) snapshot cause) :
    fullResync.finish t.respond s =
      (.failed cause.message, s.failed (t.meanwhile .snapshot s.catalog) s.catalog.clock cause.message) :=
  (yields_of_breaks offered breaks).finish_guarded free

section Broken

variable {settings : Settings} {count : UInt64} (free : s.guard.taken = false)
  (needs : CallsForResync t s settings count) (offered : t.reply .snapshot = .ok (some snapshot))
  (breaks : Breaks (t.meanwhile .snapshot (t.meanwhile .count s.catalog)) snapshot cause)
include free needs offered breaks

theorem finish_pass : (pass settings).finish t.respond s = (.failed cause.message,
    s.failed (t.meanwhile .snapshot (t.meanwhile .count s.catalog)) s.catalog.clock cause.message) :=
  Yields.finish_pass free needs (yields_of_breaks offered breaks)

theorem finish_startup : (startup settings).finish t.respond s =
    (.error ("startup resync failed: " ++ cause.message),
      s.failed (t.meanwhile .snapshot (t.meanwhile .count s.catalog)) (t.meanwhile .count s.catalog).clock
        cause.message) :=
  Yields.finish_startup_failed free needs (yields_of_breaks offered breaks)

end Broken

structure Untouched (c : Catalog) (snapshot : Snapshot) (cause : InstallError) (s : State) : Prop where
  /-- All that is in memory, the live store with its rows, and the store directories. -/
  catalog : s.catalog = c
  guard : s.guard.taken = false
  outcome : s.status.lastOutcome? = some (.failed cause.message)
  staged {name : String} {disk : Layout StoreFile} (h : c.disk.stage c.clock snapshot.file? = .ok (name, disk)) :
    disk.exists? name = true ∧ s.catalog.disk.exists? name = false

theorem untouched_failed (s : State) (c : Catalog) (snapshot : Snapshot) (cause : InstallError) (began : Millis) :
    Untouched c snapshot cause (s.failed c began cause.message) where
  catalog := rfl
  guard := rfl
  outcome := rfl
  staged h := by
    obtain ⟨named, content, -, rfl⟩ := Layout.stage_eq_ok h
    exact ⟨by simp [Layout.exists?, Layout.put], Layout.exists?_of_fresh named⟩

/-- Wherever the install of a full resync breaks off, be it asked for, made by a pass or at startup: it
ends as failed, and the catalog is what it was when the snapshot arrived. -/
theorem untouched_of_breaks {c : Catalog} (free : s.guard.taken = false)
    (offered : t.reply .snapshot = .ok (some snapshot)) (breaks : Breaks c snapshot cause) :
    (t.meanwhile .snapshot s.catalog = c →
      ∃ s', fullResync.finish t.respond s = (.failed cause.message, s') ∧ Untouched c snapshot cause s') ∧
    ∀ settings count, CallsForResync t s settings count →
      t.meanwhile .snapshot (t.meanwhile .count s.catalog) = c →
        (∃ s', (pass settings).finish t.respond s = (.failed cause.message, s') ∧
          Untouched c snapshot cause s') ∧
        ∃ s', (startup settings).finish t.respond s = (.error ("startup resync failed: " ++ cause.message), s') ∧
          Untouched c snapshot cause s' := by
  constructor
  · rintro rfl
    exact ⟨_, finish_fullResync free offered breaks, untouched_failed ..⟩
  · rintro settings count needs rfl
    exact ⟨⟨_, finish_pass free needs offered breaks, untouched_failed ..⟩,
      _, finish_startup free needs offered breaks, untouched_failed ..⟩

section Ruined

def ruinedState : State where
  catalog :=
    { clock := 5
      directory.containers := (∅ : Std.ExtTreeMap ContainerId Container).insert ⟨1⟩ ⟨.fresh 3 ⟨1⟩ .closing none, ∅⟩
      live := ⟨"scm-1", .empty⟩
      disk := Layout.put {} "scm-1" (.database .empty) }

def ruinedSnapshot : Snapshot where
  path := "snapshot"
  file? := some (.database (Database.empty.setTable .pipelines (.rows ((∅ : Rows).insert [1] []))))

def ruinedSetting : Setting where
  home := "stores"
  reply
    | .count => .ok (1000 : UInt64)
    | .snapshot => .ok (some ruinedSnapshot)
    | _ => .error .brokenBody
  meanwhile _ c := c

theorem untouched_of_breaks_ruined :
    ruinedState.guard.taken = false ∧ Breaks ruinedState.catalog ruinedSnapshot (.store (.badKey .pipelines)) ∧
    (∃ s', fullResync.finish ruinedSetting.respond ruinedState = (.failed "malformed key in table pipelines", s') ∧
      Untouched ruinedState.catalog ruinedSnapshot (.store (.badKey .pipelines)) s') ∧
    ∃ s', (pass {}).finish ruinedSetting.respond ruinedState = (.failed "malformed key in table pipelines", s') ∧
      Untouched ruinedState.catalog ruinedSnapshot (.store (.badKey .pipelines)) s' := by
  have breaks : Breaks ruinedState.catalog ruinedSnapshot (.store (.badKey .pipelines)) := by
    cases staged : ruinedState.catalog.disk.stage ruinedState.catalog.clock ruinedSnapshot.file? with
    | error e =>
      have stages : (ruinedState.catalog.disk.stage ruinedState.catalog.clock ruinedSnapshot.file?).isOk := by
        decide +kernel
      rw [staged] at stages
      cases stages
    | ok r => exact .staged staged (.reading rfl (.pipelines rfl rfl rfl))
  have needs : CallsForResync ruinedSetting ruinedState {} 1000 := ⟨rfl, by decide +kernel, rfl⟩
  obtain ⟨asked, timed⟩ := untouched_of_breaks (t := ruinedSetting) (s := ruinedState) rfl rfl breaks
  exact ⟨rfl, breaks, asked rfl, (timed {} 1000 needs rfl).1⟩

end Ruined

end ClusterCatalog.Sync
