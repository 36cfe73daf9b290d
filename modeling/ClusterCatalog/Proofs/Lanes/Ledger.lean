import Mathlib.Data.List.Range
import Mathlib.Data.List.Nodup
import ClusterCatalog.Proofs.Lanes.Open
/-!
A ledger of lanes numbers the jobs that are accepted, and it writes down which of them begin and which
end. On every lane the jobs that have begun and then those that wait are the accepted ones, in order.
-/
namespace ClusterCatalog

variable {J K : Type}

def Running.map (f : J → K) (r : Running J) : Running K := ⟨f r.job, r.since, r.overdue⟩

namespace Lane

def map (f : J → K) (l : Lane J) : Lane K := ⟨l.queue.map f, l.running?.map (Running.map f)⟩

theorem map_push (f : J → K) (l : Lane J) (job : J) : (l.push job).map f = (l.map f).push (f job) := by
  simp [map, push]

theorem map_take (f : J → K) (now : Nat) (l : Lane J) : (l.take now).map f = (l.map f).take now := by
  obtain ⟨queue, running?⟩ := l
  cases running? with
  | some r => cases queue <;> rfl
  | none => cases queue <;> rfl

structure Fits (l : Lane J) (accepted begun ended : List J) : Prop where
  accepted : accepted = begun ++ l.queue
  begun : begun = ended ++ (l.running?.map Running.job).toList

theorem fits_empty : ({} : Lane J).Fits [] [] [] := ⟨rfl, rfl⟩

variable {l : Lane J} {accepted begun ended : List J}

theorem Fits.push (h : l.Fits accepted begun ended) (job : J) :
    (l.push job).Fits (accepted ++ [job]) begun ended where
  accepted := by rw [h.accepted, List.append_assoc]; rfl
  begun := h.begun

theorem Fits.begin {job : J} {rest : List J} (h : (⟨job :: rest, none⟩ : Lane J).Fits accepted begun ended)
    (now : Nat) : (⟨rest, some ⟨job, now, false⟩⟩ : Lane J).Fits accepted (begun ++ [job]) ended where
  accepted := by rw [h.accepted, List.append_assoc]; rfl
  begun := by rw [h.begun]; simp

theorem Fits.finish (h : l.Fits accepted begun ended) :
    ({ l with running? := none } : Lane J).Fits accepted begun
      (ended ++ (l.running?.map Running.job).toList) where
  accepted := h.accepted
  begun := by rw [h.begun]; simp

end Lane

namespace Lanes

def map (f : J → K) (p : Lanes J) : Lanes K :=
  { name := p.name, depth := p.depth, lanes := p.lanes.map (Lane.map f), pins := p.pins, phase := p.phase,
    counts := p.counts }

section Map

variable (f : J → K)

theorem map_create (name : String) (lanes depth : Nat) :
    (create name lanes depth : Lanes J).map f = create name lanes depth := by
  unfold map create
  dsimp only
  rw [List.map_replicate]
  rfl

theorem route_map (node : NodeId) (p : Lanes J) :
    (p.map f).route node = ((p.route node).1, (p.route node).2.map f) := by
  have length : (p.map f).lanes.length = p.lanes.length := List.length_map _
  have pins : (p.map f).pins = p.pins := rfl
  unfold route
  rw [length, pins]
  cases p.pins[node]? <;> rfl

theorem waitingIn_map (p : Lanes J) (lane : Nat) : (p.map f).waitingIn lane = p.waitingIn lane := by
  unfold waitingIn map
  dsimp only
  rw [List.getElem?_map]
  cases p.lanes[lane]? with
  | none => rfl
  | some l => exact List.length_map _

theorem runningIn?_map (p : Lanes J) (lane : Nat) :
    (p.map f).runningIn? lane = (p.runningIn? lane).map (Running.map f) := by
  unfold runningIn? map
  dsimp only
  rw [List.getElem?_map]
  cases p.lanes[lane]? <;> rfl

theorem map_modify (g : Lane J → Lane J) (g' : Lane K → Lane K)
    (h : ∀ l, (g l).map f = g' (l.map f)) (lanes : List (Lane J)) (lane : Nat) :
    (lanes.modify lane g).map (Lane.map f) = (lanes.map (Lane.map f)).modify lane g' := by
  refine List.ext_getElem? fun i => ?_
  by_cases same : lane = i
  · subst same
    cases found : lanes[lane]? <;> simp [found, h]
  · simp [same]

theorem submit_map (node : NodeId) (job : J) (p : Lanes J) :
    (p.map f).submit node (f job) = ((p.submit node job).1, (p.submit node job).2.map f) := by
  unfold submit
  rw [route_map]
  obtain ⟨lane, p⟩ := p.route node
  have closed : (p.map f).isClosed = p.isClosed := rfl
  have depth : (p.map f).depth = p.depth := rfl
  dsimp only
  rw [closed, depth, waitingIn_map]
  split
  · rfl
  · split
    · rfl
    · unfold map
      rw [map_modify f (·.push job) (·.push (f job)) fun l => l.map_push f job]

theorem start_map (p : Lanes J) : (p.map f).start = p.start.map f := by
  unfold start map
  dsimp only
  split <;> rfl

theorem take_map (now lane : Nat) (p : Lanes J) : (p.map f).take now lane = (p.take now lane).map f := by
  have works : (p.map f).works = p.works := rfl
  unfold take
  rw [works]
  split
  · unfold map
    rw [map_modify f (Lane.take now) (Lane.take now) fun l => l.map_take f now]
  · rfl

theorem overrun_map (lane : Nat) (p : Lanes J) : (p.map f).overrun lane = (p.overrun lane).map f := by
  unfold overrun
  rw [runningIn?_map]
  rcases p.runningIn? lane with - | ⟨job, since, - | -⟩
  · rfl
  · unfold map
    dsimp only
    rw [map_modify f (fun l => { l with running? := some ⟨job, since, true⟩ })
      (fun l => { l with running? := some ⟨f job, since, true⟩ }) fun _ => rfl]
    rfl
  · rfl

theorem finish_map (lane : Nat) (succeeds : Bool) (p : Lanes J) :
    (p.map f).finish lane succeeds = (p.finish lane succeeds).map f := by
  unfold finish
  rw [runningIn?_map]
  cases p.runningIn? lane with
  | none => rfl
  | some r =>
    unfold map
    dsimp only [Option.map_some]
    rw [map_modify f (fun l => { l with running? := none }) (fun l => { l with running? := none }) fun _ => rfl]

end Map

end Lanes

structure Ticket (J : Type) where
  node : NodeId
  number : Nat
  job : J

/-- Lanes, and the jobs on them that were accepted, have begun and have ended, each with its lane. -/
structure Ledger (J : Type) where
  lanes : Lanes (Ticket J)
  accepted : List (Nat × Ticket J) := []
  begun : List (Nat × Ticket J) := []
  ended : List (Nat × Ticket J) := []

namespace Ledger

def on (lane : Nat) (log : List (Nat × J)) : List J :=
  (log.filter fun entry => entry.1 == lane).map Prod.snd

def ofNode (node : NodeId) (log : List (Nat × Ticket J)) : List (Ticket J) :=
  (log.map Prod.snd).filter fun t => t.node == node

def running (p : Lanes J) (lane : Nat) : List J := ((p.runningIn? lane).map Running.job).toList

def record (l : Ledger J) : Lanes.Act J → Ledger J
  | .route node => { l with lanes := (l.lanes.route node).2 }
  | .submit node job =>
    let ticket := ⟨node, l.accepted.length, job⟩
    match l.lanes.submit node ticket with
    | (.ok lane, lanes) => { l with lanes, accepted := l.accepted ++ [(lane, ticket)] }
    | (.error _, lanes) => { l with lanes }
  | .start => { l with lanes := l.lanes.start }
  | .take now lane =>
    let lanes := l.lanes.take now lane
    match l.lanes.runningIn? lane, lanes.runningIn? lane with
    | none, some r => { l with lanes, begun := l.begun ++ [(lane, r.job)] }
    | _, _ => { l with lanes }
  | .overrun lane => { l with lanes := l.lanes.overrun lane }
  | .finish lane ending =>
    let lanes := l.lanes.finish lane ending.isSuccess
    match l.lanes.runningIn? lane with
    | some r => { l with lanes, ended := l.ended ++ [(lane, r.job)] }
    | none => { l with lanes }

def run (l : Ledger J) (acts : List (Lanes.Act J)) : Ledger J := acts.foldl record l

theorem lanes_record (l : Ledger J) (a : Lanes.Act J) :
    (l.record a).lanes.map Ticket.job = (l.lanes.map Ticket.job).act a := by
  cases a with
  | route node => exact congrArg Prod.snd (Lanes.route_map Ticket.job node l.lanes).symm
  | submit node job =>
    have same := Lanes.submit_map Ticket.job node ⟨node, l.accepted.length, job⟩ l.lanes
    refine Eq.trans ?_ (congrArg Prod.snd same).symm
    unfold record
    dsimp only
    split
    case h_1 accepted => rw [accepted]
    case h_2 refused => rw [refused]
  | start => exact (Lanes.start_map Ticket.job l.lanes).symm
  | take now lane =>
    unfold record Lanes.act
    dsimp only
    rw [Lanes.take_map]
    split <;> rfl
  | overrun lane => exact (Lanes.overrun_map Ticket.job lane l.lanes).symm
  | finish lane ending =>
    unfold record Lanes.act
    dsimp only
    rw [Lanes.finish_map]
    split <;> rfl

theorem lanes_run (l : Ledger J) (acts : List (Lanes.Act J)) :
    (l.run acts).lanes.map Ticket.job = (l.lanes.map Ticket.job).run acts := by
  induction acts generalizing l with
  | nil => rfl
  | cons a rest ih =>
    have rested := ih (l.record a)
    rw [lanes_record] at rested
    exact rested

theorem on_append (lane : Nat) (log more : List (Nat × J)) : on lane (log ++ more) = on lane log ++ on lane more := by
  simp [on]

theorem on_self (lane : Nat) (job : J) : on lane [(lane, job)] = [job] := by simp [on]

theorem on_of_ne {lane i : Nat} (apart : lane ≠ i) (job : J) : on i [(lane, job)] = [] := by simp [on, apart]

theorem mem_on {lane : Nat} {job : J} {log : List (Nat × J)} : job ∈ on lane log ↔ (lane, job) ∈ log := by
  simp [on]

theorem nodup_of_on {log : List (Nat × J)} (once : ∀ lane, (on lane log).Nodup) : log.Nodup := by
  induction log with
  | nil => exact List.nodup_nil
  | cons entry log ih =>
    obtain ⟨lane, job⟩ := entry
    have front (i : Nat) : on i ((lane, job) :: log) = on i [(lane, job)] ++ on i log := on_append i [(lane, job)] log
    refine List.nodup_cons.2 ⟨?_, ih fun i => ?_⟩
    · intro again
      have twice := once lane
      rw [front, on_self] at twice
      exact (List.nodup_cons.1 twice).1 (mem_on.2 again)
    · have whole := once i
      rw [front] at whole
      exact whole.of_append_right

/-- Where the jobs of a node are all on one lane, they are among those of the lane. -/
theorem ofNode_eq {node : NodeId} {lane : Nat} {log : List (Nat × Ticket J)}
    (home : ∀ entry ∈ log, entry.2.node = node → entry.1 = lane) :
    ofNode node log = (on lane log).filter fun t => t.node == node := by
  induction log with
  | nil => rfl
  | cons entry log ih =>
    obtain ⟨i, t⟩ := entry
    have rest := ih fun entry member => home entry (List.mem_cons_of_mem _ member)
    unfold ofNode on at rest ⊢
    by_cases mine : t.node = node
    · obtain rfl : i = lane := home (i, t) List.mem_cons_self mine
      simp [mine, rest]
    · by_cases here : i = lane <;> simp [mine, here, rest]

structure Sound (l : Ledger J) (depth : Nat) : Prop where
  lanes : l.lanes.Open depth
  home {lane : Nat} {t : Ticket J} (h : (lane, t) ∈ l.accepted) : l.lanes.pins[t.node]? = some lane
  numbered : l.accepted.map (·.2.number) = List.range l.accepted.length
  fits (lane : Nat) : (l.lanes.laneAt lane).Fits (on lane l.accepted) (on lane l.begun) (on lane l.ended)
  submitted : l.lanes.counts.submitted = l.accepted.length
  finished : l.lanes.counts.completed + l.lanes.counts.failed = l.ended.length

theorem sound_create (name : String) (lanes depth : Nat) :
    (⟨Lanes.create name lanes depth, [], [], []⟩ : Ledger J).Sound (max 1 depth) where
  lanes := Lanes.open_create name lanes depth
  home h := by cases h
  numbered := rfl
  fits lane := by
    rw [Lanes.laneAt_create]
    exact Lane.fits_empty
  submitted := rfl
  finished := rfl

variable {l : Ledger J} {depth : Nat}

/-- Lanes with the same jobs and pins, which may count other things. -/
theorem Sound.relane (h : l.Sound depth) {lanes : Lanes (Ticket J)} (takesIn : lanes.Open depth)
    (pins : ∀ {node : NodeId} {lane : Nat}, l.lanes.pins[node]? = some lane → lanes.pins[node]? = some lane)
    (same : ∀ lane, (lanes.laneAt lane).queue = (l.lanes.laneAt lane).queue ∧
      (lanes.laneAt lane).running?.map Running.job = (l.lanes.laneAt lane).running?.map Running.job)
    (submitted : lanes.counts.submitted = l.lanes.counts.submitted)
    (completed : lanes.counts.completed = l.lanes.counts.completed)
    (failed : lanes.counts.failed = l.lanes.counts.failed) : ({ l with lanes } : Ledger J).Sound depth where
  lanes := takesIn
  home member := pins (h.home member)
  numbered := h.numbered
  fits lane := by
    have fits := h.fits lane
    obtain ⟨queue, running⟩ := same lane
    refine ⟨?_, ?_⟩
    · rw [queue]
      exact fits.accepted
    · rw [running]
      exact fits.begun
  submitted := submitted.trans h.submitted
  finished := by
    have ended := h.finished
    dsimp only
    rw [completed, failed]
    exact ended

theorem Sound.route (h : l.Sound depth) (node : NodeId) : (l.record (.route node)).Sound depth := by
  have routed := h.lanes.route node
  obtain ⟨lane, pins, route, pinned⟩ := l.lanes.exists_route node
  unfold record
  dsimp only
  rw [route] at routed ⊢
  exact h.relane routed pinned.kept (fun _ => ⟨rfl, rfl⟩) rfl rfl rfl

theorem Sound.start (h : l.Sound depth) : (l.record .start).Sound depth := by
  have started := h.lanes.start
  have only : l.lanes.start = { l.lanes with phase := l.lanes.start.phase } := by
    unfold Lanes.start
    split <;> rfl
  unfold record
  dsimp only
  rw [only] at started ⊢
  exact h.relane started id (fun _ => ⟨rfl, rfl⟩) rfl rfl rfl

theorem Sound.overrun (h : l.Sound depth) (lane : Nat) : (l.record (.overrun lane)).Sound depth := by
  have slowed := h.lanes.overrun lane
  unfold record
  dsimp only
  obtain ⟨here, r, found, runs, slow⟩ | same := l.lanes.overrun_cases lane
  · rw [slow] at slowed ⊢
    refine h.relane slowed id (fun i => ?_) rfl rfl rfl
    rw [Lanes.laneAt_set found rfl]
    split
    case isTrue same =>
      subst same
      rw [Lanes.laneAt_of_getElem? found, runs]
      exact ⟨rfl, rfl⟩
    case isFalse => exact ⟨rfl, rfl⟩
  · rw [same]
    exact h

theorem Sound.submit (h : l.Sound depth) (node : NodeId) (job : J) : (l.record (.submit node job)).Sound depth := by
  have taken := h.lanes.submit node ⟨node, l.accepted.length, job⟩
  unfold record
  dsimp only
  obtain ⟨lane, pins, -, pinned, ⟨-, refused⟩ | ⟨here, found, -, accepted⟩⟩ :=
    h.lanes.submit_cases node ⟨node, l.accepted.length, job⟩
  · rw [refused] at taken ⊢
    exact h.relane taken pinned.kept (fun _ => ⟨rfl, rfl⟩) rfl rfl rfl
  · rw [accepted] at taken ⊢
    refine ⟨taken, ?home, ?numbered, ?fits, ?submitted, h.finished⟩
    case home =>
      intro i t member
      rcases List.mem_append.1 member with old | new
      · exact pinned.kept (h.home old)
      · cases List.mem_singleton.1 new
        exact pinned.here
    case numbered =>
      dsimp only
      rw [List.map_append, h.numbered, List.length_append, List.length_singleton, List.range_succ]
      rfl
    case fits =>
      intro i
      dsimp only
      rw [Lanes.laneAt_set found rfl, on_append]
      split
      case isTrue same =>
        subst same
        rw [on_self, ← Lanes.laneAt_of_getElem? found]
        exact (h.fits lane).push _
      case isFalse apart =>
        rw [on_of_ne apart, List.append_nil]
        exact h.fits i
    case submitted =>
      dsimp only
      rw [h.submitted, List.length_append, List.length_singleton]

theorem Sound.take (h : l.Sound depth) (now lane : Nat) : (l.record (.take now lane)).Sound depth := by
  have taken := h.lanes.take now lane
  unfold record
  dsimp only
  obtain ⟨job, rest, found, begins⟩ | same := l.lanes.take_cases now lane
  · rw [begins] at taken ⊢
    have idle : l.lanes.runningIn? lane = none := by
      rw [Lanes.runningIn?_eq, Lanes.laneAt_of_getElem? found]
    have busy : ({ l.lanes with lanes := l.lanes.lanes.set lane ⟨rest, some ⟨job, now, false⟩⟩ } :
        Lanes (Ticket J)).runningIn? lane = some ⟨job, now, false⟩ := by
      rw [Lanes.runningIn?_eq, Lanes.laneAt_set found rfl, if_pos rfl]
    rw [idle, busy]
    refine ⟨taken, h.home, h.numbered, fun i => ?_, h.submitted, h.finished⟩
    dsimp only
    rw [Lanes.laneAt_set found rfl, on_append]
    split
    case isTrue same =>
      subst same
      have fits := h.fits lane
      rw [Lanes.laneAt_of_getElem? found] at fits
      rw [on_self]
      exact fits.begin now
    case isFalse apart =>
      rw [on_of_ne apart, List.append_nil]
      exact h.fits i
  · rw [same]
    cases l.lanes.runningIn? lane <;> exact h

theorem Sound.finish (h : l.Sound depth) (lane : Nat) (ending : Lanes.Ending) :
    (l.record (.finish lane ending)).Sound depth := by
  have finished := h.lanes.finish lane ending.isSuccess
  unfold record
  dsimp only
  obtain ⟨here, r, found, runs, ends⟩ | ⟨idle, same⟩ := l.lanes.finish_cases lane ending.isSuccess
  · rw [ends] at finished ⊢
    have running : l.lanes.runningIn? lane = some r := by
      rw [Lanes.runningIn?_eq, Lanes.laneAt_of_getElem? found, runs]
    rw [running]
    refine ⟨finished, h.home, h.numbered, fun i => ?_, h.submitted, ?_⟩
    · dsimp only
      rw [Lanes.laneAt_set found rfl, on_append]
      split
      case isTrue same =>
        subst same
        have fits := h.fits lane
        rw [Lanes.laneAt_of_getElem? found] at fits
        have ended := fits.finish
        rw [runs] at ended
        rw [on_self]
        exact ended
      case isFalse apart =>
        rw [on_of_ne apart, List.append_nil]
        exact h.fits i
    · have ended := h.finished
      dsimp only
      rw [List.length_append, List.length_singleton]
      cases ending.isSuccess <;> simp <;> omega
  · rw [idle, same]
    exact h

theorem Sound.record (h : l.Sound depth) : ∀ a : Lanes.Act J, (l.record a).Sound depth
  | .route node => h.route node
  | .submit node job => h.submit node job
  | .start => h.start
  | .take now lane => h.take now lane
  | .overrun lane => h.overrun lane
  | .finish lane ending => h.finish lane ending

theorem Sound.run (h : l.Sound depth) (acts : List (Lanes.Act J)) : (l.run acts).Sound depth := by
  induction acts generalizing l with
  | nil => exact h
  | cons a rest ih => exact ih (h.record a)

theorem Sound.accepted_nodup (h : l.Sound depth) : (l.accepted.map Prod.snd).Nodup := by
  refine List.Nodup.of_map Ticket.number ?_
  rw [List.map_map]
  have numbers := h.numbered
  rw [show Ticket.number ∘ Prod.snd = fun entry : Nat × Ticket J => entry.2.number from rfl, numbers]
  exact List.nodup_range

theorem Sound.accepted_of_begun (h : l.Sound depth) {entry : Nat × Ticket J} (begun : entry ∈ l.begun) :
    entry ∈ l.accepted := by
  obtain ⟨lane, t⟩ := entry
  refine mem_on.1 ?_
  rw [(h.fits lane).accepted]
  exact List.mem_append_left _ (mem_on.2 begun)

theorem Sound.begun_nodup (h : l.Sound depth) : (l.begun.map Prod.snd).Nodup := by
  have once (lane : Nat) : (on lane l.begun).Nodup := by
    have listed : (on lane l.accepted).Sublist (l.accepted.map Prod.snd) := List.filter_sublist.map Prod.snd
    have whole := h.accepted_nodup.sublist listed
    rw [(h.fits lane).accepted] at whole
    exact whole.of_append_left
  refine List.Nodup.map_on ?_ (nodup_of_on once)
  rintro ⟨i, t⟩ first ⟨j, t'⟩ second same
  obtain rfl : t = t' := same
  have pin := h.home (h.accepted_of_begun first)
  rw [h.home (h.accepted_of_begun second)] at pin
  rw [Option.some.inj pin]

/-- The jobs of a node begin in the order in which they were accepted. -/
theorem Sound.inOrder (h : l.Sound depth) (node : NodeId) : ofNode node l.begun <+: ofNode node l.accepted := by
  let lane := (l.lanes.pins[node]?).getD 0
  have home (entry : Nat × Ticket J) (member : entry ∈ l.accepted) (mine : entry.2.node = node) :
      entry.1 = lane := by
    obtain ⟨i, t⟩ := entry
    subst mine
    have pin := h.home member
    simp [lane, pin]
  rw [ofNode_eq home, ofNode_eq fun entry begun => home entry (h.accepted_of_begun begun), (h.fits lane).accepted]
  exact (List.prefix_append _ _).filter _

structure Balanced (l : Ledger J) (p : Lanes J) (depth : Nat) : Prop where
  same : l.lanes.map Ticket.job = p
  inOrder (node : NodeId) : ofNode node l.begun <+: ofNode node l.accepted
  apart : (l.accepted.map Prod.snd).Nodup
  once : (l.begun.map Prod.snd).Nodup
  /-- No job is lost. -/
  kept (lane : Nat) : on lane l.accepted = on lane l.begun ++ (l.lanes.laneAt lane).queue
  /-- One job runs at a time. -/
  alone (lane : Nat) : on lane l.begun = on lane l.ended ++ running l.lanes lane
  bounded : ∀ lane ∈ p.lanes, lane.queue.length ≤ depth
  refused {node : NodeId} {job : J} {error : SubmitError} (h : (p.submit node job).1 = .error error) :
    ∃ lane pins, error = .laneFull p.name lane ∧ depth ≤ p.waitingIn lane ∧ Lanes.Pinned node lane p.pins pins ∧
      (p.submit node job).2 = { p with pins, counts.dropped := p.counts.dropped + 1 }
  submitted : p.counts.submitted = p.stats.queued + p.busy + p.counts.completed + p.counts.failed
  listed : p.counts.submitted = l.accepted.length ∧ p.counts.completed + p.counts.failed = l.ended.length

/-- Whatever producers and workers do. -/
theorem balanced_run (name : String) (lanes depth : Nat) (acts : List (Lanes.Act J)) :
    (run ⟨Lanes.create name lanes depth, [], [], []⟩ acts).Balanced
      ((Lanes.create name lanes depth).run acts) (max 1 depth) := by
  have sound := (sound_create name lanes depth).run acts
  have takesIn := (Lanes.open_create name lanes depth).run acts
  have same := lanes_run (⟨Lanes.create name lanes depth, [], [], []⟩ : Ledger J) acts
  rw [Lanes.map_create] at same
  generalize (Lanes.create name lanes depth : Lanes J).run acts = p at takesIn same ⊢
  have counts := congrArg Lanes.counts same
  refine
    { same
      inOrder := sound.inOrder
      apart := sound.accepted_nodup
      once := sound.begun_nodup
      kept := fun lane => (sound.fits lane).accepted
      alone := fun lane => ?alone
      bounded := ?bounded
      refused := ?refused
      submitted := takesIn.submitted
      listed := ?listed }
  case alone =>
    rw [running, Lanes.runningIn?_eq]
    exact (sound.fits lane).begun
  case bounded =>
    intro here member
    obtain ⟨i, found⟩ := List.getElem?_of_mem member
    have space := takesIn.bounded i
    rw [Lanes.laneAt_of_getElem? found] at space
    exact space
  case refused =>
    intro node job error h
    obtain ⟨lane, pins, -, pinned, ⟨full, refused⟩ | ⟨here, -, -, accepted⟩⟩ := takesIn.submit_cases node job
    · rw [refused] at h ⊢
      exact ⟨lane, pins, (Except.error.inj h).symm, full, pinned, rfl⟩
    · rw [accepted] at h
      cases h
  case listed =>
    rw [← counts]
    exact ⟨sound.submitted, sound.finished⟩

end Ledger

end ClusterCatalog
