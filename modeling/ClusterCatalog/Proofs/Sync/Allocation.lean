import ClusterCatalog.Proofs.Sync.Numbering
/-!
What is handed out over the stores of one directory. A new identifier is always free. It is greater than
all that were handed out before as long as no install lets the counter fall back, and an install can.
-/
namespace ClusterCatalog.Sync

open Counter (containerId)

variable {disk : Layout StoreFile} {t : Traffic} {ids : List ContainerId}

namespace Traffic

/-- An identifier that is handed out is ahead of the counter, which follows it. -/
theorem counts_of_allocated? {e : Event} {id : ContainerId} (h : t.allocated? e = some id) :
    ∃ last last', Counter.current t.state.catalog.live.db containerId = .ok last ∧ last < id.value ∧
      Counter.current (t.step e).state.catalog.live.db containerId = .ok last' ∧ id.value ≤ last' := by
  unfold allocated? at h
  split at h
  · next pipeline? =>
    obtain ⟨info, succeeded, rfl⟩ := Option.map_eq_some_iff.1 h
    exact Directory.allocate_eq_ok (Prod.ext (eq_ok_of_toOption succeeded) rfl)
  · cases h

def KeepsCount (t : Traffic) : Event → Prop
  | .install i _ => ∀ snapshot, t.installing? i = some snapshot →
    Sync.KeepsCount t.state.catalog.live.db (snapshot.file?.getD .missing)
  | _ => True

theorem KeepsCount.rises {e : Event} (keeps : t.KeepsCount e) (orderly : t.Orderly KeepsCounting) :
    Counter.Rises containerId t.state.catalog.live.db (t.step e).state.catalog.live.db := by
  refine (stepRespects KeepsCounting.respected orderly ?_ ?_).respects
  · exact fun op _ => op.rises _
  · rintro i home snapshot rfl installing -
    exact rises_install (keeps snapshot installing) home

end Traffic

namespace Chronicle

/-- What was handed out is in order, and the counter is not behind it. -/
theorem counted (h : Chronicle disk Traffic.KeepsCount t ids) :
    (ids.Pairwise fun a b => a.value < b.value) ∧
      ∀ id ∈ ids, ∃ last, Counter.current t.state.catalog.live.db containerId = .ok last ∧ id.value ≤ last := by
  induction h with
  | start => exact ⟨.nil, fun _ mem => nomatch mem⟩
  | @step t ids before e keeps ih =>
    obtain ⟨ordered, bound⟩ := ih
    have rises := keeps.rises (before.orderly KeepsCounting.respected)
    have follows (id : ContainerId) (mem : id ∈ ids) :
        ∃ last, Counter.current (t.step e).state.catalog.live.db containerId = .ok last ∧ id.value ≤ last := by
      obtain ⟨last, read, le⟩ := bound id mem
      obtain ⟨last', read', le'⟩ := rises last read
      exact ⟨last', read', UInt64.le_trans le le'⟩
    cases allocated : t.allocated? e with
    | none =>
      rw [Option.toList_none, List.append_nil]
      exact ⟨ordered, follows⟩
    | some new =>
      obtain ⟨last, last', read, lt, read', le⟩ := Traffic.counts_of_allocated? allocated
      refine ⟨List.pairwise_append.2 ⟨ordered, List.pairwise_singleton _ _, fun old mem b here => ?_⟩, fun id mem => ?_⟩
      · rw [List.mem_singleton.1 here]
        obtain ⟨now, known, behind⟩ := bound old mem
        cases read.symm.trans known
        exact UInt64.lt_of_le_of_lt behind lt
      · obtain mem | here := List.mem_append.1 mem
        · exact follows id mem
        · rw [List.mem_singleton.1 here]
          exact ⟨last', read', le⟩
  | restart before started ih => rwa [before.foremost.start_park started]

/-- Whatever happens over the stores of a directory, with services stopped and started again: the
identifiers are handed out in strictly increasing order, unless an install lets the counter fall back. -/
theorem ascending (h : Chronicle disk Traffic.KeepsCount t ids) : ids.Pairwise fun a b => a.value < b.value :=
  h.counted.1

theorem numbered (h : Chronicle {} (fun _ => Event.Hospitable) t ids) : t.state.catalog.Numbered := by
  induction h with
  | @start clock n c disk' started =>
    have loaded := Catalog.directory_of_start started
    have made : StoreFile.missing.load = .ok c.live.db := (Catalog.load_of_start started).2
    rw [← Except.ok.inj made] at loaded
    rw [Catalog.Numbered, ← Except.ok.inj made]
    exact Directory.numbered_empty.load loaded
  | @step t ids before e hospitable ih =>
    have told := (before.step hospitable).told fun _ e => Event.Hospitable.told
    refine (Traffic.stepRespects KeepsNumbered.respected (before.orderly KeepsNumbered.respected) ?_ ?_).respects told ih
    · rintro op rfl
      exact fun _ => (Operation.Hospitable.grows hospitable t.state.catalog).numbered
    · exact fun i home snapshot _ _ given known numbered => numbered_install (known _ given) numbered home
  | restart before started ih =>
    have loaded := Catalog.directory_of_start started
    have same := before.foremost.start_park started
    rw [same] at loaded
    rw [Catalog.Numbered, same]
    exact ih.load loaded

end Chronicle

section Resynced

def emptyStart : Catalog.Loaded × Catalog := ((Catalog.start 5).run {}).1.toOption.get (by decide +kernel)

theorem chronicle_emptyStart (allowed : Traffic → Event → Prop) :
    Chronicle {} allowed { state := ⟨emptyStart.2, {}, {}⟩ } [] := by
  have started : ((Catalog.start 5).run {}).1 = .ok emptyStart := eq_ok_of_toOption (Option.some_get _).symm
  exact .start (Prod.ext started rfl)

def resyncWith (db : Database) : List Event :=
  [.call .fullResync, .answer 0 .snapshot (.ok (some ⟨"snapshot", some (.database db)⟩)), .install 0 "stores",
    .resume 0]

/-- After a resync with an empty store the first number is handed out again. -/
theorem handed_out_twice : ∃ t, Chronicle {} (fun _ _ => True) t [⟨1⟩, ⟨2⟩, ⟨1⟩] := by
  let events := [.operate (.allocate none), .operate (.allocate none)] ++ resyncWith .empty ++ [.operate (.allocate none)]
  have ids : Traffic.handedOut { state := ⟨emptyStart.2, {}, {}⟩ } events = [⟨1⟩, ⟨2⟩, ⟨1⟩] := by decide +kernel
  have chronicle := (chronicle_emptyStart fun _ _ => True).run events (by simp [events, resyncWith, Traffic.Allows])
  rw [ids] at chronicle
  exact ⟨_, chronicle⟩

def aheadStore : Database := storeOf [.fresh 4 ⟨9⟩ .opened none] [] []

def aheadEvents : List Event :=
  [.operate (.allocate none)] ++ resyncWith aheadStore ++ [.operate (.allocate none)]

def beforeAhead : Traffic := Traffic.run { state := ⟨emptyStart.2, {}, {}⟩ } (aheadEvents.take 3)

theorem allows_aheadEvents : Traffic.Allows Traffic.KeepsCount { state := ⟨emptyStart.2, {}, {}⟩ } aheadEvents := by
  refine ⟨trivial, trivial, trivial, ?_, trivial, trivial, trivial⟩
  intro snapshot installing last db infos read opened values
  cases installing
  obtain ⟨missing, -⟩ | ⟨same, -⟩ := StoreFile.load_eq_ok opened
  · cases missing
  cases same
  have stands : Counter.current beforeAhead.state.catalog.live.db containerId = .ok 1 :=
    eq_ok_of_toOption (by decide +kernel)
  have held : TypedTable.containers.values aheadStore = .ok [.fresh 4 ⟨9⟩ .opened none] :=
    eq_ok_of_toOption (by decide +kernel)
  cases stands.symm.trans read
  cases held.symm.trans values
  exact .inr ⟨_, List.mem_singleton_self _, by decide⟩

def aheadTraffic : Traffic := Traffic.run { state := ⟨emptyStart.2, {}, {}⟩ } aheadEvents

def nextStart : Catalog.Loaded × Catalog :=
  ((Catalog.start 6).run aheadTraffic.state.catalog.park).1.toOption.get (by decide +kernel)

theorem ascending_ahead : ∃ t, Chronicle {} Traffic.KeepsCount t [⟨1⟩, ⟨10⟩, ⟨11⟩] ∧
    ([⟨1⟩, ⟨10⟩, ⟨11⟩] : List ContainerId).Pairwise fun a b => a.value < b.value := by
  have first := (chronicle_emptyStart Traffic.KeepsCount).run aheadEvents allows_aheadEvents
  have started : ((Catalog.start 6).run aheadTraffic.state.catalog.park).1 = .ok nextStart :=
    eq_ok_of_toOption (Option.some_get _).symm
  have second := (first.restart (c := nextStart.2) (Prod.ext started rfl)).run [.operate (.allocate none)] ⟨trivial, trivial⟩
  have ids : Traffic.handedOut { state := ⟨emptyStart.2, {}, {}⟩ } aheadEvents = [⟨1⟩, ⟨10⟩] := by decide +kernel
  have next : Traffic.handedOut { state := ⟨nextStart.2, {}, {}⟩ } [.operate (.allocate none)] = [⟨11⟩] := by
    decide +kernel
  rw [ids, next] at second
  exact ⟨_, second, second.ascending⟩

end Resynced

/-- A container is opened under the number after the last one: no container has it, and the new one is
all that changes in memory and in the table. -/
structure Opens (c : Catalog) (last : UInt64) (pipeline? : Option PipelineId) (c' : Catalog) : Prop where
  unknown : (⟨last + 1⟩ : ContainerId) ∉ c.directory.containers
  unstored : TypedTable.containers.get c.live.db ⟨last + 1⟩ = .ok none
  run : (Catalog.onDirectory (Directory.allocate c.clock pipeline?)).run c =
    (.ok (.fresh c.clock ⟨last + 1⟩ .opened pipeline?), c')
  known : c'.directory.containers =
    c.directory.containers.insert ⟨last + 1⟩ ⟨.fresh c.clock ⟨last + 1⟩ .opened pipeline?, ∅⟩
  stored : TypedTable.containers.get c'.live.db ⟨last + 1⟩ = .ok (some (.fresh c.clock ⟨last + 1⟩ .opened pipeline?))
  others {id : ContainerId} (other : id ≠ ⟨last + 1⟩) :
    TypedTable.containers.get c'.live.db id = TypedTable.containers.get c.live.db id

theorem opens_of_numbered {c : Catalog} (numbered : c.Numbered) {last : UInt64}
    (read : Counter.current c.live.db containerId = .ok last) (more : last.toNat + 1 < UInt64.size)
    (pipeline? : Option PipelineId) : ∃ c', Opens c last pipeline? c' := by
  let info : ContainerInfo := .fresh c.clock ⟨last + 1⟩ .opened pipeline?
  obtain ⟨unknown, db, ran⟩ := Directory.run_allocate numbered read more c.clock pipeline?
  have after : Directory.Numbered _ :=
    numbered.respects (Directory.keeps_allocate c.clock pipeline?) (Directory.grows_allocate c.clock pipeline?)
  rw [ran] at after
  -- the table shows what is in memory, before and after
  have before (id : ContainerId) := numbered.inStep.containers.get id
  have now (id : ContainerId) := after.inStep.containers.get id
  have absent : c.directory.containers[(⟨last + 1⟩ : ContainerId)]? = none := by simpa using unknown
  refine ⟨{ c with
    directory := { c.directory with containers := c.directory.containers.insert ⟨last + 1⟩ ⟨info, ∅⟩ }
    live := { c.live with db } }, unknown, ?_, ?_, rfl, ?_, fun {id} other => ?_⟩
  · rw [before, absent]
    rfl
  · rw [Catalog.onDirectory, Action.run_within, ran]
  · rw [now]
    simp
  · rw [now, before]
    simp [Std.ExtTreeMap.getElem?_insert, Ne.symm other]

/-- Starting over an empty directory, whatever happens while containers and their counter are stored: the
counter of the live store is not behind any container in memory or in the table. So a container is always
opened under a number that is free, unless there is no greater number; then nothing changes. -/
theorem Chronicle.opens (h : Chronicle {} (fun _ => Event.Hospitable) t ids) :
    ∃ last rows, Counter.current t.state.catalog.live.db containerId = .ok last ∧
      (∀ id ∈ t.state.catalog.directory.containers, id.value ≤ last) ∧
      TypedTable.containers.list t.state.catalog.live.db = .ok rows ∧
      (∀ row ∈ rows, row.1.value ≤ last ∧ row.2.id.value ≤ last) ∧
      ∀ pipeline?,
        if last.toNat + 1 = UInt64.size then
          (Catalog.onDirectory (Directory.allocate t.state.catalog.clock pipeline?)).run t.state.catalog =
            (.error (.store .exhausted), t.state.catalog)
        else ∃ c, Opens t.state.catalog last pipeline? c := by
  have numbered := h.numbered
  obtain ⟨last, read, bound⟩ := numbered.counted
  refine ⟨last, _, read, bound, numbered.inStep.containers.list_eq KeyCodec.exact_container, ?_, fun pipeline? => ?_⟩
  · intro row mem
    obtain ⟨⟨id, k⟩, entry, rfl⟩ := List.mem_map.1 mem
    have known := Std.ExtTreeMap.mem_toList_iff_getElem?_eq_some.1 entry
    have own : k.info.id = id := numbered.inStep.containers.own (by rw [known]; rfl)
    have le := bound id (Std.ExtTreeMap.mem_iff_isSome_getElem?.2 (by rw [known]; rfl))
    exact ⟨le, by rw [own]; exact le⟩
  · split
    · next greatest =>
      rw [Catalog.onDirectory, Action.run_within,
        Directory.run_allocate_of_greatest read (by omega) t.state.catalog.clock pipeline?]
    · next more =>
      have below : last.toNat < UInt64.size := last.toNat_lt
      exact opens_of_numbered numbered read (by omega) pipeline?

section Crowded

theorem hospitable_aheadStore : aheadStore.Hospitable where
  containers := by
    have listed : TypedTable.containers.list aheadStore = .ok [(⟨9⟩, .fresh 4 ⟨9⟩ .opened none)] :=
      eq_ok_of_toOption (by decide +kernel)
    exact TypedTable.ownKeys_of_list KeyCodec.exact_container listed (by decide)
  taken := by decide
  counter := ⟨⟨⟨∅, rfl⟩, by decide⟩, 0, eq_ok_of_toOption (by decide +kernel)⟩

def crowdedEvents : List Event :=
  [.operate (.create ⟨5⟩ .opened none), .operate (.allocate none)] ++ resyncWith aheadStore ++
    [.operate (.allocate none), .operate (.add (.fresh 3 ⟨20⟩ .closed none))]

theorem opens_crowded :
    ∃ t c, Chronicle {} (fun _ => Event.Hospitable) t [⟨6⟩, ⟨10⟩] ∧ Opens t.state.catalog 20 none c := by
  have allows : Traffic.Allows (fun _ => Event.Hospitable) { state := ⟨emptyStart.2, {}, {}⟩ } crowdedEvents := by
    simp [crowdedEvents, resyncWith, Traffic.Allows, Event.Hospitable, Operation.Hospitable, Told.Hospitable,
      StoreFile.Hospitable, hospitable_aheadStore]
  have chronicle := (chronicle_emptyStart fun _ => Event.Hospitable).run crowdedEvents allows
  have ids : Traffic.handedOut { state := ⟨emptyStart.2, {}, {}⟩ } crowdedEvents = [⟨6⟩, ⟨10⟩] := by decide +kernel
  rw [ids] at chronicle
  obtain ⟨last, rows, read, -, -, -, opens⟩ := chronicle.opens
  have stands : (Counter.current (Traffic.run { state := ⟨emptyStart.2, {}, {}⟩ } crowdedEvents).state.catalog.live.db
      containerId).toOption = some 20 := by decide +kernel
  rw [read] at stands
  cases stands
  obtain ⟨c, opened⟩ := opens none
  exact ⟨_, c, chronicle, opened⟩

end Crowded

end ClusterCatalog.Sync
