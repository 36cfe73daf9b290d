import ClusterCatalog.Proofs.Sync.Crash
/-!
What happens over the stores of one directory from their first opening on: a service is started, things
happen to it in any order, it is stopped, and another one is started from what it has left.
-/
namespace ClusterCatalog

namespace Catalog

variable {c c' : Catalog} {clock : Millis} {n : Loaded} {disk disk' : Layout StoreFile}

/-- The containers that a started catalog knows are those of its live store. -/
theorem directory_of_start (started : (start clock).run disk = (.ok (n, c), disk')) :
    Directory.load {} c.live.db = .ok (n.containers, c.directory) := by
  obtain ⟨live, u, -, loaded⟩ := start_eq_ok started
  obtain ⟨nodes, directory, pipelines, -, read, -, rfl⟩ := load_eq_ok loaded
  exact read

theorem load_of_start (started : (start clock).run disk = (.ok (n, c), disk')) :
    disk.lastKnown clock = .ok c.live.location ∧
      ((disk.content? c.live.location).getD .missing).load = .ok c.live.db := by
  obtain ⟨live, u, opened, loaded⟩ := start_eq_ok started
  obtain ⟨nodes, directory, pipelines, -, -, -, rfl⟩ := load_eq_ok loaded
  obtain ⟨known, read, -⟩ := openLast_eq_ok opened
  exact ⟨known, read⟩

/-- Another catalog goes on with the live store of the one before. -/
theorem Foremost.start_park (foremost : c.Foremost) (started : (start clock).run c.park = (.ok (n, c'), disk')) :
    c'.live.db = c.live.db := by
  obtain ⟨home, stored⟩ := foremost.housed
  obtain ⟨stamp, latest⟩ := foremost
  obtain ⟨known, read⟩ := load_of_start started
  rw [Layout.lastKnown, park, Layout.latest?_put_of_content? stored, latest] at known
  rw [park, Layout.content?_put, if_pos (Except.ok.inj known)] at read
  obtain ⟨missing, -⟩ | ⟨same, -⟩ := StoreFile.load_eq_ok read
  · cases missing
  · exact (StoreFile.database.inj same).symm

end Catalog

namespace Sync

def Traffic.allocated? (t : Traffic) : Event → Option ContainerId
  | .operate (.allocate pipeline?) =>
    ((Catalog.onDirectory (Directory.allocate t.state.catalog.clock pipeline?)).run t.state.catalog).1.toOption.map
      ContainerInfo.id
  | _ => none

/-- What there can be over some stores if only such events happen, with the identifiers that were handed
out on the way. A service that is stopped is followed by one that has no calls under way. -/
inductive Chronicle (disk : Layout StoreFile) (allowed : Traffic → Event → Prop) :
    Traffic → List ContainerId → Prop where
  | start {clock : Millis} {n : Catalog.Loaded} {c : Catalog} {disk' : Layout StoreFile}
      (started : (Catalog.start clock).run disk = (.ok (n, c), disk')) :
      Chronicle disk allowed { state := ⟨c, {}, {}⟩ } []
  | step {t : Traffic} {ids : List ContainerId} (before : Chronicle disk allowed t ids) {e : Event}
      (allows : allowed t e) : Chronicle disk allowed (t.step e) (ids ++ (t.allocated? e).toList)
  | restart {t : Traffic} {ids : List ContainerId} {clock : Millis} {n : Catalog.Loaded} {c : Catalog}
      {disk' : Layout StoreFile} (before : Chronicle disk allowed t ids)
      (started : (Catalog.start clock).run t.state.catalog.park = (.ok (n, c), disk')) :
      Chronicle disk allowed { state := ⟨c, {}, {}⟩ } ids

namespace Chronicle

variable {disk : Layout StoreFile} {allowed : Traffic → Event → Prop} {t : Traffic} {ids : List ContainerId}

theorem orderly {C : List Told → Catalog → Catalog → Prop} (respected : Respected C)
    (h : Chronicle disk allowed t ids) : t.Orderly C := by
  induction h with
  | start | restart => simp [Traffic.Orderly]
  | step before allows ih => exact Traffic.orderly_step respected _ ih

/-- A stopped service can always be found again. -/
theorem foremost (h : Chronicle disk allowed t ids) : t.state.catalog.Foremost := by
  induction h with
  | start started | restart before started => exact Catalog.foremost_of_start started
  | step before allows ih =>
    refine (Traffic.stepRespects StaysForemost.respected (before.orderly StaysForemost.respected) ?_ ?_).respects ih
    · exact fun op _ => (op.inPlace _).foremost
    · exact fun _ home snapshot _ _ _ foremost => foremost_install foremost home snapshot

/-- All that was told is as what the events bring. -/
theorem told {p : Told → Prop} (brings : ∀ t e, allowed t e → ∀ x ∈ e.told, p x) (h : Chronicle disk allowed t ids) :
    ∀ x ∈ t.told, p x := by
  induction h with
  | start | restart => simp
  | step before allows ih =>
    intro x mem
    obtain old | new := Traffic.told_step mem
    · exact ih x old
    · exact brings _ _ allows x new

end Chronicle

def Traffic.handedOut (t : Traffic) : List Event → List ContainerId
  | [] => []
  | e :: events => (t.allocated? e).toList ++ (t.step e).handedOut events

def Traffic.Allows (allowed : Traffic → Event → Prop) : Traffic → List Event → Prop
  | _, [] => True
  | t, e :: events => allowed t e ∧ (t.step e).Allows allowed events

theorem Chronicle.run {disk : Layout StoreFile} {allowed : Traffic → Event → Prop} {t : Traffic}
    {ids : List ContainerId} (h : Chronicle disk allowed t ids) (events : List Event) (allows : t.Allows allowed events) :
    Chronicle disk allowed (t.run events) (ids ++ t.handedOut events) := by
  induction events generalizing t ids with
  | nil => simpa [Traffic.handedOut, Traffic.run] using h
  | cons e events ih =>
    rw [Traffic.handedOut, ← List.append_assoc]
    exact ih (h.step allows.1) allows.2

end Sync

end ClusterCatalog
