import ClusterCatalog.Proofs.Sync.Chronicle
import Mathlib.Data.List.Pairwise
/-!
Which stores are live one after another over the same directory. An install that succeeds puts a store
with a greater stamp in the place of the live one, so the live store is the one that is opened again.
-/
namespace ClusterCatalog

namespace Layout

variable {α : Type} {layout : Layout α} {stamp : UInt64} {name : String}

structure Rules (layout : Layout α) (stamp : UInt64) (name : String) : Prop where
  stamped : (stamp, name) ∈ layout.stamped
  others : ∀ p ∈ layout.stamped, p ≠ (stamp, name) → p.1 < stamp

theorem Rules.latest? (rules : layout.Rules stamp name) : layout.latest? = some (stamp, name) := by
  refine latest?_eq_some_iff.2 ⟨rules.stamped, fun p mem => ?_⟩
  by_cases same : p = (stamp, name)
  · rw [same]
    exact .refl _
  · exact .inl (rules.others p mem same)

theorem Rules.stamp?_eq (rules : layout.Rules stamp name) : stamp? name = some stamp := (mem_stamped.1 rules.stamped).1

theorem Rules.congr {other : Layout α} (rules : layout.Rules stamp name)
    (same : ∀ p, p ∈ other.stamped ↔ p ∈ layout.stamped) : other.Rules stamp name where
  stamped := (same _).2 rules.stamped
  others p mem := rules.others p ((same p).1 mem)

theorem Rules.erase {other : String} (rules : layout.Rules stamp name) (ne : other ≠ name) :
    Rules ⟨layout.entries.erase other⟩ stamp name where
  stamped := mem_stamped_erase.2 ⟨rules.stamped, Ne.symm ne⟩
  others p mem := rules.others p (mem_stamped_erase.1 mem).1

theorem rules_of_latest? (distinct : layout.stamped.Pairwise fun p q => p.1 ≠ q.1)
    (latest : layout.latest? = some (stamp, name)) : layout.Rules stamp name := by
  obtain ⟨mem, outranks⟩ := latest?_eq_some_iff.1 latest
  refine ⟨mem, fun p there other => ?_⟩
  obtain earlier | ⟨same, -⟩ := outranks p there
  · exact earlier
  · have : Std.Symm fun p q : UInt64 × String => p.1 ≠ q.1 := ⟨fun _ _ => Ne.symm⟩
    exact absurd same (distinct.forall there mem other)

theorem rules_put_of_fresh {now : UInt64} (fresh : layout.fresh now = .ok name) (content : α) :
    ∃ stamp, (layout.put name content).Rules stamp name ∧ ∀ p ∈ layout.stamped, p.1 < stamp := by
  obtain ⟨stamp, carries, past⟩ := stamp?_of_fresh fresh
  refine ⟨stamp, ⟨mem_stamped_put.2 (.inr ⟨rfl, carries⟩), fun p mem other => ?_⟩, past⟩
  obtain old | ⟨named, same⟩ := mem_stamped_put.1 mem
  · exact past p old
  · exact absurd (Prod.ext (Option.some.inj (same.symm.trans carries)) named) other

def Precedes (a b : String) : Prop := ∃ x y, stamp? a = some x ∧ stamp? b = some y ∧ x < y

theorem Precedes.trans {a b c : String} (h : Precedes a b) (g : Precedes b c) : Precedes a c := by
  obtain ⟨x, y, first, second, lt⟩ := h
  obtain ⟨y', z, second', third, lt'⟩ := g
  cases second.symm.trans second'
  exact ⟨x, z, first, third, UInt64.lt_trans lt lt'⟩

end Layout

namespace Catalog

/-- No store lies beside the live one whose stamp is as great. -/
def Reigns (c : Catalog) : Prop := ∃ stamp, c.disk.Rules stamp c.live.location

theorem Reigns.foremost {c : Catalog} (reigns : c.Reigns) : c.Foremost :=
  reigns.imp fun _ rules => rules.latest?

theorem InPlace.reigns {c c' : Catalog} (inPlace : InPlace c c') (reigns : c.Reigns) : c'.Reigns := by
  unfold Reigns
  rwa [inPlace.disk, inPlace.location]

theorem reigns_of_openLast {clock : Millis} {disk disk' : Layout StoreFile} {live : Live}
    (distinct : disk.stamped.Pairwise fun p q => p.1 ≠ q.1) (opened : (openLast clock).run disk = (.ok live, disk')) :
    ∃ stamp, disk'.Rules stamp live.location := by
  obtain ⟨known, -, rfl⟩ := openLast_eq_ok opened
  cases latest : disk.latest? with
  | some p =>
    obtain ⟨stamp, last⟩ := p
    rw [Layout.lastKnown, latest] at known
    cases known
    obtain ⟨content, stored⟩ := Layout.exists_content?_of_latest? latest
    exact ⟨stamp, (Layout.rules_of_latest? distinct latest).congr fun _ => Layout.mem_stamped_put_of_content? stored _⟩
  | none =>
    rw [Layout.lastKnown, latest] at known
    obtain ⟨stamp, rules, -⟩ := Layout.rules_put_of_fresh known (.database live.db)
    exact ⟨stamp, rules⟩

/-- A catalog that is started goes on where the last known store lies. -/
theorem start_eq_inPlace {clock : Millis} {disk disk' : Layout StoreFile} {n : Loaded} {c : Catalog}
    (started : (start clock).run disk = (.ok (n, c), disk')) :
    ∃ u, (openLast clock).run disk = (.ok c.live, u) ∧ c.disk = u := by
  obtain ⟨live, u, opened, loaded⟩ := start_eq_ok started
  obtain ⟨nodes, directory, pipelines, -, -, -, rfl⟩ := load_eq_ok loaded
  exact ⟨u, opened, rfl⟩

theorem reigns_of_start {clock : Millis} {disk disk' : Layout StoreFile} {n : Loaded} {c : Catalog}
    (distinct : disk.stamped.Pairwise fun p q => p.1 ≠ q.1) (started : (start clock).run disk = (.ok (n, c), disk')) :
    c.Reigns := by
  obtain ⟨u, opened, rfl⟩ := start_eq_inPlace started
  exact reigns_of_openLast distinct opened

/-- The next catalog has the live store where the one before had it. -/
theorem Reigns.start_park {clock : Millis} {c c' : Catalog} {disk' : Layout StoreFile} {n : Loaded} (reigns : c.Reigns)
    (started : (start clock).run c.park = (.ok (n, c'), disk')) :
    c'.live.location = c.live.location ∧ c'.Reigns := by
  obtain ⟨home, stored⟩ := reigns.foremost.housed
  obtain ⟨stamp, rules⟩ := reigns
  have parked : c.park.Rules stamp c.live.location := rules.congr fun _ => Layout.mem_stamped_put_of_content? stored _
  obtain ⟨u, opened, here⟩ := start_eq_inPlace started
  obtain ⟨known, -, rfl⟩ := openLast_eq_ok opened
  rw [Layout.lastKnown, parked.latest?] at known
  have same : c.live.location = c'.live.location := Except.ok.inj known
  obtain ⟨content, there⟩ := Layout.exists_content?_of_latest? parked.latest?
  refine ⟨same.symm, stamp, ?_⟩
  rw [here, ← same]
  exact parked.congr fun _ => Layout.mem_stamped_put_of_content? there _

end Catalog

namespace Sync

open Catalog (InPlace)

variable {c c' : Catalog} {name : String} {snapshot : Snapshot}

structure Succeeds (c : Catalog) (name : String) (c' : Catalog) : Prop where
  location : c'.live.location = name
  reigns : c'.Reigns
  past : ∃ stamp, Layout.stamp? name = some stamp ∧ ∀ p ∈ c.disk.stamped, p.1 < stamp

theorem WentLive.succeeds {disk : Layout StoreFile} {file : StoreFile} (housed : Housed c)
    (moves : c.disk.stage c.clock snapshot.file? = .ok (name, disk)) (live : WentLive { c with disk } name file c') :
    Succeeds c name c' := by
  obtain ⟨db, incoming, n, db', nodes, -, -, -, -, rfl⟩ := live
  obtain ⟨fresh, content, -, rfl⟩ := Layout.stage_eq_ok moves
  obtain ⟨stamp, rules, past⟩ := Layout.rules_put_of_fresh fresh content
  refine ⟨rfl, ⟨stamp, ?_⟩, stamp, rules.stamp?_eq, past⟩
  rw [housed.disk_discardStore fresh _ rfl]
  exact rules.erase (housed.location_ne fresh)

def installed? (c : Catalog) (home : String) (snapshot : Snapshot) : Option String :=
  let (result, c) := (install home snapshot).run c
  result.toOption.map fun _ => c.live.location

theorem install_succeeds (housed : Housed c) (home : String) (snapshot : Snapshot) :
    (installed? c home snapshot = none ∧ ((install home snapshot).run c).2 = c) ∨
      ∃ name, installed? c home snapshot = some name ∧ Succeeds c name ((install home snapshot).run c).2 := by
  unfold installed?
  obtain ⟨cause, breaks⟩ | ⟨report, c', name, disk, moves, ran, live⟩ := breaks_or_wentLive c home snapshot
  · rw [breaks.run_install home]
    exact .inl ⟨rfl, rfl⟩
  · have succeeds := live.succeeds housed moves
    rw [ran]
    exact .inr ⟨name, congrArg some succeeds.location, succeeds⟩

namespace Traffic

def installed? (t : Traffic) : Event → Option String
  | .install i home => (t.installing? i).bind (Sync.installed? t.state.catalog home)
  | _ => none

end Traffic

def KeepsPlace (_ : List Told) (c c' : Catalog) : Prop := InPlace c c'

theorem KeepsPlace.respected : Respected KeepsPlace where
  refl _ _ := ⟨rfl, rfl⟩
  trans h g := Catalog.composes_inPlace.trans h g
  mono _ := id
  replicas _ _ := respects_takeReplicas Catalog.composes_inPlace Catalog.inPlace_register
    fun _ => Catalog.inPlace_onDirectory _
  container _ := respects_addContainer Catalog.composes_inPlace (fun _ _ => Catalog.inPlace_onPipelines _)
    fun _ => Catalog.inPlace_onDirectory _
  pipelines _ := Catalog.inPlace_onPipelines _

theorem Traffic.inPlace_or_succeeds {t : Traffic} (orderly : t.Orderly KeepsPlace) (housed : Housed t.state.catalog)
    (e : Event) :
    (t.installed? e = none ∧ InPlace t.state.catalog (t.step e).state.catalog) ∨
      ∃ name, t.installed? e = some name ∧ Succeeds t.state.catalog name (t.step e).state.catalog := by
  have other (notInstall : ∀ i home, e ≠ .install i home) : InPlace t.state.catalog (t.step e).state.catalog :=
    (stepRespects KeepsPlace.respected orderly (fun op _ => op.inPlace _)
      fun i home _ here => absurd here (notInstall i home)).respects
  cases e with
  | install i home =>
    change (_ ∧ InPlace _ (t.install i home).state.catalog) ∨ ∃ name, _ ∧ Succeeds _ name (t.install i home).state.catalog
    obtain ⟨snapshot, given, -, catalog, -⟩ | ⟨none, same⟩ := install_cases orderly i home
    · rw [catalog, installed?, given, Option.bind_some]
      refine (install_succeeds housed home snapshot).imp_left (And.imp_right fun same => ?_)
      rw [same]
      exact ⟨rfl, rfl⟩
    · rw [same, installed?, none, Option.bind_none]
      exact .inl ⟨rfl, rfl, rfl⟩
  | _ => exact .inl ⟨rfl, other (by simp)⟩

inductive Succession (disk : Layout StoreFile) : Traffic → List String → Prop where
  | start {clock : Millis} {n : Catalog.Loaded} {c : Catalog} {disk' : Layout StoreFile}
      (started : (Catalog.start clock).run disk = (.ok (n, c), disk')) :
      Succession disk { state := ⟨c, {}, {}⟩ } [c.live.location]
  | step {t : Traffic} {names : List String} (before : Succession disk t names) (e : Event) :
      Succession disk (t.step e) (names ++ (t.installed? e).toList)
  | restart {t : Traffic} {names : List String} {clock : Millis} {n : Catalog.Loaded} {c : Catalog}
      {disk' : Layout StoreFile} (before : Succession disk t names)
      (started : (Catalog.start clock).run t.state.catalog.park = (.ok (n, c), disk')) :
      Succession disk { state := ⟨c, {}, {}⟩ } names

structure InOrder (names : List String) (c : Catalog) : Prop where
  ascending : names.Pairwise Layout.Precedes
  last : names.getLast? = some c.live.location
  reigns : c.Reigns

theorem InOrder.succeeds {names : List String} (inOrder : InOrder names c) (succeeds : Succeeds c name c') :
    InOrder (names ++ [name]) c' := by
  obtain ⟨stamp, carries, past⟩ := succeeds.past
  obtain ⟨lastStamp, rules⟩ := inOrder.reigns
  have next : Layout.Precedes c.live.location name :=
    ⟨lastStamp, stamp, rules.stamp?_eq, carries, past _ rules.stamped⟩
  obtain ⟨before, rfl⟩ := List.getLast?_eq_some_iff.1 inOrder.last
  have earlier := (List.pairwise_append.1 inOrder.ascending).2.2
  refine ⟨List.pairwise_append.2 ⟨inOrder.ascending, List.pairwise_singleton _ _, fun a mem b here => ?_⟩, ?_,
    succeeds.reigns⟩
  · rw [List.mem_singleton.1 here]
    obtain old | live := List.mem_append.1 mem
    · exact (earlier a old _ (List.mem_singleton_self _)).trans next
    · rwa [List.mem_singleton.1 live]
  · rw [List.getLast?_concat, succeeds.location]

namespace Succession

variable {disk : Layout StoreFile} {t : Traffic} {names : List String}

theorem orderly (h : Succession disk t names) : t.Orderly KeepsPlace := by
  induction h with
  | start | restart => simp [Traffic.Orderly]
  | step before e ih => exact Traffic.orderly_step KeepsPlace.respected e ih

theorem inOrder (distinct : disk.stamped.Pairwise fun p q => p.1 ≠ q.1) (h : Succession disk t names) :
    InOrder names t.state.catalog := by
  induction h with
  | start started => exact ⟨List.pairwise_singleton _ _, rfl, Catalog.reigns_of_start distinct started⟩
  | @step t names before e ih =>
    obtain ⟨none, inPlace⟩ | ⟨name, installed, succeeds⟩ :=
      Traffic.inPlace_or_succeeds before.orderly ih.reigns.foremost.housed e
    · rw [none, Option.toList_none, List.append_nil]
      exact ⟨ih.ascending, by rw [inPlace.location, ih.last], inPlace.reigns ih.reigns⟩
    · rw [installed]
      exact ih.succeeds succeeds
  | restart before started ih =>
    obtain ⟨location, reigns⟩ := ih.reigns.start_park started
    exact ⟨ih.ascending, by rw [location, ih.last], reigns⟩

/-- Over stores of which no two carry the same stamp, and whatever happens to them: the stamps of the live
stores rise with each install that succeeds. The last known store is the live one, with a stamp greater
than all others, and it is opened again whatever the clock says then. -/
theorem reopens (distinct : disk.stamped.Pairwise fun p q => p.1 ≠ q.1) (h : Succession disk t names) :
    names.Pairwise Layout.Precedes ∧ names.getLast? = some t.state.catalog.live.location ∧
      ∃ stamp, t.state.catalog.disk.latest? = some (stamp, t.state.catalog.live.location) ∧
        (∀ p ∈ t.state.catalog.disk.stamped, p ≠ (stamp, t.state.catalog.live.location) → p.1 < stamp) ∧
        ∀ clock, ((Catalog.openLast clock).run t.state.catalog.park).1 =
          (StoreFile.database t.state.catalog.live.db).load.map (⟨t.state.catalog.live.location, ·⟩) := by
  obtain ⟨ascending, last, stamp, rules⟩ := h.inOrder distinct
  obtain ⟨home, stored⟩ := Catalog.Foremost.housed ⟨stamp, rules.latest?⟩
  have parked : t.state.catalog.park.latest? = some (stamp, t.state.catalog.live.location) := by
    rw [Catalog.park, Layout.latest?_put_of_content? stored, rules.latest?]
  have content : t.state.catalog.park.content? t.state.catalog.live.location =
      some (.database t.state.catalog.live.db) := by
    rw [Catalog.park, Layout.content?_put, if_pos rfl]
  exact ⟨ascending, last, stamp, rules.latest?, rules.others, Catalog.run_openLast parked content⟩

end Succession

section Resyncs

def Traffic.installs (t : Traffic) : List Event → List String
  | [] => []
  | e :: events => (t.installed? e).toList ++ (t.step e).installs events

theorem Succession.run {disk : Layout StoreFile} {t : Traffic} {names : List String} (h : Succession disk t names)
    (events : List Event) : Succession disk (t.run events) (names ++ t.installs events) := by
  induction events generalizing t names with
  | nil => simpa [Traffic.installs, Traffic.run] using h
  | cons e events ih =>
    rw [Traffic.installs, ← List.append_assoc]
    exact ih (h.step e)

def twoStores : Layout StoreFile :=
  (Layout.put {} "scm-9" .missing).put "scm-3" .missing |>.put "scm-new" .garbage

def lateStart : Catalog.Loaded × Catalog := ((Catalog.start 5).run twoStores).1.toOption.get (by decide +kernel)

theorem succession_lateStart : Succession twoStores { state := ⟨lateStart.2, {}, {}⟩ } [lateStart.2.live.location] := by
  have started : ((Catalog.start 5).run twoStores).1 = .ok lateStart := eq_ok_of_toOption (Option.some_get _).symm
  exact .start (c := lateStart.2) (Prod.ext started rfl)

def resyncTo (file? : Option StoreFile) : List Event :=
  [.call .fullResync, .answer 0 .snapshot (.ok (some ⟨"snapshot", file?⟩)), .install 0 "stores", .resume 0]

def fourResyncs : List Event :=
  resyncTo (some .missing) ++ [.operate (.tick 4 0)] ++ resyncTo none ++ resyncTo (some .garbage) ++
    [.operate (.tick 70 0)] ++ resyncTo (some .missing)

def resynced : Traffic := Traffic.run { state := ⟨lateStart.2, {}, {}⟩ } fourResyncs

theorem reopens_fourResyncs : twoStores.stamped.Pairwise (fun p q => p.1 ≠ q.1) ∧
    Succession twoStores resynced ["scm-9", "scm-10", "scm-70"] ∧
    resynced.state.catalog.live.location = "scm-70" ∧
    ∃ stamp, resynced.state.catalog.disk.latest? = some (stamp, "scm-70") := by
  have distinct : twoStores.stamped.Pairwise fun p q => p.1 ≠ q.1 := by decide +kernel
  have first : lateStart.2.live.location = "scm-9" := by decide +kernel
  have later : Traffic.installs { state := ⟨lateStart.2, {}, {}⟩ } fourResyncs = ["scm-10", "scm-70"] := by
    decide +kernel
  have succession : Succession twoStores resynced _ := succession_lateStart.run fourResyncs
  rw [first, later] at succession
  obtain ⟨-, last, stamp, latest, -, -⟩ := succession.reopens distinct
  have live : resynced.state.catalog.live.location = "scm-70" := (Option.some.inj last).symm
  rw [live] at latest
  exact ⟨distinct, succession, live, stamp, latest⟩

end Resyncs

end Sync

end ClusterCatalog
