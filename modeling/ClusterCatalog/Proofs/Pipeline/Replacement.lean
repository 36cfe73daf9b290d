import Mathlib.Data.List.Induction
import Mathlib.Data.List.Nodup
import ClusterCatalog.Proofs.Pipeline.Closing
/-!
Making the registry equal to a list: one pass takes every pipeline of the list over, a second one drops all that
the list leaves out. Over a store that takes the writes the list, read as a map, is what is left.
-/
namespace ClusterCatalog.PipelineRegistry

open TypedTable (lengthBound)

variable {given : List Pipeline} {s : Stored PipelineRegistry} {view : PipelineRegistry} {p : Pipeline}
  {id : PipelineId}

/-- The list read as a map: of the pipelines with one identifier the last one counts. -/
def listed? (given : List Pipeline) (id : PipelineId) : Option Pipeline := given.reverse.find? (·.id = id)

theorem listed?_concat (given : List Pipeline) (p : Pipeline) (id : PipelineId) :
    listed? (given ++ [p]) id = if p.id = id then some p else listed? given id := by
  rw [listed?, List.reverse_append, List.reverse_singleton, List.singleton_append, List.find?_cons]
  by_cases same : p.id = id <;> simp [same, listed?]

theorem listed?_eq_none_iff : listed? given id = none ↔ ∀ p ∈ given, p.id ≠ id := by
  simp [listed?, List.find?_eq_none]

theorem listed?_of_mem (distinct : (given.map Pipeline.id).Nodup) (mem : p ∈ given) : listed? given p.id = some p := by
  cases found : listed? given p.id with
  | none => exact absurd rfl (listed?_eq_none_iff.1 found p mem)
  | some q =>
    have same : q.id = p.id := by simpa using List.find?_some found
    have there : q ∈ given := List.mem_reverse.1 (List.mem_of_find?_eq_some found)
    rw [List.inj_on_of_nodup_map distinct there mem same]

section First

def takeAll (given : List Pipeline) (view : PipelineRegistry) : PipelineRegistry :=
  given.foldl (fun view p => view.insert p.id p) view

theorem getElem?_takeAll (given : List Pipeline) (view : PipelineRegistry) (id : PipelineId) :
    (takeAll given view)[id]? = (listed? given id).or view[id]? := by
  induction given using List.reverseRecOn with
  | nil => rfl
  | append_singleton before p ih =>
    have last : takeAll (before ++ [p]) view = (takeAll before view).insert p.id p := List.foldl_append
    rw [last, Std.ExtTreeMap.getElem?_insert, ih, listed?_concat]
    by_cases same : p.id = id <;> simp [same]

/-- A pipeline that is known as it is takes no write. -/
theorem run_take_of_known (known : s.view[p.id]? = some p) (tally : PipelineTally) :
    (take tally p).run s = (.ok tally, s) := by
  rw [take, Action.run_bind_ok (Stored.run_getView s), known]
  dsimp only
  rw [if_pos rfl]
  rfl

theorem run_keep_of_accepts (accepts : s.db.Accepts .pipelines) (p : Pipeline) :
    ∃ db, (keep p).run s = (.ok (), ⟨s.view.insert p.id p, db⟩) ∧ db.Accepts .pipelines := by
  obtain ⟨-, rows, run⟩ | ⟨untaken, -⟩ := run_keep p s
  · exact ⟨_, run, accepts.written rows⟩
  · exact absurd accepts.takes untaken

structure Grown (before after : PipelineRegistry) (tally tally' : PipelineTally) : Prop where
  size : after.size + tally.added = before.size + tally'.added
  removed : tally'.removed = tally.removed

theorem Grown.trans {a b c : PipelineRegistry} {t t' t'' : PipelineTally} (h : Grown a b t t') (g : Grown b c t' t'') :
    Grown a c t t'' where
  size := by
    have first := h.size
    have second := g.size
    omega
  removed := g.removed.trans h.removed

theorem run_take (accepts : s.db.Accepts .pipelines) (tally : PipelineTally) (p : Pipeline) :
    ∃ tally' db, (take tally p).run s = (.ok tally', ⟨s.view.insert p.id p, db⟩) ∧ db.Accepts .pipelines ∧
      Grown s.view (s.view.insert p.id p) tally tally' := by
  obtain ⟨db, kept, accepts'⟩ := run_keep_of_accepts accepts p
  have size : (s.view.insert p.id p).size = if s.view.contains p.id then s.view.size else s.view.size + 1 :=
    Std.ExtTreeMap.size_insert
  cases found : s.view[p.id]? with
  | none =>
    have new : s.view.contains p.id = false := by
      rw [Std.ExtTreeMap.contains_eq_isSome_getElem?, found]
      rfl
    refine ⟨{ tally with added := tally.added + 1 }, db, ?_, accepts', ⟨?_, rfl⟩⟩
    · rw [take, Action.run_bind_ok (Stored.run_getView s), found]
      exact Action.run_bind_ok kept _
    · rw [size, new]
      simp only [Bool.false_eq_true, if_false]
      omega
  | some known =>
    have old : s.view.contains p.id = true := by
      rw [Std.ExtTreeMap.contains_eq_isSome_getElem?, found]
      rfl
    rw [old, if_pos rfl] at size
    by_cases same : known = p
    · subst same
      refine ⟨tally, s.db, ?_, accepts, ⟨by rw [size], rfl⟩⟩
      rw [run_take_of_known found, insert_of_getElem? found]
    · refine ⟨{ tally with updated := tally.updated + 1 }, db, ?_, accepts', ⟨by rw [size], rfl⟩⟩
      rw [take, Action.run_bind_ok (Stored.run_getView s), found]
      dsimp only
      rw [if_neg same]
      exact Action.run_bind_ok kept _

theorem run_takeAll (accepts : s.db.Accepts .pipelines) (given : List Pipeline) (tally : PipelineTally) :
    ∃ tally' db, (given.foldlM take tally).run s = (.ok tally', ⟨takeAll given s.view, db⟩) ∧ db.Accepts .pipelines ∧
      Grown s.view (takeAll given s.view) tally tally' := by
  induction given generalizing s tally with
  | nil => exact ⟨tally, s.db, rfl, accepts, ⟨rfl, rfl⟩⟩
  | cons p rest ih =>
    obtain ⟨tally', db, first, accepts', grown⟩ := run_take accepts tally p
    obtain ⟨tally'', db', others, accepts'', grown'⟩ := ih (s := ⟨s.view.insert p.id p, db⟩) accepts' tally'
    refine ⟨tally'', db', ?_, accepts'', grown.trans grown'⟩
    rw [List.foldlM_cons, Action.run_bind_ok first]
    exact others

theorem run_takeAll_of_known (known : ∀ p ∈ given, s.view[p.id]? = some p) (tally : PipelineTally) :
    (given.foldlM take tally).run s = (.ok tally, s) := by
  induction given with
  | nil => rfl
  | cons p rest ih =>
    obtain ⟨here, later⟩ := List.forall_mem_cons.1 known
    rw [List.foldlM_cons, Action.run_bind_ok (run_take_of_known here tally)]
    exact ih later

end First

section Second

theorem run_drop (accepts : s.db.Accepts .pipelines) (tally : PipelineTally) (id : PipelineId) :
    ∃ db, (drop tally id).run s = (.ok { tally with removed := tally.removed + 1 }, ⟨s.view.erase id, db⟩) ∧
      db.Accepts .pipelines := by
  obtain ⟨rows, -, run⟩ := accepts.run_write
    fun rows => (rows.contains (TypedTable.pipelines.key.encode id), rows.erase (TypedTable.pipelines.key.encode id))
  exact ⟨_, Stored.run_onStore_bind_ok run _, accepts.written _⟩

/-- Each identifier that is dropped is known until then. -/
theorem run_dropAll {ids : List PipelineId} (distinct : ids.Nodup) (accepts : s.db.Accepts .pipelines)
    (known : ∀ id ∈ ids, id ∈ s.view) (tally : PipelineTally) :
    ∃ left db, (ids.foldlM drop tally).run s = (.ok { tally with removed := tally.removed + ids.length }, ⟨left, db⟩) ∧
      db.Accepts .pipelines ∧ left.size + ids.length = s.view.size ∧
      ∀ id : PipelineId, left[id]? = if id ∈ ids then none else s.view[id]? := by
  induction ids generalizing s tally with
  | nil => exact ⟨s.view, s.db, rfl, accepts, rfl, fun id => by simp⟩
  | cons id rest ih =>
    obtain ⟨fresh, distinct⟩ := List.nodup_cons.1 distinct
    obtain ⟨here, later⟩ := List.forall_mem_cons.1 known
    obtain ⟨db, first, accepts'⟩ := run_drop accepts tally id
    have still : ∀ other ∈ rest, other ∈ s.view.erase id := by
      intro other mem
      have apart : id ≠ other := fun same => fresh (same ▸ mem)
      exact Std.ExtTreeMap.mem_erase.2 ⟨by simpa using apart, later other mem⟩
    obtain ⟨left, db', others, accepts'', size, rows⟩ :=
      ih (s := ⟨s.view.erase id, db⟩) distinct accepts' still { tally with removed := tally.removed + 1 }
    refine ⟨left, db', ?_, accepts'', ?_, fun other => ?_⟩
    · rw [List.foldlM_cons, Action.run_bind_ok first, others, List.length_cons, Nat.add_assoc, Nat.add_comm 1]
    · have shrunk : (s.view.erase id).size = s.view.size - 1 := by
        rw [Std.ExtTreeMap.size_erase, if_pos (Std.ExtTreeMap.contains_iff_mem.2 here)]
      have some : 0 < s.view.size := by
        rw [← Std.ExtTreeMap.length_keys]
        exact List.length_pos_of_mem (Std.ExtTreeMap.mem_keys.2 here)
      rw [List.length_cons]
      dsimp only at size
      omega
    · rw [rows]
      by_cases same : id = other
      · simp [same]
      · simp [Std.ExtTreeMap.getElem?_erase, same, Ne.symm same]

def unlisted (given : List Pipeline) (view : PipelineRegistry) : List PipelineId :=
  view.keys.filter fun id => given.all (·.id != id)

theorem mem_unlisted_iff : id ∈ unlisted given view ↔ id ∈ view ∧ listed? given id = none := by
  rw [unlisted, List.mem_filter, Std.ExtTreeMap.mem_keys, listed?_eq_none_iff]
  simp

theorem nodup_unlisted (given : List Pipeline) (view : PipelineRegistry) : (unlisted given view).Nodup :=
  Std.ExtTreeMap.nodup_keys.filter _

/-- The first pass leaves out what was left out before. -/
theorem length_unlisted_takeAll (given : List Pipeline) (view : PipelineRegistry) :
    (unlisted given (takeAll given view)).length = (unlisted given view).length := by
  refine ((List.perm_ext_iff_of_nodup (nodup_unlisted ..) (nodup_unlisted ..)).2 fun id => ?_).length_eq
  simp only [mem_unlisted_iff, Std.ExtTreeMap.mem_iff_isSome_getElem?, getElem?_takeAll]
  refine and_congr_left fun none => ?_
  rw [none, Option.none_or]

end Second

theorem replaceWith_eq (given : List Pipeline) : replaceWith given = (do
    let tally ← given.foldlM take {}
    (unlisted given (← Stored.getView)).foldlM drop tally) := rfl

structure Replaced (given : List Pipeline) (s : Stored PipelineRegistry) (tally : PipelineTally)
    (s' : Stored PipelineRegistry) : Prop where
  view (id : PipelineId) : s'.view[id]? = listed? given id
  size : s'.view.size + tally.removed = s.view.size + tally.added
  removed : tally.removed = (unlisted given s.view).length
  accepts : s'.db.Accepts .pipelines
  again (distinct : (given.map Pipeline.id).Nodup) : (replaceWith given).run s' = (.ok {}, s')

theorem run_replaceWith_of_known (distinct : (given.map Pipeline.id).Nodup)
    (known : ∀ id : PipelineId, s.view[id]? = listed? given id) : (replaceWith given).run s = (.ok {}, s) := by
  have first := run_takeAll_of_known (fun p mem => (known p.id).trans (listed?_of_mem distinct mem)) {}
  have none : unlisted given s.view = [] := by
    refine List.eq_nil_iff_forall_not_mem.2 fun id mem => ?_
    obtain ⟨there, absent⟩ := mem_unlisted_iff.1 mem
    rw [Std.ExtTreeMap.mem_iff_isSome_getElem?, known, absent] at there
    cases there
  rw [replaceWith_eq, Action.run_bind_ok first, Action.run_bind_ok (Stored.run_getView s), none]
  rfl

/-- Over a store that takes the writes, and whatever was known before. A table that was in step with the registry
ends as the registry does. -/
theorem replaced_of_accepts (accepts : s.db.Accepts .pipelines) (given : List Pipeline) :
    ∃ tally s', (replaceWith given).run s = (.ok tally, s') ∧ Replaced given s tally s' ∧
      (InStep s → (∀ p ∈ given, p.nodes.length < lengthBound) →
        TypedTable.pipelines.list s'.db = .ok s'.view.toList) := by
  obtain ⟨tally, db, first, accepts', grown⟩ := run_takeAll accepts given {}
  let between : Stored PipelineRegistry := ⟨takeAll given s.view, db⟩
  obtain ⟨left, db', second, accepts'', shrunk, rows⟩ := run_dropAll (s := between) (nodup_unlisted given _) accepts'
    (fun id mem => (mem_unlisted_iff.1 mem).1) tally
  have run : (replaceWith given).run s =
      (.ok { tally with removed := tally.removed + (unlisted given between.view).length }, ⟨left, db'⟩) := by
    rw [replaceWith_eq, Action.run_bind_ok first, Action.run_bind_ok (Stored.run_getView _)]
    exact second
  have view (id : PipelineId) : left[id]? = listed? given id := by
    rw [rows]
    simp only [mem_unlisted_iff, Std.ExtTreeMap.mem_iff_isSome_getElem?]
    rw [show between.view[id]? = _ from getElem?_takeAll given s.view id]
    cases listed? given id with
    | some p => simp
    | none => cases s.view[id]? <;> simp
  have removed : tally.removed + (unlisted given between.view).length = (unlisted given s.view).length := by
    rw [grown.removed, Nat.zero_add]
    exact length_unlisted_takeAll given s.view
  refine ⟨_, _, run, ⟨view, ?_, removed, accepts'', fun distinct => ?_⟩, fun inStep fit => ?_⟩
  · have size : between.view.size + 0 = s.view.size + tally.added := grown.size
    rw [grown.removed]
    dsimp only
    omega
  · exact run_replaceWith_of_known distinct view
  · have kept := (keeps_replaceWith fit s inStep).1
    rw [run] at kept
    exact kept.list_eq

section Repeated

def unused : Stored PipelineRegistry := ⟨∅, .empty⟩

theorem inStep_unused : InStep unused where
  represents := ⟨∅, rfl, ⟨fun stored => by simp at stored, fun id => by simp [unused]⟩⟩
  own shown := by simp [unused] at shown

theorem accepts_unused : unused.db.Accepts .pipelines := ⟨⟨∅, rfl⟩, List.not_mem_nil⟩

def firstList : List Pipeline :=
  [⟨⟨⟨7⟩⟩, [⟨⟨3⟩⟩], .opened⟩, ⟨⟨⟨8⟩⟩, [⟨⟨4⟩⟩], .allocated⟩, ⟨⟨⟨9⟩⟩, [⟨⟨4⟩⟩], .opened⟩]

def secondList : List Pipeline :=
  [⟨⟨⟨7⟩⟩, [⟨⟨3⟩⟩], .opened⟩, ⟨⟨⟨8⟩⟩, [⟨⟨4⟩⟩], .opened⟩, ⟨⟨⟨5⟩⟩, [⟨⟨3⟩⟩], .opened⟩, ⟨⟨⟨5⟩⟩, [⟨⟨3⟩⟩], .closed⟩]

theorem replaced_of_accepts_repeated : unused.db.Accepts .pipelines ∧ ∃ tally s tally' s',
    (replaceWith firstList).run unused = (.ok tally, s) ∧ Replaced firstList unused tally s ∧ InStep s ∧
    (replaceWith secondList).run s = (.ok tally', s') ∧ Replaced secondList s tally' s' ∧
    TypedTable.pipelines.list s'.db = .ok s'.view.toList ∧
    (replaceWith firstList).run s = (.ok {}, s) ∧ tally' = ⟨1, 2, 1⟩ := by
  obtain ⟨tally, s, run, replaced, -⟩ := replaced_of_accepts accepts_unused firstList
  obtain ⟨tally', s', run', replaced', table⟩ := replaced_of_accepts replaced.accepts secondList
  have inStep := (@keeps_replaceWith firstList (by decide) unused inStep_unused).1
  rw [run] at inStep
  have listed := table inStep (by decide)
  refine ⟨accepts_unused, tally, s, tally', s', run, replaced, inStep, run', replaced', listed,
    replaced.again (by decide), ?_⟩
  have told : ((replaceWith secondList).run ((replaceWith firstList).run unused).2).1.toOption = some ⟨1, 2, 1⟩ := by
    decide +kernel
  rw [run, run'] at told
  exact Option.some.inj told

end Repeated

end ClusterCatalog.PipelineRegistry
