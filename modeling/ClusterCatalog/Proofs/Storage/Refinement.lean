import ClusterCatalog.Proofs.Storage.Schema
/-!
Stores as finite maps. An operation on the bytes of a store is one on maps of keys to what is kept of the
values: both have the same outcome, and the tables show the maps again. So it is after any number of operations.
-/
namespace ClusterCatalog

variable {σ α β : Type} {n : TableName}

/-- The tables of a store as maps, and which of the coming writes on each are refused. -/
structure Maps where
  entries : (n : TableName) → Std.ExtTreeMap n.Key n.Value
  refusals : TableName → List Bool

namespace Maps

def write (n : TableName) (change : Std.ExtTreeMap n.Key n.Value → α × Std.ExtTreeMap n.Key n.Value) :
    Action Maps StoreError α := fun m =>
  let left := Function.update m.refusals n (m.refusals n).tail
  if (m.refusals n).head? = some true then (.error .refused, ⟨m.entries, left⟩)
  else (.ok (change (m.entries n)).1, ⟨Function.update m.entries n (change (m.entries n)).2, left⟩)

structure Shows (m : Maps) (db : Database) : Prop where
  represents (n : TableName) : ∃ rows, db.tables n = .rows rows ∧
    (TypedTable.named n).Represents rows fun k => (m.entries n)[k]?
  refusals : db.refusals = m.refusals

def fresh (refusals : TableName → List Bool) : Maps := ⟨fun _ => ∅, refusals⟩

theorem shows_fresh (refusals : TableName → List Bool) : (fresh refusals).Shows { Database.empty with refusals } where
  represents n := ⟨∅, rfl, by simp, fun k => by simp [fresh]⟩
  refusals := rfl

end Maps

inductive Operation (σ : Type) where
  | put (store : σ) (n : TableName) (key : n.Key) (value : n.Value)
  | putAll (store : σ) (n : TableName) (given : List (n.Key × n.Value))
  | delete (store : σ) (n : TableName) (key : n.Key)
  | copyInto (n : TableName) (source target : σ)

namespace Operation

inductive Reply where
  | done
  | rows (count : Nat)
  | present (was : Bool)
  deriving DecidableEq

def target : Operation σ → σ
  | put store .. | putAll store .. | delete store .. => store
  | copyInto _ _ target => target

def table : Operation σ → TableName
  | put _ n .. | putAll _ n .. | delete _ n .. | copyInto n .. => n

def Fits : Operation σ → Prop
  | put _ n _ value => n.Fits value
  | putAll _ n given => ∀ row ∈ given, n.Fits row.2
  | delete .. | copyInto .. => True

def onRows (stores : σ → Database) : Operation σ → Action Database StoreError Reply
  | put _ n key value => (fun _ => .done) <$> (TypedTable.named n).put key value
  | putAll _ n given => .rows <$> (TypedTable.named n).putAll given
  | delete _ n key => .present <$> (TypedTable.named n).delete key
  | copyInto n source _ => .rows <$> (TypedTable.named n).copyFrom (stores source)

def onMaps (stores : σ → Maps) : Operation σ → Action Maps StoreError Reply
  | put _ n key value => Maps.write n fun own => (.done, own.insert key (n.kept value))
  | putAll _ n given => Maps.write n fun own =>
      (.rows given.length, given.foldl (fun own row => own.insert row.1 (n.kept row.2)) own)
  | delete _ n key => Maps.write n fun own => (.present (own.contains key), own.erase key)
  | copyInto n source _ =>
      let rows := (stores source).entries n
      Maps.write n fun own => (.rows rows.size, rows.toList.foldl (fun own row => own.insert row.1 row.2) own)

variable [DecidableEq σ]

def perform (op : Operation σ) : Action (σ → Database) StoreError Reply := fun stores =>
  ((op.onRows stores).within (· op.target) fun stores db => Function.update stores op.target db).run stores

def plain (op : Operation σ) : Action (σ → Maps) StoreError Reply := fun stores =>
  ((op.onMaps stores).within (· op.target) fun stores m => Function.update stores op.target m).run stores

end Operation

def Action.each {ε : Type} (f : α → Action σ ε β) : List α → σ → List (Except ε β) × σ
  | [], s => ([], s)
  | a :: l, s =>
    let (outcome, s) := (f a).run s
    let (outcomes, s) := each f l s
    (outcome :: outcomes, s)

namespace TypedTable

variable {rows others : Rows} {own given : Std.ExtTreeMap n.Key n.Value}

theorem represents_put (h : (named n).Represents rows fun k => own[k]?) (k : n.Key) {v : n.Value} (fit : n.Fits v) :
    (named n).Represents ((named n).insertRow rows (k, v)) fun k' => (own.insert k (n.kept v))[k']? := by
  have read := (faithful_named n).decodeFront_encode fit
  have inserted := update_getElem?_insert id own k (n.kept v)
  simp only [Option.map_id, id] at inserted
  rw [← inserted]
  exact represents_insert (exact_named n) h read

theorem represents_putAll (h : (named n).Represents rows fun k => own[k]?) {l : List (n.Key × n.Value)}
    (fit : ∀ row ∈ l, n.Fits row.2) :
    (named n).Represents (l.foldl (named n).insertRow rows)
      fun k => (l.foldl (fun own row => own.insert row.1 (n.kept row.2)) own)[k]? := by
  induction l generalizing rows own with
  | nil => exact h
  | cons row l ih =>
    obtain ⟨first, rest⟩ := List.forall_mem_cons.1 fit
    exact ih (represents_put h row.1 first) rest

theorem represents_delete (h : (named n).Represents rows fun k => own[k]?) (k : n.Key) :
    (named n).Represents (rows.erase ((named n).key.encode k)) fun k' => (own.erase k)[k']? := by
  rw [← update_getElem?_erase]
  exact represents_erase (exact_named n) h k

theorem contains_of_represents (h : (named n).Represents rows fun k => own[k]?) (k : n.Key) :
    rows.contains ((named n).key.encode k) = own.contains k := by
  have value := congrArg Option.isSome (h.value k)
  simpa using value

/-- Rows that are put over others show a map that is put over theirs. -/
theorem represents_copy (h : (named n).Represents rows fun k => own[k]?)
    (g : (named n).Represents others fun k => given[k]?) :
    (named n).Represents (others.toList.foldl (fun rows row => rows.insert row.1 row.2) rows)
      fun k => (given.toList.foldl (fun own row => own.insert row.1 row.2) own)[k]? where
  proper {bytes value} stored := by
    rw [getElem?_foldl_insert, Option.or_eq_some_iff] at stored
    rcases stored with stored | ⟨-, stored⟩
    · exact g.proper stored
    · exact h.proper stored
  value k := by
    rw [getElem?_foldl_insert, getElem?_foldl_insert, Option.map_or, Option.map_or, g.value, h.value]

theorem size_of_represents (h : (named n).Represents rows fun k => own[k]?) : rows.size = own.size := by
  let db : Database := Database.empty.setTable n (.rows rows)
  have table : db.tables (named n).name = .rows rows := by simp [db]
  have listed := list_eq_of_represents (f := id) (exact_named n) table (by simpa using h)
  rw [list, Database.rows?, table] at listed
  simpa using (length_of_mapM_ok listed).symm

end TypedTable

theorem Database.refusals_dropRefusal (db : Database) (n : TableName) :
    (db.dropRefusal n).refusals = Function.update db.refusals n (db.refusals n).tail := by
  funext other
  by_cases same : other = n
  · simp [dropRefusal, same]
  · simp [dropRefusal, same]

namespace Maps

variable {m : Maps} {db : Database}

structure Follows (m : Maps) (db : Database) (plain : Action Maps StoreError α)
    (a : Action Database StoreError α) : Prop where
  outcome : (a.run db).1 = (plain.run m).1
  shows : (plain.run m).2.Shows (a.run db).2

/-- A write is refused in both, or both are changed in one table only. -/
theorem Shows.write (h : m.Shows db) {change : Rows → β × Rows} {tell : β → α}
    {plain : Std.ExtTreeMap n.Key n.Value → α × Std.ExtTreeMap n.Key n.Value}
    (same : ∀ rows, (TypedTable.named n).Represents rows (fun k => (m.entries n)[k]?) →
      tell (change rows).1 = (plain (m.entries n)).1 ∧
      (TypedTable.named n).Represents (change rows).2 fun k => (plain (m.entries n)).2[k]?) :
    m.Follows db (Maps.write n plain) (tell <$> Database.write n change) := by
  obtain ⟨rows, table, represents⟩ := h.represents n
  obtain ⟨told, changed⟩ := same rows represents
  have left : (db.dropRefusal n).refusals = Function.update m.refusals n (m.refusals n).tail := by
    rw [Database.refusals_dropRefusal, h.refusals]
  by_cases refused : (m.refusals n).head? = some true
  · have run := Database.run_write_of_refused table (h.refusals ▸ refused) change
    have plainRun : (Maps.write n plain).run m = (.error .refused, ⟨m.entries, _⟩) := if_pos refused
    refine ⟨?_, ?_⟩ <;> rw [Action.run_map, run, plainRun]
    · rfl
    · exact ⟨h.represents, left⟩
  · have run := Database.run_write_of_taken table (h.refusals ▸ refused) change
    have plainRun : (Maps.write n plain).run m = (.ok (plain (m.entries n)).1, ⟨_, _⟩) := if_neg refused
    refine ⟨?_, ?_⟩ <;> rw [Action.run_map, run, plainRun]
    · exact congrArg Except.ok told
    · refine ⟨fun other => ?_, left⟩
      by_cases equal : other = n
      · subst equal
        exact ⟨_, Database.tables_written .., by simpa using changed⟩
      · obtain ⟨rows', table', represents'⟩ := h.represents other
        refine ⟨rows', ?_, by simpa [Function.update_of_ne equal] using represents'⟩
        rw [← table']
        exact Database.tables_written_of_ne equal _

end Maps

namespace Operation

variable {stores : σ → Database} {maps : σ → Maps}

theorem follows_onMaps {op : Operation σ} (fit : op.Fits) (shows : ∀ i, (maps i).Shows (stores i)) :
    (maps op.target).Follows (stores op.target) (op.onMaps maps) (op.onRows stores) := by
  cases op with
  | put store n key value =>
    simp only [onRows, onMaps, TypedTable.put, TypedTable.name_named]
    exact (shows store).write fun rows represents => ⟨rfl, TypedTable.represents_put represents key fit⟩
  | putAll store n given =>
    simp only [onRows, onMaps, TypedTable.putAll, TypedTable.name_named]
    exact (shows store).write fun rows represents => ⟨rfl, TypedTable.represents_putAll represents fit⟩
  | delete store n key =>
    simp only [onRows, onMaps, TypedTable.delete, TypedTable.name_named]
    refine (shows store).write fun rows represents => ⟨?_, TypedTable.represents_delete represents key⟩
    exact congrArg Reply.present (TypedTable.contains_of_represents represents key)
  | copyInto n source target =>
    obtain ⟨others, table, given⟩ := (shows source).represents n
    have copy := TypedTable.copyFrom_eq (t := TypedTable.named n) (by simpa using table)
    simp only [onRows, onMaps, copy, TypedTable.name_named]
    refine (shows target).write fun rows represents => ⟨?_, TypedTable.represents_copy represents given⟩
    exact congrArg Reply.rows (TypedTable.size_of_represents given)

/-- An operation is done to one table, or it fails and all tables are as they were. -/
theorem onRows_cases (op : Operation σ) (stores : σ → Database) (db : Database) :
    (∃ reply rows, (op.onRows stores).run db = (.ok reply, db.written op.table rows)) ∨
      ∃ e db', (op.onRows stores).run db = (.error e, db') ∧ db'.tables = db.tables := by
  have write {β : Type} (tell : β → Reply) (n : TableName) (change : Rows → β × Rows) :
      (∃ reply rows, (tell <$> Database.write n change).run db = (.ok reply, db.written n rows)) ∨
        ∃ e db', (tell <$> Database.write n change).run db = (.error e, db') ∧ db'.tables = db.tables := by
    obtain ⟨rows, -, run⟩ | ⟨-, e, db', run, same, -⟩ := Database.write_cases n change db
    · exact .inl ⟨_, _, by rw [Action.run_map, run]; rfl⟩
    · exact .inr ⟨e, db', by rw [Action.run_map, run]; rfl, same⟩
  cases op with
  | put store n key value =>
    simp only [onRows, table, TypedTable.put, TypedTable.name_named]
    exact write ..
  | putAll store n given =>
    simp only [onRows, table, TypedTable.putAll, TypedTable.name_named]
    exact write ..
  | delete store n key =>
    simp only [onRows, table, TypedTable.delete, TypedTable.name_named]
    exact write ..
  | copyInto n source target =>
    simp only [onRows, table]
    cases read : (stores source).tables n with
    | rows rows =>
      have copy := TypedTable.copyFrom_eq (t := TypedTable.named n) (by simpa using read)
      simp only [copy, TypedTable.name_named]
      exact write ..
    | foreign =>
      refine .inr ⟨.foreignTable, db, ?_, rfl⟩
      have unread : (stores source).rows? (TypedTable.named n).name = .error .foreignTable := by
        simp [Database.rows?, read]
      rw [TypedTable.copyFrom, unread, Action.run_map]
      rfl

section Stores

variable [DecidableEq σ]

/-- An operation does to the stores what it does to the maps that they show. -/
theorem step {op : Operation σ} (fit : op.Fits) (shows : ∀ i, (maps i).Shows (stores i)) :
    (op.perform.run stores).1 = (op.plain.run maps).1 ∧
      ∀ i, ((op.plain.run maps).2 i).Shows ((op.perform.run stores).2 i) := by
  have follows := follows_onMaps fit shows
  refine ⟨follows.outcome, fun i => ?_⟩
  change (Function.update maps op.target ((op.onMaps maps).run _).2 i).Shows
    (Function.update stores op.target ((op.onRows stores).run _).2 i)
  by_cases same : i = op.target
  · subst same
    simpa using follows.shows
  · simpa [Function.update_of_ne same] using shows i

/-- So do all of them, one after the other. -/
theorem each_step {ops : List (Operation σ)} (fit : ∀ op ∈ ops, op.Fits) (shows : ∀ i, (maps i).Shows (stores i)) :
    (Action.each perform ops stores).1 = (Action.each plain ops maps).1 ∧
      ∀ i, ((Action.each plain ops maps).2 i).Shows ((Action.each perform ops stores).2 i) := by
  induction ops generalizing stores maps with
  | nil => exact ⟨rfl, shows⟩
  | cons op ops ih =>
    obtain ⟨first, rest⟩ := List.forall_mem_cons.1 fit
    obtain ⟨outcome, shows⟩ := step first shows
    obtain ⟨outcomes, shows⟩ := ih rest shows
    exact ⟨congrArg₂ List.cons outcome outcomes, shows⟩

theorem tables_of_failed {op : Operation σ} {e : StoreError} (failed : (op.perform.run stores).1 = .error e) (i : σ) :
    ((op.perform.run stores).2 i).tables = (stores i).tables := by
  change (Function.update stores op.target ((op.onRows stores).run _).2 i).tables = _
  by_cases same : i = op.target
  · subst same
    obtain ⟨reply, rows, run⟩ | ⟨e', db', run, unchanged⟩ := onRows_cases op stores (stores op.target)
    · have done : (op.perform.run stores).1 = .ok reply := congrArg Prod.fst run
      rw [failed] at done
      cases done
    · rw [Function.update_self, run, unchanged]
  · rw [Function.update_of_ne same]

theorem tables_of_other (op : Operation σ) (stores : σ → Database) {i : σ} {n : TableName}
    (other : i ≠ op.target ∨ n ≠ op.table) : ((op.perform.run stores).2 i).tables n = (stores i).tables n := by
  change (Function.update stores op.target ((op.onRows stores).run _).2 i).tables n = _
  by_cases same : i = op.target
  · subst same
    have other : n ≠ op.table := other.resolve_left (· rfl)
    obtain ⟨reply, rows, run⟩ | ⟨e, db', run, unchanged⟩ := onRows_cases op stores (stores op.target)
    · rw [Function.update_self, run, Database.tables_written_of_ne other]
    · rw [Function.update_self, run, unchanged]
  · rw [Function.update_of_ne same]

/-- Operations have the outcomes that they have on maps, and then every table is read, listed and counted as its
map. One that fails leaves every table of every store, and none changes a table of another name. -/
theorem agrees_with_maps {ops : List (Operation σ)} (fit : ∀ op ∈ ops, op.Fits)
    (shows : ∀ i, (maps i).Shows (stores i)) :
    ∃ outcomes stores' maps', Action.each perform ops stores = (outcomes, stores') ∧
      Action.each plain ops maps = (outcomes, maps') ∧
      (∀ i n,
        (∀ k, (TypedTable.named n).get (stores' i) k = .ok ((maps' i).entries n)[k]?) ∧
        (TypedTable.named n).list (stores' i) = .ok ((maps' i).entries n).toList ∧
        (((maps' i).entries n).toList.Pairwise fun a b => compare a.1 b.1 = .lt) ∧
        (TypedTable.named n).count (stores' i) = .ok ((maps' i).entries n).size) ∧
      (∀ (op : Operation σ) (stores : σ → Database) (e : StoreError), (op.perform.run stores).1 = .error e →
        ∀ i, ((op.perform.run stores).2 i).tables = (stores i).tables) ∧
      ∀ (op : Operation σ) (stores : σ → Database) (i : σ) (n : TableName), i ≠ op.target ∨ n ≠ op.table →
        ((op.perform.run stores).2 i).tables n = (stores i).tables n := by
  obtain ⟨outcomes, shown⟩ := each_step fit shows
  refine ⟨_, _, _, rfl, Prod.ext outcomes.symm rfl, fun i n => ?_, fun op stores e => tables_of_failed,
    fun op stores i n => tables_of_other op stores⟩
  obtain ⟨rows, table, represents⟩ := (shown i).represents n
  rw [← TypedTable.name_named n] at table
  have listed := TypedTable.list_eq_of_represents (f := id) (TypedTable.exact_named n) table
    (by simpa using represents)
  refine ⟨fun k => TypedTable.get_of_represents table represents, by simpa using listed, ?_, ?_⟩
  · exact Std.ExtTreeMap.ordered_keys_toList
  · rw [TypedTable.count, Database.rows?, table, ← TypedTable.size_of_represents represents]
    rfl

end Stores

section Exchange

open TypedTable

def numbered (id sequence : UInt64) : ContainerInfo := ⟨⟨id⟩, .opened, sequence, none, 0, 0, 5⟩

def bareMaps : Bool → Maps := fun _ => .fresh fun n => if n = .nodes then [true] else []

def bareStores : Bool → Database := fun i => { Database.empty with refusals := (bareMaps i).refusals }

def exchange : List (Operation Bool) :=
  [.putAll false .containers [(⟨1⟩, numbered 1 7), (⟨1⟩, numbered 1 8), (⟨256⟩, numbered 256 9)],
    .put true .containers (⟨1⟩ : ContainerId) (numbered 1 3),
    .put true .containers (⟨2⟩ : ContainerId) (numbered 2 4),
    .copyInto .containers false true,
    .delete true .containers (⟨2⟩ : ContainerId),
    .delete true .containers (⟨2⟩ : ContainerId),
    .put true .nodes scopedRow.details.id scopedRow,
    .put true .nodes scopedRow.details.id scopedRow]

theorem agrees_with_maps_exchange :
    (∀ op ∈ exchange, op.Fits) ∧ (∀ i, (bareMaps i).Shows (bareStores i)) ∧
    ∃ outcomes stores, Action.each perform exchange bareStores = (outcomes, stores) ∧
      outcomes.map Except.toOption = [some (.rows 3), some .done, some .done, some (.rows 2), some (.present true),
        some (.present false), none, some .done] ∧
      (named .containers).list (stores true) = .ok [(⟨1⟩, numbered 1 8), (⟨256⟩, numbered 256 9)] ∧
      (named .containers).count (stores true) = .ok 2 ∧
      (named .nodes).get (stores true) scopedRow.details.id = .ok (some scopedRow.stored) ∧
      (named .nodes).get (stores false) scopedRow.details.id = .ok none := by
  have fit : ∀ op ∈ exchange, op.Fits := by
    have node : (Utf8.encode scopedRow.details.hostname).length < lengthBound := by decide
    simp only [exchange, Fits, TableName.Fits]
    simpa using node
  have shows (i : Bool) : (bareMaps i).Shows (bareStores i) := Maps.shows_fresh _
  obtain ⟨outcomes, stores, maps, run, plainRun, agree, -⟩ := agrees_with_maps fit shows
  have outcomes_eq : (Action.each plain exchange bareMaps).1 = outcomes := congrArg Prod.fst plainRun
  have maps_eq : (Action.each plain exchange bareMaps).2 = maps := congrArg Prod.snd plainRun
  subst outcomes_eq maps_eq
  refine ⟨fit, shows, _, stores, run, by decide +kernel, ?_, ?_, ?_, ?_⟩
  · refine (agree true .containers).2.1.trans (congrArg Except.ok ?_)
    decide +kernel
  · refine (agree true .containers).2.2.2.trans (congrArg Except.ok ?_)
    decide +kernel
  · refine ((agree true .nodes).1 scopedRow.details.id).trans (congrArg Except.ok ?_)
    decide +kernel
  · refine ((agree false .nodes).1 scopedRow.details.id).trans (congrArg Except.ok ?_)
    decide +kernel

/-- Neither the scope nor the flow label of an address is stored, so a row with them is not read as the map that it
was put into has it. -/
theorem get_put_scopedRow :
    ∃ db, (nodes.put scopedRow.details.id scopedRow).run .empty = (.ok (), db) ∧
      ((∅ : Std.ExtTreeMap NodeId NodeRow).insert scopedRow.details.id scopedRow)[scopedRow.details.id]? =
        some scopedRow ∧
      nodes.get db scopedRow.details.id = .ok (some scopedRow.stored) ∧ scopedRow.stored ≠ scopedRow :=
  ⟨_, rfl, by simp, eq_ok_of_toOption (by decide +kernel), by decide⟩

end Exchange

end Operation

end ClusterCatalog
