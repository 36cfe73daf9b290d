import ClusterCatalog.Proofs.Action
import ClusterCatalog.Proofs.Storage.Mirror
/-!
Tables whose rows stand under their own keys, each a mirror of a map in memory: what a write does to
both, and what comes of a map that is read back.
-/
namespace ClusterCatalog

open Database (Confined)

/-- Folding entries into a map, each under its own key, with what stood there before. -/
theorem getElem?_foldl_upsert {κ α β : Type} [Ord κ] [Std.TransOrd κ] [Std.LawfulEqOrd κ] [DecidableEq κ]
    (idOf : α → κ) (make : Option β → α → β) {l : List α} (distinct : (l.map idOf).Nodup)
    (m : Std.ExtTreeMap κ β) (k : κ) :
    (l.foldl (fun m a => m.insert (idOf a) (make m[idOf a]? a)) m)[k]? =
      match l.find? (idOf · = k) with
      | some a => some (make m[k]? a)
      | none => m[k]? := by
  induction l generalizing m with
  | nil => rfl
  | cons a l ih =>
    obtain ⟨fresh, distinct⟩ := List.nodup_cons.1 distinct
    rw [List.foldl_cons, ih distinct, List.find?_cons]
    by_cases same : idOf a = k
    · subst same
      have absent : l.find? (idOf · = idOf a) = none := by
        rw [List.find?_eq_none]
        intro b mem equal
        exact fresh (List.mem_map.2 ⟨b, mem, by simpa using equal⟩)
      simp [absent]
    · have other : (m.insert (idOf a) (make m[idOf a]? a))[k]? = m[k]? := by
        simp [Std.ExtTreeMap.getElem?_insert, same]
      simp [other, same]

/-- To put back what is there changes nothing. -/
theorem insert_of_getElem? {κ β : Type} [Ord κ] [Std.TransOrd κ] [Std.LawfulEqOrd κ] [DecidableEq κ]
    {m : Std.ExtTreeMap κ β} {k : κ} {b : β} (here : m[k]? = some b) : m.insert k b = m := by
  refine Std.ExtTreeMap.ext_getElem? fun other => ?_
  by_cases same : k = other
  · simp [← same, here]
  · simp [Std.ExtTreeMap.getElem?_insert, same]

/-- What is put into a map is shown in the place of what was there. -/
theorem update_getElem?_insert {κ α β : Type} [Ord κ] [Std.TransOrd κ] [Std.LawfulEqOrd κ] [DecidableEq κ]
    (f : β → α) (m : Std.ExtTreeMap κ β) (k : κ) (b : β) :
    Function.update (fun k => (m[k]?).map f) k (some (f b)) = fun other => ((m.insert k b)[other]?).map f := by
  funext other
  by_cases same : other = k
  · subst same
    simp
  · simp [same, Std.ExtTreeMap.getElem?_insert, Ne.symm same]

theorem update_getElem?_erase {κ β : Type} [Ord κ] [Std.TransOrd κ] [Std.LawfulEqOrd κ] [DecidableEq κ]
    (m : Std.ExtTreeMap κ β) (k : κ) : Function.update (fun k => m[k]?) k none = fun other => (m.erase k)[other]? := by
  funext other
  by_cases same : other = k
  · subst same
    simp
  · simp [same, Std.ExtTreeMap.getElem?_erase, Ne.symm same]

def Stored.Keeps {σ : Type} (inv : Stored σ → Prop) (names : List TableName) (s s' : Stored σ) : Prop :=
  inv s → inv s' ∧ Confined names s.db s'.db

theorem Stored.composes_keeps {σ : Type} (inv : Stored σ → Prop) (names : List TableName) :
    Action.Composes (Stored.Keeps inv names) where
  refl s h := ⟨h, .refl names s.db⟩
  trans h g i := ⟨(g (h i).1).1, (h i).2.trans (g (h i).1).2⟩

namespace TypedTable

variable {κ α β : Type} {t : TypedTable κ α} {idOf : α → κ} {db db' : Database} {view : κ → Option α}

/-- The table can be read, its rows stand under their own keys, and together they are the map. -/
structure Mirrors (t : TypedTable κ α) (idOf : α → κ) (db : Database) (view : κ → Option α) : Prop where
  represents : ∃ rows, db.tables t.name = .rows rows ∧ t.Represents rows view
  own {k : κ} {a : α} (h : view k = some a) : idOf a = k

def OwnKeys (t : TypedTable κ α) (idOf : α → κ) (db : Database) : Prop :=
  ∀ rows, db.tables t.name = .rows rows → ∀ k a, t.lookup rows k = some a → idOf a = k

theorem get_eq_ok_some_iff {k : κ} {a : α} :
    t.get db k = .ok (some a) ↔ ∃ rows, db.tables t.name = .rows rows ∧ t.lookup rows k = some a := by
  constructor
  · intro h
    cases table : db.tables t.name with
    | foreign => simp [get, Database.rows?, table, bind, Except.bind] at h
    | rows rows =>
      cases stored : rows[t.key.encode k]? with
      | none =>
        rw [get_of_absent table stored] at h
        cases h
      | some bytes =>
        rw [get_of_stored table stored, decodeValue] at h
        cases read : t.value.decodeFront bytes with
        | none =>
          rw [read] at h
          cases h
        | some b =>
          rw [read] at h
          cases h
          exact ⟨rows, rfl, by rw [lookup, stored, Option.bind_some, read]⟩
  · rintro ⟨rows, table, shown⟩
    obtain ⟨bytes, stored, read⟩ := Option.bind_eq_some_iff.1 shown
    rw [get_of_stored table stored, decodeValue_of_decodeFront read]
    rfl

theorem ownKeys_iff : t.OwnKeys idOf db ↔ ∀ k a, t.get db k = .ok (some a) → idOf a = k := by
  constructor
  · intro own k a h
    obtain ⟨rows, table, shown⟩ := get_eq_ok_some_iff.1 h
    exact own rows table k a shown
  · intro own rows table k a shown
    exact own k a (get_eq_ok_some_iff.2 ⟨rows, table, shown⟩)

theorem Mirrors.congr (h : t.Mirrors idOf db view) (same : db'.tables t.name = db.tables t.name) :
    t.Mirrors idOf db' view := by
  obtain ⟨rows, table, represents⟩ := h.represents
  exact ⟨⟨rows, same.trans table, represents⟩, h.own⟩

theorem Mirrors.confined {names : List TableName} (h : t.Mirrors idOf db view)
    (confined : Confined names db db') (other : t.name ∉ names) : t.Mirrors idOf db' view :=
  h.congr (confined.tables other)

theorem OwnKeys.confined {names : List TableName} (h : t.OwnKeys idOf db) (confined : Confined names db db')
    (other : t.name ∉ names) : t.OwnKeys idOf db' :=
  fun rows table => h rows ((confined.tables other).symm.trans table)

theorem represents_of_values {read : List α} (h : t.values db = .ok read) :
    ∃ rows, db.tables t.name = .rows rows ∧ t.Represents rows (t.lookup rows) := by
  obtain ⟨entries, listed, -⟩ := exists_of_map_eq_ok h
  exact represents_of_list listed

theorem mem_values_of_get [Ord κ] (exact : t.key.Exact) {read : List α} (values : t.values db = .ok read) {k : κ}
    {a : α} (stored : t.get db k = .ok (some a)) : a ∈ read := by
  obtain ⟨entries, listed, rfl⟩ := exists_of_map_eq_ok values
  obtain ⟨rows, table, represents⟩ := represents_of_list listed
  obtain ⟨entries', listed', -, shows⟩ := list_of_represents exact table represents
  rw [listed] at listed'
  cases listed'
  rw [get_of_represents table represents, Except.ok.injEq] at stored
  exact List.mem_map.2 ⟨(k, a), (shows k a).2 stored, rfl⟩

theorem mirrors_of_values {read : List α} (h : t.values db = .ok read) (own : t.OwnKeys idOf db) :
    ∃ view, t.Mirrors idOf db view := by
  obtain ⟨rows, table, represents⟩ := represents_of_values h
  exact ⟨t.lookup rows, ⟨rows, table, represents⟩, own rows table _ _⟩

theorem Mirrors.ownKeys (h : t.Mirrors idOf db view) : t.OwnKeys idOf db := by
  intro rows table k a shown
  obtain ⟨rows', table', represents⟩ := h.represents
  rw [table] at table'
  cases table'
  obtain ⟨bytes, stored, read⟩ := Option.bind_eq_some_iff.1 shown
  exact h.own (represents.some_iff.2 ⟨bytes, stored, read⟩)

/-- A table mirrors one map only. -/
theorem Mirrors.unique {other : κ → Option α} (h : t.Mirrors idOf db view) (g : t.Mirrors idOf db other) :
    view = other := by
  obtain ⟨rows, table, represents⟩ := h.represents
  obtain ⟨rows', table', represents'⟩ := g.represents
  rw [table] at table'
  cases table'
  funext k
  refine Option.ext fun a => ?_
  rw [represents.some_iff, represents'.some_iff]

theorem Mirrors.get (h : t.Mirrors idOf db view) (k : κ) : t.get db k = .ok (view k) := by
  obtain ⟨rows, table, represents⟩ := h.represents
  exact get_of_represents table represents

section Ordered

variable [Ord κ] [DecidableEq κ] {fits : α → Prop} {norm : α → α}

omit [DecidableEq κ] in
theorem Mirrors.of_shown (sound : t.Sound fits norm idOf) (h : t.Mirrors idOf db view) {k : κ} {a : α}
    (shown : view k = some a) : fits a ∧ norm a = a := by
  obtain ⟨rows, -, represents⟩ := h.represents
  obtain ⟨bytes, -, read⟩ := represents.some_iff.1 shown
  obtain ⟨⟨a', rest⟩, decoded, rfl⟩ := Option.map_eq_some_iff.1 read
  exact sound.value.of_decode decoded

/-- A row is written under its own key, or nothing is. -/
theorem Mirrors.put (sound : t.Sound fits norm idOf) (h : t.Mirrors idOf db view) {a : α} (fit : fits a) :
    (∃ db', (t.put (idOf a) a).run db = (.ok (), db') ∧ Confined [t.name] db db' ∧
      t.Mirrors idOf db' (Function.update view (idOf a) (some (norm a)))) ∨
    (∃ e db', (t.put (idOf a) a).run db = (.error e, db') ∧ Confined [] db db') := by
  obtain ⟨rows, table, represents⟩ := h.represents
  obtain ⟨rows', table', run⟩ | ⟨-, e, db', run, tables, refusals⟩ :=
    Database.write_cases t.name (fun rows => ((), t.insertRow rows (idOf a, a))) db
  · rw [table] at table'
    cases table'
    refine .inl ⟨_, run, Database.confined_written .., ?_⟩
    refine ⟨⟨_, Database.tables_written ..,
      represents_insert sound.key represents (sound.value.decodeFront_encode fit)⟩, ?_⟩
    intro k b shown
    by_cases same : k = idOf a
    · subst same
      rw [Function.update_self] at shown
      cases shown
      exact sound.own_norm a
    · rw [Function.update_of_ne same] at shown
      exact h.own shown
  · exact .inr ⟨e, db', run, fun _ => congrFun tables _, refusals⟩

/-- An action goes on behind a row that is stored, and ends at one that is refused. -/
theorem Mirrors.run_put {σ ε : Type} (sound : t.Sound fits norm idOf) {s : Stored σ}
    (h : t.Mirrors idOf s.db view) {a : α} (fit : fits a) (label : StoreError → ε) :
    (∃ db', Confined [t.name] s.db db' ∧
      t.Mirrors idOf db' (Function.update view (idOf a) (some (norm a))) ∧
      ∀ {β : Type} (next : Unit → Action (Stored σ) ε β),
        (Stored.onStore ((t.put (idOf a) a).relabel label) >>= next).run s = (next ()).run { s with db := db' }) ∨
    (∃ e db', Confined [] s.db db' ∧ ∀ {β : Type} (next : Unit → Action (Stored σ) ε β),
      (Stored.onStore ((t.put (idOf a) a).relabel label) >>= next).run s = (.error e, { s with db := db' })) := by
  obtain ⟨db', run, confined, mirrors⟩ | ⟨e, db', run, confined⟩ := h.put sound fit
  · have stored : ((t.put (idOf a) a).relabel label).run s.db = (.ok (), db') := Action.run_relabel_ok run _
    exact .inl ⟨db', confined, mirrors, Stored.run_onStore_bind_ok stored⟩
  · have refused : ((t.put (idOf a) a).relabel label).run s.db = (.error (label e), db') :=
      Action.run_relabel_error run _
    exact .inr ⟨label e, db', confined, Stored.run_onStore_bind_error refused⟩

section PutAll

variable {given : List (κ × α)} {rows : Rows} {k : κ}

omit [DecidableEq κ] in
theorem getElem?_foldl_insertRow_of_absent (exact : t.key.Exact) (absent : ∀ x ∈ given, x.1 ≠ k) :
    (given.foldl t.insertRow rows)[t.key.encode k]? = rows[t.key.encode k]? := by
  induction given generalizing rows with
  | nil => rfl
  | cons x rest ih =>
    obtain ⟨other, absent⟩ := List.forall_mem_cons.1 absent
    have differ : t.key.encode x.1 ≠ t.key.encode k := fun equal => other (exact.encode_inj equal)
    rw [List.foldl_cons, ih absent, insertRow, Std.ExtTreeMap.getElem?_insert, if_neg (by simpa using differ)]

omit [DecidableEq κ] in
theorem getElem?_foldl_insertRow_of_mem (exact : t.key.Exact) (distinct : given.Pairwise fun x y => x.1 ≠ y.1)
    {x : κ × α} (mem : x ∈ given) :
    (given.foldl t.insertRow rows)[t.key.encode x.1]? = some (t.value.encode x.2) := by
  induction given generalizing rows with
  | nil => cases mem
  | cons y rest ih =>
    obtain ⟨other, distinct⟩ := List.pairwise_cons.1 distinct
    obtain rfl | mem := List.mem_cons.1 mem
    · rw [List.foldl_cons, getElem?_foldl_insertRow_of_absent exact fun y mem => (other y mem).symm]
      simp [insertRow]
    · exact ih distinct mem

omit [DecidableEq κ] in
/-- The given rows are read back and all others are left, or no row is written. -/
theorem putAll_cases (sound : t.Sound fits norm idOf) (db : Database)
    (distinct : given.Pairwise fun x y => x.1 ≠ y.1) (fit : ∀ x ∈ given, fits x.2) :
    (∃ db', (t.putAll given).run db = (.ok given.length, db') ∧ Confined [t.name] db db' ∧
      (∀ x ∈ given, t.get db' x.1 = .ok (some (norm x.2))) ∧
      ∀ k, (∀ x ∈ given, x.1 ≠ k) → t.get db' k = t.get db k) ∨
    (¬ db.Accepts t.name ∧ ∃ e db', (t.putAll given).run db = (.error e, db') ∧ Confined [] db db') := by
  obtain ⟨rows, table, run⟩ | ⟨refuses, e, db', run, tables, refusals⟩ :=
    Database.write_cases t.name (fun rows => (given.length, given.foldl t.insertRow rows)) db
  · refine .inl ⟨_, run, Database.confined_written .., fun x mem => ?_, fun k absent => ?_⟩
    · rw [get_of_stored (Database.tables_written ..) (getElem?_foldl_insertRow_of_mem sound.key distinct mem),
        decodeValue_of_decodeFront (sound.value.decodeFront_encode (fit x mem))]
      rfl
    · exact get_congr table (Database.tables_written ..) (getElem?_foldl_insertRow_of_absent sound.key absent)
  · exact .inr ⟨refuses, e, db', run, fun _ => congrFun tables _, refusals⟩

end PutAll

/-- A row is removed, or nothing is. -/
theorem Mirrors.delete (exact : t.key.Exact) (h : t.Mirrors idOf db view) (k : κ) :
    (∃ was db', (t.delete k).run db = (.ok was, db') ∧ Confined [t.name] db db' ∧
      t.Mirrors idOf db' (Function.update view k none)) ∨
    (∃ e db', (t.delete k).run db = (.error e, db') ∧ Confined [] db db') := by
  obtain ⟨rows, table, represents⟩ := h.represents
  obtain ⟨rows', table', run⟩ | ⟨-, e, db', run, tables, refusals⟩ :=
    Database.write_cases t.name
      (fun rows => (rows.contains (t.key.encode k), rows.erase (t.key.encode k))) db
  · rw [table] at table'
    cases table'
    refine .inl ⟨_, _, run, Database.confined_written .., ?_⟩
    refine ⟨⟨_, Database.tables_written .., represents_erase exact represents k⟩, ?_⟩
    intro other b shown
    by_cases same : other = k
    · subst same
      rw [Function.update_self] at shown
      cases shown
    · rw [Function.update_of_ne same] at shown
      exact h.own shown
  · exact .inr ⟨e, db', run, fun _ => congrFun tables _, refusals⟩

omit [Ord κ] [DecidableEq κ] in
theorem copyFrom_eq {source : Database} {rows : Rows} (table : source.tables t.name = .rows rows) :
    t.copyFrom source = Database.write t.name fun own =>
      (rows.size, rows.toList.foldl (fun own row => own.insert row.1 row.2) own) := by
  rw [copyFrom, Database.rows?, table]
  rfl

omit [Ord κ] [DecidableEq κ] in
theorem copyFrom_eq_ok {source : Database} {n : Nat} (copied : (t.copyFrom source).run db = (.ok n, db')) :
    ∃ rows own, source.tables t.name = .rows rows ∧ db.tables t.name = .rows own ∧
      db' = db.written t.name (rows.toList.foldl (fun own row => own.insert row.1 row.2) own) := by
  obtain ⟨rows, u, given, copied⟩ := Action.run_bind_eq_ok copied
  obtain ⟨read, rfl⟩ := Prod.mk.inj given
  obtain ⟨own, table, run⟩ | ⟨-, e, db'', run, -⟩ := Database.write_cases t.name
    (fun own => (rows.size, rows.toList.foldl (fun own row => own.insert row.1 row.2) own)) db
  · rw [run] at copied
    cases copied
    refine ⟨rows, own, ?_, table, rfl⟩
    unfold Database.rows? at read
    split at read
    · next table' =>
      cases read
      exact table'
    · cases read
  · rw [run] at copied
    cases copied

omit [Ord κ] [DecidableEq κ] in
theorem confined_of_copyFrom {source : Database} {n : Nat} (copied : (t.copyFrom source).run db = (.ok n, db')) :
    Confined [t.name] db db' := by
  obtain ⟨rows, own, -, -, rfl⟩ := copyFrom_eq_ok copied
  exact Database.confined_written ..

omit [Ord κ] [DecidableEq κ] in
/-- Every row that was copied is read from the copy as from its source. -/
theorem get_of_copyFrom {source : Database} {n : Nat} (copied : (t.copyFrom source).run db = (.ok n, db')) {k : κ}
    {a : α} (h : t.get source k = .ok (some a)) : t.get db' k = .ok (some a) := by
  obtain ⟨rows, own, table, -, rfl⟩ := copyFrom_eq_ok copied
  rw [← h]
  refine get_congr table (Database.tables_written ..) ?_
  rw [getElem?_foldl_insert]
  cases stored : rows[t.key.encode k]? with
  | none =>
    rw [get_of_absent table stored] at h
    cases h
  | some bytes => rfl

omit [Ord κ] [DecidableEq κ] in
/-- The rows of a mirror are put over those of another store; the others stay as they were. -/
theorem Mirrors.copyFrom {source : Database} {old : κ → Option α} (g : t.Mirrors idOf source old) {n : Nat}
    (copied : (t.copyFrom source).run db = (.ok n, db')) (own : t.OwnKeys idOf db)
    {read : List α} (values : t.values db' = .ok read) :
    Confined [t.name] db db' ∧ ∃ view, t.Mirrors idOf db' view ∧
      (∀ k a, old k = some a → view k = some a) ∧ ∀ k, old k = none → t.get db k = .ok (view k) := by
  obtain ⟨rows, before, table, table', rfl⟩ := copyFrom_eq_ok copied
  obtain ⟨rows', same, represents⟩ := g.represents
  rw [table] at same
  cases same
  obtain ⟨after, table'', represents'⟩ := represents_of_values values
  rw [Database.tables_written] at table''
  cases table''
  refine ⟨Database.confined_written .., _, ⟨⟨_, Database.tables_written .., represents'⟩, ?_⟩, ?_, ?_⟩
  · -- a row was copied, or it is one that nothing was copied over
    intro k a shown
    rw [lookup, getElem?_foldl_insert] at shown
    cases stored : rows[t.key.encode k]? with
    | some bytes =>
      rw [stored] at shown
      exact g.own (represents.some_iff.2 ⟨bytes, stored, shown⟩)
    | none =>
      rw [stored] at shown
      exact own before table' k a shown
  · intro k a shown
    obtain ⟨bytes, stored, read⟩ := represents.some_iff.1 shown
    rw [lookup, getElem?_foldl_insert, stored]
    exact read
  · intro k absent
    have unstored : rows[t.key.encode k]? = none := by
      have value := represents.value k
      rwa [absent, Option.map_none, Option.map_eq_none_iff] at value
    rw [← get_of_represents (Database.tables_written db ..) represents']
    refine (get_congr table' (Database.tables_written db ..) ?_).symm
    rw [getElem?_foldl_insert, unstored, Option.none_or]

/-- The values of a table, each under its key. -/
theorem Mirrors.values [Std.TransOrd κ] (exact : t.key.Exact) (h : t.Mirrors idOf db view) :
    ∃ values, t.values db = .ok values ∧ (values.map idOf).Nodup ∧
      ∀ k, values.find? (idOf · = k) = view k := by
  obtain ⟨rows, table, represents⟩ := h.represents
  obtain ⟨entries, listed, ordered, shows⟩ := list_of_represents exact table represents
  have keys : (entries.map Prod.snd).map idOf = entries.map Prod.fst := by
    rw [List.map_map]
    exact List.map_congr_left fun e mem => h.own ((shows e.1 e.2).1 mem)
  refine ⟨entries.map Prod.snd, by rw [TypedTable.values, listed]; rfl, ?_, fun k => ?_⟩
  · rw [keys]
    refine List.pairwise_map.2 (ordered.imp fun {a b} below same => ?_)
    rw [same, Std.ReflOrd.compare_self] at below
    cases below
  · have found {a : α} : a ∈ entries.map Prod.snd ↔ view (idOf a) = some a := by
      rw [List.mem_map]
      constructor
      · rintro ⟨⟨k, b⟩, mem, rfl⟩
        have shown := (shows k b).1 mem
        rwa [h.own shown]
      · intro shown
        exact ⟨(idOf a, a), (shows _ _).2 shown, rfl⟩
    cases shown : view k with
    | none =>
      rw [List.find?_eq_none]
      intro a mem same
      obtain rfl : idOf a = k := by simpa using same
      rw [found.1 mem] at shown
      cases shown
    | some a =>
      cases first : (entries.map Prod.snd).find? (idOf · = k) with
      | none =>
        have absent := List.find?_eq_none.1 first a (found.2 (by rwa [h.own shown]))
        simp [h.own shown] at absent
      | some b =>
        obtain rfl : idOf b = k := by simpa using List.find?_some first
        have shown' := found.1 (List.mem_of_find?_eq_some first)
        rw [shown] at shown'
        exact shown'.symm

omit [DecidableEq κ] in
theorem ownKeys_of_list [Std.TransOrd κ] (exact : t.key.Exact) {entries : List (κ × α)}
    (listed : t.list db = .ok entries) (own : ∀ e ∈ entries, idOf e.2 = e.1) : t.OwnKeys idOf db := by
  intro rows table k a shown
  obtain ⟨rows', table', represents⟩ := represents_of_list listed
  rw [table] at table'
  cases table'
  obtain ⟨entries', listed', -, shows⟩ := list_of_represents exact table represents
  rw [listed] at listed'
  cases listed'
  exact own (k, a) ((shows k a).2 shown)

omit [DecidableEq κ] in
/-- A table that lists the entries of a map mirrors it. -/
theorem mirrors_of_list_eq [Std.TransOrd κ] [Std.LawfulEqOrd κ] (exact : t.key.Exact) {m : Std.ExtTreeMap κ β}
    {f : β → α} (listed : t.list db = .ok (m.toList.map fun e => (e.1, f e.2)))
    (own : ∀ k b, m[k]? = some b → idOf (f b) = k) : t.Mirrors idOf db fun k => (m[k]?).map f := by
  obtain ⟨rows, table, represents⟩ := represents_of_list listed
  obtain ⟨entries, listed', -, shows⟩ := list_of_represents exact table represents
  rw [listed] at listed'
  cases listed'
  have views : t.lookup rows = fun k => (m[k]?).map f := by
    funext k
    refine Option.ext fun a => ?_
    rw [← shows, List.mem_map, Option.map_eq_some_iff]
    constructor
    · rintro ⟨⟨k', b⟩, mem, same⟩
      cases same
      exact ⟨b, Std.ExtTreeMap.mem_toList_iff_getElem?_eq_some.1 mem, rfl⟩
    · rintro ⟨b, stored, rfl⟩
      exact ⟨(k, b), Std.ExtTreeMap.mem_toList_iff_getElem?_eq_some.2 stored, rfl⟩
  rw [views] at represents
  refine ⟨⟨rows, table, represents⟩, fun {k a} shown => ?_⟩
  obtain ⟨b, stored, rfl⟩ := Option.map_eq_some_iff.1 shown
  exact own k b stored

omit [DecidableEq κ] in
/-- Decoding the table gives the entries of the map in their order. -/
theorem Mirrors.list_eq [Std.TransOrd κ] [Std.LawfulEqOrd κ] (exact : t.key.Exact)
    {m : Std.ExtTreeMap κ β} {f : β → α} (h : t.Mirrors idOf db fun k => (m[k]?).map f) :
    t.list db = .ok (m.toList.map fun e => (e.1, f e.2)) := by
  obtain ⟨rows, table, represents⟩ := h.represents
  exact list_eq_of_represents exact table represents

end Ordered

abbrev lengthBound : Nat := 256 ^ 8

theorem sound_containers : containers.Sound (fun _ => True) id ContainerInfo.id :=
  ⟨KeyCodec.exact_container, Codec.exact_containerInfo, fun _ => rfl⟩

theorem sound_replicaHistory : replicaHistory.Sound (fun _ => True) id Sighting.key :=
  ⟨KeyCodec.exact_replica, Codec.exact_sighting, fun _ => rfl⟩

theorem sound_nodes : nodes.Sound (fun r => (Utf8.encode r.details.hostname).length < lengthBound)
    NodeRow.stored (·.details.id) :=
  ⟨KeyCodec.exact_node, Codec.faithful_nodeRow, fun _ => rfl⟩

theorem sound_pipelines : pipelines.Sound (fun p => p.nodes.length < lengthBound) id Pipeline.id :=
  ⟨KeyCodec.exact_pipeline, Codec.faithful_pipeline, fun _ => rfl⟩

end TypedTable

end ClusterCatalog
