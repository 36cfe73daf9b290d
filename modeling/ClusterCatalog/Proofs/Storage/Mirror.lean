import Mathlib.Logic.Function.Basic
import ClusterCatalog.Proofs.Action
import ClusterCatalog.Proofs.Codec.Key
import ClusterCatalog.Proofs.Storage.Write
/-!
A table mirrors a map when decoding its rows gives the entries of the map and nothing else. A write
that is taken changes both in the same way, and one that is not changes neither.
-/
namespace ClusterCatalog

section MapM

variable {ε α β : Type} {f : α → Except ε β}

theorem mapM_ok_of_forall {l : List α} (h : ∀ a ∈ l, ∃ b, f a = .ok b) : ∃ l', l.mapM f = .ok l' := by
  induction l with
  | nil => exact ⟨[], rfl⟩
  | cons a l ih =>
    obtain ⟨b, first⟩ := h a List.mem_cons_self
    obtain ⟨l', rest⟩ := ih fun a' mem => h a' (List.mem_cons_of_mem a mem)
    exact ⟨b :: l', by rw [List.mapM_cons, first, rest]; rfl⟩

theorem mapM_cons_ok {a : α} {l : List α} {l' : List β} (h : (a :: l).mapM f = .ok l') :
    ∃ b rest, f a = .ok b ∧ l.mapM f = .ok rest ∧ l' = b :: rest := by
  rw [List.mapM_cons] at h
  obtain ⟨b, first, h⟩ := exists_of_bind_eq_ok h
  obtain ⟨rest, others, h⟩ := exists_of_bind_eq_ok h
  cases h
  exact ⟨b, rest, first, others, rfl⟩

theorem mem_of_mapM_ok {l : List α} {l' : List β} (h : l.mapM f = .ok l') {b : β} :
    b ∈ l' ↔ ∃ a ∈ l, f a = .ok b := by
  induction l generalizing l' with
  | nil =>
    cases h
    simp
  | cons a l ih =>
    obtain ⟨b', rest, first, others, rfl⟩ := mapM_cons_ok h
    simp [ih others, first, eq_comm]

theorem forall_of_mapM_ok {l : List α} {l' : List β} (h : l.mapM f = .ok l') {a : α} (mem : a ∈ l) :
    ∃ b, f a = .ok b := by
  induction l generalizing l' with
  | nil => cases mem
  | cons a' l ih =>
    obtain ⟨b, rest, first, others, -⟩ := mapM_cons_ok h
    obtain _ | ⟨_, mem⟩ := mem
    · exact ⟨b, first⟩
    · exact ih others mem

theorem length_of_mapM_ok {l : List α} {l' : List β} (h : l.mapM f = .ok l') : l'.length = l.length := by
  induction l generalizing l' with
  | nil =>
    cases h
    rfl
  | cons a l ih =>
    obtain ⟨b, rest, -, others, rfl⟩ := mapM_cons_ok h
    rw [List.length_cons, List.length_cons, ih others]

theorem pairwise_of_mapM_ok {l : List α} {l' : List β} (h : l.mapM f = .ok l') {r : α → α → Prop}
    {s : β → β → Prop} (sorted : l.Pairwise r)
    (imp : ∀ a ∈ l, ∀ a' ∈ l, ∀ b b', f a = .ok b → f a' = .ok b' → r a a' → s b b') : l'.Pairwise s := by
  induction l generalizing l' with
  | nil =>
    cases h
    exact .nil
  | cons a l ih =>
    obtain ⟨b, rest, first, others, rfl⟩ := mapM_cons_ok h
    obtain ⟨below, sorted⟩ := List.pairwise_cons.1 sorted
    refine List.pairwise_cons.2 ⟨fun b' mem => ?_, ih others sorted fun a ha a' ha' => ?_⟩
    · obtain ⟨a', mem, read⟩ := (mem_of_mapM_ok others).1 mem
      exact imp a List.mem_cons_self a' (List.mem_cons_of_mem a mem) b b' first read (below a' mem)
    · exact imp a (List.mem_cons_of_mem _ ha) a' (List.mem_cons_of_mem _ ha')

end MapM

/-- Lists of entries in the order of their keys are equal if they have the same entries. -/
theorem eq_of_ordered_entries {κ α : Type} [Ord κ] [Std.TransOrd κ] {l l' : List (κ × α)}
    (h : l.Pairwise fun a b => compare a.1 b.1 = .lt) (h' : l'.Pairwise fun a b => compare a.1 b.1 = .lt)
    (same : ∀ e, e ∈ l ↔ e ∈ l') : l = l' := by
  have nodup {l : List (κ × α)} (h : l.Pairwise fun a b => compare a.1 b.1 = .lt) : l.Nodup :=
    h.imp fun {a b} below => by
      rintro rfl
      rw [Std.ReflOrd.compare_self] at below
      cases below
  refine ((List.perm_ext_iff_of_nodup (nodup h) (nodup h')).2 same).eq_of_pairwise (fun a b _ _ ab ba => ?_) h h'
  rw [Std.OrientedCmp.gt_of_lt ab] at ba
  cases ba

namespace TypedTable

variable {κ α : Type} (t : TypedTable κ α)

def lookup (rows : Rows) (k : κ) : Option α := (rows[t.key.encode k]?).bind t.value.decodeFront

structure Represents (rows : Rows) (view : κ → Option α) : Prop where
  proper {bytes value : Codec.Bytes} (h : rows[bytes]? = some value) : ∃ k, t.key.decode bytes = some k
  value (k : κ) : (rows[t.key.encode k]?).map t.value.decodeFront = (view k).map some

structure Sound [Ord κ] (fits : α → Prop) (norm : α → α) (own : α → κ) : Prop where
  key : t.key.Exact
  value : t.value.Faithful fits norm
  own_norm (a : α) : own (norm a) = own a

variable {t} {rows : Rows} {view : κ → Option α} {db db' : Database}

theorem Represents.some_iff (h : t.Represents rows view) {k : κ} {a : α} :
    view k = some a ↔ ∃ bytes, rows[t.key.encode k]? = some bytes ∧ t.value.decodeFront bytes = some a := by
  have value := h.value k
  cases stored : rows[t.key.encode k]? with
  | none =>
    rw [stored] at value
    cases shown : view k with
    | none => simp
    | some b =>
      rw [shown] at value
      cases value
  | some bytes =>
    rw [stored] at value
    cases shown : view k with
    | none =>
      rw [shown] at value
      cases value
    | some b =>
      rw [shown] at value
      simp [Option.some.inj value]

section Get

variable {k : κ}

theorem get_of_absent (table : db.tables t.name = .rows rows) (absent : rows[t.key.encode k]? = none) :
    t.get db k = .ok none := by
  simp only [get, Database.rows?, table, bind, Except.bind, absent]
  rfl

theorem get_of_stored {bytes : Codec.Bytes} (table : db.tables t.name = .rows rows)
    (stored : rows[t.key.encode k]? = some bytes) : t.get db k = (t.decodeValue bytes).map some := by
  simp only [get, Database.rows?, table, bind, Except.bind, stored]
  cases t.decodeValue bytes <;> rfl

theorem get_of_tables_eq (same : db'.tables t.name = db.tables t.name) : t.get db' k = t.get db k := by
  simp only [get, Database.rows?, same]

/-- Only the row under the key is looked at. -/
theorem get_congr {rows' : Rows} (table : db.tables t.name = .rows rows) (table' : db'.tables t.name = .rows rows')
    (same : rows'[t.key.encode k]? = rows[t.key.encode k]?) : t.get db' k = t.get db k := by
  simp only [get, Database.rows?, table, table', bind, Except.bind, same]

theorem decodeValue_of_decodeFront {bytes : Codec.Bytes} {a : α} (read : t.value.decodeFront bytes = some a) :
    t.decodeValue bytes = .ok a := by
  rw [decodeValue, read]

/-- The row that was put last is read as it is kept. -/
theorem get_of_insertRow {fits : α → Prop} {norm : α → α} (faithful : t.value.Faithful fits norm) {a : α} (fit : fits a)
    (table : db.tables t.name = .rows (t.insertRow rows (k, a))) : t.get db k = .ok (some (norm a)) := by
  have stored : (t.insertRow rows (k, a))[t.key.encode k]? = some (t.value.encode a) := by simp [insertRow]
  rw [get_of_stored table stored, decodeValue_of_decodeFront (faithful.decodeFront_encode fit)]
  rfl

theorem get_of_insertRow_of_ne [Ord κ] (exact : t.key.Exact) {other : κ} {a : α} (differ : k ≠ other)
    (table : db.tables t.name = .rows rows) (table' : db'.tables t.name = .rows (t.insertRow rows (other, a))) :
    t.get db' k = t.get db k := by
  have unlike : t.key.encode other ≠ t.key.encode k := fun equal => differ (exact.encode_inj equal).symm
  refine get_congr table table' ?_
  rw [insertRow, Std.ExtTreeMap.getElem?_insert, if_neg (by simpa using unlike)]

/-- Reading one row of a table gives what the map has under the key. -/
theorem get_of_represents (table : db.tables t.name = .rows rows) (h : t.Represents rows view) :
    t.get db k = .ok (view k) := by
  have value := h.value k
  cases stored : rows[t.key.encode k]? with
  | none =>
    rw [stored] at value
    cases shown : view k with
    | none => exact get_of_absent table stored
    | some a =>
      rw [shown] at value
      cases value
  | some bytes =>
    cases shown : view k with
    | none =>
      rw [stored, shown] at value
      cases value
    | some a =>
      obtain ⟨bytes', stored', read⟩ := h.some_iff.1 shown
      rw [stored] at stored'
      cases stored'
      rw [get_of_stored table stored, decodeValue_of_decodeFront read]
      rfl

end Get

/-- Rows that are put over others hide them. -/
theorem getElem?_foldl_insert {κ α : Type} [Ord κ] [Std.TransOrd κ] [Std.LawfulEqOrd κ] [DecidableEq κ]
    (rows own : Std.ExtTreeMap κ α) (k : κ) :
    (rows.toList.foldl (fun own row => own.insert row.1 row.2) own)[k]? = (rows[k]?).or own[k]? := by
  rw [← Std.ExtTreeMap.insertMany_list_eq_foldl]
  cases stored : rows[k]? with
  | some value =>
    exact Std.ExtTreeMap.getElem?_insertMany_list_of_mem Std.ReflOrd.compare_self
      Std.ExtTreeMap.distinct_keys_toList (Std.ExtTreeMap.mem_toList_iff_getElem?_eq_some.2 stored)
  | none =>
    refine Std.ExtTreeMap.getElem?_insertMany_list_of_contains_eq_false ?_
    rw [Std.ExtTreeMap.map_fst_toList_eq_keys]
    rw [List.contains_eq_mem, decide_eq_false_iff_not, Std.ExtTreeMap.mem_keys,
      Std.ExtTreeMap.mem_iff_isSome_getElem?, stored]
    exact Bool.false_ne_true

section Ordered

variable [Ord κ]

theorem represents_insert [DecidableEq κ] (exact : t.key.Exact) (h : t.Represents rows view) {k : κ} {a : α}
    {bytes : Codec.Bytes} (read : t.value.decodeFront bytes = some a) :
    t.Represents (rows.insert (t.key.encode k) bytes) (Function.update view k (some a)) where
  proper {key value} stored := by
    by_cases same : t.key.encode k = key
    · exact ⟨k, same ▸ exact.decode_encode k⟩
    · rw [Std.ExtTreeMap.getElem?_insert, if_neg (by simpa using same)] at stored
      exact h.proper stored
  value other := by
    by_cases same : other = k
    · subst same
      simp [read]
    · have differ : t.key.encode k ≠ t.key.encode other := fun equal => same (exact.encode_inj equal).symm
      rw [Function.update_of_ne same, Std.ExtTreeMap.getElem?_insert, if_neg (by simpa using differ)]
      exact h.value other

theorem represents_erase [DecidableEq κ] (exact : t.key.Exact) (h : t.Represents rows view) (k : κ) :
    t.Represents (rows.erase (t.key.encode k)) (Function.update view k none) where
  proper {key value} stored := by
    rw [Std.ExtTreeMap.getElem?_erase] at stored
    split at stored
    · cases stored
    · exact h.proper stored
  value other := by
    by_cases same : other = k
    · subst same
      simp
    · have differ : t.key.encode k ≠ t.key.encode other := fun equal => same (exact.encode_inj equal).symm
      rw [Function.update_of_ne same, Std.ExtTreeMap.getElem?_erase, if_neg (by simpa using differ)]
      exact h.value other

theorem Represents.decodeRow (exact : t.key.Exact) (h : t.Represents rows view)
    {row : Codec.Bytes × Codec.Bytes} (mem : row ∈ rows.toList) :
    ∃ k a, t.decodeRow row = .ok (k, a) ∧ t.key.encode k = row.1 ∧ view k = some a := by
  have stored : rows[row.1]? = some row.2 := Std.ExtTreeMap.mem_toList_iff_getElem?_eq_some.1 mem
  obtain ⟨k, key⟩ := h.proper stored
  have bytes := exact.encode_of_decode key
  have value := h.value k
  rw [bytes, stored] at value
  cases shown : view k with
  | none =>
    rw [shown] at value
    cases value
  | some a =>
    rw [shown] at value
    have read : t.value.decodeFront row.2 = some a := Option.some.inj value
    exact ⟨k, a, by simp [TypedTable.decodeRow, key, decodeValue, read, Except.map], bytes, shown⟩

/-- Listing the table gives the entries of the map, in the order of their keys. -/
theorem list_of_represents (exact : t.key.Exact) (table : db.tables t.name = .rows rows)
    (h : t.Represents rows view) :
    ∃ entries, t.list db = .ok entries ∧ (entries.Pairwise fun a b => compare a.1 b.1 = .lt) ∧
      ∀ k a, (k, a) ∈ entries ↔ view k = some a := by
  obtain ⟨entries, read⟩ := mapM_ok_of_forall (f := t.decodeRow) (l := rows.toList) fun row mem => by
    obtain ⟨k, a, decoded, -⟩ := h.decodeRow exact mem
    exact ⟨_, decoded⟩
  have key {row : Codec.Bytes × Codec.Bytes} {e : κ × α} (mem : row ∈ rows.toList)
      (decoded : t.decodeRow row = .ok e) : t.key.encode e.1 = row.1 ∧ view e.1 = some e.2 := by
    obtain ⟨k, a, decoded', bytes, shown⟩ := h.decodeRow exact mem
    rw [decoded] at decoded'
    cases decoded'
    exact ⟨bytes, shown⟩
  refine ⟨entries, ?_, ?_, fun k a => ?_⟩
  · rw [list, Database.rows?, table]
    exact read
  · -- rows come in the order of their bytes, which is that of the keys
    refine pairwise_of_mapM_ok read Std.ExtTreeMap.ordered_keys_toList ?_
    intro row mem row' mem' e e' decoded decoded' below
    rwa [← (key mem decoded).1, ← (key mem' decoded').1, exact.compare_encode] at below
  · rw [mem_of_mapM_ok read]
    constructor
    · rintro ⟨row, mem, decoded⟩
      exact (key mem decoded).2
    · intro shown
      obtain ⟨bytes, stored, -⟩ := h.some_iff.1 shown
      have mem : (t.key.encode k, bytes) ∈ rows.toList := Std.ExtTreeMap.mem_toList_iff_getElem?_eq_some.2 stored
      obtain ⟨k', a', decoded, same, shown'⟩ := h.decodeRow exact mem
      obtain rfl := exact.encode_inj same
      rw [shown] at shown'
      cases shown'
      exact ⟨_, mem, decoded⟩

/-- Listing a table that shows a map gives the entries of the map in their order. -/
theorem list_eq_of_represents [Std.TransOrd κ] [Std.LawfulEqOrd κ] (exact : t.key.Exact)
    (table : db.tables t.name = .rows rows) {β : Type} {m : Std.ExtTreeMap κ β} {f : β → α}
    (h : t.Represents rows fun k => (m[k]?).map f) : t.list db = .ok (m.toList.map fun e => (e.1, f e.2)) := by
  obtain ⟨entries, listed, ordered, shows⟩ := list_of_represents exact table h
  rw [listed]
  congr 1
  refine eq_of_ordered_entries ordered ?_ fun e => ?_
  · exact List.pairwise_map.2 Std.ExtTreeMap.ordered_keys_toList
  · rw [shows, List.mem_map]
    constructor
    · intro shown
      obtain ⟨b, stored, same⟩ := Option.map_eq_some_iff.1 shown
      exact ⟨(e.1, b), Std.ExtTreeMap.mem_toList_iff_getElem?_eq_some.2 stored, by rw [same]⟩
    · rintro ⟨⟨k, b⟩, mem, rfl⟩
      rw [Std.ExtTreeMap.mem_toList_iff_getElem?_eq_some.1 mem]
      rfl

omit [Ord κ] in
/-- A table that can be listed shows a map. -/
theorem represents_of_list {entries : List (κ × α)} (listed : t.list db = .ok entries) :
    ∃ rows, db.tables t.name = .rows rows ∧ t.Represents rows (t.lookup rows) := by
  cases table : db.tables t.name with
  | foreign =>
    rw [list, Database.rows?, table] at listed
    cases listed
  | rows rows =>
    rw [list, Database.rows?, table] at listed
    replace listed : rows.toList.mapM t.decodeRow = .ok entries := listed
    have readable {bytes value : Codec.Bytes} (stored : rows[bytes]? = some value) :
        ∃ k a, t.key.decode bytes = some k ∧ t.value.decodeFront value = some a := by
      obtain ⟨⟨k, a⟩, decoded⟩ :=
        forall_of_mapM_ok listed (Std.ExtTreeMap.mem_toList_iff_getElem?_eq_some.2 stored)
      cases key : t.key.decode bytes with
      | none => simp [TypedTable.decodeRow, key] at decoded
      | some k' =>
        cases read : t.value.decodeFront value with
        | none => simp [TypedTable.decodeRow, key, decodeValue, read, Except.map] at decoded
        | some a' => exact ⟨k', a', rfl, rfl⟩
    refine ⟨rows, rfl, fun {bytes value} stored => ?_, fun k => ?_⟩
    · obtain ⟨k, a, key, -⟩ := readable stored
      exact ⟨k, key⟩
    · cases stored : rows[t.key.encode k]? with
      | none => simp [lookup, stored]
      | some value =>
        obtain ⟨-, a, -, read⟩ := readable stored
        simp [lookup, stored, read]

end Ordered

end TypedTable

end ClusterCatalog
