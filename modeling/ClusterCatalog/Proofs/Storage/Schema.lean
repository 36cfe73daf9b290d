import ClusterCatalog.Proofs.Codec.Canonical
import ClusterCatalog.Proofs.Codec.Text
import ClusterCatalog.Proofs.Storage.WriteThrough
import ClusterCatalog.Storage.Rows
/-!
The tables of a store by their names. A row comes back from its bytes whatever follows them and from
nothing less, and a table is listed in the order of its keys, the rows of one container together.
-/
namespace ClusterCatalog

namespace TableName

def Key : TableName → Type
  | containers => ContainerId
  | replicaHistory => ReplicaKey
  | nodes => NodeId
  | pipelines => PipelineId
  | counters => String

def Value : TableName → Type
  | containers => ContainerInfo
  | replicaHistory => Sighting
  | nodes => NodeRow
  | pipelines => Pipeline
  | counters => UInt64

instance : (n : TableName) → Ord n.Key
  | containers => inferInstanceAs (Ord ContainerId)
  | replicaHistory => inferInstanceAs (Ord ReplicaKey)
  | nodes => inferInstanceAs (Ord NodeId)
  | pipelines => inferInstanceAs (Ord PipelineId)
  | counters => inferInstanceAs (Ord String)

instance : (n : TableName) → Std.TransOrd n.Key
  | containers => inferInstanceAs (Std.TransOrd ContainerId)
  | replicaHistory => inferInstanceAs (Std.TransOrd ReplicaKey)
  | nodes => inferInstanceAs (Std.TransOrd NodeId)
  | pipelines => inferInstanceAs (Std.TransOrd PipelineId)
  | counters => inferInstanceAs (Std.TransOrd String)

instance : (n : TableName) → Std.LawfulEqOrd n.Key
  | containers => inferInstanceAs (Std.LawfulEqOrd ContainerId)
  | replicaHistory => inferInstanceAs (Std.LawfulEqOrd ReplicaKey)
  | nodes => inferInstanceAs (Std.LawfulEqOrd NodeId)
  | pipelines => inferInstanceAs (Std.LawfulEqOrd PipelineId)
  | counters => inferInstanceAs (Std.LawfulEqOrd String)

instance : (n : TableName) → DecidableEq n.Key
  | containers => inferInstanceAs (DecidableEq ContainerId)
  | replicaHistory => inferInstanceAs (DecidableEq ReplicaKey)
  | nodes => inferInstanceAs (DecidableEq NodeId)
  | pipelines => inferInstanceAs (DecidableEq PipelineId)
  | counters => inferInstanceAs (DecidableEq String)

instance : (n : TableName) → DecidableEq n.Value
  | containers => inferInstanceAs (DecidableEq ContainerInfo)
  | replicaHistory => inferInstanceAs (DecidableEq Sighting)
  | nodes => inferInstanceAs (DecidableEq NodeRow)
  | pipelines => inferInstanceAs (DecidableEq Pipeline)
  | counters => inferInstanceAs (DecidableEq UInt64)

/-- Lengths are told in sixty-four bits; no list and no text in memory is longer than that. -/
def Fits : (n : TableName) → n.Value → Prop
  | containers, _ => True
  | replicaHistory, _ => True
  | nodes, (r : NodeRow) => (Utf8.encode r.details.hostname).length < TypedTable.lengthBound
  | pipelines, (p : Pipeline) => p.nodes.length < TypedTable.lengthBound
  | counters, _ => True

/-- What the stored form keeps of a value: all of it, but for the flow label and the scope of a node's address. -/
def kept : (n : TableName) → n.Value → n.Value
  | containers => id
  | replicaHistory => id
  | nodes => NodeRow.stored
  | pipelines => id
  | counters => id

end TableName

namespace TypedTable

def named : (n : TableName) → TypedTable n.Key n.Value
  | .containers => containers
  | .replicaHistory => replicaHistory
  | .nodes => nodes
  | .pipelines => pipelines
  | .counters => counters

@[simp] theorem name_named (n : TableName) : (named n).name = n := by cases n <;> rfl

theorem exact_named (n : TableName) : (named n).key.Exact := by
  cases n with
  | containers => exact KeyCodec.exact_container
  | replicaHistory => exact KeyCodec.exact_replica
  | nodes => exact KeyCodec.exact_node
  | pipelines => exact KeyCodec.exact_pipeline
  | counters => exact KeyCodec.exact_text

theorem faithful_named (n : TableName) : (named n).value.Faithful n.Fits n.kept := by
  cases n with
  | containers => exact Codec.exact_containerInfo
  | replicaHistory => exact Codec.exact_sighting
  | nodes => exact Codec.faithful_nodeRow
  | pipelines => exact Codec.faithful_pipeline
  | counters => exact Codec.exact_word

theorem canonical_named (n : TableName) : (named n).value.Canonical := by
  cases n with
  | containers => exact Codec.canonical_containerInfo
  | replicaHistory => exact Codec.canonical_sighting
  | nodes => exact Codec.canonical_nodeRow
  | pipelines => exact Codec.canonical_pipeline
  | counters => exact Codec.canonical_word

variable {n : TableName}

theorem decodeValue_eq_ok {bytes : Codec.Bytes} {w : n.Value} (read : (named n).decodeValue bytes = .ok w) :
    ∃ rest, (named n).value.decode bytes = some (w, rest) := by
  unfold decodeValue at read
  split at read
  · next value front =>
    cases read
    obtain ⟨⟨w', rest⟩, decoded, rfl⟩ := Option.map_eq_some_iff.1 front
    exact ⟨rest, decoded⟩
  · cases read

/-- A value comes back from its bytes as it is kept, whatever follows them. No proper beginning of its bytes is
read, what is kept has the same bytes, and whatever is read from a row is written as the row begins. -/
theorem decodeValue_encode (n : TableName) {v : n.Value} (fit : n.Fits v) :
    (∀ rest, (named n).decodeValue ((named n).value.encode v ++ rest) = .ok (n.kept v)) ∧
    (∀ front, front <+: (named n).value.encode v → front ≠ (named n).value.encode v →
      (named n).decodeValue front = .error (.badValue n)) ∧
    (named n).value.encode (n.kept v) = (named n).value.encode v ∧
    ∀ bytes w, (named n).decodeValue bytes = .ok w → (named n).value.encode w <+: bytes := by
  have faithful := faithful_named n
  have canonical := canonical_named n
  refine ⟨fun rest => ?_, fun front begins cut => ?_, canonical.encode_norm faithful fit, fun bytes w read => ?_⟩
  · have read := faithful.decode_encode fit rest
    exact decodeValue_of_decodeFront (by rw [Codec.decodeFront, read, Option.map_some])
  · have unread := canonical.decode_eq_none faithful fit begins cut
    rw [decodeValue, Codec.decodeFront, unread, Option.map_none, name_named]
  · obtain ⟨rest, decoded⟩ := decodeValue_eq_ok read
    exact ⟨rest, (canonical.eq_append decoded).symm⟩

def scopedRow : NodeRow := ⟨⟨⟨⟨3⟩⟩, "hôte", .v6 ⟨#v[0xfe80, 0, 0, 0, 0, 0, 0, 1]⟩ 80 9 5⟩, .inService⟩

theorem decodeValue_encode_scopedRow :
    TableName.nodes.Fits scopedRow ∧ scopedRow.stored ≠ scopedRow ∧
      nodes.decodeValue (nodes.value.encode scopedRow ++ [7]) = .ok scopedRow.stored ∧
      nodes.decodeValue ((nodes.value.encode scopedRow).take 60) = .error (.badValue .nodes) ∧
      nodes.value.encode scopedRow.stored = nodes.value.encode scopedRow := by
  have fit : TableName.nodes.Fits scopedRow := by
    change (Utf8.encode scopedRow.details.hostname).length < lengthBound
    decide
  obtain ⟨whole, cut, again, -⟩ := decodeValue_encode .nodes fit
  have shorter : (nodes.value.encode scopedRow).take 60 ≠ nodes.value.encode scopedRow := by decide
  exact ⟨fit, by decide, whole [7], cut _ (List.take_prefix 60 _) shorter, again⟩

theorem ordered_of_list {κ α : Type} [Ord κ] {t : TypedTable κ α} (exact : t.key.Exact) {db : Database}
    {entries : List (κ × α)} (listed : t.list db = .ok entries) :
    entries.Pairwise fun a b => compare a.1 b.1 = .lt := by
  obtain ⟨rows, table, represents⟩ := represents_of_list listed
  obtain ⟨entries', listed', ordered, -⟩ := list_of_represents exact table represents
  rw [listed] at listed'
  cases listed'
  exact ordered

/-- What has one value in an ordered list stands together. -/
theorem exists_block {α κ : Type} [Ord κ] [Std.TransOrd κ] [Std.LawfulEqOrd κ] (f : α → κ) {l : List α}
    (ordered : l.Pairwise fun a b => compare (f a) (f b) ≠ .gt) (c : κ) :
    ∃ before own after, l = before ++ own ++ after ∧ (∀ a ∈ before, compare (f a) c = .lt) ∧
      (∀ a ∈ own, f a = c) ∧ ∀ a ∈ after, compare (f a) c = .gt := by
  induction l with
  | nil => exact ⟨[], [], [], by simp⟩
  | cons a l ih =>
    obtain ⟨least, ordered⟩ := List.pairwise_cons.1 ordered
    obtain ⟨before, own, after, rfl, smaller, same, greater⟩ := ih ordered
    -- what comes behind the first one is not less than it
    have none_before (notLess : compare (f a) c ≠ .lt) : before = [] := by
      refine List.eq_nil_iff_forall_not_mem.2 fun b mem => ?_
      have le := least b (by simp [mem])
      have less := smaller b mem
      rcases order : compare (f a) c with _ | _ | _
      · exact notLess order
      · rw [Std.LawfulEqOrd.eq_of_compare order] at le
        exact le (Std.OrientedCmp.gt_of_lt less)
      · exact le (Std.OrientedCmp.gt_of_lt (Std.TransCmp.lt_trans less (Std.OrientedCmp.lt_of_gt order)))
    rcases order : compare (f a) c with _ | _ | _
    · exact ⟨a :: before, own, after, rfl, List.forall_mem_cons.2 ⟨order, smaller⟩, same, greater⟩
    · obtain rfl := none_before (by simp [order])
      have equal := Std.LawfulEqOrd.eq_of_compare order
      exact ⟨[], a :: own, after, rfl, by simp, List.forall_mem_cons.2 ⟨equal, same⟩, greater⟩
    · obtain rfl := none_before (by simp [order])
      have nothing : own = [] := List.eq_nil_iff_forall_not_mem.2 fun b mem => by
        have le := least b (by simp [mem])
        rw [same b mem] at le
        exact le order
      subst nothing
      exact ⟨[], [], a :: after, rfl, by simp, by simp, List.forall_mem_cons.2 ⟨order, greater⟩⟩

theorem compare_replicaKey (a b : ReplicaKey) :
    compare a b = (compare a.container b.container).then (compare a.node b.node) := rfl

/-- Keys and their bytes stand for each other in the same order, so that every table is listed in the order of
its keys, and in the history the rows of a container are together. -/
theorem keys_in_order :
    (KeyCodec.word.Exact ∧ KeyCodec.container.Exact ∧ KeyCodec.uuid.Exact ∧ KeyCodec.node.Exact ∧
      KeyCodec.pipeline.Exact ∧ KeyCodec.text.Exact ∧ KeyCodec.replica.Exact) ∧
    (∀ a b : ContainerId, compare a b = compare a.value.toNat b.value.toNat) ∧
    (∀ a b : ReplicaKey, compare a b = (compare a.container b.container).then (compare a.node b.node)) ∧
    (∀ (n : TableName) (db : Database) (entries : List (n.Key × n.Value)), (named n).list db = .ok entries →
      entries.Pairwise fun a b => compare a.1 b.1 = .lt) ∧
    ∀ (db : Database) (entries : List (ReplicaKey × Sighting)), replicaHistory.list db = .ok entries →
      ∀ id : ContainerId, ∃ before own after, entries = before ++ own ++ after ∧
        (∀ e ∈ before, compare e.1.container id = .lt) ∧ (∀ e ∈ own, e.1.container = id) ∧
        ∀ e ∈ after, compare e.1.container id = .gt := by
  refine ⟨⟨KeyCodec.exact_word, KeyCodec.exact_container, KeyCodec.exact_uuid, KeyCodec.exact_node,
    KeyCodec.exact_pipeline, KeyCodec.exact_text, KeyCodec.exact_replica⟩, fun a b => ?_, compare_replicaKey,
    fun n db entries listed => ordered_of_list (exact_named n) listed, fun db entries listed id => ?_⟩
  · change compareOfLessAndEq a.value b.value = compareOfLessAndEq a.value.toNat b.value.toNat
    simp [compareOfLessAndEq, UInt64.lt_iff_toNat_lt, ← UInt64.toNat_inj]
  · refine exists_block (fun e : ReplicaKey × Sighting => e.1.container) ?_ id
    refine (ordered_of_list KeyCodec.exact_replica listed).imp fun {a b} less => ?_
    rw [compare_replicaKey, Ordering.then_eq_lt] at less
    rcases less with below | ⟨same, -⟩
    · simp [below]
    · simp [same]

def sharedHistory : Database := Database.ofRows { history :=
  [⟨⟨256⟩, ⟨⟨3⟩⟩, 1, 2, 0, .opened⟩, ⟨⟨1⟩, ⟨⟨4⟩⟩, 1, 2, 0, .opened⟩, ⟨⟨1⟩, ⟨⟨3⟩⟩, 1, 2, 0, .opened⟩] }

theorem keys_in_order_sharedHistory :
    ∃ entries before own after, replicaHistory.list sharedHistory = .ok entries ∧
      entries.map Prod.fst = [⟨⟨1⟩, ⟨⟨3⟩⟩⟩, ⟨⟨1⟩, ⟨⟨4⟩⟩⟩, ⟨⟨256⟩, ⟨⟨3⟩⟩⟩] ∧
      (entries.Pairwise fun a b => compare a.1 b.1 = .lt) ∧ entries = before ++ own ++ after ∧
      ∀ e ∈ own, e.1.container = ⟨1⟩ := by
  obtain ⟨entries, listed, shown⟩ : ∃ entries, replicaHistory.list sharedHistory = .ok entries ∧
      entries.map Prod.fst = [⟨⟨1⟩, ⟨⟨3⟩⟩⟩, ⟨⟨1⟩, ⟨⟨4⟩⟩⟩, ⟨⟨256⟩, ⟨⟨3⟩⟩⟩] :=
    ⟨_, eq_ok_of_toOption (a := (replicaHistory.list sharedHistory).toOption.get (by decide +kernel))
      (by decide +kernel), by decide +kernel⟩
  obtain ⟨-, -, -, ordered, together⟩ := keys_in_order
  obtain ⟨before, own, after, whole, -, same, -⟩ := together sharedHistory entries listed ⟨1⟩
  have ascending := ordered .replicaHistory sharedHistory entries listed
  exact ⟨entries, before, own, after, listed, shown, ascending, whole, same⟩

end TypedTable

end ClusterCatalog
