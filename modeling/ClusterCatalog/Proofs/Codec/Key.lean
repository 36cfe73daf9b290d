import ClusterCatalog.Codec.Key
import ClusterCatalog.Proofs.Codec.Value
/-!
Keys and their bytes stand for each other, and they come in the same order.
-/
namespace ClusterCatalog

namespace Codec

theorem compare_append (u v : Bytes) {x y : Bytes} (same : x.length = y.length) :
    compare (x ++ u) (y ++ v) = (compare x y).then (compare u v) := by
  induction x generalizing y with
  | nil =>
    obtain rfl : y = [] := List.eq_nil_of_length_eq_zero same.symm
    rfl
  | cons c x ih =>
    cases y with
    | nil => simp at same
    | cons d y =>
      have rest : List.compareLex compare (x ++ u) (y ++ v) = _ := ih (Nat.succ.inj same)
      change List.compareLex compare (c :: (x ++ u)) (d :: (y ++ v)) =
        (List.compareLex compare (c :: x) (d :: y)).then _
      rw [List.compareLex_cons_cons, List.compareLex_cons_cons, rest, Ordering.then_assoc]
      rfl

theorem compare_concat (a b : UInt8) {x y : Bytes} (same : x.length = y.length) :
    compare (x ++ [a]) (y ++ [b]) = (compare x y).then (compare a b) := by
  have last : List.compareLex compare [a] [b] = compare a b := by
    rw [List.compareLex_cons_cons, List.compareLex_nil_nil]
    cases compare a b <;> rfl
  exact (compare_append [a] [b] same).trans (congrArg _ last)

/-- Numbers compare as their quotients, and where these are equal as their remainders. -/
theorem compare_div_mod (base m n : Nat) :
    compare m n = (compare (m / base) (n / base)).then (compare (m % base) (n % base)) := by
  have whole := Nat.div_add_mod m base
  have whole' := Nat.div_add_mod n base
  rcases Nat.lt_trichotomy (m / base) (n / base) with below | same | above
  · rw [Nat.compare_eq_lt.2 below, Nat.compare_eq_lt.2 (Nat.lt_of_div_lt_div below)]
    rfl
  · rw [Nat.compare_eq_eq.2 same]
    rw [same] at whole
    rcases Nat.lt_trichotomy (m % base) (n % base) with below | rest | above
    · rw [Nat.compare_eq_lt.2 below, Nat.compare_eq_lt.2 (by omega)]
      rfl
    · rw [Nat.compare_eq_eq.2 rest, Nat.compare_eq_eq.2 (by omega)]
      rfl
    · rw [Nat.compare_eq_gt.2 above, Nat.compare_eq_gt.2 (by omega)]
      rfl
  · rw [Nat.compare_eq_gt.2 above, Nat.compare_eq_gt.2 (Nat.lt_of_div_lt_div above)]
    rfl

theorem compare_ofNat (m n : Nat) : compare (UInt8.ofNat m) (UInt8.ofNat n) = compare (m % 256) (n % 256) := by
  change compareOfLessAndEq (UInt8.ofNat m) (UInt8.ofNat n) = compareOfLessAndEq (m % 256) (n % 256)
  simp [compareOfLessAndEq, UInt8.lt_iff_toNat_lt, ← UInt8.toNat_inj]

/-- Numbers of one width order as their bytes do. -/
theorem compare_bigEndian (width : Nat) {m n : Nat} (hm : m < 256 ^ width) (hn : n < 256 ^ width) :
    compare (bigEndian width m) (bigEndian width n) = compare m n := by
  induction width generalizing m n with
  | zero =>
    obtain rfl : m = 0 := by simpa using hm
    obtain rfl : n = 0 := by simpa using hn
    rfl
  | succ width ih =>
    have split (k : Nat) : bigEndian (width + 1) k = bigEndian width (k / 256) ++ [UInt8.ofNat k] := by
      simp [bigEndian, littleEndian]
    rw [Nat.pow_succ] at hm hn
    have high := ih (m := m / 256) (n := n / 256) (by omega) (by omega)
    rw [split, split, compare_concat _ _ (by simp), high, compare_ofNat, ← compare_div_mod 256]

theorem littleEndian_ofLittleEndian (bytes : Bytes) :
    littleEndian bytes.length (ofLittleEndian bytes) = bytes := by
  induction bytes with
  | nil => rfl
  | cons b rest ih =>
    have byte : b.toNat < 256 := b.toNat_lt
    have low : UInt8.ofNat (b.toNat + 256 * ofLittleEndian rest) = b := by
      rw [← UInt8.toNat_inj, UInt8.toNat_ofNat']
      change (b.toNat + 256 * ofLittleEndian rest) % 256 = b.toNat
      omega
    have high : (b.toNat + 256 * ofLittleEndian rest) / 256 = ofLittleEndian rest := by omega
    rw [ofLittleEndian, List.length_cons, littleEndian, low, high, ih]

theorem bigEndian_ofBigEndian {width : Nat} {bytes : Bytes} (h : bytes.length = width) :
    bigEndian width (ofBigEndian bytes) = bytes := by
  rw [bigEndian, ofBigEndian, ← h, ← List.length_reverse, littleEndian_ofLittleEndian, List.reverse_reverse]

theorem ofBigEndian_bigEndian {width n : Nat} (h : n < 256 ^ width) : ofBigEndian (bigEndian width n) = n := by
  rw [ofBigEndian, bigEndian, List.reverse_reverse, ofLittleEndian_littleEndian]
  exact Nat.mod_eq_of_lt h

theorem ofBigEndian_lt {width : Nat} {bytes : Bytes} (h : bytes.length = width) :
    ofBigEndian bytes < 256 ^ width := by
  rw [ofBigEndian, ← h, ← List.length_reverse]
  exact ofLittleEndian_lt bytes.reverse

end Codec

namespace KeyCodec

open Codec

structure Exact {α : Type} [Ord α] (k : KeyCodec α) : Prop where
  decode_encode (a : α) : k.decode (k.encode a) = some a
  encode_of_decode {bytes : Bytes} {a : α} (h : k.decode bytes = some a) : k.encode a = bytes
  compare_encode (a b : α) : compare (k.encode a) (k.encode b) = compare a b

theorem Exact.encode_inj {α : Type} [Ord α] {k : KeyCodec α} (exact : k.Exact) {a b : α}
    (h : k.encode a = k.encode b) : a = b := by
  have read := exact.decode_encode a
  rw [h, exact.decode_encode] at read
  exact (Option.some.inj read).symm

theorem exact_word : word.Exact where
  decode_encode n := by
    have value : ofBigEndian (bigEndian 8 n.toNat) = n.toNat := ofBigEndian_bigEndian n.toNat_lt
    simp [word, value]
  encode_of_decode {bytes n} read := by
    simp only [word, Option.ite_none_right_eq_some, Option.some.injEq] at read
    obtain ⟨length, rfl⟩ := read
    have value : (UInt64.ofNat (ofBigEndian bytes)).toNat = ofBigEndian bytes :=
      UInt64.toNat_ofNat_of_lt' (ofBigEndian_lt length)
    simp only [word, value]
    exact bigEndian_ofBigEndian length
  compare_encode m n := by
    refine (compare_bigEndian 8 m.toNat_lt n.toNat_lt).trans ?_
    change compareOfLessAndEq m.toNat n.toNat = compareOfLessAndEq m n
    simp [compareOfLessAndEq, UInt64.lt_iff_toNat_lt, ← UInt64.toNat_inj]

theorem exact_uuid : uuid.Exact where
  decode_encode u := by
    have value : ofBigEndian (bigEndian 16 u.bits.toNat) = u.bits.toNat := ofBigEndian_bigEndian u.bits.isLt
    simp [uuid, value]
  encode_of_decode {bytes u} read := by
    simp only [uuid, Option.ite_none_right_eq_some, Option.some.injEq] at read
    obtain ⟨length, rfl⟩ := read
    have value : (BitVec.ofNat 128 (ofBigEndian bytes)).toNat = ofBigEndian bytes :=
      Nat.mod_eq_of_lt (ofBigEndian_lt length)
    simp only [uuid, value]
    exact bigEndian_ofBigEndian length
  compare_encode u v := by
    refine (compare_bigEndian 16 u.bits.isLt v.bits.isLt).trans ?_
    change compareOfLessAndEq u.bits.toNat v.bits.toNat = compareOfLessAndEq u.bits v.bits
    simp [compareOfLessAndEq, BitVec.lt_def, ← BitVec.toNat_inj]

section Renamed

variable {α β : Type} [Ord α] [Ord β] {k : KeyCodec α} {view : β → α} {make : α → β}

/-- A key that is stored as another one. -/
theorem Exact.renamed (exact : k.Exact) (there : ∀ b, make (view b) = b) (back : ∀ a, view (make a) = a)
    (order : ∀ a b, compare (view a) (view b) = compare a b) :
    Exact ⟨fun b => k.encode (view b), fun bytes => (k.decode bytes).map make⟩ where
  decode_encode b := by simp [exact.decode_encode, there]
  encode_of_decode {bytes b} read := by
    obtain ⟨a, front, rfl⟩ := Option.map_eq_some_iff.1 read
    simp [back, exact.encode_of_decode front]
  compare_encode a b := by simp [exact.compare_encode, order]

end Renamed

theorem exact_container : container.Exact := exact_word.renamed (fun _ => rfl) (fun _ => rfl) fun _ _ => rfl

theorem exact_node : node.Exact := exact_uuid.renamed (fun _ => rfl) (fun _ => rfl) fun _ _ => rfl

theorem exact_pipeline : pipeline.Exact := exact_uuid.renamed (fun _ => rfl) (fun _ => rfl) fun _ _ => rfl

theorem length_encode_container (id : ContainerId) : (container.encode id).length = 8 := by
  simp [container, word]

theorem length_encode_node (id : NodeId) : (node.encode id).length = 16 := by
  simp [node, uuid]

theorem exact_replica : replica.Exact where
  decode_encode k := by
    have front : (replica.encode k).take 8 = container.encode k.container :=
      List.take_left' (length_encode_container k.container)
    have back : (replica.encode k).drop 8 = node.encode k.node :=
      List.drop_left' (length_encode_container k.container)
    have length : (replica.encode k).length = 24 := by
      rw [replica, List.length_append, length_encode_container, length_encode_node]
    unfold replica at front back length ⊢
    simp only [length, if_true, front, back, exact_container.decode_encode, exact_node.decode_encode]
    rfl
  encode_of_decode {bytes k} read := by
    simp only [replica, Option.ite_none_right_eq_some, Option.bind_eq_some_iff, Option.map_eq_some_iff] at read
    obtain ⟨-, c, front, n, back, rfl⟩ := read
    simp only [replica, exact_container.encode_of_decode front, exact_node.encode_of_decode back,
      List.take_append_drop]
  compare_encode a b := by
    have same : (container.encode a.container).length = (container.encode b.container).length := by
      rw [length_encode_container, length_encode_container]
    refine (compare_append _ _ same).trans ?_
    rw [exact_container.compare_encode, exact_node.compare_encode]
    rfl

end KeyCodec

end ClusterCatalog
