import ClusterCatalog.Proofs.Codec.Key
/-!
Texts as keys. UTF-8 writes a character of a greater number with a greater first byte, or with the same
one and greater bytes behind it, so that texts come in the order of their bytes.
-/
namespace ClusterCatalog

namespace Utf8

open Codec

theorem encode_eq_flatMap (s : String) : encode s = s.toList.flatMap String.utf8EncodeChar := by
  have bytes : (String.ofList s.toList).toByteArray = s.toList.utf8Encode := String.toByteArray_ofList
  rw [String.ofList_toList] at bytes
  rw [encode, String.toUTF8_eq_toByteArray, bytes, List.utf8Encode, List.data_toByteArray, List.toList_toArray]

theorem compare_cons_ofNat {a b : Nat} (ha : a < 256) (hb : b < 256) (x y : Bytes) :
    compare (UInt8.ofNat a :: x) (UInt8.ofNat b :: y) = (compare a b).then (compare x y) := by
  rw [List.compare_cons_cons, compare_ofNat, Nat.mod_eq_of_lt ha, Nat.mod_eq_of_lt hb]

theorem compare_cons_of_lt {a b : Nat} (below : a < b) (hb : b < 256) (x y : Bytes) :
    compare (UInt8.ofNat a :: x) (UInt8.ofNat b :: y) = .lt := by
  rw [compare_cons_ofNat (Nat.lt_trans below hb) hb, Nat.compare_eq_lt.2 below]
  rfl

theorem compare_add_right (m n k : Nat) : compare (m + k) (n + k) = compare m n := by
  rw [Nat.compare_eq_ite_lt, Nat.compare_eq_ite_lt]
  simp

/-- A byte behind the first one adds the next six bits of the number. -/
theorem compare_continued (m n : Nat) (x y : Bytes) :
    (compare (m / 64) (n / 64)).then
      (compare (UInt8.ofNat (m % 64 + 128) :: x) (UInt8.ofNat (n % 64 + 128) :: y)) =
    (compare m n).then (compare x y) := by
  rw [compare_cons_ofNat (by omega) (by omega), compare_add_right, ← Ordering.then_assoc, ← compare_div_mod 64]

theorem compare_encodeChar_of_lt {c d : Char} (below : c < d) (x y : Bytes) :
    compare (String.utf8EncodeChar c ++ x) (String.utf8EncodeChar d ++ y) = .lt := by
  have less : c.val.toNat < d.val.toNat := below
  have bound : d.val.toNat < 0x110000 := by
    rcases d.valid with low | ⟨-, high⟩
    · exact Nat.lt_trans low (by decide)
    · exact high
  unfold String.utf8EncodeChar
  generalize c.val.toNat = m at less ⊢
  generalize d.val.toNat = n at less bound ⊢
  dsimp only
  have decided (o : Ordering) : (compare m n).then o = .lt := by
    rw [Nat.compare_eq_lt.2 less]
    rfl
  -- the greater number takes as many bytes or more; where it takes more the first byte decides
  split
  · split
    · exact compare_cons_of_lt less (by omega) x y
    split
    · exact compare_cons_of_lt (by omega) (by omega) ..
    split
    · exact compare_cons_of_lt (by omega) (by omega) ..
    · exact compare_cons_of_lt (by omega) (by omega) ..
  rw [if_neg (by omega : ¬ n ≤ 127)]
  split
  · split
    · have first (k : Nat) (two : k ≤ 2047) : k / 64 % 32 = k / 64 := by omega
      simp only [List.cons_append]
      rw [compare_cons_ofNat (by omega) (by omega), compare_add_right, first m ‹_›, first n ‹_›, compare_continued]
      exact decided _
    split
    · exact compare_cons_of_lt (by omega) (by omega) ..
    · exact compare_cons_of_lt (by omega) (by omega) ..
  rw [if_neg (by omega : ¬ n ≤ 2047)]
  split
  · split
    · have first (k : Nat) (three : k ≤ 65535) : k / 4096 % 16 = k / 64 / 64 := by omega
      simp only [List.cons_append]
      rw [compare_cons_ofNat (by omega) (by omega), compare_add_right, first m ‹_›, first n ‹_›,
        compare_continued, compare_continued]
      exact decided _
    · exact compare_cons_of_lt (by omega) (by omega) ..
  rw [if_neg (by omega : ¬ n ≤ 65535)]
  have first (k : Nat) (four : k < 0x110000) : k / 262144 % 8 = k / 4096 / 64 := by omega
  have second (k : Nat) : k / 4096 = k / 64 / 64 := by omega
  simp only [List.cons_append]
  rw [compare_cons_ofNat (by omega) (by omega), compare_add_right, first m (by omega), first n bound,
    compare_continued, second, second, compare_continued, compare_continued]
  exact decided _

theorem compare_encodeChar (c d : Char) (x y : Bytes) :
    compare (String.utf8EncodeChar c ++ x) (String.utf8EncodeChar d ++ y) = (compare c d).then (compare x y) := by
  change _ = (compareOfLessAndEq c d).then _
  rcases Std.lt_trichotomy c d with below | rfl | above
  · rw [compare_encodeChar_of_lt below, compareOfLessAndEq, if_pos below]
    rfl
  · rw [compare_append x y rfl, Std.ReflOrd.compare_self, compareOfLessAndEq, if_neg Std.lt_irrefl, if_pos rfl]
  · have differ : c ≠ d := fun same => Std.lt_irrefl (same ▸ above)
    rw [Std.OrientedCmp.gt_of_lt (compare_encodeChar_of_lt above y x), compareOfLessAndEq,
      if_neg (Char.lt_asymm above), if_neg differ]
    rfl

theorem compare_flatMap_encodeChar (cs ds : List Char) :
    compare (cs.flatMap String.utf8EncodeChar) (ds.flatMap String.utf8EncodeChar) = compare cs ds := by
  induction cs generalizing ds with
  | nil =>
    cases ds with
    | nil => rfl
    | cons d ds =>
      obtain ⟨b, rest, bytes⟩ := List.exists_cons_of_ne_nil (String.utf8EncodeChar_ne_nil (c := d))
      rw [List.flatMap_nil, List.flatMap_cons, bytes, List.cons_append, List.compare_nil_cons, List.compare_nil_cons]
  | cons c cs ih =>
    cases ds with
    | nil =>
      obtain ⟨b, rest, bytes⟩ := List.exists_cons_of_ne_nil (String.utf8EncodeChar_ne_nil (c := c))
      rw [List.flatMap_nil, List.flatMap_cons, bytes, List.cons_append, List.compare_cons_nil, List.compare_cons_nil]
    | cons d ds =>
      rw [List.flatMap_cons, List.flatMap_cons, compare_encodeChar, ih, List.compare_cons_cons]

theorem compare_chars_eq_lt_iff (cs ds : List Char) : compare cs ds = .lt ↔ cs < ds := by
  induction cs generalizing ds with
  | nil => cases ds <;> simp
  | cons c cs ih =>
    cases ds with
    | nil => simp
    | cons d ds =>
      have first : compare c d = .lt ↔ c < d := compareOfLessAndEq_eq_lt
      rw [List.compare_cons_cons, Ordering.then_eq_lt, first, Std.LawfulEqOrd.compare_eq_iff_eq, ih,
        List.cons_lt_cons_iff]

/-- Texts come in the order of their bytes. -/
theorem compare_encode (s t : String) : compare (encode s) (encode t) = compare s t := by
  rw [encode_eq_flatMap, encode_eq_flatMap, compare_flatMap_encodeChar]
  change _ = compareOfLessAndEq s t
  have smaller : compare s.toList t.toList = .lt ↔ s < t := by
    rw [compare_chars_eq_lt_iff, String.lt_iff]
  have same : compare s.toList t.toList = .eq ↔ s = t := by
    rw [Std.LawfulEqOrd.compare_eq_iff_eq, String.toList_inj]
  rcases order : compare s.toList t.toList with _ | _ | _
  · rw [compareOfLessAndEq, if_pos (smaller.1 order)]
  · have equal := same.1 order
    rw [compareOfLessAndEq, if_neg (fun below => by rw [smaller.2 below] at order; cases order), if_pos equal]
  · rw [compareOfLessAndEq, if_neg (fun below => by rw [smaller.2 below] at order; cases order),
      if_neg (fun equal => by rw [same.2 equal] at order; cases order)]

end Utf8

theorem KeyCodec.exact_text : KeyCodec.text.Exact where
  decode_encode := Utf8.decode_encode
  encode_of_decode := Utf8.encode_of_decode
  compare_encode := Utf8.compare_encode

end ClusterCatalog
