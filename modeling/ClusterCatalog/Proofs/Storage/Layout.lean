import Mathlib.Order.Bounds.Basic
import ClusterCatalog.Proofs.Action
import ClusterCatalog.Proofs.Word
import ClusterCatalog.Storage.Layout
/-!
The directory of the stores: a fresh name is not taken, and what is put there and what is removed
leaves the other entries alone. The last known store is the one that outranks all others, and a fresh
name outranks whatever is there.
-/
namespace ClusterCatalog

namespace Layout

variable {α : Type} {layout : Layout α}

theorem stage_eq_ok {now : UInt64} {content? : Option α} {name : String} {staged : Layout α}
    (h : layout.stage now content? = .ok (name, staged)) :
    layout.fresh now = .ok name ∧ ∃ content, content? = some content ∧ staged = layout.put name content := by
  obtain ⟨name', named, h⟩ := exists_of_bind_eq_ok h
  cases content? with
  | none => cases h
  | some content =>
    cases h
    exact ⟨named, content, rfl, rfl⟩

theorem content?_eq_some_iff {name : String} {content : α} :
    layout.content? name = some content ↔ layout.entries[name]? = some (.directory content) := by
  unfold content?
  split
  · next stored =>
    rw [stored]
    exact ⟨fun same => by cases same; rfl, fun same => by cases same; rfl⟩
  · next none => exact ⟨(nomatch ·), fun stored => absurd stored (none content)⟩

theorem content?_put (layout : Layout α) (name : String) (content : α) (other : String) :
    (layout.put name content).content? other = if name = other then some content else layout.content? other := by
  by_cases same : name = other
  · simp [content?, put, same]
  · simp [content?, put, Std.ExtTreeMap.getElem?_insert, same]

/-- What was put under a name that was not taken is removed without a trace. -/
theorem remove_put {name : String} (absent : layout.exists? name = false) (content : α) :
    (layout.put name content).remove name = .ok layout := by
  have stored : (layout.put name content).entries[name]? = some (.directory content) := by simp [put]
  rw [remove, stored]
  dsimp only
  congr 1
  cases layout with
  | mk entries =>
    congr 1
    refine Std.ExtTreeMap.ext_getElem? fun other => ?_
    by_cases same : name = other
    · subst same
      rw [exists?] at absent
      simp [Std.ExtTreeMap.mem_iff_contains, absent]
    · simp [put, Std.ExtTreeMap.getElem?_erase, Std.ExtTreeMap.getElem?_insert, same]

/-- A directory can be removed, and nothing else goes with it. -/
theorem remove_of_content? {name : String} {content : α} (h : layout.content? name = some content) :
    layout.remove name = .ok ⟨layout.entries.erase name⟩ := by
  rw [remove, content?_eq_some_iff.1 h]

theorem exists?_of_content? {name : String} {content : α} (h : layout.content? name = some content) :
    layout.exists? name = true := by
  have stored := content?_eq_some_iff.1 h
  rw [exists?, Std.ExtTreeMap.contains_eq_isSome_getElem?, stored]
  rfl

theorem mem_stamped {stamp : UInt64} {name : String} :
    (stamp, name) ∈ layout.stamped ↔
      stamp? name = some stamp ∧ ∃ content, layout.content? name = some content := by
  rw [stamped, List.mem_filterMap]
  constructor
  · rintro ⟨⟨other, entry⟩, mem, carries⟩
    have stored := Std.ExtTreeMap.mem_toList_iff_getElem?_eq_some.1 mem
    cases entry with
    | file => cases carries
    | directory content =>
      obtain ⟨found, carries, same⟩ := Option.map_eq_some_iff.1 carries
      cases same
      exact ⟨carries, content, content?_eq_some_iff.2 stored⟩
  · rintro ⟨carries, content, holds⟩
    refine ⟨(name, .directory content), Std.ExtTreeMap.mem_toList_iff_getElem?_eq_some.2 ?_, ?_⟩
    · exact content?_eq_some_iff.1 holds
    · rw [stamped?, carries]
      rfl

/-- The first directory is the later one: its stamp is greater, or equal and its name comes first. -/
def Outranks (a b : UInt64 × String) : Prop := b.1 < a.1 ∨ b.1 = a.1 ∧ (compare a.2 b.2).isLE

theorem Outranks.refl (a : UInt64 × String) : Outranks a a := .inr ⟨rfl, Std.ReflCmp.isLE_rfl⟩

theorem Outranks.trans {a b c : UInt64 × String} (h : Outranks a b) (g : Outranks b c) : Outranks a c := by
  obtain later | ⟨same, le⟩ := h
  · obtain later' | ⟨same', -⟩ := g
    · exact .inl (UInt64.lt_trans later' later)
    · exact .inl (same' ▸ later)
  · obtain later' | ⟨same', le'⟩ := g
    · exact .inl (same ▸ later')
    · exact .inr ⟨same'.trans same, Std.TransCmp.isLE_trans le le'⟩

theorem Outranks.antisymm {a b : UInt64 × String} (h : Outranks a b) (g : Outranks b a) : a = b := by
  obtain later | ⟨same, le⟩ := h
  · obtain later' | ⟨same', -⟩ := g
    · exact absurd (UInt64.lt_trans later later') (UInt64.lt_irrefl _)
    · exact absurd (same' ▸ later) (UInt64.lt_irrefl _)
  · obtain later' | ⟨-, le'⟩ := g
    · exact absurd (same ▸ later') (UInt64.lt_irrefl _)
    · have names := Std.LawfulEqCmp.eq_of_compare (Std.OrientedCmp.isLE_antisymm le le')
      exact Prod.ext same.symm names

theorem newer_eq_or (a b : UInt64 × String) : newer a b = a ∨ newer a b = b := by
  unfold newer
  split
  · exact .inr rfl
  · exact .inl rfl

/-- Of two directories in the order of their names, the newer one outranks both. -/
theorem outranks_newer {a b : UInt64 × String} (order : compare a.2 b.2 = .lt) :
    Outranks (newer a b) a ∧ Outranks (newer a b) b := by
  unfold newer
  split
  · next later => exact ⟨.inl later, .refl b⟩
  · next notLater =>
    refine ⟨.refl a, ?_⟩
    obtain same | earlier := UInt64.lt_or_eq_of_le (UInt64.not_lt.1 notLater) |>.symm
    · exact .inr ⟨same, by rw [order]; rfl⟩
    · exact .inl earlier

theorem foldl_newer_mem (first : UInt64 × String) (rest : List (UInt64 × String)) :
    rest.foldl newer first ∈ first :: rest := by
  induction rest generalizing first with
  | nil => exact List.mem_singleton.2 rfl
  | cons second rest ih =>
    obtain won | later := List.mem_cons.1 (ih (newer first second))
    · rw [List.foldl_cons, won]
      obtain won | won := newer_eq_or first second
      · rw [won]
        exact List.mem_cons_self
      · rw [won]
        exact List.mem_cons_of_mem first List.mem_cons_self
    · exact List.mem_cons_of_mem first (List.mem_cons_of_mem second later)

theorem outranks_foldl_newer {first : UInt64 × String} {rest : List (UInt64 × String)}
    (order : (first :: rest).Pairwise fun a b => compare a.2 b.2 = .lt) :
    ∀ p ∈ first :: rest, Outranks (rest.foldl newer first) p := by
  induction rest generalizing first with
  | nil =>
    intro p mem
    rw [List.mem_singleton.1 mem]
    exact .refl first
  | cons second rest ih =>
    obtain ⟨firstBefore, order⟩ := List.pairwise_cons.1 order
    obtain ⟨secondBefore, order⟩ := List.pairwise_cons.1 order
    obtain ⟨overFirst, overSecond⟩ := outranks_newer (firstBefore second List.mem_cons_self)
    -- the winner of the first two goes on against the rest
    have before : ∀ p ∈ rest, compare (newer first second).2 p.2 = .lt := fun p mem => by
      obtain won | won := newer_eq_or first second
      · rw [won]
        exact firstBefore p (List.mem_cons_of_mem second mem)
      · rw [won]
        exact secondBefore p mem
    have outranks := ih (List.pairwise_cons.2 ⟨before, order⟩)
    have wins := outranks _ List.mem_cons_self
    simp only [List.forall_mem_cons] at outranks ⊢
    exact ⟨wins.trans overFirst, wins.trans overSecond, outranks.2⟩

theorem stamped_ordered (layout : Layout α) : layout.stamped.Pairwise fun a b => compare a.2 b.2 = .lt := by
  refine List.Pairwise.filterMap stamped? (fun a a' order b carries b' carries' => ?_)
    (Std.ExtTreeMap.ordered_keys_toList (t := layout.entries))
  have name {a : String × Entry α} {b : UInt64 × String} (carries : stamped? a = some b) : b.2 = a.1 := by
    obtain ⟨other, _ | content⟩ := a
    · cases carries
    · obtain ⟨found, -, rfl⟩ := Option.map_eq_some_iff.1 carries
      rfl
  rw [name carries, name carries']
  exact order

/-- The last known store is the stamped directory that outranks all others. -/
theorem latest?_eq_some_iff {p : UInt64 × String} :
    layout.latest? = some p ↔ p ∈ layout.stamped ∧ ∀ q ∈ layout.stamped, Outranks p q := by
  have order := layout.stamped_ordered
  unfold latest?
  rcases all : layout.stamped with _ | ⟨first, rest⟩
  · exact ⟨(nomatch ·), fun h => (nomatch h.1)⟩
  · rw [all] at order
    have mem := foldl_newer_mem first rest
    have outranks := outranks_foldl_newer order
    constructor
    · intro same
      cases same
      exact ⟨mem, outranks⟩
    · rintro ⟨mem', outranks'⟩
      exact congrArg some ((outranks p mem').antisymm (outranks' _ mem))

theorem latest?_eq_none_iff : layout.latest? = none ↔ layout.stamped = [] := by
  unfold latest?
  rcases layout.stamped with _ | ⟨first, rest⟩
  · exact ⟨fun _ => rfl, fun _ => rfl⟩
  · exact ⟨(nomatch ·), (nomatch ·)⟩

def Denotes (name : String) (stamp : UInt64) : Prop :=
  ∃ (sign : String) (digits : List Char), (sign = "" ∨ sign = "+") ∧ digits ≠ [] ∧ (∀ c ∈ digits, c.isDigit = true) ∧
    Nat.ofDigitChars 10 digits 0 = stamp.toNat ∧ name = stampPrefix ++ sign ++ String.ofList digits

theorem stamp?_append (text : String) : stamp? (stampPrefix ++ text) = Decimal.parse? text.toList := by
  have marked : stampPrefix.toList.isPrefixOf (stampPrefix ++ text).toList = true := by
    rw [String.toList_append, List.isPrefixOf_iff_prefix]
    exact List.prefix_append ..
  have rest : (stampPrefix ++ text).toList.drop stampPrefix.length = text.toList := by
    rw [String.toList_append, ← String.length_toList, List.drop_left]
  rw [stamp?, if_pos marked, rest]

theorem exists_append_of_stamp? {name : String} {stamp : UInt64} (h : stamp? name = some stamp) :
    ∃ text, name = stampPrefix ++ text := by
  unfold stamp? at h
  split at h
  case isTrue marked =>
    obtain ⟨rest, whole⟩ := List.isPrefixOf_iff_prefix.1 marked
    exact ⟨String.ofList rest, String.toList_inj.1 (by rw [String.toList_append, String.toList_ofList, whole])⟩
  case isFalse => cases h

theorem stamp?_eq_some_iff {name : String} {stamp : UInt64} : stamp? name = some stamp ↔ Denotes name stamp := by
  constructor
  · intro carries
    obtain ⟨text, rfl⟩ := exists_append_of_stamp? carries
    rw [stamp?_append] at carries
    obtain ⟨digits, some, all, value, plain | signed⟩ := Decimal.parse?_eq_some_iff.1 carries
    · refine ⟨"", digits, .inl rfl, some, all, value, ?_⟩
      rw [String.append_empty, ← plain, String.ofList_toList]
    · have whole : text = "+" ++ String.ofList digits := String.toList_inj.1 (signed.trans (by simp))
      exact ⟨"+", digits, .inr rfl, some, all, value, by rw [whole, String.append_assoc]⟩
  · rintro ⟨sign, digits, rfl | rfl, some, all, value, rfl⟩
    · rw [String.append_assoc, stamp?_append]
      exact Decimal.parse?_eq_some_iff.2 ⟨digits, some, all, value, .inl (by simp)⟩
    · rw [String.append_assoc, stamp?_append]
      exact Decimal.parse?_eq_some_iff.2 ⟨digits, some, all, value, .inr (by simp)⟩

theorem stamp?_directoryName (stamp : UInt64) : stamp? (directoryName stamp) = some stamp := by
  rw [directoryName, stamp?_append, Decimal.parse?_render]

/-- The search for a stamp finds the first one whose name is not taken. -/
theorem isLeast_of_freeFrom {stamp free : UInt64} (h : layout.freeFrom stamp = .ok free) :
    IsLeast {s | stamp ≤ s ∧ layout.exists? (directoryName s) = false} free := by
  induction stamp using freeFrom.induct layout with
  | case1 stamp taken step ih =>
    rw [freeFrom, if_pos taken, if_pos step] at h
    obtain ⟨⟨le, absent⟩, least⟩ := ih h
    have next := toNat_succ step
    refine ⟨⟨?_, absent⟩, fun s ⟨after, vacant⟩ => least ⟨?_, vacant⟩⟩
    · rw [UInt64.le_iff_toNat_le] at le ⊢
      omega
    · have ne : stamp ≠ s := fun same => by
        subst same
        rw [taken] at vacant
        cases vacant
      have past := UInt64.lt_iff_toNat_lt.1 (UInt64.lt_of_le_of_ne after ne)
      exact UInt64.le_iff_toNat_le.2 (by omega)
  | case2 stamp taken last =>
    rw [freeFrom, if_pos taken, if_neg last] at h
    cases h
  | case3 stamp notTaken =>
    rw [freeFrom, if_neg notTaken] at h
    cases h
    exact ⟨⟨UInt64.le_refl _, Bool.eq_false_iff.2 notTaken⟩, fun s after => after.1⟩

/-- It fails if all names from there on are taken. -/
theorem exists?_of_freeFrom_eq_error {stamp s : UInt64} {e : StoreError} (h : layout.freeFrom stamp = .error e)
    (after : stamp ≤ s) : layout.exists? (directoryName s) = true := by
  induction stamp using freeFrom.induct layout with
  | case1 stamp taken step ih =>
    rw [freeFrom, if_pos taken, if_pos step] at h
    by_cases same : stamp = s
    · exact same ▸ taken
    · have next := toNat_succ step
      have past := UInt64.lt_iff_toNat_lt.1 (UInt64.lt_of_le_of_ne after same)
      exact ih h (UInt64.le_iff_toNat_le.2 (by omega))
  | case2 stamp taken last =>
    have only : s = stamp := by
      have below := UInt64.le_iff_toNat_le.1 after
      have bound : s.toNat < UInt64.size := s.toNat_lt
      exact UInt64.toNat_inj.1 (by omega)
    exact only ▸ taken
  | case3 stamp notTaken =>
    rw [freeFrom, if_neg notTaken] at h
    cases h

theorem freeFrom_eq_ok {stamp free : UInt64} (h : layout.freeFrom stamp = .ok free) :
    stamp ≤ free ∧ layout.exists? (directoryName free) = false :=
  (isLeast_of_freeFrom h).1

/-- The search begins right where a stamp may be, or there is one past which there can be none. -/
theorem freshStamp_cases (layout : Layout α) (now : UInt64) :
    (∃ start, layout.freshStamp now = layout.freeFrom start ∧
      ∀ s, start ≤ s ↔ now ≤ s ∧ ∀ p ∈ layout.stamped, p.1 < s) ∨
    (layout.freshStamp now = .error .exhausted ∧ ∃ p ∈ layout.stamped, ∀ s, ¬ p.1 < s) := by
  unfold freshStamp
  split
  · next none =>
    refine .inl ⟨now, rfl, fun s => ?_⟩
    simp [latest?_eq_none_iff.1 none]
  · next latest name known =>
    obtain ⟨mem, outranks⟩ := latest?_eq_some_iff.1 known
    split
    · next step =>
      refine .inl ⟨_, rfl, fun s => ?_⟩
      have next := toNat_succ step
      have past : latest + 1 ≤ s ↔ latest < s := by
        rw [UInt64.le_iff_toNat_le, UInt64.lt_iff_toNat_lt]
        omega
      rw [Std.max_le_iff, past]
      refine and_congr_right fun _ => ⟨fun below p mem => ?_, fun below => below _ mem⟩
      obtain earlier | ⟨same, -⟩ := outranks p mem
      · exact UInt64.lt_trans earlier below
      · exact same ▸ below
    · next last =>
      refine .inr ⟨rfl, _, mem, fun s below => last ?_⟩
      have below : latest.toNat < s.toNat := UInt64.lt_iff_toNat_lt.1 below
      have bound : s.toNat < UInt64.size := s.toNat_lt
      omega

/-- The search for a fresh stamp begins past all that are there. -/
theorem freshStamp_eq_ok {now stamp : UInt64} (h : layout.freshStamp now = .ok stamp) :
    ∃ start, layout.freeFrom start = .ok stamp ∧ ∀ p ∈ layout.stamped, p.1 < start := by
  obtain ⟨start, search, begins⟩ | ⟨failed, -⟩ := layout.freshStamp_cases now
  · exact ⟨start, search.symm.trans h, ((begins start).1 (UInt64.le_refl _)).2⟩
  · cases failed.symm.trans h

theorem exists?_of_fresh {now : UInt64} {name : String} (h : layout.fresh now = .ok name) :
    layout.exists? name = false := by
  obtain ⟨stamp, stamped, rfl⟩ := exists_of_map_eq_ok h
  obtain ⟨start, free, -⟩ := freshStamp_eq_ok stamped
  exact (freeFrom_eq_ok free).2

theorem mem_stamped_put {name : String} {content : α} {p : UInt64 × String} :
    p ∈ (layout.put name content).stamped ↔ p ∈ layout.stamped ∨ p.2 = name ∧ stamp? name = some p.1 := by
  obtain ⟨stamp, other⟩ := p
  rw [mem_stamped, mem_stamped, content?_put]
  by_cases same : name = other
  · subst same
    rw [if_pos rfl]
    exact ⟨fun h => .inr ⟨rfl, h.1⟩, fun h => ⟨h.elim And.left And.right, content, rfl⟩⟩
  · rw [if_neg same]
    exact ⟨.inl, fun h => h.resolve_right fun h => same h.1.symm⟩

theorem latest?_congr {other : Layout α} (h : ∀ p, p ∈ layout.stamped ↔ p ∈ other.stamped) :
    layout.latest? = other.latest? := by
  refine Option.ext fun p => ?_
  rw [latest?_eq_some_iff, latest?_eq_some_iff, h p]
  simp only [h]

/-- What is put into a directory that is there adds no stamp. -/
theorem mem_stamped_put_of_content? {name : String} {old : α} (h : layout.content? name = some old) (content : α)
    {p : UInt64 × String} : p ∈ (layout.put name content).stamped ↔ p ∈ layout.stamped := by
  rw [mem_stamped_put]
  refine ⟨fun mem => mem.elim id ?_, .inl⟩
  rintro ⟨rfl, carries⟩
  exact mem_stamped.2 ⟨carries, old, h⟩

/-- Nor does it change which one is the last. -/
theorem latest?_put_of_content? {name : String} {old : α} (h : layout.content? name = some old) (content : α) :
    (layout.put name content).latest? = layout.latest? :=
  latest?_congr fun _ => mem_stamped_put_of_content? h content

/-- A fresh name carries a stamp that is greater than all that are there. -/
theorem stamp?_of_fresh {now : UInt64} {name : String} (h : layout.fresh now = .ok name) :
    ∃ stamp, stamp? name = some stamp ∧ ∀ p ∈ layout.stamped, p.1 < stamp := by
  obtain ⟨stamp, stamped, rfl⟩ := exists_of_map_eq_ok h
  obtain ⟨start, free, past⟩ := freshStamp_eq_ok stamped
  exact ⟨stamp, stamp?_directoryName stamp, fun p mem => UInt64.lt_of_lt_of_le (past p mem) (freeFrom_eq_ok free).1⟩

/-- What is put under a fresh name is the last known store. -/
theorem latest?_put_of_fresh {now : UInt64} {name : String} (h : layout.fresh now = .ok name) (content : α) :
    ∃ stamp, (layout.put name content).latest? = some (stamp, name) := by
  obtain ⟨stamp, carries, past⟩ := stamp?_of_fresh h
  refine ⟨stamp, latest?_eq_some_iff.2 ⟨mem_stamped_put.2 (.inr ⟨rfl, carries⟩), fun p mem => ?_⟩⟩
  obtain old | ⟨named, same⟩ := mem_stamped_put.1 mem
  · exact .inl (past p old)
  · have same : p.1 = stamp := Option.some.inj (same.symm.trans carries)
    rw [show p = (stamp, name) from Prod.ext same named]
    exact .refl _

theorem mem_stamped_erase {name : String} {p : UInt64 × String} :
    p ∈ stamped ⟨layout.entries.erase name⟩ ↔ p ∈ layout.stamped ∧ p.2 ≠ name := by
  obtain ⟨stamp, other⟩ := p
  have content : content? ⟨layout.entries.erase name⟩ other =
      if name = other then none else layout.content? other := by
    by_cases same : name = other
    · simp [content?, same]
    · simp [content?, Std.ExtTreeMap.getElem?_erase, same]
  rw [mem_stamped, mem_stamped, content]
  by_cases same : name = other
  · simp [same]
  · simp [same, Ne.symm same]

/-- The last known store stays it when another one is removed. -/
theorem latest?_erase {stamp : UInt64} {name other : String} (h : layout.latest? = some (stamp, name))
    (ne : other ≠ name) : latest? ⟨layout.entries.erase other⟩ = some (stamp, name) := by
  obtain ⟨mem, outranks⟩ := latest?_eq_some_iff.1 h
  exact latest?_eq_some_iff.2 ⟨mem_stamped_erase.2 ⟨mem, Ne.symm ne⟩,
    fun p left => outranks p (mem_stamped_erase.1 left).1⟩

theorem exists_content?_of_latest? {stamp : UInt64} {name : String} (h : layout.latest? = some (stamp, name)) :
    ∃ content, layout.content? name = some content :=
  (mem_stamped.1 (latest?_eq_some_iff.1 h).1).2

end Layout

end ClusterCatalog
