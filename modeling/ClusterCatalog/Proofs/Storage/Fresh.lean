import ClusterCatalog.Proofs.Storage.Layout
/-!
A fresh name for a store carries the least stamp that is not before the clock and past all stamps that are there,
and whose name nothing has. If there is such a stamp it is found, and a store that is put there is the newest, in
whatever order the directory is read.
-/
namespace ClusterCatalog.Layout

variable {α : Type} {layout : Layout α} {now stamp : UInt64}

structure Vacant (layout : Layout α) (now stamp : UInt64) : Prop where
  notBefore : now ≤ stamp
  past {name : String} {content : α} {other : UInt64} (there : layout.content? name = some content)
    (denotes : Denotes name other) : other < stamp
  absent : layout.exists? (directoryName stamp) = false

theorem vacant_iff : layout.Vacant now stamp ↔
    (now ≤ stamp ∧ ∀ p ∈ layout.stamped, p.1 < stamp) ∧ layout.exists? (directoryName stamp) = false := by
  constructor
  · intro vacant
    refine ⟨⟨vacant.notBefore, fun p mem => ?_⟩, vacant.absent⟩
    obtain ⟨carries, content, there⟩ := mem_stamped.1 mem
    exact vacant.past there (stamp?_eq_some_iff.1 carries)
  · rintro ⟨⟨notBefore, past⟩, absent⟩
    exact ⟨notBefore, fun there denotes => past (_, _) (mem_stamped.2 ⟨stamp?_eq_some_iff.2 denotes, _, there⟩), absent⟩

theorem isLeast_of_freshStamp (h : layout.freshStamp now = .ok stamp) : IsLeast {s | layout.Vacant now s} stamp := by
  obtain ⟨start, search, begins⟩ | ⟨failed, -⟩ := layout.freshStamp_cases now
  · obtain ⟨⟨after, absent⟩, least⟩ := isLeast_of_freeFrom (search.symm.trans h)
    refine ⟨vacant_iff.2 ⟨(begins stamp).1 after, absent⟩, fun s vacant => ?_⟩
    obtain ⟨fits, absent⟩ := vacant_iff.1 vacant
    exact least ⟨(begins s).2 fits, absent⟩
  · cases failed.symm.trans h

theorem not_vacant_of_freshStamp_eq_error {e : StoreError} (h : layout.freshStamp now = .error e) (s : UInt64) :
    ¬ layout.Vacant now s := by
  intro vacant
  obtain ⟨fits, absent⟩ := vacant_iff.1 vacant
  obtain ⟨start, search, begins⟩ | ⟨-, p, mem, last⟩ := layout.freshStamp_cases now
  · have taken := exists?_of_freeFrom_eq_error (search.symm.trans h) ((begins s).2 fits)
    rw [absent] at taken
    cases taken
  · exact last s (fits.2 p mem)

def newest? : List (UInt64 × String) → Option (UInt64 × String)
  | [] => none
  | first :: rest => some (rest.foldl newer first)

theorem latest?_eq_newest? (layout : Layout α) : layout.latest? = newest? layout.stamped := by
  unfold latest?
  cases layout.stamped <;> rfl

theorem le_newer (a b : UInt64 × String) : a.1 ≤ (newer a b).1 ∧ b.1 ≤ (newer a b).1 := by
  unfold newer
  split
  case isTrue later => exact ⟨UInt64.le_of_lt later, UInt64.le_refl _⟩
  case isFalse notLater => exact ⟨UInt64.le_refl _, UInt64.not_lt.1 notLater⟩

theorem le_foldl_newer (first : UInt64 × String) (rest : List (UInt64 × String)) :
    ∀ p ∈ first :: rest, p.1 ≤ (rest.foldl newer first).1 := by
  induction rest generalizing first with
  | nil =>
    intro p mem
    rw [List.mem_singleton.1 mem]
    exact UInt64.le_refl _
  | cons second rest ih =>
    have le := ih (newer first second)
    have winner := le _ List.mem_cons_self
    obtain ⟨overFirst, overSecond⟩ := le_newer first second
    simp only [List.forall_mem_cons] at le ⊢
    exact ⟨UInt64.le_trans overFirst winner, UInt64.le_trans overSecond winner, le.2⟩

/-- The one with the greatest stamp is found wherever it is listed. -/
theorem newest?_eq_some {listing : List (UInt64 × String)} {p : UInt64 × String} (mem : p ∈ listing)
    (greatest : ∀ q ∈ listing, q ≠ p → q.1 < p.1) : newest? listing = some p := by
  cases listing with
  | nil => cases mem
  | cons first rest =>
    have le := le_foldl_newer first rest p mem
    refine congrArg some (by_contra fun other => ?_)
    exact UInt64.not_lt.2 le (greatest _ (foldl_newer_mem first rest) other)

/-- What a vacant name is given to comes after all that was there. -/
theorem Vacant.greatest (h : layout.Vacant now stamp) (content : α) :
    (stamp, directoryName stamp) ∈ (layout.put (directoryName stamp) content).stamped ∧
    ∀ q ∈ (layout.put (directoryName stamp) content).stamped, q ≠ (stamp, directoryName stamp) → q.1 < stamp := by
  refine ⟨mem_stamped_put.2 (.inr ⟨rfl, stamp?_directoryName stamp⟩), fun q mem other => ?_⟩
  obtain old | ⟨named, carries⟩ := mem_stamped_put.1 mem
  · exact (vacant_iff.1 h).1.2 q old
  · rw [stamp?_directoryName] at carries
    exact absurd (Prod.ext (Option.some.inj carries).symm named) other

/-- If there is a stamp left, then the least one is given out. -/
theorem fresh_of_vacant (layout : Layout α) (now : UInt64) (left : ∃ stamp, layout.Vacant now stamp) :
    ∃ stamp, layout.fresh now = .ok (directoryName stamp) ∧ IsLeast {s | layout.Vacant now s} stamp ∧
      ∀ content, (layout.put (directoryName stamp) content).latest? = some (stamp, directoryName stamp) ∧
        ∀ listing : List (UInt64 × String), listing.Perm (layout.put (directoryName stamp) content).stamped →
          newest? listing = some (stamp, directoryName stamp) := by
  obtain ⟨s, vacant⟩ := left
  cases search : layout.freshStamp now with
  | error e => exact absurd vacant (not_vacant_of_freshStamp_eq_error search s)
  | ok stamp =>
    have least := isLeast_of_freshStamp search
    refine ⟨stamp, by rw [fresh, search]; rfl, least, fun content => ?_⟩
    obtain ⟨mem, greatest⟩ := least.1.greatest content
    refine ⟨(latest?_eq_newest? _).trans (newest?_eq_some mem greatest), fun listing same => ?_⟩
    exact newest?_eq_some (same.mem_iff.2 mem) fun q listed => greatest q (same.mem_iff.1 listed)

section Crowded

def crowdedEntries : List (String × Entry Unit) :=
  [("incoming-99999", .directory ()), ("scm-+9", .directory ()), ("scm-010", .directory ()), ("scm-11", .file),
    ("scm-12x", .directory ()), ("scm-18446744073709551616", .directory ()), ("scm-400", .file),
    ("scm-7", .directory ())]

def crowded : Layout Unit := ⟨.ofList crowdedEntries⟩

theorem vacant_crowded : crowded.Vacant 3 12 := vacant_iff.2 (by decide +kernel)

theorem fresh_of_vacant_crowded :
    (∃ stamp, crowded.Vacant 3 stamp) ∧ ∃ stamp, crowded.fresh 3 = .ok (directoryName stamp) ∧
      IsLeast {s | crowded.Vacant 3 s} stamp ∧ ∀ content,
        (crowded.put (directoryName stamp) content).latest? = some (stamp, directoryName stamp) ∧
        ∀ listing : List (UInt64 × String), listing.Perm (crowded.put (directoryName stamp) content).stamped →
          newest? listing = some (stamp, directoryName stamp) :=
  ⟨⟨12, vacant_crowded⟩, fresh_of_vacant crowded 3 ⟨12, vacant_crowded⟩⟩

example : crowded.fresh 3 = .ok "scm-12" := by decide +kernel

end Crowded

end ClusterCatalog.Layout
