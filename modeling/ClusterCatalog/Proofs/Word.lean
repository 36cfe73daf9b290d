import ClusterCatalog.Text.Decimal
/-!
Unsigned 64-bit numbers: the next one, the greater of two, and their digits. A number is read from any digits
that denote it, so also from those that it is written with.
-/
namespace ClusterCatalog

theorem toNat_succ {n : UInt64} (small : n.toNat + 1 < UInt64.size) : (n + 1).toNat = n.toNat + 1 := by
  rw [UInt64.toNat_add]
  exact Nat.mod_eq_of_lt (by simpa using small)

theorem max_uint64 (a b : UInt64) : max a b = if a ≤ b then b else a := rfl

instance lawfulOrderMax_uint64 : Std.LawfulOrderMax UInt64 := .of_max_le_iff
  (fun a b c => by
    rw [max_uint64]
    split <;> grind)
  fun a b => by
    rw [max_uint64]
    split <;> simp

namespace Decimal

theorem digit?_of_isDigit {c : Char} (h : c.isDigit = true) : digit? c = some (c.toNat - '0'.toNat) := by
  rw [Char.isDigit, Bool.and_eq_true, decide_eq_true_iff, decide_eq_true_iff] at h
  exact if_pos h

theorem le_ofDigitChars (digits : List Char) (value : Nat) : value ≤ Nat.ofDigitChars 10 digits value := by
  induction digits generalizing value with
  | nil => exact Nat.le_refl value
  | cons c digits ih =>
    have step := ih (10 * value + (c.toNat - '0'.toNat))
    rw [Nat.ofDigitChars_cons]
    omega

theorem digit?_of_not_isDigit {c : Char} (h : c.isDigit = false) : digit? c = none := by
  refine if_neg fun digit => ?_
  rw [Char.isDigit, Bool.and_eq_false_iff, decide_eq_false_iff_not, decide_eq_false_iff_not] at h
  exact h.elim (· digit.1) (· digit.2)

/-- A text is read to its end if it has digits only and the number is not too large. -/
theorem readDigits_eq_ok_iff {digits : List Char} {value n : Nat} (start : value < UInt64.size) :
    readDigits value digits = .ok n ↔
      (∀ c ∈ digits, c.isDigit = true) ∧ Nat.ofDigitChars 10 digits value = n ∧ n < UInt64.size := by
  induction digits generalizing value with
  | nil =>
    rw [readDigits, Except.ok.injEq, Nat.ofDigitChars_nil]
    exact ⟨fun same => ⟨nofun, same, same ▸ start⟩, fun read => read.2.1⟩
  | cons c digits ih =>
    rw [Nat.ofDigitChars_cons, Nat.mul_comm, List.forall_mem_cons]
    cases digit : c.isDigit with
    | false => simp [readDigits, digit?_of_not_isDigit digit]
    | true =>
      simp only [readDigits, digit?_of_isDigit digit, true_and]
      split
      case isTrue fits => exact ih fits
      case isFalse large =>
        refine iff_of_false nofun fun read => large ?_
        exact Nat.lt_of_le_of_lt (le_ofDigitChars digits _) (read.2.1 ▸ read.2.2)

theorem toOption_readDigits_eq_some_iff {digits : List Char} {n : UInt64} :
    ((readDigits 0 digits).map UInt64.ofNat).toOption = some n ↔
      (∀ c ∈ digits, c.isDigit = true) ∧ Nat.ofDigitChars 10 digits 0 = n.toNat := by
  have read {value : Nat} : readDigits 0 digits = .ok value ↔ _ := readDigits_eq_ok_iff (by decide)
  cases result : readDigits 0 digits with
  | error fault =>
    refine iff_of_false nofun fun ⟨all, value⟩ => ?_
    rw [read.2 ⟨all, value, n.toNat_lt⟩] at result
    cases result
  | ok value =>
    obtain ⟨all, rfl, small⟩ := read.1 result
    simp only [Except.map, Except.toOption, Option.some.injEq]
    constructor
    · rintro rfl
      exact ⟨all, (UInt64.toNat_ofNat_of_lt' small).symm⟩
    · rintro ⟨-, same⟩
      rw [same, UInt64.ofNat_toNat]

/-- Only a plus sign in front is not read as a digit. -/
theorem parse_eq_readDigits {c : Char} {digits : List Char} (h : c ≠ '+') :
    parse (c :: digits) = (readDigits 0 (c :: digits)).map UInt64.ofNat := by
  unfold parse
  split
  · next none => cases none
  · next plus => exact absurd (List.cons.inj plus).1 h
  · next plus => exact absurd (List.cons.inj plus).1 h
  · rfl

/-- What can be read as a number is digits, with a plus sign in front or not. -/
theorem parse?_eq_some_iff {text : List Char} {n : UInt64} : parse? text = some n ↔
    ∃ digits, digits ≠ [] ∧ (∀ c ∈ digits, c.isDigit = true) ∧ Nat.ofDigitChars 10 digits 0 = n.toNat ∧
      (text = digits ∨ text = '+' :: digits) := by
  constructor
  · intro read
    unfold parse? parse at read
    split at read
    · cases read
    · cases read
    · next digits alone =>
      obtain ⟨all, value⟩ := toOption_readDigits_eq_some_iff.1 read
      exact ⟨digits, fun empty => alone (empty ▸ rfl), all, value, .inr rfl⟩
    · next empty _ _ =>
      obtain ⟨all, value⟩ := toOption_readDigits_eq_some_iff.1 read
      exact ⟨text, empty, all, value, .inl rfl⟩
  · rintro ⟨digits, some, all, value, rfl | rfl⟩
    · obtain ⟨c, rest, rfl⟩ := List.exists_cons_of_ne_nil some
      have plain : c ≠ '+' := fun plus => absurd (all c List.mem_cons_self) (by rw [plus]; decide)
      rw [parse?, parse_eq_readDigits plain]
      exact toOption_readDigits_eq_some_iff.2 ⟨all, value⟩
    · obtain ⟨c, rest, rfl⟩ := List.exists_cons_of_ne_nil some
      exact toOption_readDigits_eq_some_iff.2 ⟨all, value⟩

theorem parse?_render (n : UInt64) : parse? (render n).toList = some n := by
  rw [render, String.toList_ofList]
  exact parse?_eq_some_iff.2 ⟨_, Nat.toDigits_ne_nil, fun c => Nat.isDigit_of_mem_toDigits (by decide) (by decide),
    Nat.ofDigitChars_toDigits (by decide) (by decide), .inl rfl⟩

end Decimal

end ClusterCatalog
