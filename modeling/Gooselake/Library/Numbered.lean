import Mathlib.Data.List.Basic
import Mathlib.Data.List.TakeWhile

/-!
Names that end in a decimal counter after their last separator: the counter can be read back, so
two such names with different counters differ.
-/

namespace Gooselake.Library

set_option autoImplicit false

/-- The part of a text after its last separator, the whole text when there is none. -/
def afterLast (sep : Char) (cs : List Char) : List Char :=
  (cs.reverse.takeWhile (· != sep)).reverse

theorem afterLast_append (sep : Char) (pre post : List Char) (h : sep ∉ post) :
    afterLast sep (pre ++ sep :: post) = post := by
  have hall : ∀ c ∈ post.reverse, (c != sep) = true := by
    intro c hc
    simp only [List.mem_reverse] at hc
    have hne : c ≠ sep := fun e => h (e ▸ hc)
    simpa using hne
  simp [afterLast, List.reverse_append, List.takeWhile_append_of_pos hall]

theorem isDigit_of_mem {n : ℕ} {c : Char} (h : c ∈ Nat.toDigits 10 n) : c.isDigit :=
  Nat.isDigit_of_mem_toDigits (by decide) (by decide) h

theorem underscore_notMem_digits (n : ℕ) : '_' ∉ Nat.toDigits 10 n := fun h =>
  absurd (isDigit_of_mem h) (by decide)

theorem toDigits_inj {m n : ℕ} (h : Nat.toDigits 10 m = Nat.toDigits 10 n) : m = n := by
  rw [← Nat.ofDigitChars_ten_toDigits (n := m), h, Nat.ofDigitChars_ten_toDigits]

/-- The name with stem `stem` and counter `n`. -/
def numbered (stem : String) (n : ℕ) : String := stem ++ "_" ++ toString n

theorem toList_numbered (stem : String) (n : ℕ) :
    (numbered stem n).toList = stem.toList ++ '_' :: Nat.toDigits 10 n := by
  simp [numbered, String.toList_append]

theorem afterLast_numbered (stem : String) (n : ℕ) :
    afterLast '_' (numbered stem n).toList = Nat.toDigits 10 n := by
  rw [toList_numbered, afterLast_append _ _ _ (underscore_notMem_digits n)]

/-- Names with different counters differ, whatever their stems. -/
theorem numbered_inj {stem stem' : String} {m n : ℕ} (h : numbered stem m = numbered stem' n) :
    m = n := by
  refine toDigits_inj ?_
  rw [← afterLast_numbered stem m, h, afterLast_numbered]

/-! ## Reading the counter back -/

/-- The number the digits after the last separator spell. -/
def counterOf (name : String) : ℕ := Nat.ofDigitChars 10 (afterLast '_' name.toList) 0

@[simp] theorem counterOf_numbered (stem : String) (n : ℕ) : counterOf (numbered stem n) = n := by
  rw [counterOf, afterLast_numbered, Nat.ofDigitChars_ten_toDigits]

/-! ## The next free name -/

/-- The first number from `n` on whose name is free, looked for in `fuel` steps. -/
def firstFree (names : List String) (stem : String) : ℕ → ℕ → ℕ
  | 0, n => n
  | fuel + 1, n => if numbered stem n ∈ names then firstFree names stem fuel (n + 1) else n

theorem le_firstFree (names : List String) (stem : String) (fuel n : ℕ) : n ≤ firstFree names stem fuel n := by
  induction fuel generalizing n with
  | zero => exact Nat.le_refl n
  | succ fuel ih =>
    simp only [firstFree]
    split
    · exact (Nat.le_succ n).trans (ih (n + 1))
    · exact Nat.le_refl n

/-- The names from number `n` on. -/
def namesFrom (names : List String) (stem : String) (n : ℕ) : List String :=
  names.filter fun x => x = numbered stem (counterOf x) ∧ n ≤ counterOf x

/-- As many steps as there are names are enough. -/
theorem firstFree_notMem (names : List String) (stem : String) (n fuel : ℕ)
    (h : (namesFrom names stem n).length ≤ fuel) : numbered stem (firstFree names stem fuel n) ∉ names := by
  induction fuel generalizing n with
  | zero =>
    intro hmem
    have hin : numbered stem n ∈ namesFrom names stem n := by
      simp only [firstFree] at hmem
      simp [namesFrom, hmem]
    rw [List.length_eq_zero_iff.mp (Nat.le_zero.mp h)] at hin
    cases hin
  | succ fuel ih =>
    simp only [firstFree]
    split
    · next hmem =>
      apply ih
      have hsub : namesFrom names stem (n + 1) = (namesFrom names stem n).filter fun x => x ≠ numbered stem n := by
        simp only [namesFrom, List.filter_filter]
        apply List.filter_congr
        intro x _
        have hne : x = numbered stem (counterOf x) → (x ≠ numbered stem n ↔ counterOf x ≠ n) := by
          intro hx
          refine ⟨fun hne he => hne (he ▸ hx), fun hne he => hne ?_⟩
          rw [he, counterOf_numbered]
        rw [Bool.eq_iff_iff]
        simp only [Bool.and_eq_true, decide_eq_true_eq]
        constructor
        · intro ⟨hx, hle⟩
          exact ⟨(hne hx).mpr (by omega), hx, by omega⟩
        · intro ⟨hx', hx, hle⟩
          have := (hne hx).mp hx'
          exact ⟨hx, by omega⟩
      have hlt : (namesFrom names stem (n + 1)).length < (namesFrom names stem n).length := by
        rw [hsub, List.length_filter_lt_length_iff_exists]
        exact ⟨numbered stem n, by simp [namesFrom, hmem], by simp⟩
      omega
    · next hmem => exact hmem
end Gooselake.Library
