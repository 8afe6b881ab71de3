import Mathlib.Data.List.Sort
import Mathlib.Order.Defs.LinearOrder

/-!
Reading a list page by page from a cursor, where the keys of the list increase: a page and what comes
after its last key are what came after the cursor.
-/

namespace Gooselake.Library

set_option autoImplicit false

variable {α κ : Type} [LinearOrder κ] (key : α → κ)

def Increasing (l : List α) : Prop := l.Pairwise fun a b => key a < key b

/-- The key comes after the cursor; without a cursor every key does. -/
def isAfter (cursor : Option κ) (a : α) : Bool := cursor.all fun c => decide (c < key a)

/-- The first `limit` entries after the cursor. -/
def pageAfter (cursor : Option κ) (limit : ℕ) (l : List α) : List α := (l.filter (isAfter key cursor)).take limit

variable {key}

theorem isAfter_trans {cursor : Option κ} {a b : α} (ha : isAfter key cursor a = true) (hab : key a < key b) :
    isAfter key cursor b = true := by
  cases cursor with
  | none => rfl
  | some c =>
    simp only [isAfter, Option.all_some, decide_eq_true_eq] at ha ⊢
    exact ha.trans hab

theorem Increasing.filter {l : List α} (h : Increasing key l) (p : α → Bool) : Increasing key (l.filter p) :=
  List.Pairwise.sublist List.filter_sublist h

theorem Increasing.map_keys {l : List α} (h : Increasing key l) : (l.map key).Pairwise (· < ·) :=
  List.pairwise_map.mpr h

/-- What comes after the last key of a first part is the rest. -/
theorem Increasing.filter_after_last {first rest : List α} {x : α} (h : Increasing key (first ++ rest))
    (hx : first.getLast? = some x) : (first ++ rest).filter (isAfter key (some (key x))) = rest := by
  obtain ⟨init, rfl⟩ := List.getLast?_eq_some_iff.mp hx
  obtain ⟨hinit, hrest, hlt⟩ := List.pairwise_append.mp h
  have hbefore : (init ++ [x]).filter (isAfter key (some (key x))) = [] := by
    rw [List.filter_eq_nil_iff]
    intro a ha
    have hle : key a ≤ key x := by
      rcases List.mem_append.mp ha with ha | ha
      · exact ((List.pairwise_append.mp hinit).2.2 a ha x (by simp)).le
      · rw [List.mem_singleton.mp ha]
    simpa [isAfter] using hle
  have hafter : rest.filter (isAfter key (some (key x))) = rest := by
    rw [List.filter_eq_self]
    intro b hb
    simpa [isAfter] using hlt x (by simp) b hb
  rw [List.filter_append, hbefore, hafter, List.nil_append]

/-- A page and what comes after its last key. -/
theorem pageAfter_append {l : List α} (h : Increasing key l) {cursor : Option κ} {limit : ℕ} {x : α}
    (hx : (pageAfter key cursor limit l).getLast? = some x) :
    pageAfter key cursor limit l ++ l.filter (isAfter key (some (key x))) = l.filter (isAfter key cursor) := by
  have hsplit : pageAfter key cursor limit l ++ (l.filter (isAfter key cursor)).drop limit =
      l.filter (isAfter key cursor) :=
    List.take_append_drop limit _
  have hmem : isAfter key cursor x = true := by
    have : x ∈ l.filter (isAfter key cursor) := List.mem_of_mem_take (List.mem_of_getLast? hx)
    exact (List.mem_filter.mp this).2
  have hrest : l.filter (isAfter key (some (key x))) =
      (l.filter (isAfter key cursor)).filter (isAfter key (some (key x))) := by
    rw [List.filter_filter]
    refine List.filter_congr fun a _ => ?_
    rw [Bool.eq_iff_iff, Bool.and_eq_true]
    refine ⟨fun ha => ⟨ha, isAfter_trans hmem ?_⟩, And.left⟩
    simpa [isAfter] using ha
  rw [hrest, ← hsplit, (hsplit.symm ▸ h.filter _ : Increasing key _).filter_after_last hx, hsplit]

/-- A short page is all there is after the cursor. -/
theorem pageAfter_of_short {l : List α} {cursor : Option κ} {limit : ℕ}
    (h : (pageAfter key cursor limit l).length < limit) :
    pageAfter key cursor limit l = l.filter (isAfter key cursor) := by
  apply List.take_of_length_le
  simp only [pageAfter, List.length_take] at h
  omega

/-- Sorting what is in increasing order already. -/
theorem Increasing.insertionSort_eq {l : List α} (h : Increasing key l) :
    l.insertionSort (fun a b => key a ≤ key b) = l :=
  List.Pairwise.insertionSort_eq (h.imp fun hlt => le_of_lt hlt)

end Gooselake.Library
