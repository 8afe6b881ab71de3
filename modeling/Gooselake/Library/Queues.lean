import Mathlib.Data.List.Basic
import Mathlib.Data.List.Nodup

/-!
The order of the entries of a list that grows at its end: `[a, b].Sublist l` when `a` stands before `b`.
-/

namespace Gooselake.Library

set_option autoImplicit false

variable {α : Type} {a b x : α} {l new : List α}

theorem pair_sublist_iff : [a, b].Sublist l ↔ ∃ front back, l = front ++ back ∧ a ∈ front ∧ b ∈ back := by
  rw [List.cons_sublist_iff]
  simp only [List.singleton_sublist]

theorem mem_of_pair_sublist (h : [a, b].Sublist l) : a ∈ l ∧ b ∈ l := by
  refine ⟨h.subset ?_, h.subset ?_⟩ <;> simp

theorem ne_of_pair_sublist (hl : l.Nodup) (h : [a, b].Sublist l) : a ≠ b :=
  List.pairwise_iff_forall_sublist.mp hl h

/-- Without duplicates two entries stand in one order only. -/
theorem not_pair_sublist_swap (hl : l.Nodup) (h : [a, b].Sublist l) : ¬ [b, a].Sublist l := by
  intro hswap
  obtain ⟨front, back, rfl, ha, hb⟩ := pair_sublist_iff.mp h
  obtain ⟨-, -, hdisjoint⟩ := List.nodup_append.mp hl
  have hfront : b ∉ front := fun hmem => hdisjoint b hmem b hb rfl
  have hback : a ∉ back := fun hmem => hdisjoint a ha a hmem rfl
  obtain ⟨u, v, he, hu, hv⟩ := List.sublist_append_iff.mp hswap
  cases u with
  | nil =>
    rw [List.nil_append] at he
    have hmem : a ∈ v := he ▸ by simp
    exact hback (hv.subset hmem)
  | cons c u =>
    obtain ⟨rfl, -⟩ := List.cons.inj he
    exact hfront (hu.subset List.mem_cons_self)

/-- What stood before an entry still does, and nothing else. -/
theorem pair_sublist_append (hl : (l ++ new).Nodup) (hb : b ∈ l) : [a, b].Sublist (l ++ new) ↔ [a, b].Sublist l := by
  refine ⟨fun h => ?_, fun h => h.trans (List.sublist_append_left l new)⟩
  obtain ⟨-, -, hdisjoint⟩ := List.nodup_append.mp hl
  obtain ⟨u, v, he, hu, hv⟩ := List.sublist_append_iff.mp h
  have hbv : b ∉ v := fun hmem => hdisjoint b hb b (hv.subset hmem) rfl
  cases v with
  | nil =>
    rw [List.append_nil] at he
    exact he ▸ hu
  | cons c v =>
    exfalso
    apply hbv
    have hlast : (u ++ c :: v).getLast? = some b := by rw [← he]; rfl
    rw [List.getLast?_append_of_ne_nil _ (List.cons_ne_nil c v)] at hlast
    exact List.mem_of_getLast? hlast

/-- A pair of a list with one more entry. -/
theorem pair_sublist_concat (h : [a, b].Sublist (l ++ [x])) : [a, b].Sublist l ∨ (a ∈ l ∧ b = x) := by
  obtain ⟨u, v, he, hu, hv⟩ := List.sublist_append_iff.mp h
  cases v with
  | nil =>
    rw [List.append_nil] at he
    exact .inl (he ▸ hu)
  | cons c v =>
    obtain ⟨rfl, rfl⟩ : c = x ∧ v = [] := by
      have := hv.length_le
      cases v with
      | nil => exact ⟨by simpa using hv, rfl⟩
      | cons => simp at this
    have he : [a] ++ [b] = u ++ [c] := he
    obtain ⟨rfl, hlast⟩ := List.append_inj' he rfl
    obtain rfl : b = c := by simpa using hlast
    exact .inr ⟨by simpa using hu, rfl⟩

end Gooselake.Library
