import Mathlib.Data.List.Basic
import Mathlib.Data.List.Induction
import Mathlib.Data.List.Nodup

/-!
The positions in a list at which a predicate holds, and the list cut at one of them.
-/

namespace Gooselake.Library

set_option autoImplicit false

variable {α : Type} {p : α → Bool}

def positions (p : α → Bool) (l : List α) : List ℕ := (l.zipIdx.filter fun e => p e.1).map Prod.snd

theorem positions_append (p : α → Bool) (xs ys : List α) :
    positions p (xs ++ ys) = positions p xs ++ (positions p ys).map (· + xs.length) := by
  have hshift : ∀ (ys : List α) (n k : ℕ), ((ys.zipIdx (n + k)).filter fun e => p e.1).map Prod.snd =
      (((ys.zipIdx n).filter fun e => p e.1).map Prod.snd).map (· + k) := by
    intro ys
    induction ys with
    | nil => intro n k; rfl
    | cons y ys ih =>
      intro n k
      rw [List.zipIdx_cons, List.zipIdx_cons, List.filter_cons, List.filter_cons, Nat.add_right_comm]
      split
      · rw [List.map_cons, List.map_cons, List.map_cons, ih]
      · exact ih (n + 1) k
  rw [positions, List.zipIdx_append, List.filter_append, List.map_append, Nat.zero_add]
  congr 1
  have h := hshift ys 0 xs.length
  rwa [Nat.zero_add] at h

theorem length_positions (p : α → Bool) (l : List α) : (positions p l).length = l.countP p := by
  induction l using List.reverseRecOn with
  | nil => rfl
  | append_singleton l x ih =>
    rw [positions_append, List.length_append, ih, List.length_map, List.countP_append]
    cases hx : p x <;> simp [positions, hx]

theorem lt_of_mem_positions {l : List α} {i : ℕ} (h : i ∈ positions p l) : i < l.length := by
  obtain ⟨e, he, rfl⟩ := List.mem_map.mp h
  have hlt := List.snd_lt_of_mem_zipIdx (List.mem_of_mem_filter he)
  exact hlt

section

variable {pre post : List α} {x : α}

theorem positions_split (pre post : List α) (hx : p x = true) : ∃ later,
    positions p (pre ++ x :: post) = positions p pre ++ pre.length :: later := by
  refine ⟨(positions p post).map (· + 1 + pre.length), ?_⟩
  have hcons : positions p (x :: post) = 0 :: (positions p post).map (· + 1) := by
    rw [← List.singleton_append, positions_append]
    simp [positions, hx]
  rw [positions_append, hcons, List.map_cons, List.map_map, Nat.zero_add]
  rfl

theorem findIdx?_split {q : α → Bool} (hx : q x = true) (hpre : ∀ y ∈ pre, q y = false) :
    (pre ++ x :: post).findIdx? q = some pre.length := by
  induction pre with
  | nil => rw [List.nil_append, List.findIdx?_cons, if_pos hx, List.length_nil]
  | cons y pre ih =>
    have hy := hpre y List.mem_cons_self
    rw [List.cons_append, List.findIdx?_cons, if_neg (by rw [hy]; decide),
      ih fun z hz => hpre z (List.mem_cons_of_mem y hz), Option.map_some, List.length_cons]

theorem idxOf?_split [DecidableEq α] (hpre : x ∉ pre) : (pre ++ x :: post).idxOf? x = some pre.length := by
  rw [List.idxOf?]
  refine findIdx?_split (q := fun y => y == x) (beq_self_eq_true x) ?_
  intro y hy
  exact beq_eq_false_iff_ne.mpr fun he => hpre (he ▸ hy)

/-- The place of a position among the positions. -/
theorem idxOf?_positions (hx : p x = true) :
    (positions p (pre ++ x :: post)).idxOf? pre.length = some (pre.countP p) := by
  obtain ⟨later, hsplit⟩ := positions_split pre post hx
  have hnot : pre.length ∉ positions p pre := fun h => Nat.lt_irrefl _ (lt_of_mem_positions h)
  rw [hsplit, idxOf?_split hnot, length_positions]

theorem getElem?_positions (pre post : List α) (hx : p x = true) :
    (positions p (pre ++ x :: post))[pre.countP p]? = some pre.length := by
  obtain ⟨later, hsplit⟩ := positions_split pre post hx
  rw [hsplit, ← length_positions, List.getElem?_append_right (Nat.le_refl _), Nat.sub_self]
  rfl

end

/-- The list is cut at each of the positions. -/
theorem exists_split_of_positions {l : List α} {c i : ℕ} (h : (positions p l)[c]? = some i) :
    ∃ pre x post, l = pre ++ x :: post ∧ p x = true ∧ pre.length = i ∧ pre.countP p = c := by
  induction l using List.reverseRecOn with
  | nil => cases h
  | append_singleton l x ih =>
    rw [positions_append] at h
    by_cases hc : c < (positions p l).length
    · rw [List.getElem?_append_left hc] at h
      obtain ⟨pre, y, post, hl, hsplit⟩ := ih h
      exact ⟨pre, y, post ++ [x], by rw [hl, List.append_assoc, List.cons_append], hsplit⟩
    · rw [List.getElem?_append_right (Nat.le_of_not_lt hc)] at h
      cases hx : p x with
      | false =>
        simp [positions, hx] at h
      | true =>
        have hone : (positions p [x]).map (· + l.length) = [l.length] := by simp [positions, hx]
        rw [hone, List.getElem?_singleton] at h
        obtain ⟨hzero, hi⟩ := Option.ite_none_right_eq_some.mp h
        rw [length_positions] at hc hzero
        exact ⟨l, x, [], rfl, hx, Option.some.inj hi, by omega⟩

end Gooselake.Library
