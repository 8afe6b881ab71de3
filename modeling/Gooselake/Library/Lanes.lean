import Mathlib.Algebra.BigOperators.Group.Finset.Basic
import Mathlib.Algebra.Order.BigOperators.Group.Finset
import Mathlib.Data.List.Infix
import Mathlib.Logic.Function.Basic

/-!
Lanes of work. Each lane has a queue, takes up one piece of work after the other and is done with one before it takes up
the next. Work that goes to one lane is taken up and done in the order in which it was given, whatever the other lanes
do.
-/

namespace Gooselake.Library

set_option autoImplicit false

/-- `β` tells how far a lane has got with its work. -/
structure Lanes (α β : Type) where
  queue : ℕ → List α
  current : ℕ → Option (α × β)
  /-- History: the work that was taken up, by any lane. -/
  taken : List α
  /-- History: the work that is done. -/
  done : List α

namespace Lanes

variable {α β : Type}

def empty : Lanes α β := ⟨fun _ => [], fun _ => none, [], []⟩

def push (i : ℕ) (a : α) (l : Lanes α β) : Lanes α β :=
  { l with queue := Function.update l.queue i (l.queue i ++ [a]) }

/-- Lane `i` takes up `a` and leaves the rest in its queue. -/
def take (i : ℕ) (a : α) (rest : List α) (b : β) (l : Lanes α β) : Lanes α β :=
  { l with
    queue := Function.update l.queue i rest
    current := Function.update l.current i (some (a, b))
    taken := l.taken ++ [a] }

def goOn (i : ℕ) (b : β) (l : Lanes α β) : Lanes α β :=
  { l with current := Function.update l.current i ((l.current i).map fun work => (work.1, b)) }

/-- What lane `i` is at. -/
def working (i : ℕ) (l : Lanes α β) : List α := ((l.current i).map Prod.fst).toList

def finish (i : ℕ) (l : Lanes α β) : Lanes α β :=
  { l with current := Function.update l.current i none, done := l.done ++ l.working i }

/-! ## The order -/

/-- The work that meets `p` is for lane `i` and is taken up and done in the order in which it was given. -/
structure Ordered (p : α → Bool) (i : ℕ) (given : List α) (l : Lanes α β) : Prop where
  elsewhere : ∀ j, j ≠ i → (l.queue j).filter p = [] ∧ (l.working j).filter p = []
  done : l.taken.filter p = l.done.filter p ++ (l.working i).filter p
  taken : given.filter p = l.taken.filter p ++ (l.queue i).filter p

variable {p : α → Bool} {i j : ℕ} {given rest : List α} {a : α} {b b' : β} {l : Lanes α β}

theorem working_of_current (h : l.current j = some (a, b)) : l.working j = [a] := by
  rw [working, h]
  rfl

theorem working_of_idle (h : l.current j = none) : l.working j = [] := by
  rw [working, h]
  rfl

theorem length_working_le (i : ℕ) (l : Lanes α β) : (l.working i).length ≤ 1 := by
  rw [working]
  cases l.current i with
  | none => exact Nat.zero_le 1
  | some work => exact Nat.le_refl 1

namespace Ordered

theorem empty : Ordered p i [] (.empty : Lanes α β) := ⟨fun _ _ => ⟨rfl, rfl⟩, rfl, rfl⟩

theorem push (h : l.Ordered p i given) (hp : p a = true → j = i) : (l.push j a).Ordered p i (given ++ [a]) := by
  refine ⟨fun k hk => ?_, h.done, ?_⟩
  · obtain ⟨hqueue, hworking⟩ := h.elsewhere k hk
    refine ⟨?_, hworking⟩
    by_cases hkj : k = j
    · subst hkj
      have hnot : p a = false := Bool.eq_false_iff.mpr fun ha => hk (hp ha)
      simp [Lanes.push, hqueue, hnot]
    · simp [Lanes.push, Function.update_of_ne hkj, hqueue]
  · rw [List.filter_append, h.taken, List.append_assoc]
    by_cases hji : i = j
    · subst hji
      simp [Lanes.push]
    · have hnot : p a = false := Bool.eq_false_iff.mpr fun ha => hji (hp ha).symm
      simp [Lanes.push, Function.update_of_ne hji, hnot]

theorem take (h : l.Ordered p i given) (hidle : l.current j = none) (hqueue : l.queue j = a :: rest) :
    (l.take j a rest b).Ordered p i given := by
  by_cases hji : j = i
  · subst hji
    have hwork : (l.take j a rest b).working j = [a] := working_of_current (Function.update_self ..)
    refine ⟨fun k hk => ?_, ?_, ?_⟩
    · simpa [Lanes.take, working, Function.update_of_ne hk] using h.elsewhere k hk
    · rw [hwork]
      simp only [Lanes.take, List.filter_append]
      rw [h.done, working_of_idle hidle, List.filter_nil, List.append_nil]
    · have hsplit : (a :: rest).filter p = [a].filter p ++ rest.filter p := by
        rw [← List.filter_append, List.singleton_append]
      simp only [Lanes.take, Function.update_self]
      rw [h.taken, hqueue, hsplit, List.filter_append, List.append_assoc]
  · have hnone := (h.elsewhere j hji).1
    rw [hqueue, List.filter_cons] at hnone
    have hnot : p a = false := by
      by_contra ha
      rw [if_pos (Bool.not_eq_false _ ▸ ha)] at hnone
      cases hnone
    rw [if_neg (by rw [hnot]; decide)] at hnone
    have hother : (l.take j a rest b).working i = l.working i := by
      simp only [working, Lanes.take, Function.update_of_ne (Ne.symm hji)]
    have htaken : (l.take j a rest b).taken.filter p = l.taken.filter p := by
      simp [Lanes.take, hnot]
    refine ⟨fun k hk => ?_, ?_, ?_⟩
    · by_cases hkj : k = j
      · subst hkj
        rw [working_of_current (Function.update_self ..)]
        simp [Lanes.take, hnone, hnot]
      · simpa [Lanes.take, working, Function.update_of_ne hkj] using h.elsewhere k hk
    · rw [htaken, hother, h.done]
      rfl
    · rw [htaken, h.taken]
      simp [Lanes.take, Function.update_of_ne (Ne.symm hji)]

theorem goOn (h : l.Ordered p i given) : (l.goOn j b).Ordered p i given := by
  have hsame : ∀ k, (l.goOn j b).working k = l.working k := by
    intro k
    by_cases hkj : k = j
    · subst hkj
      simp [working, Lanes.goOn, Option.map_map, Function.comp_def]
    · simp [working, Lanes.goOn, Function.update_of_ne hkj]
  exact ⟨fun k hk => by rw [hsame]; exact h.elsewhere k hk, by rw [hsame]; exact h.done, h.taken⟩

theorem finish (h : l.Ordered p i given) : (l.finish j).Ordered p i given := by
  have hover : (l.finish j).working j = [] := working_of_idle (Function.update_self ..)
  have hsame : ∀ k, k ≠ j → (l.finish j).working k = l.working k := by
    intro k hkj
    simp [working, Lanes.finish, Function.update_of_ne hkj]
  refine ⟨fun k hk => ⟨(h.elsewhere k hk).1, ?_⟩, ?_, h.taken⟩
  · by_cases hkj : k = j
    · subst hkj
      rw [hover, List.filter_nil]
    · rw [hsame k hkj]
      exact (h.elsewhere k hk).2
  · show l.taken.filter p = (l.done ++ l.working j).filter p ++ ((l.finish j).working i).filter p
    rw [h.done, List.filter_append]
    by_cases hji : i = j
    · subst hji
      rw [hover, List.filter_nil, List.append_nil]
    · rw [hsame i hji, (h.elsewhere j (Ne.symm hji)).2, List.append_nil]

end Ordered

/-! ## The work that is left -/

/-- What lane `i` has left to do, where `w` is the work from a point on and `c` that of a piece in the queue. -/
def cost (c : ℕ) (w : β → ℕ) (i : ℕ) (l : Lanes α β) : ℕ := c * (l.queue i).length + (l.current i).elim 0 (w ·.2)

/-- What the first `n` lanes have left to do. -/
def left (n c : ℕ) (w : β → ℕ) (l : Lanes α β) : ℕ := ∑ i ∈ Finset.range n, l.cost c w i

variable {n c : ℕ} {w : β → ℕ}

/-- A change to one lane changes what is left by the cost of that lane. -/
theorem left_of_others (l l' : Lanes α β) (c : ℕ) (w : β → ℕ) (hj : j < n)
    (h : ∀ k, k ≠ j → l'.queue k = l.queue k ∧ l'.current k = l.current k) :
    l'.left n c w + l.cost c w j = l.left n c w + l'.cost c w j := by
  have hmem : j ∈ Finset.range n := Finset.mem_range.mpr hj
  have hrest : ∑ k ∈ (Finset.range n).erase j, l'.cost c w k = ∑ k ∈ (Finset.range n).erase j, l.cost c w k := by
    apply Finset.sum_congr rfl
    intro k hk
    obtain ⟨hqueue, hcurrent⟩ := h k (Finset.ne_of_mem_erase hk)
    rw [cost, cost, hqueue, hcurrent]
  rw [left, left, ← Finset.add_sum_erase _ _ hmem, ← Finset.add_sum_erase _ (fun k => l.cost c w k) hmem, hrest]
  omega

theorem left_push (hj : j < n) (a : α) : (l.push j a).left n c w = l.left n c w + c := by
  have h := left_of_others l (l.push j a) c w hj fun k hk =>
    ⟨Function.update_of_ne hk .., rfl⟩
  have hcost : (l.push j a).cost c w j = l.cost c w j + c := by
    simp only [cost, push, Function.update_self, List.length_append, List.length_singleton, Nat.mul_add, Nat.mul_one]
    omega
  omega

theorem left_take (hj : j < n) (hidle : l.current j = none) (hqueue : l.queue j = a :: rest) (b : β) :
    (l.take j a rest b).left n c w + c = l.left n c w + w b := by
  have h := left_of_others l (l.take j a rest b) c w hj fun k hk =>
    ⟨Function.update_of_ne hk .., Function.update_of_ne hk ..⟩
  have hafter : (l.take j a rest b).cost c w j = c * rest.length + w b := by simp [cost, take]
  have hbefore : l.cost c w j = c * rest.length + c := by simp [cost, hidle, hqueue, Nat.mul_add]
  omega

theorem left_goOn (hj : j < n) (hcurrent : l.current j = some (a, b')) (b : β) :
    (l.goOn j b).left n c w + w b' = l.left n c w + w b := by
  have h := left_of_others l (l.goOn j b) c w hj fun k hk =>
    ⟨rfl, Function.update_of_ne hk ..⟩
  have hafter : (l.goOn j b).cost c w j = c * (l.queue j).length + w b := by simp [cost, goOn, hcurrent]
  have hbefore : l.cost c w j = c * (l.queue j).length + w b' := by simp [cost, hcurrent]
  omega

theorem left_finish (hj : j < n) (hcurrent : l.current j = some (a, b)) :
    (l.finish j).left n c w + w b = l.left n c w := by
  have h := left_of_others l (l.finish j) c w hj fun k hk =>
    ⟨rfl, Function.update_of_ne hk ..⟩
  have hafter : (l.finish j).cost c w j = c * (l.queue j).length := by simp [cost, finish]
  have hbefore : l.cost c w j = c * (l.queue j).length + w b := by simp [cost, hcurrent]
  omega

end Lanes

end Gooselake.Library
