import Mathlib.Order.Basic

/-!
Functions that call themselves. A body gets the function that it may call as an argument, and a call that has not
returned is `none`; fuel bounds how deep the calls are nested. When every call that the body makes has a smaller rank
than its own, all fuel beyond the rank gives one and the same result.
-/

namespace Gooselake.Library

universe u v

set_option autoImplicit false

variable {α : Type u} {β : Type v}

/-- The function of a body, with its calls nested less than `fuel` deep. -/
def recurse (body : (α → Option β) → α → Option β) : ℕ → α → Option β
  | 0, _ => none
  | fuel + 1, a => body (recurse body fuel) a

/-- Two computations return one result, and it meets `P`. -/
def BothReturn (P : β → Prop) (x y : Option β) : Prop := ∃ b, x = some b ∧ y = some b ∧ P b

theorem bothReturn_some {P : β → Prop} {b : β} (h : P b) : BothReturn P (some b) (some b) := ⟨b, rfl, rfl, h⟩

/-- The rank rule: the body returns if the calls of smaller rank do. -/
theorem recurse_bothReturn {body : (α → Option β) → α → Option β} {P : β → Prop} {rank : α → ℕ → Prop}
    (hbody : ∀ n a f g, rank a n → (∀ m b, m < n → rank b m → BothReturn P (f b) (g b)) → BothReturn P (body f a) (body g a))
    {a : α} {n k l : ℕ} (h : rank a n) (hk : n < k) (hl : n < l) : BothReturn P (recurse body k a) (recurse body l a) := by
  induction n using Nat.strongRecOn generalizing a k l with
  | ind n ih =>
    obtain ⟨k, rfl⟩ : ∃ m, k = m + 1 := ⟨k - 1, by omega⟩
    obtain ⟨l, rfl⟩ : ∃ m, l = m + 1 := ⟨l - 1, by omega⟩
    apply hbody n a _ _ h
    intro m b hm hb
    exact ih m hm hb (by omega) (by omega)

end Gooselake.Library
