import Mathlib.Order.Basic
import Mathlib.Data.Nat.Notation

/-!
What is reached by steps of a machine's own, whichever of them it takes: some are possible until it is there, and none
leads away from it. A measure that every such step makes smaller shows that it is reached.
-/

namespace Gooselake.Library

set_option autoImplicit false

variable {ι σ : Type}

/-- Steps with `own` labels reach `goal` from a state, whichever are taken. -/
inductive Certain (step : ι → σ → Option σ) (own : ι → σ → Prop) (goal : σ → Prop) : σ → Prop where
  | reached {s : σ} (h : goal s) : Certain step own goal s
  | after {s : σ} (possible : ∃ i t, own i s ∧ step i s = some t)
      (all : ∀ i t, own i s → step i s = some t → Certain step own goal t) : Certain step own goal s

namespace Certain

variable {step : ι → σ → Option σ} {own : ι → σ → Prop} {goal : σ → Prop} {s : σ}

/-- The rule of the measure. -/
theorem of_measure (I : σ → Prop) (μ : σ → ℕ)
    (progress : ∀ s, I s → ¬goal s → ∃ i t, own i s ∧ step i s = some t)
    (smaller : ∀ s i t, I s → ¬goal s → own i s → step i s = some t → I t ∧ μ t < μ s) (hs : I s) :
    Certain step own goal s := by
  generalize hn : μ s = n
  induction n using Nat.strongRecOn generalizing s with
  | ind n ih =>
    by_cases hgoal : goal s
    · exact .reached hgoal
    · apply after (progress s hs hgoal)
      intro i t hown hstep
      obtain ⟨ht, hlt⟩ := smaller s i t hs hgoal hown hstep
      exact ih (μ t) (hn ▸ hlt) ht rfl

/-- The rule of the trap: states that exclude the goal and that no step of its own leaves. -/
theorem not_of_trap (J : σ → Prop) (apart : ∀ s, J s → ¬goal s)
    (kept : ∀ s i t, J s → own i s → step i s = some t → J t) (hs : J s) : ¬Certain step own goal s := by
  intro h
  induction h with
  | reached hgoal => exact apart _ hs hgoal
  | after possible _ ih =>
    obtain ⟨i, t, hown, hstep⟩ := possible
    exact ih i t hown hstep (kept _ i t hs hown hstep)

end Certain

end Gooselake.Library
