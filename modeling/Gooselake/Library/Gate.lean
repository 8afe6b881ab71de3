import Mathlib.Tactic.Common

/-!
A gate that lets one call at a time through. It remembers two flags and a token: whether a call has asked and is not
answered, whether one is in flight, and the token of that one. The calls are numbered by `ι`, and the gate is right when
at most one of them is held and the flags say which stage that one is at.
-/

namespace Gooselake.Library

set_option autoImplicit false

/-- Where a call stands with the gate; a call that the gate does not hold is over. -/
inductive Stage (τ : Type) where
  | over
  | asked
  | inFlight (token : τ)
  deriving DecidableEq

variable {ι τ : Type}

/-- The flags of the gate, asked, in flight and token, fit the stages of the calls. -/
inductive Gate (stage : ι → Stage τ) : Bool → Bool → Option τ → Prop where
  | free : (∀ k, stage k = .over) → Gate stage false false none
  | asked (k : ι) : stage k = .asked → (∀ j, j ≠ k → stage j = .over) → Gate stage true false none
  | inFlight (k : ι) (token : τ) : stage k = .inFlight token → (∀ j, j ≠ k → stage j = .over) →
      Gate stage false true (some token)

namespace Gate

variable {stage stage' : ι → Stage τ} {asking flying : Bool} {token : Option τ} {k : ι}

/-- The gate holds one call at most. -/
theorem held_unique (h : Gate stage asking flying token) {j : ι} (hk : stage k ≠ .over)
    (hj : stage j ≠ .over) : k = j := by
  cases h with
  | free hover => exact absurd (hover k) hk
  | asked k₀ _ hothers | inFlight k₀ _ _ hothers =>
    have hk₀ : k = k₀ := by
      by_contra hne
      exact hk (hothers k hne)
    have hj₀ : j = k₀ := by
      by_contra hne
      exact hj (hothers j hne)
    exact hk₀.trans hj₀.symm

theorem token_of_inFlight (h : Gate stage asking flying token) {t : τ} (hk : stage k = .inFlight t) :
    token = some t := by
  cases h with
  | free hover => exact absurd (hover k) (by simp [hk])
  | asked k₀ hk₀ hothers =>
    by_cases he : k = k₀
    · rw [he, hk₀] at hk
      exact absurd hk (by simp)
    · exact absurd (hothers k he) (by simp [hk])
  | inFlight k₀ t₀ hk₀ hothers =>
    by_cases he : k = k₀
    · rw [he, hk₀] at hk
      rw [Stage.inFlight.inj hk]
    · exact absurd (hothers k he) (by simp [hk])

theorem token_of_asked (h : Gate stage asking flying token) (hk : stage k = .asked) : token = none := by
  cases h with
  | free | asked => rfl
  | inFlight k₀ t₀ hk₀ hothers =>
    by_cases he : k = k₀
    · rw [he, hk₀] at hk
      exact absurd hk (by simp)
    · exact absurd (hothers k he) (by simp [hk])

/-- The flags of a gate that holds nothing are clear. -/
theorem clear_of_over (h : Gate stage asking flying token) (hover : ∀ k, stage k = .over) :
    asking = false ∧ flying = false ∧ token = none := by
  cases h with
  | free => exact ⟨rfl, rfl, rfl⟩
  | asked k hk => exact absurd (hover k) (by simp [hk])
  | inFlight k t hk => exact absurd (hover k) (by simp [hk])

/-- What else is over when one call is held. -/
theorem others_over (h : Gate stage asking flying token) (hk : stage k ≠ .over) {j : ι} (hj : j ≠ k) :
    stage j = .over := by
  by_contra hne
  exact hj (h.held_unique hne hk)

section Moves

variable (hothers : ∀ j, j ≠ k → stage' j = stage j)

include hothers

/-- A call asks at a clear gate. -/
theorem ask (h : Gate stage false false token) (hk : stage' k = .asked) : Gate stage' true false token := by
  cases h with
  | free hover => exact .asked k hk fun j hj => (hothers j hj).trans (hover j)

/-- A call is turned away, or one that the gate does not hold ends. -/
theorem pass (h : Gate stage asking flying token) (hbefore : stage k = .over) (hk : stage' k = .over) :
    Gate stage' asking flying token := by
  have hall : stage' = stage := by
    funext j
    by_cases hj : j = k
    · rw [hj, hk, hbefore]
    · exact hothers j hj
  exact hall ▸ h

/-- The call that has asked is let through. -/
theorem enter (h : Gate stage asking flying token) (hbefore : stage k = .asked) {t : τ} (hk : stage' k = .inFlight t) :
    Gate stage' false true (some t) :=
  .inFlight k t hk fun j hj => (hothers j hj).trans (h.others_over (by simp [hbefore]) hj)

/-- The call that is held ends. -/
theorem leave (h : Gate stage asking flying token) (hbefore : stage k ≠ .over) (hk : stage' k = .over) :
    Gate stage' false false none := by
  refine .free fun j => ?_
  by_cases hj : j = k
  · rw [hj, hk]
  · exact (hothers j hj).trans (h.others_over hbefore hj)

end Moves

end Gate

end Gooselake.Library
