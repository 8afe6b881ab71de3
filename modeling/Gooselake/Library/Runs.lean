import Mathlib.Logic.Basic

/-!
Runs of a machine given by a partial step function. A run may be restricted to steps that meet a
condition on the label and the state they start from; an invariant that holds at the start and is
kept by every such step holds in every state of the run.
-/

namespace Gooselake.Library

set_option autoImplicit false

variable {ι σ : Type}

/-- `Reaches step P s t`: a run of `step` leads from `s` to `t`, each of its steps meeting `P`. -/
inductive Reaches (step : ι → σ → Option σ) (P : ι → σ → Prop) (s : σ) : σ → Prop where
  | refl : Reaches step P s s
  | tail {t u : σ} {i : ι} : Reaches step P s t → P i t → step i t = some u → Reaches step P s u

/-- The run on a list of labels, if every step is enabled. -/
def runAll (step : ι → σ → Option σ) : List ι → σ → Option σ
  | [], s => some s
  | i :: is, s => (step i s).bind (runAll step is)

namespace Reaches

variable {step : ι → σ → Option σ} {P Q : ι → σ → Prop} {s t u : σ}

theorem trans (h₁ : Reaches step P s t) (h₂ : Reaches step P t u) : Reaches step P s u := by
  induction h₂ with
  | refl => exact h₁
  | tail _ hp hstep ih => exact ih.tail hp hstep

theorem head {i : ι} (hp : P i s) (hstep : step i s = some t) (h : Reaches step P t u) :
    Reaches step P s u :=
  (Reaches.refl.tail hp hstep).trans h

theorem mono (hPQ : ∀ i s, P i s → Q i s) (h : Reaches step P s t) : Reaches step Q s t := by
  induction h with
  | refl => exact .refl
  | tail _ hp hstep ih => exact ih.tail (hPQ _ _ hp) hstep

/-- The invariant rule. -/
theorem invariant {I : σ → Prop} (h : Reaches step P s t) (hs : I s)
    (hstep : ∀ i t u, I t → P i t → step i t = some u → I u) : I t := by
  induction h with
  | refl => exact hs
  | tail _ hp hu ih => exact hstep _ _ _ ih hp hu

end Reaches

/-- A condition on steps that can be computed. -/
def guarded (step : ι → σ → Option σ) (P : ι → σ → Bool) (i : ι) (s : σ) : Option σ :=
  if P i s then step i s else none

variable {step : ι → σ → Option σ}

/-- A run on given labels, all of whose steps meet `P`. -/
theorem reaches_of_runAll {P : ι → σ → Bool} {is : List ι} {s t : σ}
    (h : runAll (guarded step P) is s = some t) : Reaches step (fun i s => P i s = true) s t := by
  induction is generalizing s with
  | nil => obtain rfl := Option.some.inj h; exact .refl
  | cons i is ih =>
    obtain ⟨u, hu, ht⟩ := Option.bind_eq_some_iff.mp h
    simp only [guarded, Option.ite_none_right_eq_some] at hu
    exact .head hu.1 hu.2 (ih ht)

theorem runAll_append (is js : List ι) (s : σ) :
    runAll step (is ++ js) s = (runAll step is s).bind (runAll step js) := by
  induction is generalizing s with
  | nil => rfl
  | cons i is ih =>
    rw [List.cons_append, runAll, runAll, Option.bind_assoc]
    exact congrArg _ (funext fun t => ih t)

section

variable {I : σ → Prop} {P : ι → σ → Bool}

/-- A property that holds after a step only if it held before. -/
theorem of_runAll (hback : ∀ i s t, step i s = some t → I t → I s) {is : List ι} {s t : σ}
    (h : runAll step is s = some t) (ht : I t) : I s := by
  induction is generalizing s with
  | nil =>
    obtain rfl := Option.some.inj h
    exact ht
  | cons i is ih =>
    obtain ⟨u, hu, hrest⟩ := Option.bind_eq_some_iff.mp h
    exact hback i s u hu (ih hrest)

/-- When a step keeps a property just if it meets `P`, a run does just if all its steps do. -/
theorem runAll_guarded_iff (hstep : ∀ i s t, step i s = some t → (I t ↔ I s ∧ P i s = true)) {is : List ι}
    {s t : σ} (hs : I s) (h : runAll step is s = some t) : I t ↔ runAll (guarded step P) is s = some t := by
  induction is generalizing s with
  | nil =>
    obtain rfl := Option.some.inj h
    exact ⟨fun _ => rfl, fun _ => hs⟩
  | cons i is ih =>
    obtain ⟨u, hu, hrest⟩ := Option.bind_eq_some_iff.mp h
    have hback : I t → I u := of_runAll (fun i s t ht hi => ((hstep i s t ht).mp hi).1) hrest
    by_cases hp : P i s = true
    · have hhead : guarded step P i s = some u := by rw [guarded, if_pos hp, hu]
      rw [runAll, hhead, Option.bind_some]
      exact ih ((hstep i s u hu).mpr ⟨hs, hp⟩) hrest
    · have hhead : guarded step P i s = none := by rw [guarded, if_neg hp]
      rw [runAll, hhead, Option.bind_none]
      constructor
      · intro ht
        exact absurd ((hstep i s u hu).mp (hback ht)).2 hp
      · intro hnone
        cases hnone

end

/-- What a run on given labels computes holds of a state it reaches. -/
theorem exists_reaches_of_runAll {α : Type} (step : ι → σ → Option σ) (P : ι → σ → Bool) (is : List ι)
    {s : σ} (f : σ → α) (a : α) (h : (runAll (guarded step P) is s).map f = some a) :
    ∃ t, Reaches step (fun i s => P i s = true) s t ∧ f t = a := by
  obtain ⟨t, ht, rfl⟩ := Option.map_eq_some_iff.mp h
  exact ⟨t, reaches_of_runAll ht, rfl⟩

end Gooselake.Library
