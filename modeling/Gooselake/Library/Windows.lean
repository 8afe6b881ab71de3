import Mathlib.Data.List.Basic
import Mathlib.Algebra.BigOperators.Group.List.Basic
import Mathlib.Algebra.GroupWithZero.Nat

/-!
Windows over a list that grows at its end. The elements weigh something, and a window of `limit` units shows the whole
of a list that weighs no more, and else the end of it that weighs `limit`, if the list can be cut there.
-/

namespace Gooselake.Library

universe u

set_option autoImplicit false

variable {α : Type u} (w : α → ℕ)

/-- What the elements of a list weigh together. -/
def weigh (l : List α) : ℕ := (l.map w).sum

/-- `shown` is what a window of `limit` units shows of `l`. -/
structure Shows (limit : ℕ) (l shown : List α) : Prop where
  suffix : shown <:+ l
  whole : weigh w l ≤ limit → shown = l
  full : limit < weigh w l → weigh w shown = limit

section

variable {w} {limit : ℕ} {l m shown rest : List α}

@[simp] theorem weigh_cons (a : α) (l : List α) : weigh w (a :: l) = w a + weigh w l := List.sum_cons

@[simp] theorem weigh_append (l m : List α) : weigh w (l ++ m) = weigh w l + weigh w m := by
  rw [weigh, List.map_append, List.sum_append, ← weigh, ← weigh]

/-- Elements of weight one are counted. -/
theorem weigh_of_units (h : ∀ a ∈ l, w a = 1) : weigh w l = l.length := by
  rw [weigh, List.map_congr_left h, List.map_const', List.sum_replicate]
  exact Nat.mul_one _

theorem weigh_le_of_suffix (h : l <:+ m) : weigh w l ≤ weigh w m := by
  obtain ⟨front, rfl⟩ := h
  rw [weigh_append]
  exact Nat.le_add_left _ _

/-- A list that is not empty weighs something when each element does. -/
theorem eq_nil_of_weigh (hw : ∀ a, 0 < w a) (h : weigh w l = 0) : l = [] := by
  cases l with
  | nil => rfl
  | cons a l =>
    have ha := hw a
    rw [weigh_cons] at h
    omega

/-- Of two ends of a list the lighter is an end of the other. -/
theorem suffix_of_weigh_le (hw : ∀ a, 0 < w a) (hl : l <:+ rest) (hm : m <:+ rest) (h : weigh w l ≤ weigh w m) :
    l <:+ m := by
  rcases List.suffix_or_suffix_of_suffix hl hm with hlm | hml
  · exact hlm
  · obtain ⟨front, rfl⟩ := hml
    rw [weigh_append] at h
    obtain rfl := eq_nil_of_weigh hw (l := front) (by omega)
    exact List.suffix_rfl

namespace Shows

theorem of_le (h : weigh w l ≤ limit) : Shows w limit l l :=
  ⟨List.suffix_rfl, fun _ => rfl, fun hlt => absurd h (Nat.not_le_of_lt hlt)⟩

theorem weigh_le (h : Shows w limit l shown) : weigh w shown ≤ limit := by
  by_cases hl : weigh w l ≤ limit
  · rw [h.whole hl]
    exact hl
  · exact Nat.le_of_eq (h.full (by omega))

/-- What is shown of a list is as much of it as the window can hold. -/
theorem min_le (h : Shows w limit l shown) : min (weigh w l) limit ≤ weigh w shown := by
  by_cases hl : weigh w l ≤ limit
  · rw [h.whole hl]
    exact Nat.min_le_left _ _
  · rw [h.full (by omega)]
    exact Nat.min_le_right _ _

theorem unique (hw : ∀ a, 0 < w a) (h : Shows w limit l shown) (h' : Shows w limit l rest) : shown = rest := by
  by_cases hl : weigh w l ≤ limit
  · rw [h.whole hl, h'.whole hl]
  · have hshown := h.full (by omega)
    have hrest := h'.full (by omega)
    have hone := suffix_of_weigh_le hw h.suffix h'.suffix (by omega)
    have hother := suffix_of_weigh_le hw h'.suffix h.suffix (by omega)
    exact hone.eq_of_length_le hother.length_le

/-- What a window shows of a list that has grown can be found from what it showed before. -/
theorem append_iff (hw : ∀ a, 0 < w a) (h : Shows w limit l shown) (new : List α) :
    Shows w limit (shown ++ new) rest ↔ Shows w limit (l ++ new) rest := by
  have hsuffix : shown ++ new <:+ l ++ new := by
    obtain ⟨front, rfl⟩ := h.suffix
    exact ⟨front, by rw [List.append_assoc]⟩
  have hmin := h.min_le
  have hle := weigh_le_of_suffix (w := w) h.suffix
  by_cases hl : weigh w (l ++ new) ≤ limit
  · have hwhole : shown = l := h.whole (by rw [weigh_append] at hl; omega)
    rw [hwhole]
  · rw [weigh_append] at hl
    constructor
    · intro hr
      refine ⟨hr.suffix.trans hsuffix, fun hle => absurd hle (by rw [weigh_append]; omega), fun _ => ?_⟩
      by_cases hshort : weigh w (shown ++ new) ≤ limit
      · rw [hr.whole hshort, weigh_append]
        rw [weigh_append] at hshort
        omega
      · exact hr.full (by omega)
    · intro hr
      have hfull := hr.full (by rw [weigh_append]; omega)
      have hend : rest <:+ shown ++ new := suffix_of_weigh_le hw hr.suffix hsuffix (by rw [weigh_append]; omega)
      refine ⟨hend, fun hshort => ?_, fun _ => hfull⟩
      obtain ⟨front, hfront⟩ := hend
      have hsum := congrArg (weigh w) hfront
      rw [weigh_append] at hsum hshort
      obtain rfl := eq_nil_of_weigh hw (l := front) (by rw [weigh_append] at hsum; omega)
      exact hfront

end Shows

/-- A window of entries. -/
theorem shows_drop (limit : ℕ) (l : List α) : Shows (fun _ => 1) limit l (l.drop (l.length - limit)) := by
  have hunits : ∀ m : List α, weigh (fun _ => 1) m = m.length := fun m => weigh_of_units fun _ _ => rfl
  refine ⟨List.drop_suffix _ _, fun hle => ?_, fun hlt => ?_⟩
  · rw [hunits] at hle
    rw [Nat.sub_eq_zero_of_le hle, List.drop_zero]
  · rw [hunits] at hlt ⊢
    rw [List.length_drop]
    omega

/-- Elements of weight one in front make no difference to whether the list can be cut. -/
theorem exists_shows_append_iff (hw : ∀ a, 0 < w a) {front : List α} (hfront : ∀ a ∈ front, w a = 1) :
    (∃ shown, Shows w limit (front ++ l) shown) ↔ ∃ shown, Shows w limit l shown := by
  by_cases hl : weigh w l ≤ limit
  · refine ⟨fun _ => ⟨l, .of_le hl⟩, fun _ => ?_⟩
    by_cases hall : weigh w (front ++ l) ≤ limit
    · exact ⟨front ++ l, .of_le hall⟩
    · have hunits : ∀ m, m <:+ front → weigh w m = m.length := fun m hm =>
        weigh_of_units fun a ha => hfront a (hm.subset ha)
      have hdrop := List.drop_suffix (front.length + weigh w l - limit) front
      have hwhole := hunits _ List.suffix_rfl
      have hrest := hunits _ hdrop
      rw [weigh_append] at hall
      rw [List.length_drop] at hrest
      obtain ⟨gone, hgone⟩ := hdrop
      refine ⟨front.drop (front.length + weigh w l - limit) ++ l, ⟨gone, by rw [← List.append_assoc, hgone]⟩,
        fun hle => ?_, fun _ => ?_⟩
      · rw [weigh_append] at hle
        omega
      · rw [weigh_append]
        omega
  · have hover : limit < weigh w (front ++ l) := by
      rw [weigh_append]
      omega
    constructor
    · rintro ⟨shown, h⟩
      have hfull := h.full hover
      have hend : shown <:+ l := suffix_of_weigh_le hw h.suffix (List.suffix_append front l) (by omega)
      exact ⟨shown, hend, fun hle => absurd hle hl, fun _ => hfull⟩
    · rintro ⟨shown, h⟩
      have hfull := h.full (by omega)
      exact ⟨shown, h.suffix.trans (List.suffix_append front l), fun hle => absurd hle (by omega), fun _ => hfull⟩

end

end Gooselake.Library
