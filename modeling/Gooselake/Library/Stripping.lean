import Mathlib.Data.List.Count
import Mathlib.Data.List.DropRight

/-!
Stripping a list at both ends. A list put together from pieces, some of which are extra, strips to the same with and
without the extra ones just when these are blank and stand before or after all that is not.
-/

namespace Gooselake.Library

universe u

set_option autoImplicit false

variable {α : Type u} (p : α → Bool)

/-- The list without what meets `p` at its ends. -/
def strip (l : List α) : List α := (l.dropWhile p).rdropWhile p

def Blank (l : List α) : Prop := ∀ a ∈ l, p a = true

/-! ## Appending -/

section

variable {p}

theorem blank_append {x y : List α} : Blank p (x ++ y) ↔ Blank p x ∧ Blank p y := List.forall_mem_append

theorem Blank.sublist {x y : List α} (hy : Blank p y) (h : x.Sublist y) : Blank p x := fun a ha => hy a (h.subset ha)

theorem dropWhile_append_of_not_blank {x : List α} (hx : ¬Blank p x) (y : List α) :
    (x ++ y).dropWhile p = x.dropWhile p ++ y := by
  have hne : x.dropWhile p ≠ [] := fun h => hx (List.dropWhile_eq_nil_iff.mp h)
  rw [List.dropWhile_append, if_neg (by rwa [List.isEmpty_iff])]

theorem rdropWhile_append_of_blank (x : List α) {y : List α} (hy : Blank p y) :
    (x ++ y).rdropWhile p = x.rdropWhile p := by
  have hreverse : ∀ a ∈ y.reverse, p a = true := fun a ha => hy a (List.mem_reverse.mp ha)
  rw [List.rdropWhile, List.reverse_append, List.dropWhile_append_of_pos hreverse, ← List.rdropWhile]

theorem rdropWhile_append_of_not_blank (x : List α) {y : List α} (hy : ¬Blank p y) :
    (x ++ y).rdropWhile p = x ++ y.rdropWhile p := by
  have hreverse : ¬Blank p y.reverse := fun h => hy fun a ha => h a (List.mem_reverse.mpr ha)
  rw [List.rdropWhile, List.reverse_append, dropWhile_append_of_not_blank hreverse, List.reverse_append,
    List.reverse_reverse, ← List.rdropWhile]

/-- The end of a list depends on the end of its last part alone. -/
theorem rdropWhile_append_congr (x : List α) {y y' : List α} (h : y.rdropWhile p = y'.rdropWhile p) :
    (x ++ y).rdropWhile p = (x ++ y').rdropWhile p := by
  have hblank : Blank p y ↔ Blank p y' := by
    have hnil : y.rdropWhile p = [] ↔ y'.rdropWhile p = [] := by rw [h]
    rwa [List.rdropWhile_eq_nil_iff, List.rdropWhile_eq_nil_iff] at hnil
  by_cases hy : Blank p y
  · rw [rdropWhile_append_of_blank x hy, rdropWhile_append_of_blank x (hblank.mp hy)]
  · rw [rdropWhile_append_of_not_blank x hy, rdropWhile_append_of_not_blank x (fun h => hy (hblank.mpr h)), h]

/-! ## Parts -/

theorem sublist_dropWhile {x y : List α} (h : x.Sublist y) : (x.dropWhile p).Sublist (y.dropWhile p) := by
  induction h with
  | slnil => exact .slnil
  | cons a h ih =>
    rw [List.dropWhile_cons]
    split
    · exact ih
    · exact ((List.dropWhile_sublist p).trans h).cons a
  | cons_cons a h ih =>
    rw [List.dropWhile_cons, List.dropWhile_cons]
    split
    · exact ih
    · exact h.cons_cons a

theorem sublist_rdropWhile {x y : List α} (h : x.Sublist y) : (x.rdropWhile p).Sublist (y.rdropWhile p) :=
  (sublist_dropWhile h.reverse).reverse

theorem strip_append_of_blank {x : List α} (hx : Blank p x) (y : List α) : strip p (x ++ y) = strip p y := by
  rw [strip, List.dropWhile_append_of_pos hx, ← strip]

theorem strip_append_of_not_blank {x : List α} (hx : ¬Blank p x) (y : List α) :
    strip p (x ++ y) = (x.dropWhile p ++ y).rdropWhile p := by
  rw [strip, dropWhile_append_of_not_blank hx]

/-- Two parts strip to no more than what each has of its own. -/
theorem length_strip_append_le (x y : List α) :
    (strip p (x ++ y)).length ≤ (x.dropWhile p).length + (y.rdropWhile p).length := by
  by_cases hx : Blank p x
  · rw [strip_append_of_blank hx]
    have hle := (sublist_rdropWhile (p := p) (List.dropWhile_sublist p (l := y))).length_le
    exact hle.trans (Nat.le_add_left _ _)
  · rw [strip_append_of_not_blank hx]
    by_cases hy : Blank p y
    · rw [rdropWhile_append_of_blank _ hy]
      exact (List.rdropWhile_prefix p _).length_le.trans (Nat.le_add_right _ _)
    · rw [rdropWhile_append_of_not_blank _ hy, List.length_append]

/-- Stripping takes off nothing that does not meet `p`. -/
theorem countP_strip (l : List α) : (strip p l).countP (fun a => !p a) = l.countP fun a => !p a := by
  have hdrop : ∀ l : List α, (l.dropWhile p).countP (fun a => !p a) = l.countP fun a => !p a := by
    intro l
    induction l with
    | nil => rfl
    | cons a l ih =>
      rw [List.dropWhile_cons]
      split
      · next ha => rw [ih, List.countP_cons_of_neg (by simp [ha])]
      · rfl
  rw [strip, List.rdropWhile, List.countP_reverse, hdrop, List.countP_reverse, hdrop]

end

/-! ## Pieces -/

/-- The list that all the pieces make up; the flag tells the extra ones. -/
def whole (items : List (List α × Bool)) : List α := items.flatMap Prod.fst

/-- The list without the extra pieces. -/
def kept (items : List (List α × Bool)) : List α := items.flatMap fun item => if item.2 then [] else item.1

/-- An extra piece is blank, and so is all that is before it or all that is after it. -/
def Outside (items : List (List α × Bool)) : Prop :=
  ∀ before piece after, items = before ++ (piece, true) :: after → piece ≠ [] →
    Blank p piece ∧ (Blank p (whole before) ∨ Blank p (whole after))

section

variable {p}

theorem whole_append (before after : List (List α × Bool)) : whole (before ++ after) = whole before ++ whole after :=
  List.flatMap_append

theorem kept_append (before after : List (List α × Bool)) : kept (before ++ after) = kept before ++ kept after :=
  List.flatMap_append

theorem kept_sublist_whole (items : List (List α × Bool)) : (kept items).Sublist (whole items) := by
  induction items with
  | nil => exact .slnil
  | cons item items ih =>
    obtain ⟨piece, extra⟩ := item
    cases extra with
    | true => exact (List.nil_sublist piece).append ih
    | false => exact (List.Sublist.refl piece).append ih

theorem Outside.tail {item : List α × Bool} {items : List (List α × Bool)} (h : Outside p (item :: items)) :
    Outside p items := by
  intro before piece after he hne
  obtain ⟨hpiece, hends⟩ := h (item :: before) piece after (by rw [he]; rfl) hne
  refine ⟨hpiece, hends.imp_left fun hbefore => ?_⟩
  exact (blank_append.mp hbefore).2

/-- Extra pieces that are blank and have only blank ones after them. -/
theorem rdropWhile_whole {items : List (List α × Bool)}
    (h : ∀ before piece after, items = before ++ (piece, true) :: after → piece ≠ [] →
      Blank p piece ∧ Blank p (whole after)) :
    (whole items).rdropWhile p = (kept items).rdropWhile p := by
  induction items with
  | nil => rfl
  | cons item items ih =>
    have hrest : (whole items).rdropWhile p = (kept items).rdropWhile p := by
      apply ih
      intro before piece after he
      exact h (item :: before) piece after (by rw [he]; rfl)
    obtain ⟨piece, extra⟩ := item
    cases extra with
    | false => exact rdropWhile_append_congr piece hrest
    | true =>
      by_cases hne : piece = []
      · rw [hne]
        exact hrest
      · obtain ⟨hpiece, hafter⟩ := h [] piece items rfl hne
        have hwhole : Blank p (whole ((piece, true) :: items)) := blank_append.mpr ⟨hpiece, hafter⟩
        rw [List.rdropWhile_eq_nil_iff.mpr hwhole,
          List.rdropWhile_eq_nil_iff.mpr (hwhole.sublist (kept_sublist_whole _))]

theorem strip_whole_of_outside {items : List (List α × Bool)} (h : Outside p items) :
    strip p (whole items) = strip p (kept items) := by
  induction items with
  | nil => rfl
  | cons item items ih =>
    obtain ⟨piece, extra⟩ := item
    by_cases hpiece : Blank p piece
    · have hrest := ih h.tail
      change strip p (piece ++ whole items) = _
      rw [strip_append_of_blank hpiece, hrest]
      cases extra with
      | true => rfl
      | false => exact (strip_append_of_blank hpiece _).symm
    · cases extra with
      | true =>
        have hne : piece ≠ [] := by
          rintro rfl
          exact hpiece nofun
        exact absurd (h [] piece items rfl hne).1 hpiece
      | false =>
        change strip p (piece ++ whole items) = strip p (piece ++ kept items)
        rw [strip_append_of_not_blank hpiece, strip_append_of_not_blank hpiece]
        apply rdropWhile_append_congr
        apply rdropWhile_whole
        intro before extra after he hne
        obtain ⟨hextra, hends⟩ := h ((piece, false) :: before) extra after (by rw [he]; rfl) hne
        refine ⟨hextra, hends.resolve_left fun hbefore => hpiece ?_⟩
        exact (blank_append.mp hbefore).1

/-- An extra piece that is not blank leaves more than there was. -/
theorem blank_of_strip_whole {before after : List (List α × Bool)} {piece : List α}
    (h : strip p (whole (before ++ (piece, true) :: after)) = strip p (kept (before ++ (piece, true) :: after))) :
    Blank p piece := by
  have hcount := congrArg (List.countP fun a => !p a) h
  rw [countP_strip, countP_strip, whole_append, kept_append, List.countP_append, List.countP_append] at hcount
  have hwhole : whole ((piece, true) :: after) = piece ++ whole after := rfl
  have hkept : kept ((piece, true) :: after) = kept after := rfl
  rw [hwhole, hkept, List.countP_append] at hcount
  have hbefore := (kept_sublist_whole before).countP_le (p := fun a => !p a)
  have hafter := (kept_sublist_whole after).countP_le (p := fun a => !p a)
  have hzero : piece.countP (fun a => !p a) = 0 := by omega
  intro a ha
  have hnot := List.countP_eq_zero.mp hzero a ha
  simpa using hnot

/-- Between two parts that are not blank an extra piece makes what is left longer. -/
theorem length_strip_kept_lt {before after : List (List α × Bool)} {piece : List α} (hpiece : piece ≠ [])
    (hbefore : ¬Blank p (whole before)) (hafter : ¬Blank p (whole after)) :
    (strip p (kept (before ++ (piece, true) :: after))).length <
      (strip p (whole (before ++ (piece, true) :: after))).length := by
  have hwhole : whole (before ++ (piece, true) :: after) = whole before ++ (piece ++ whole after) := whole_append _ _
  have hkept : kept (before ++ (piece, true) :: after) = kept before ++ kept after := kept_append _ _
  have hlong : ¬Blank p (piece ++ whole after) := fun h => hafter (blank_append.mp h).2
  rw [hwhole, hkept, strip_append_of_not_blank hbefore, rdropWhile_append_of_not_blank _ hlong,
    rdropWhile_append_of_not_blank _ hafter, List.length_append, List.length_append]
  have hle := length_strip_append_le (p := p) (kept before) (kept after)
  have hfront := (sublist_dropWhile (p := p) (kept_sublist_whole before)).length_le
  have hback := (sublist_rdropWhile (p := p) (kept_sublist_whole after)).length_le
  have hpos := List.length_pos_iff.mpr hpiece
  omega

theorem strip_whole_eq_iff (items : List (List α × Bool)) :
    strip p (whole items) = strip p (kept items) ↔ Outside p items := by
  constructor
  · rintro h before piece after rfl hne
    refine ⟨blank_of_strip_whole h, ?_⟩
    by_contra hends
    rw [not_or] at hends
    have hlt := length_strip_kept_lt hne hends.1 hends.2
    rw [h] at hlt
    exact Nat.lt_irrefl _ hlt
  · exact strip_whole_of_outside

end

end Gooselake.Library
