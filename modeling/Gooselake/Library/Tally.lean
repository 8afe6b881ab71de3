import Gooselake.Library.Table

/-!
How many values of a finite map meet a condition, and what one change of the map does to that number. A map filled from
a list has its entries under their positions.
-/

namespace Gooselake.Library.Table

set_option autoImplicit false

variable {κ α β : Type} [DecidableEq κ] {p q : α → Bool}

def tally (p : α → Bool) (t : Table κ α) : ℕ := t.values.countP p

/-- What a value that may be missing adds to the number. -/
def weight (p : α → Bool) (a : Option α) : ℕ := if a.any p then 1 else 0

@[simp] theorem weight_none : weight p none = 0 := rfl

theorem tally_erase (t : Table κ α) (k : κ) : tally p (t.erase k) + weight p (t.lookup k) = tally p t := by
  cases h : t.lookup k with
  | none =>
    have hkey : k ∉ t.entries.keys := AList.lookup_eq_none.mp h
    have herase : t.erase k = t := AList.ext (List.kerase_of_notMem_keys hkey)
    rw [herase]
    rfl
  | some a =>
    have hkey : k ∈ t.entries.keys := lookup_isSome h
    obtain ⟨b, l₁, l₂, hnot, hentries, herase⟩ := List.exists_of_kerase hkey
    have hb : a = b := by
      have hmem : Sigma.mk k b ∈ t.entries := by simp [hentries]
      exact Option.some.inj (h.symm.trans (AList.mem_lookup_iff.mpr hmem))
    subst hb
    rw [hentries] at herase
    simp only [tally, values, entries_erase, hentries, herase, List.map_append, List.map_cons, List.countP_append,
      List.countP_cons, weight,
      Option.any_some]
    omega

theorem tally_insert (t : Table κ α) (k : κ) (a : α) :
    tally p (t.insert k a) + weight p (t.lookup k) = tally p t + weight p (some a) := by
  have hcons : tally p (t.insert k a) = tally p (t.erase k) + weight p (some a) := by
    simp only [tally, values, AList.entries_insert, List.map_cons, List.countP_cons, weight, Option.any_some]
    rfl
  rw [hcons, ← tally_erase (p := p) t k]
  omega

theorem tally_update {f : α → α} (t : Table κ α) (k : κ) (hf : ∀ a, p (f a) = p a) :
    tally p (t.update k f) = tally p t := by
  unfold update
  split
  · next a h =>
    have := tally_insert (p := p) t k (f a)
    rw [h] at this
    simp only [weight, Option.any_some, hf] at this
    omega
  · rfl

omit [DecidableEq κ] in
theorem tally_mono (t : Table κ α) (h : ∀ a, p a = true → q a = true) : tally p t ≤ tally q t :=
  List.countP_mono_left fun a _ => h a

omit [DecidableEq κ] in
@[simp] theorem tally_empty : tally p (∅ : Table κ α) = 0 := rfl

theorem tally_eq_zero {t : Table κ α} (h : ∀ k a, t.lookup k = some a → p a = false) : tally p t = 0 := by
  refine List.countP_eq_zero.mpr fun a ha => ?_
  obtain ⟨k, hk⟩ := mem_values.mp ha
  rw [h k a hk]
  exact Bool.false_ne_true

/-- The entries of a list under their positions. -/
theorem lookup_foldl_zipIdx (f : α → β) (l : List α) (n : ℕ) (t : Table ℕ β) (k : ℕ) :
    ((l.zipIdx n).foldl (fun t r => t.insert r.2 (f r.1)) t).lookup k =
      if n ≤ k ∧ k < n + l.length then (l[k - n]?).map f else t.lookup k := by
  induction l generalizing n t with
  | nil => simp
  | cons a l ih =>
    rw [List.zipIdx_cons, List.foldl_cons, ih, lookup_insert]
    by_cases hk : k = n
    · subst hk
      simp
    · by_cases hlt : n < k
      · obtain ⟨j, rfl⟩ : ∃ j, k = n + 1 + j := ⟨k - (n + 1), by omega⟩
        have hsub : n + 1 + j - n = j + 1 := by omega
        have hsub' : n + 1 + j - (n + 1) = j := by omega
        simp only [hsub, hsub', List.getElem?_cons_succ, List.length_cons, if_neg hk]
        congr 1
        simp only [eq_iff_iff]
        omega
      · rw [if_neg (by omega), if_neg (by omega), if_neg (by simp only [List.length_cons]; omega)]

end Gooselake.Library.Table
