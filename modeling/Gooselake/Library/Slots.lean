import Mathlib.Data.List.Nodup
import Mathlib.Data.List.Perm.Basic

/-!
A list in which one entry is replaced, read through a partial projection: what the entries project to changes with that
entry alone, and while the keys of the projections are distinct an entry can be told by its key.
-/

namespace Gooselake.Library

set_option autoImplicit false

variable {α β κ : Type} {f : α → Option β} {l : List α} {i j : ℕ} {a a' b : α}

theorem filterMap_set_of_eq (h : l[i]? = some a) (he : f a' = f a) : (l.set i a').filterMap f = l.filterMap f := by
  induction l generalizing i with
  | nil => rfl
  | cons x l ih =>
    cases i with
    | zero =>
      obtain rfl := Option.some.inj h
      rw [List.set_cons_zero, List.filterMap_cons, List.filterMap_cons, he]
    | succ i => rw [List.set_cons_succ, List.filterMap_cons, List.filterMap_cons, ih h]

/-- The entry that is put in projects to something, the one it replaces does not. -/
theorem filterMap_set_perm {p : β} (h : l[i]? = some a) (ha : f a = none) (ha' : f a' = some p) :
    ((l.set i a').filterMap f).Perm (p :: l.filterMap f) := by
  induction l generalizing i with
  | nil => cases h
  | cons x l ih =>
    cases i with
    | zero =>
      obtain rfl := Option.some.inj h
      rw [List.set_cons_zero, List.filterMap_cons_some ha', List.filterMap_cons_none ha]
    | succ i =>
      rw [List.set_cons_succ]
      cases hx : f x with
      | none =>
        rw [List.filterMap_cons_none hx, List.filterMap_cons_none hx]
        exact ih h
      | some q =>
        rw [List.filterMap_cons_some hx, List.filterMap_cons_some hx]
        exact ((ih h).cons q).trans (List.Perm.swap p q _)

theorem eq_of_key_eq {g : β → κ} {p q : β} (hn : ((l.filterMap f).map g).Nodup) (ha : a ∈ l) (hb : b ∈ l)
    (hp : f a = some p) (hq : f b = some q) (hg : g p = g q) : a = b := by
  induction l with
  | nil => cases ha
  | cons x l ih =>
    have hrest : ((l.filterMap f).map g).Nodup := by
      cases hx : f x with
      | none => rwa [List.filterMap_cons_none hx] at hn
      | some y =>
        rw [List.filterMap_cons_some hx, List.map_cons, List.nodup_cons] at hn
        exact hn.2
    -- the head projects to a key that the rest has not
    have hhead : ∀ {y z c}, f x = some y → c ∈ l → f c = some z → g y ≠ g z := by
      intro y z c hx hc hz he
      rw [List.filterMap_cons_some hx, List.map_cons, List.nodup_cons] at hn
      exact hn.1 (he ▸ List.mem_map.mpr ⟨z, List.mem_filterMap.mpr ⟨c, hc, hz⟩, rfl⟩)
    rcases List.mem_cons.mp ha with rfl | ha'
    · rcases List.mem_cons.mp hb with rfl | hb'
      · rfl
      · exact absurd hg (hhead hp hb' hq)
    · rcases List.mem_cons.mp hb with rfl | hb'
      · exact absurd hg.symm (hhead hq ha' hp)
      · exact ih hrest ha' hb'

theorem mem_set_of_ne (h : l[i]? = some a) (hb : b ∈ l) (hne : b ≠ a) : b ∈ l.set i a' := by
  obtain ⟨j, hj⟩ := List.mem_iff_getElem?.mp hb
  refine List.mem_iff_getElem?.mpr ⟨j, ?_⟩
  rw [List.getElem?_set_ne]
  · exact hj
  · rintro rfl
    exact hne (Option.some.inj (hj.symm.trans h))

theorem of_getElem?_set (h : (l.set i a)[j]? = some b) : j = i ∧ b = a ∨ j ≠ i ∧ l[j]? = some b := by
  rw [List.getElem?_set] at h
  split at h
  · next hij =>
    split at h
    · exact .inl ⟨hij.symm, (Option.some.inj h).symm⟩
    · cases h
  · next hij => exact .inr ⟨Ne.symm hij, h⟩

theorem getElem?_set_of_some (h : l[i]? = some b) : (l.set i a)[i]? = some a :=
  List.getElem?_set_self (List.getElem?_eq_some_iff.mp h).1

theorem of_getElem?_concat (h : (l ++ [a])[j]? = some b) : l[j]? = some b ∨ b = a := by
  rcases Nat.lt_or_ge j l.length with hj | hj
  · rw [List.getElem?_append_left hj] at h
    exact .inl h
  · rw [List.getElem?_append_right hj] at h
    exact .inr (List.mem_singleton.mp (List.mem_of_getElem? h))

theorem getElem?_concat_of_some (h : l[j]? = some b) : (l ++ [a])[j]? = some b :=
  (List.getElem?_append_left (List.getElem?_eq_some_iff.mp h).1).trans h

end Gooselake.Library
