import Gooselake.Library.Table

/-!
Secondary indexes of a finite map. An index lists the entries by a key of their values, each entry once; a unique
index has one entry for each key, and may leave out entries.
-/

namespace Gooselake.Library

set_option autoImplicit false

variable {κ α β : Type} [DecidableEq κ] [DecidableEq β]

/-- The index lists each entry of the table once, under the key of its value, and nothing else. -/
structure Indexes (key : α → β) (t : Table κ α) (index : Table β (List κ)) : Prop where
  listed : ∀ k a, t.lookup k = some a → ∃ ks, index.lookup (key a) = some ks ∧ k ∈ ks
  live : ∀ b ks, index.lookup b = some ks → ks ≠ [] ∧ ks.Nodup ∧ ∀ k ∈ ks, ∃ a, t.lookup k = some a ∧ key a = b

namespace Indexes

variable {key : α → β} {t t' : Table κ α} {index index' : Table β (List κ)}

theorem empty (key : α → β) : Indexes key (∅ : Table κ α) ∅ :=
  ⟨fun k a h => by simp at h, fun b ks h => by simp at h⟩

theorem mem_iff (h : Indexes key t index) (b : β) (k : κ) :
    k ∈ (index.lookup b).getD [] ↔ ∃ a, t.lookup k = some a ∧ key a = b := by
  constructor
  · intro hk
    cases hl : index.lookup b with
    | none => simp [hl] at hk
    | some ks =>
      rw [hl] at hk
      exact (h.live b ks hl).2.2 k hk
  · rintro ⟨a, ha, rfl⟩
    obtain ⟨ks, hl, hk⟩ := h.listed k a ha
    rw [hl]
    exact hk

theorem nodup (h : Indexes key t index) (b : β) : ((index.lookup b).getD []).Nodup := by
  cases hl : index.lookup b with
  | none => exact List.nodup_nil
  | some ks => exact (h.live b ks hl).2.1

/-- Only the keys of the values matter. -/
theorem congr (h : Indexes key t index) (hkeys : ∀ k, (t'.lookup k).map key = (t.lookup k).map key) :
    Indexes key t' index := by
  refine ⟨fun k a ha => ?_, fun b ks hl => ?_⟩
  · have hk := hkeys k
    rw [ha] at hk
    obtain ⟨a', ha', he⟩ := Option.map_eq_some_iff.mp hk.symm
    rw [← he]
    exact h.listed k a' ha'
  · obtain ⟨hne, hnodup, hall⟩ := h.live b ks hl
    refine ⟨hne, hnodup, fun k hk => ?_⟩
    obtain ⟨a, ha, he⟩ := hall k hk
    have hk := hkeys k
    rw [ha] at hk
    obtain ⟨a', ha', he'⟩ := Option.map_eq_some_iff.mp hk
    exact ⟨a', ha', he'.trans he⟩

/-- A new entry, at the end of the list of its key. -/
theorem push (h : Indexes key t index) {k : κ} (hnew : k ∉ t) (a : α) :
    Indexes key (t.insert k a) (index.insert (key a) ((index.lookup (key a)).getD [] ++ [k])) := by
  have hfresh : ∀ b, k ∉ (index.lookup b).getD [] := fun b hk => by
    obtain ⟨a', ha', -⟩ := (h.mem_iff b k).mp hk
    exact hnew (Table.lookup_isSome ha')
  refine ⟨fun k' a' ha' => ?_, fun b ks hl => ?_⟩
  · rw [Table.lookup_insert] at ha'
    split at ha'
    · next he =>
      obtain rfl := Option.some.inj ha'
      refine ⟨_, AList.lookup_insert _, ?_⟩
      rw [he]
      exact List.mem_append_right _ List.mem_cons_self
    · obtain ⟨ks, hl, hk⟩ := h.listed k' a' ha'
      by_cases hb : key a' = key a
      · refine ⟨(index.lookup (key a)).getD [] ++ [k], ?_, List.mem_append_left _ ?_⟩
        · rw [hb]
          exact AList.lookup_insert _
        · rw [← hb, hl]
          exact hk
      · refine ⟨ks, ?_, hk⟩
        rw [Table.lookup_insert, if_neg hb]
        exact hl
  · rw [Table.lookup_insert] at hl
    split at hl
    · next hb =>
      obtain rfl := Option.some.inj hl
      refine ⟨by simp, ?_, fun k' hk' => ?_⟩
      · refine List.nodup_append.mpr ⟨h.nodup _, List.nodup_singleton _, fun x hx y hy he => ?_⟩
        rw [List.mem_singleton.mp hy] at he
        exact hfresh _ (he ▸ hx)
      · rw [Table.lookup_insert]
        rcases List.mem_append.mp hk' with hk' | hk'
        · obtain ⟨a', ha', he⟩ := (h.mem_iff _ _).mp hk'
          have hne : k' ≠ k := fun hkk => hnew (hkk ▸ Table.lookup_isSome ha')
          rw [if_neg hne]
          exact ⟨a', ha', he.trans hb.symm⟩
        · rw [if_pos (List.mem_singleton.mp hk')]
          exact ⟨a, rfl, hb.symm⟩
    · obtain ⟨hne, hnodup, hall⟩ := h.live b ks hl
      refine ⟨hne, hnodup, fun k' hk' => ?_⟩
      obtain ⟨a', ha', he⟩ := hall k' hk'
      have hkk : k' ≠ k := fun hkk => hnew (hkk ▸ Table.lookup_isSome ha')
      rw [Table.lookup_insert, if_neg hkk]
      exact ⟨a', ha', he⟩

/-- Entries taken out of the table and of the lists; a list that is left empty goes with its key. -/
theorem filter (h : Indexes key t index) {gone : κ → Prop} [DecidablePred gone]
    (htable : ∀ k, t'.lookup k = if gone k then none else t.lookup k)
    (hindex : ∀ b, (index'.lookup b).getD [] = ((index.lookup b).getD []).filter fun k => ¬ gone k)
    (hnonempty : ∀ b, index'.lookup b ≠ some []) : Indexes key t' index' := by
  refine ⟨fun k a ha => ?_, fun b ks hl => ?_⟩
  · rw [htable] at ha
    split at ha
    · cases ha
    · next hgone =>
      have hmem : k ∈ (index'.lookup (key a)).getD [] := by
        rw [hindex, List.mem_filter]
        exact ⟨(h.mem_iff _ _).mpr ⟨a, ha, rfl⟩, by simpa using hgone⟩
      cases hl : index'.lookup (key a) with
      | none => simp [hl] at hmem
      | some ks => exact ⟨ks, rfl, by rwa [hl] at hmem⟩
  · have hks : ks = ((index.lookup b).getD []).filter fun k => ¬ gone k := by
      rw [← hindex, hl]
      rfl
    refine ⟨fun hempty => hnonempty b (hempty ▸ hl), ?_, fun k hk => ?_⟩
    · rw [hks]
      exact (h.nodup b).filter _
    · rw [hks, List.mem_filter] at hk
      obtain ⟨a, ha, he⟩ := (h.mem_iff b k).mp hk.1
      refine ⟨a, ?_, he⟩
      rw [htable, if_neg (by simpa using hk.2)]
      exact ha

/-- Entries taken out of the table with all of the keys they are listed under. -/
theorem eraseKeys (h : Indexes key t index) (bs : List β) {gone : κ → Prop} [DecidablePred gone]
    (htable : ∀ k, t'.lookup k = if gone k then none else t.lookup k)
    (hgone : ∀ k a, t.lookup k = some a → (gone k ↔ key a ∈ bs))
    (hindex : ∀ b, index'.lookup b = if b ∈ bs then none else index.lookup b) : Indexes key t' index' := by
  refine h.filter htable (fun b => ?_) fun b hempty => ?_
  · rw [hindex]
    split
    · next hb =>
      refine Eq.symm (List.filter_eq_nil_iff.mpr fun k hk => ?_)
      obtain ⟨a, ha, he⟩ := (h.mem_iff b k).mp hk
      simpa using (hgone k a ha).mpr (he ▸ hb)
    · next hb =>
      refine Eq.symm (List.filter_eq_self.mpr fun k hk => ?_)
      obtain ⟨a, ha, he⟩ := (h.mem_iff b k).mp hk
      have hnot : ¬ gone k := fun hg => hb (he ▸ (hgone k a ha).mp hg)
      simpa using hnot
  · rw [hindex] at hempty
    split at hempty
    · cases hempty
    · exact (h.live b [] hempty).1 rfl

end Indexes

/-! ## Unique indexes -/

/-- The index leads to each entry whose value has a key, and to nothing else. -/
structure Points (key : α → Option β) (t : Table κ α) (index : Table β κ) : Prop where
  listed : ∀ k a b, t.lookup k = some a → key a = some b → index.lookup b = some k
  live : ∀ b k, index.lookup b = some k → ∃ a, t.lookup k = some a ∧ key a = some b

namespace Points

variable {key : α → Option β} {t t' : Table κ α} {index index' : Table β κ}

theorem empty (key : α → Option β) : Points key (∅ : Table κ α) ∅ :=
  ⟨fun k a b h => by simp at h, fun b k h => by simp at h⟩

/-- A new entry without a key. -/
theorem pass (h : Points key t index) {k : κ} (hnew : k ∉ t) {a : α} (ha : key a = none) :
    Points key (t.insert k a) index := by
  refine ⟨fun k' a' b hk' hb => ?_, fun b k' hl => ?_⟩
  · rw [Table.lookup_insert] at hk'
    split at hk'
    · obtain rfl := Option.some.inj hk'
      rw [ha] at hb
      cases hb
    · exact h.listed k' a' b hk' hb
  · obtain ⟨a', ha', he⟩ := h.live b k' hl
    have hne : k' ≠ k := fun hkk => hnew (hkk ▸ Table.lookup_isSome ha')
    rw [Table.lookup_insert, if_neg hne]
    exact ⟨a', ha', he⟩

/-- A new entry whose key no other has. -/
theorem put (h : Points key t index) {k : κ} (hnew : k ∉ t) {a : α} {b : β} (ha : key a = some b)
    (hfree : index.lookup b = none) : Points key (t.insert k a) (index.insert b k) := by
  refine ⟨fun k' a' b' hk' hb' => ?_, fun b' k' hl => ?_⟩
  · rw [Table.lookup_insert] at hk'
    split at hk'
    · next he =>
      obtain rfl := Option.some.inj hk'
      obtain rfl := Option.some.inj (ha.symm.trans hb')
      rw [he]
      exact AList.lookup_insert _
    · have hl := h.listed k' a' b' hk' hb'
      have hne : b' ≠ b := fun he => by
        rw [he, hfree] at hl
        cases hl
      rw [Table.lookup_insert, if_neg hne]
      exact hl
  · rw [Table.lookup_insert] at hl
    split at hl
    · next he =>
      obtain rfl := Option.some.inj hl
      exact ⟨a, AList.lookup_insert _, he ▸ ha⟩
    · obtain ⟨a', ha', he⟩ := h.live b' k' hl
      have hne : k' ≠ k := fun hkk => hnew (hkk ▸ Table.lookup_isSome ha')
      rw [Table.lookup_insert, if_neg hne]
      exact ⟨a', ha', he⟩

/-- Entries taken out of the table with their keys. -/
theorem eraseKeys (h : Points key t index) (lost : β → Prop) [DecidablePred lost] {gone : κ → Prop} [DecidablePred gone]
    (htable : ∀ k, t'.lookup k = if gone k then none else t.lookup k)
    (hlost : ∀ k a b, t.lookup k = some a → key a = some b → (gone k ↔ lost b))
    (hindex : ∀ b, index'.lookup b = if lost b then none else index.lookup b) : Points key t' index' := by
  refine ⟨fun k a b ha hb => ?_, fun b k hl => ?_⟩
  · rw [htable] at ha
    split at ha
    · cases ha
    · next hgone =>
      rw [hindex, if_neg fun hl => hgone ((hlost k a b ha hb).mpr hl)]
      exact h.listed k a b ha hb
  · rw [hindex] at hl
    split at hl
    · cases hl
    · next hkept =>
      obtain ⟨a, ha, he⟩ := h.live b k hl
      rw [htable, if_neg fun hg => hkept ((hlost k a b ha he).mp hg)]
      exact ⟨a, ha, he⟩

end Points

/-! ## Searches without an index -/

/-- A search through all entries gives the same one in whatever order they stand if no other meets it. -/
theorem findSome?_all_orders_iff (keys : List κ) (f : κ → Option α) (a : α) :
    (∀ order : List κ, order.Perm keys → order.findSome? f = some a) ↔
      (∃ k ∈ keys, f k = some a) ∧ ∀ k ∈ keys, ∀ b, f k = some b → b = a := by
  constructor
  · intro h
    refine ⟨List.exists_of_findSome?_eq_some (h keys (List.Perm.refl keys)), fun k hk b hb => ?_⟩
    -- an order in which this entry comes first
    have hfirst := h (k :: keys.erase k) (List.perm_cons_erase hk).symm
    rw [List.findSome?_cons, hb] at hfirst
    exact Option.some.inj hfirst
  · rintro ⟨⟨k, hk, ha⟩, hall⟩ order horder
    have hsome : (order.findSome? f).isSome := by
      rw [List.findSome?_isSome_iff]
      exact ⟨k, horder.mem_iff.mpr hk, by rw [ha]; rfl⟩
    obtain ⟨b, hb⟩ := Option.isSome_iff_exists.mp hsome
    obtain ⟨k', hk', hf⟩ := List.exists_of_findSome?_eq_some hb
    rw [hb, hall k' (horder.mem_iff.mp hk') b hf]

end Gooselake.Library
