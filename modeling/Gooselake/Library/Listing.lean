import Gooselake.Library.Table

/-!
Rows listed in an order: the rows that meet a predicate, sorted. The listing depends on nothing but which rows
there are, so rows that come after all others are listed after them.
-/

namespace Gooselake.Library

set_option autoImplicit false

variable {α β : Type} {r : α → α → Prop} [DecidableRel r] {p p' : α → Bool} {rows rows' new : List α}

/-- The rows that meet `p`, in the order `r`. -/
def listing (r : α → α → Prop) [DecidableRel r] (p : α → Bool) (rows : List α) : List α :=
  (rows.insertionSort r).filter p

theorem mem_listing {a : α} : a ∈ listing r p rows ↔ a ∈ rows ∧ p a = true := by
  rw [listing, List.mem_filter, List.mem_insertionSort]

theorem listing_perm : (listing r p rows).Perm (rows.filter p) := (List.perm_insertionSort r rows).filter p

theorem listing_congr (h : ∀ a ∈ rows, p' a = p a) : listing r p' rows = listing r p rows :=
  List.filter_congr fun a ha => h a ((List.mem_insertionSort r).mp ha)

theorem pairwise_listing (htotal : ∀ a b, r a b ∨ r b a) (htrans : ∀ a b c, r a b → r b c → r a c) :
    (listing r p rows).Pairwise r := by
  have : Std.Total r := ⟨htotal⟩
  have : IsTrans α r := ⟨htrans⟩
  exact (List.pairwise_insertionSort r rows).filter p

/-- Rows that come after the listed ones in the order are listed after them. -/
theorem listing_append (htotal : ∀ a b, r a b ∨ r b a) (htrans : ∀ a b c, r a b → r b c → r a c)
    (hanti : ∀ a ∈ rows', ∀ b ∈ rows', r a b → r b a → a = b) (hperm : (rows'.filter p').Perm (rows.filter p ++ new))
    (hnew : new.Pairwise r) (hafter : ∀ a ∈ rows, p a = true → ∀ b ∈ new, r a b) :
    listing r p' rows' = listing r p rows ++ new := by
  have hall : (listing r p' rows').Perm (listing r p rows ++ new) :=
    listing_perm.trans (hperm.trans (listing_perm.symm.append_right new))
  refine List.Perm.eq_of_pairwise (fun a b ha hb => ?_) (pairwise_listing htotal htrans) ?_ hall
  · have hb' : b ∈ listing r p' rows' := hall.mem_iff.mpr hb
    exact hanti a (mem_listing.mp ha).1 b (mem_listing.mp hb').1
  · refine List.pairwise_append.mpr ⟨pairwise_listing htotal htrans, hnew, fun a ha b hb => ?_⟩
    obtain ⟨ha, hp⟩ := mem_listing.mp ha
    exact hafter a ha hp b hb

/-- What the order and the predicate read of the rows decides the listing. -/
theorem map_listing_congr (f : α → β) (q : β → β → Prop) [DecidableRel q] (keep : β → Bool)
    (hr : ∀ a b, r a b ↔ q (f a) (f b)) (hp : ∀ a, p a = keep (f a)) (hp' : ∀ a, p' a = keep (f a))
    (hrows : rows'.map f = rows.map f) : (listing r p' rows').map f = (listing r p rows).map f := by
  have hmap : ∀ (p : α → Bool) (rows : List α), (∀ a, p a = keep (f a)) →
      (listing r p rows).map f = ((rows.map f).insertionSort q).filter keep := by
    intro p rows hp
    rw [listing, ← List.map_insertionSort r q f rows fun a _ b _ => hr a b, List.filter_map]
    exact congrArg (List.map f) (List.filter_congr fun a _ => hp a)
  rw [hmap p' rows' hp', hmap p rows hp, hrows]

/-! ## Rows that are upserted -/

variable {κ : Type} [DecidableEq κ] {key : α → κ} {row : α}

/-- A row that takes the place of one that does not meet `p`, or of none. -/
theorem filter_upsert_perm (h : ∀ old ∈ rows, key old = key row → p old = false) :
    ((upsert key (fun _ new => new) row rows).filter p).Perm (rows.filter p ++ [row].filter p) := by
  induction rows with
  | nil => exact List.Perm.refl _
  | cons a rows ih =>
    unfold upsert
    split
    · next hk =>
      have ha : p a = false := h a List.mem_cons_self hk
      have hnone : (a :: rows).filter p = rows.filter p := List.filter_cons_of_neg (by simp [ha])
      rw [← List.singleton_append, List.filter_append, hnone]
      exact List.perm_append_comm
    · have ih := ih fun old hold => h old (List.mem_cons_of_mem _ hold)
      by_cases ha : p a = true
      · rw [List.filter_cons_of_pos ha, List.filter_cons_of_pos ha, List.cons_append]
        exact ih.cons a
      · rw [List.filter_cons_of_neg ha, List.filter_cons_of_neg ha]
        exact ih

/-- The same for rows that are upserted one after the other. -/
theorem filter_upsert_all_perm (hnew : (new.map key).Nodup) (h : ∀ old ∈ rows, key old ∈ new.map key → p old = false) :
    ((new.foldl (fun rows row => upsert key (fun _ new => new) row rows) rows).filter p).Perm
      (rows.filter p ++ new.filter p) := by
  induction new generalizing rows with
  | nil => rw [List.filter_nil, List.append_nil]; exact List.Perm.refl _
  | cons row new ih =>
    rw [List.map_cons, List.nodup_cons] at hnew
    have hrow : ∀ old ∈ rows, key old = key row → p old = false := fun old hold hk =>
      h old hold (by simp [hk])
    refine (ih hnew.2 fun old hold hk => ?_).trans (((filter_upsert_perm hrow).append_right _).trans ?_)
    · rcases mem_upsert hold with hold | rfl | ⟨_, _, _, rfl⟩
      · exact h old hold (List.mem_cons_of_mem _ hk)
      · exact absurd hk hnew.1
      · exact absurd hk hnew.1
    · rw [List.append_assoc, ← List.filter_append, List.singleton_append]

/-- Rows that are upserted one after the other are there, and so are those with other keys. -/
theorem mem_upsert_all (hnew : (new.map key).Nodup) {a : α} (h : a ∈ new ∨ (a ∈ rows ∧ key a ∉ new.map key)) :
    a ∈ new.foldl (fun rows row => upsert key (fun _ new => new) row rows) rows := by
  induction new generalizing rows with
  | nil => exact (h.resolve_left List.not_mem_nil).1
  | cons row new ih =>
    rw [List.map_cons, List.nodup_cons] at hnew
    refine ih hnew.2 ?_
    rcases h with h | ⟨h, hkey⟩
    · rcases List.mem_cons.mp h with rfl | h
      · exact .inr ⟨mem_upsert_self a rows, hnew.1⟩
      · exact .inl h
    · rw [List.map_cons, List.mem_cons, not_or] at hkey
      exact .inr ⟨mem_upsert_of_ne _ h hkey.1, hkey.2⟩

/-- Whether a row with a key meets `q`, when the upserted row does. -/
theorem any_upsert {merge : α → α → α} {q : α → Bool} (hkey : ∀ old, key (merge old row) = key row)
    (hmerge : ∀ old, q (merge old row) = true) (hrow : q row = true) (rows : List α) (k : κ) :
    ((upsert key merge row rows).any fun r => key r = k && q r) =
      (decide (key row = k) || rows.any fun r => key r = k && q r) := by
  induction rows with
  | nil => simp [upsert, hrow]
  | cons a rows ih =>
    unfold upsert
    split
    · next hk =>
      rw [List.any_cons, List.any_cons, hkey, hmerge, hk]
      cases decide (key row = k) <;> simp
    · rw [List.any_cons, List.any_cons, ih]
      cases decide (key row = k) <;> simp

/-- A row that takes the place of one with the same `f`. -/
theorem map_upsert_same (f : α → β) (hkey : ∀ a b, f a = f b → key a = key b) (hids : (rows.map key).Nodup)
    (h : f row ∈ rows.map f) : (upsert key (fun _ new => new) row rows).map f = rows.map f := by
  induction rows with
  | nil => cases h
  | cons a rows ih =>
    rw [List.map_cons, List.nodup_cons] at hids
    obtain ⟨old, hold, hf⟩ := List.mem_map.mp h
    unfold upsert
    split
    · next hk =>
      rcases List.mem_cons.mp hold with rfl | hold
      · rw [List.map_cons, List.map_cons, hf]
      · exact absurd (hk.trans (hkey old row hf).symm ▸ List.mem_map_of_mem hold) hids.1
    · next hk =>
      rcases List.mem_cons.mp hold with rfl | hold
      · exact absurd (hkey old row hf) hk
      · rw [List.map_cons, List.map_cons, ih hids.2 (hf ▸ List.mem_map_of_mem hold)]

end Gooselake.Library
