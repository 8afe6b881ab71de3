import Mathlib.Data.List.AList
import Mathlib.Data.List.Sort

/-!
Finite maps with keys of one type, and rows kept in insertion order under an upsert.
-/

namespace Gooselake.Library

set_option autoImplicit false

/-- A finite map. -/
abbrev Table (κ α : Type) : Type := AList (fun _ : κ => α)

namespace Table

variable {κ α : Type} [DecidableEq κ]

theorem lookup_insert (t : Table κ α) (k k' : κ) (a : α) :
    (t.insert k a).lookup k' = if k' = k then some a else t.lookup k' := by
  split
  · next h => subst h; exact AList.lookup_insert t
  · next h => exact AList.lookup_insert_ne h

theorem lookup_erase (t : Table κ α) (k k' : κ) :
    (t.erase k).lookup k' = if k' = k then none else t.lookup k' := by
  split
  · next h => subst h; exact AList.lookup_erase k' t
  · next h => exact AList.lookup_erase_ne h

/-- The values, in the order of the entries. -/
def values (t : Table κ α) : List α := t.entries.map Sigma.snd

theorem of_lookup_insert {t : Table κ α} {k k' : κ} {a b : α} (h : (t.insert k b).lookup k' = some a) :
    k' = k ∧ a = b ∨ t.lookup k' = some a := by
  rw [lookup_insert] at h
  split at h
  · next he => exact .inl ⟨he, (Option.some.inj h).symm⟩
  · exact .inr h

theorem of_lookup_erase {t : Table κ α} {k k' : κ} {a : α} (h : (t.erase k).lookup k' = some a) :
    k' ≠ k ∧ t.lookup k' = some a := by
  rw [lookup_erase] at h
  split at h
  · cases h
  · next hne => exact ⟨hne, h⟩

theorem mem_values {t : Table κ α} {a : α} : a ∈ t.values ↔ ∃ k, t.lookup k = some a := by
  simp only [values, List.mem_map, Sigma.exists, AList.mem_lookup_iff.symm, Option.mem_def]
  constructor
  · rintro ⟨k, b, hb, rfl⟩
    exact ⟨k, hb⟩
  · rintro ⟨k, hk⟩
    exact ⟨k, a, hk, rfl⟩

/-- The values in the order of their keys. -/
def sortedValues (before : κ → κ → Bool) (t : Table κ α) : List α :=
  (t.entries.insertionSort fun a b => before a.1 b.1).map Sigma.snd

omit [DecidableEq κ] in
theorem mem_sortedValues {before : κ → κ → Bool} {t : Table κ α} {a : α} :
    a ∈ t.sortedValues before ↔ a ∈ t.values := by
  unfold sortedValues values
  rw [List.mem_map, List.mem_map]
  constructor <;> rintro ⟨e, he, rfl⟩
  · exact ⟨e, (List.perm_insertionSort _ _).mem_iff.mp he, rfl⟩
  · exact ⟨e, (List.perm_insertionSort _ _).mem_iff.mpr he, rfl⟩

/-- Values that are kept under their own keys. -/
theorem map_values {key : α → κ} {t : Table κ α} (h : ∀ k a, t.lookup k = some a → key a = k) :
    t.values.map key = t.keys := by
  rw [values, List.map_map]
  exact List.map_congr_left fun e he => h e.1 e.2 (AList.mem_lookup_iff.mpr he)

/-- Values that are kept under their own keys have different keys. -/
theorem nodup_sortedValues {key : α → κ} {t : Table κ α} (h : ∀ k a, t.lookup k = some a → key a = k)
    (before : κ → κ → Bool) : ((t.sortedValues before).map key).Nodup := by
  have hsorted : (t.sortedValues before).Perm t.values :=
    (List.perm_insertionSort _ t.entries).map (Sigma.snd : ((_ : κ) × α) → α)
  have hperm : ((t.sortedValues before).map key).Perm (t.values.map key) := hsorted.map key
  rw [hperm.nodup_iff, map_values h]
  exact t.keys_nodup

theorem lookup_isSome {t : Table κ α} {k : κ} {a : α} (h : t.lookup k = some a) : k ∈ t :=
  AList.lookup_isSome.mp (by rw [h]; rfl)

/-- Change the value at a key, if there is one. -/
def update (t : Table κ α) (k : κ) (f : α → α) : Table κ α :=
  match t.lookup k with
  | some a => t.insert k (f a)
  | none => t

theorem lookup_update (t : Table κ α) (k k' : κ) (f : α → α) :
    (t.update k f).lookup k' = if k' = k then (t.lookup k).map f else t.lookup k' := by
  unfold update
  cases h : t.lookup k with
  | none =>
    by_cases e : k' = k
    · rw [if_pos e, e]; exact h
    · simp [e]
  | some a => simp only [lookup_insert, Option.map_some]

@[simp] theorem isSome_insert (t : Table κ α) (k k' : κ) (a : α) :
    ((t.insert k a).lookup k').isSome ↔ k' = k ∨ (t.lookup k').isSome := by
  rw [lookup_insert]
  by_cases h : k' = k <;> simp [h]

@[simp] theorem isSome_update (t : Table κ α) (k k' : κ) (f : α → α) :
    ((t.update k f).lookup k').isSome ↔ (t.lookup k').isSome := by
  rw [lookup_update]
  by_cases h : k' = k
  · subst h
    simp
  · simp [h]

theorem entries_erase (t : Table κ α) (k : κ) : (t.erase k).entries = t.entries.kerase k := rfl

/-- The table without some keys. -/
def eraseAll (t : Table κ α) (ks : List κ) : Table κ α := ks.foldl (fun t k => t.erase k) t

theorem lookup_eraseAll (t : Table κ α) (ks : List κ) (k : κ) :
    (t.eraseAll ks).lookup k = if k ∈ ks then none else t.lookup k := by
  induction ks generalizing t with
  | nil => simp [eraseAll]
  | cons k' ks ih =>
    change (eraseAll (t.erase k') ks).lookup k = _
    rw [ih, lookup_erase]
    by_cases h : k = k' <;> simp [h]

/-- A table filled row by row holds rows under their keys. -/
theorem lookup_foldl_insert (key : α → κ) (rows : List α) (t : Table κ α) {k : κ} {r : α}
    (h : (rows.foldl (fun t r => t.insert (key r) r) t).lookup k = some r) :
    (r ∈ rows ∧ key r = k) ∨ t.lookup k = some r := by
  induction rows generalizing t with
  | nil => exact .inr h
  | cons row rows ih =>
    rcases ih _ h with ⟨hr, hk⟩ | h
    · exact .inl ⟨by simp [hr], hk⟩
    · rw [lookup_insert] at h
      split at h
      · next he =>
        obtain rfl := Option.some.inj h
        exact .inl ⟨by simp, he.symm⟩
      · exact .inr h

theorem isSome_foldl_insert (key : α → κ) (rows : List α) (t : Table κ α) {r : α}
    (h : r ∈ rows ∨ (t.lookup (key r)).isSome) :
    ((rows.foldl (fun t r => t.insert (key r) r) t).lookup (key r)).isSome := by
  induction rows generalizing t with
  | nil => exact h.resolve_left (by simp)
  | cons row rows ih =>
    refine ih _ ?_
    rcases h with h | h
    · rcases List.mem_cons.mp h with rfl | h
      · exact .inr ((isSome_insert _ _ _ _).mpr (.inl rfl))
      · exact .inl h
    · exact .inr ((isSome_insert _ _ _ _).mpr (.inr h))

/-- Under the key of a row there is a row afterwards. -/
theorem exists_foldl_insert (key : α → κ) (rows : List α) (t : Table κ α) {k : κ} (h : k ∈ rows.map key) :
    ∃ r ∈ rows, key r = k ∧ (rows.foldl (fun t r => t.insert (key r) r) t).lookup k = some r := by
  induction rows generalizing t with
  | nil => cases h
  | cons row rows ih =>
    by_cases hk : k ∈ rows.map key
    · obtain ⟨r, hr, he, hl⟩ := ih (t.insert (key row) row) hk
      exact ⟨r, List.mem_cons_of_mem _ hr, he, hl⟩
    · obtain rfl : k = key row := by
        rw [List.map_cons, List.mem_cons] at h
        exact h.resolve_right hk
      have hsome := isSome_foldl_insert key rows (t.insert (key row) row)
        (.inr ((isSome_insert _ _ _ _).mpr (.inl rfl)))
      obtain ⟨r, hl⟩ := Option.isSome_iff_exists.mp hsome
      rcases lookup_foldl_insert key rows _ hl with ⟨hr, he⟩ | hold
      · exact absurd (List.mem_map.mpr ⟨r, hr, he⟩) hk
      · rw [lookup_insert, if_pos rfl] at hold
        obtain rfl := Option.some.inj hold
        exact ⟨row, List.mem_cons_self, rfl, hl⟩

/-- The entries whose key meets `p`. -/
def retain (p : κ → Bool) (t : Table κ α) : Table κ α := t.eraseAll (t.keys.filter fun k => !p k)

theorem lookup_retain (p : κ → Bool) (t : Table κ α) (k : κ) :
    (t.retain p).lookup k = if p k then t.lookup k else none := by
  rw [retain, lookup_eraseAll]
  by_cases hp : p k = true
  · simp [hp]
  · by_cases hk : k ∈ t.keys
    · simp [hp, hk]
    · have hnone : t.lookup k = none := AList.lookup_eq_none.mpr fun hmem => hk (AList.mem_keys.mp hmem)
      simp [hk, hnone]

end Table

/-! ## Rows -/

variable {κ α : Type} [DecidableEq κ]

/-- Insert a row, or merge it into the first row with the same key. -/
def upsert (key : α → κ) (merge : α → α → α) (row : α) : List α → List α
  | [] => [row]
  | r :: rows => if key r = key row then merge r row :: rows else r :: upsert key merge row rows

theorem mem_upsert {key : α → κ} {merge : α → α → α} {row r : α} {rows : List α}
    (h : r ∈ upsert key merge row rows) :
    r ∈ rows ∨ r = row ∨ ∃ old ∈ rows, key old = key row ∧ r = merge old row := by
  induction rows with
  | nil => simp only [upsert, List.mem_singleton] at h; exact .inr (.inl h)
  | cons a rows ih =>
    simp only [upsert] at h
    split at h
    · next hk =>
      rcases List.mem_cons.mp h with rfl | h
      · exact .inr (.inr ⟨a, by simp, hk, rfl⟩)
      · exact .inl (by simp [h])
    · rcases List.mem_cons.mp h with rfl | h
      · exact .inl (by simp)
      · rcases ih h with h | h | ⟨old, hold, h⟩
        · exact .inl (by simp [h])
        · exact .inr (.inl h)
        · exact .inr (.inr ⟨old, by simp [hold], h⟩)

theorem mem_upsert_self {key : α → κ} (row : α) (rows : List α) : row ∈ upsert key (fun _ new => new) row rows := by
  induction rows with
  | nil => simp [upsert]
  | cons a rows ih =>
    unfold upsert
    split
    · exact List.mem_cons_self
    · exact List.mem_cons_of_mem _ ih

/-- Rows with other keys stay. -/
theorem mem_upsert_of_ne {key : α → κ} (merge : α → α → α) {row r : α} {rows : List α} (h : r ∈ rows)
    (hne : key r ≠ key row) : r ∈ upsert key merge row rows := by
  induction rows with
  | nil => cases h
  | cons a rows ih =>
    unfold upsert
    split
    · next hk =>
      rcases List.mem_cons.mp h with rfl | h
      · exact absurd hk hne
      · exact List.mem_cons_of_mem _ h
    · rcases List.mem_cons.mp h with rfl | h
      · exact List.mem_cons_self
      · exact List.mem_cons_of_mem _ (ih h)

/-- The keys after an upsert whose row keeps its key. -/
theorem map_upsert {key : α → κ} {merge : α → α → α} {row : α} (hkey : ∀ old, key (merge old row) = key row)
    (rows : List α) : (upsert key merge row rows).map key =
      if key row ∈ rows.map key then rows.map key else rows.map key ++ [key row] := by
  induction rows with
  | nil => rfl
  | cons a rows ih =>
    unfold upsert
    by_cases h : key a = key row
    · simp [h, hkey]
    · rw [if_neg h, List.map_cons, ih]
      have hne : key row ≠ key a := fun he => h he.symm
      by_cases hmem : key row ∈ rows.map key <;> simp [hmem, hne]

theorem nodup_upsert {key : α → κ} {merge : α → α → α} {row : α} (hkey : ∀ old, key (merge old row) = key row)
    {rows : List α} (h : (rows.map key).Nodup) : ((upsert key merge row rows).map key).Nodup := by
  rw [map_upsert hkey]
  split
  · exact h
  · next hmem => exact List.nodup_append.mpr ⟨h, List.nodup_singleton _, fun a ha b hb he => hmem (by simp_all)⟩

/-- When the keys differ, a row that takes the place of another leaves none with its key. -/
theorem mem_upsert_new {key : α → κ} {row r : α} {rows : List α} (h : (rows.map key).Nodup)
    (hr : r ∈ upsert key (fun _ new => new) row rows) : r = row ∨ (r ∈ rows ∧ key r ≠ key row) := by
  induction rows with
  | nil => exact .inl (List.mem_singleton.mp hr)
  | cons a rows ih =>
    rw [List.map_cons, List.nodup_cons] at h
    unfold upsert at hr
    split at hr
    · next hk =>
      rcases List.mem_cons.mp hr with hr | hr
      · exact .inl hr
      · refine .inr ⟨List.mem_cons_of_mem _ hr, fun he => h.1 ?_⟩
        rw [hk, ← he]
        exact List.mem_map_of_mem hr
    · next hk =>
      rcases List.mem_cons.mp hr with rfl | hr
      · exact .inr ⟨List.mem_cons_self, hk⟩
      · exact (ih h.2 hr).imp id fun h => ⟨List.mem_cons_of_mem _ h.1, h.2⟩

/-- Rows that are upserted one after the other, each in the place of the one with its key. -/
theorem upsert_all {key : α → κ} (new rows : List α) (h : (rows.map key).Nodup) :
    ((new.foldl (fun rows row => upsert key (fun _ new => new) row rows) rows).map key).Nodup ∧
      ∀ r ∈ new.foldl (fun rows row => upsert key (fun _ new => new) row rows) rows,
        r ∈ new ∨ (r ∈ rows ∧ key r ∉ new.map key) := by
  induction new generalizing rows with
  | nil => exact ⟨h, fun r hr => .inr ⟨hr, List.not_mem_nil⟩⟩
  | cons row new ih =>
    have hrow : ((upsert key (fun _ new => new) row rows).map key).Nodup := nodup_upsert (fun _ => rfl) h
    obtain ⟨hnodup, hmem⟩ := ih _ hrow
    refine ⟨hnodup, fun r hr => ?_⟩
    rcases hmem r hr with hr | ⟨hr, hkey⟩
    · exact .inl (List.mem_cons_of_mem _ hr)
    · rcases mem_upsert_new h hr with rfl | ⟨hr, hne⟩
      · exact .inl List.mem_cons_self
      · refine .inr ⟨hr, fun hk => ?_⟩
        rcases List.mem_cons.mp hk with hk | hk
        · exact hne hk
        · exact hkey hk

/-! ## Tables that mirror rows -/

theorem find?_upsert {key : α → κ} {merge : α → α → α} {row : α} (hkey : ∀ old, key (merge old row) = key row)
    (rows : List α) (k : κ) : (upsert key merge row rows).find? (fun r => key r = k) =
      if k = key row then some (((rows.find? fun r => key r = key row).map (merge · row)).getD row)
      else rows.find? fun r => key r = k := by
  induction rows with
  | nil =>
    by_cases h : k = key row
    · simp [upsert, h]
    · simp [upsert, h, Ne.symm h]
  | cons a rows ih =>
    unfold upsert
    by_cases ha : key a = key row
    · rw [if_pos ha]
      by_cases h : k = key row
      · simp [h, ha, hkey]
      · have hne : key row ≠ k := Ne.symm h
        simp [h, ha, hkey, hne]
    · rw [if_neg ha, List.find?_cons, List.find?_cons, ih]
      by_cases h : k = key row
      · simp [h, ha]
      · simp only [if_neg h, List.find?_cons]

/-- The table holds the rows under their keys and nothing else. -/
def Mirrors (key : α → κ) (t : Table κ α) (rows : List α) : Prop :=
  ∀ k, t.lookup k = rows.find? fun r => key r = k

/-- A table filled with rows whose keys differ mirrors them. -/
theorem mirrors_foldl_insert {key : α → κ} {rows : List α} (h : (rows.map key).Nodup) :
    Mirrors key (rows.foldl (fun t r => t.insert (key r) r) ∅) rows := by
  have hfill : ∀ (t : Table κ α) (k : κ), (rows.foldl (fun t r => t.insert (key r) r) t).lookup k =
      (rows.find? fun r => key r = k).or (t.lookup k) := by
    induction rows with
    | nil => exact fun t k => rfl
    | cons a rows ih =>
      intro t k
      rw [List.map_cons, List.nodup_cons] at h
      rw [List.foldl_cons, ih h.2, Table.lookup_insert, List.find?_cons]
      by_cases hk : key a = k
      · have hnone : (rows.find? fun r => key r = k) = none := by
          rw [List.find?_eq_none]
          intro r hr he
          rw [decide_eq_true_eq] at he
          exact h.1 (hk.trans he.symm ▸ List.mem_map_of_mem hr)
        simp [hk, hnone]
      · simp [hk, Ne.symm hk]
  intro k
  rw [hfill, AList.lookup_empty, Option.or_none]

namespace Mirrors

variable {key : α → κ} {t : Table κ α} {rows : List α} {row : α}

theorem key_eq (h : Mirrors key t rows) {k : κ} {r : α} (hr : t.lookup k = some r) : key r = k := by
  rw [h k] at hr
  simpa using List.find?_some hr

/-- A row that goes into the table and the rows, where a stored row may keep some of its columns. -/
theorem upsert_iff (h : Mirrors key t rows) (merge : α → α → α) (row : α)
    (hkey : ∀ old, key (merge old row) = key row) :
    Mirrors key (t.insert (key row) row) (upsert key merge row rows) ↔
      ∀ old, t.lookup (key row) = some old → merge old row = row := by
  have hrow : ((rows.find? fun r => key r = key row).map (merge · row)).getD row =
      ((t.lookup (key row)).map (merge · row)).getD row := by rw [h (key row)]
  constructor
  · intro hm old hold
    have hself := hm (key row)
    rw [Table.lookup_insert, if_pos rfl, find?_upsert hkey, if_pos rfl, hrow, hold] at hself
    exact (Option.some.inj hself).symm
  · intro hold k
    rw [Table.lookup_insert, find?_upsert hkey, hrow, h k]
    split
    · cases hl : t.lookup (key row) with
      | none => rfl
      | some old => exact congrArg some (hold old hl).symm
    · rfl

/-- A row that goes into the table only. -/
theorem insert_iff (h : Mirrors key t rows) {k : κ} {r : α} :
    Mirrors key (t.insert k r) rows ↔ t.lookup k = some r := by
  constructor
  · intro hm
    have hself := hm k
    rw [Table.lookup_insert, if_pos rfl] at hself
    rw [h k, hself]
  · intro hr k'
    rw [Table.lookup_insert]
    split
    · next he => rw [he, ← hr, h k]
    · exact h k'

/-- A row that goes into the rows only. -/
theorem row_iff (h : Mirrors key t rows) (merge : α → α → α) (row : α)
    (hkey : ∀ old, key (merge old row) = key row) :
    Mirrors key t (upsert key merge row rows) ↔
      t.lookup (key row) = some (((t.lookup (key row)).map (merge · row)).getD row) := by
  have hrow : ((rows.find? fun r => key r = key row).map (merge · row)).getD row =
      ((t.lookup (key row)).map (merge · row)).getD row := by rw [h (key row)]
  constructor
  · intro hm
    have hself := hm (key row)
    rwa [find?_upsert hkey, if_pos rfl, hrow] at hself
  · intro hself k
    rw [find?_upsert hkey, hrow]
    split
    · next he => rw [he]; exact hself
    · exact h k

end Mirrors

end Gooselake.Library
