import Gooselake.Tools.RepairedRecords

/-!
What startup repair leaves of the records. Every group of live records comes down to its earliest one when no
write lands in another record's row: when no loser is stored under the identity its group goes by, and no
other record under the name of a tombstone that is written.
-/

namespace Gooselake.Tools

open Gooselake.Core Data Library Library.Exec

set_option autoImplicit false

/-- What the table of the worktrees demands: its primary key and its unique index. -/
structure WorktreeTable (rows : List ManagedWorktreeRecord) : Prop where
  ids : (rows.map ManagedWorktreeRecord.id).Nodup
  identities : ∀ a ∈ rows, ∀ b ∈ rows, ToolStore.worktreeIdentity a = ToolStore.worktreeIdentity b → a.id = b.id

def liveGroup (rows : List ManagedWorktreeRecord) (k : Identity) : List ManagedWorktreeRecord :=
  (groupOf ((rows.filter fun r => !isRecordTombstoned r).map normalizeRecord) k).insertionSort
    fun a b => recordBefore a b

/-- What should be left of the live records of an identity: the earliest, with what it takes over from the others. -/
def survivor (rows : List ManagedWorktreeRecord) (k : Identity) : Option ManagedWorktreeRecord :=
  mergedGroup (liveGroup rows k)

def givenUp (rows : List ManagedWorktreeRecord) (r : ManagedWorktreeRecord) : Bool :=
  !isRecordTombstoned r && (!(normalizeRecord r).wellFormed ||
    (survivor rows (normalIdentity r)).all fun m => m.id ≠ r.id)

/-- The live records after repair are the survivors; what was given up or malformed is tombstoned. -/
structure Repaired (rows final : List ManagedWorktreeRecord) : Prop where
  survivors : ∀ k row, survivor rows k = some row ↔
    row ∈ final ∧ row.live ∧ ToolStore.worktreeIdentity row = k
  tombstones : ∀ r ∈ rows, (normalizeRecord r).wellFormed = false ∨ givenUp rows r = true →
    ∃ row ∈ final, row.id = r.id ∧ isRecordTombstoned row = true

/-- A repair of the worktree rows keeps the live ones. -/
def Settled (w : Worktrees) : Prop :=
  ∀ w₁ w₂ : Worktrees, w₁.store.worktrees = w.store.worktrees →
    (repairStartupState w₁.store).result w₁ = (.ok (), w₂) →
      ∀ row : ManagedWorktreeRecord, row.live → (row ∈ w₂.store.worktrees ↔ row ∈ w.store.worktrees)

/-- Every write of a live record lands in its row: no live record turns into a tombstone without its blanks, no
record that is given up is stored under the identity of its group, and no other record under the name of the
tombstone it gets. -/
structure WritesLand (rows : List ManagedWorktreeRecord) (now : ℤ) : Prop where
  live : ∀ r ∈ rows, r.live → (normalizeRecord r).wellFormed = true → (normalizeRecord r).live
  stored : ∀ r ∈ rows, givenUp rows r = true → (normalizeRecord r).wellFormed = true →
    ToolStore.worktreeIdentity r ≠ normalIdentity r
  named : ∀ done t rest, recordWrites rows now = done ++ t :: rest →
    (∃ r ∈ rows, r.id = t.id ∧ givenUp rows r = true) → ∀ row ∈ done.foldl upsertRow rows,
      ToolStore.worktreeIdentity row = ToolStore.worktreeIdentity t → row.id = t.id

/-- The condition. Besides, a record that is named after its id has an id without blanks around it. -/
structure Repairable (rows : List ManagedWorktreeRecord) (now : ℤ) : Prop extends WritesLand rows now where
  ids : ∀ r ∈ rows, r.live → givenUp rows r = false → trim r.worktreeName = "" → trim r.id = r.id ∨ trim r.id = ""

/-! ## Identities of tombstones -/

def deadIdentity (k : Identity) : Bool :=
  startsWith tombstone k.1 || startsWith tombstone k.2.1 || startsWith tombstone k.2.2

theorem isRecordTombstoned_eq (r : ManagedWorktreeRecord) :
    isRecordTombstoned r = deadIdentity (ToolStore.worktreeIdentity r) := rfl

theorem wellFormed_of_identity {r r' : ManagedWorktreeRecord}
    (h : ToolStore.worktreeIdentity r = ToolStore.worktreeIdentity r') : r.wellFormed = r'.wellFormed := by
  simp only [ToolStore.worktreeIdentity, Prod.mk.injEq] at h
  unfold ManagedWorktreeRecord.wellFormed
  rw [h.1, h.2.1, h.2.2]

theorem live_of_normalizeRecord {r : ManagedWorktreeRecord} (h : (normalizeRecord r).live) : r.live := by
  by_contra hdead
  have hdead : isRecordTombstoned r = true := by simpa [ManagedWorktreeRecord.live] using hdead
  have h' := isRecordTombstoned_normalizeRecord hdead
  rw [ManagedWorktreeRecord.live, h'] at h
  cases h

/-! ## Groups of live records -/

section

variable {rows : List ManagedWorktreeRecord} {k : Identity}

theorem mem_liveGroup {x : ManagedWorktreeRecord} : x ∈ liveGroup rows k ↔
    ∃ r ∈ rows, r.live ∧ (normalizeRecord r).wellFormed = true ∧ normalIdentity r = k ∧ normalizeRecord r = x := by
  rw [liveGroup, (List.perm_insertionSort _ _).mem_iff, mem_groupOf, List.mem_map]
  constructor
  · rintro ⟨⟨r, hr, rfl⟩, hwell, hidentity⟩
    obtain ⟨hr, hlive⟩ := List.mem_filter.mp hr
    exact ⟨r, hr, by simpa [ManagedWorktreeRecord.live] using hlive, hwell, hidentity, rfl⟩
  · rintro ⟨r, hr, hlive, hwell, hidentity, rfl⟩
    exact ⟨⟨r, List.mem_filter.mpr ⟨hr, by simpa [ManagedWorktreeRecord.live] using hlive⟩, rfl⟩, hwell, hidentity⟩

theorem nodup_liveGroup (hids : (rows.map ManagedWorktreeRecord.id).Nodup) (k : Identity) :
    ((liveGroup rows k).map ManagedWorktreeRecord.id).Nodup := by
  have hsub : List.Sublist ((groupOf ((rows.filter fun r => !isRecordTombstoned r).map normalizeRecord) k).map
      ManagedWorktreeRecord.id) (rows.map ManagedWorktreeRecord.id) := by
    refine (List.filter_sublist.map _).trans ?_
    rw [List.map_map]
    exact List.filter_sublist.map _
  exact (((List.perm_insertionSort _ _).map _).nodup_iff).mpr (hids.sublist hsub)

theorem pairwise_recordBefore (l : List ManagedWorktreeRecord) :
    (l.insertionSort fun a b => recordBefore a b).Pairwise fun a b => recordBefore a b = true := by
  have : Std.Total fun a b : ManagedWorktreeRecord => recordBefore a b = true := ⟨recordBefore_total⟩
  have : IsTrans ManagedWorktreeRecord fun a b => recordBefore a b = true := ⟨fun _ _ _ => recordBefore_trans⟩
  exact List.pairwise_insertionSort _ _

theorem liveGroup_eq (hids : (rows.map ManagedWorktreeRecord.id).Nodup) (hk : deadIdentity k = false) :
    liveGroup rows k = groupOf (normalizedRecords rows) k := by
  have hmem : ∀ x, x ∈ liveGroup rows k ↔ x ∈ groupOf (normalizedRecords rows) k := by
    intro x
    rw [mem_liveGroup, mem_groupOf, mem_normalizedRecords hids]
    constructor
    · rintro ⟨r, hr, hlive, hwell, hidentity, rfl⟩
      exact ⟨⟨r, hr, rfl⟩, hwell, hidentity⟩
    · rintro ⟨⟨r, hr, rfl⟩, hwell, hidentity⟩
      refine ⟨r, hr, live_of_normalizeRecord ?_, hwell, hidentity, rfl⟩
      rw [ManagedWorktreeRecord.live, isRecordTombstoned_eq, hidentity, hk]
  have hnodup : (groupOf (normalizedRecords rows) k).map ManagedWorktreeRecord.id |>.Nodup :=
    (nodup_normalizedRecords hids).sublist (List.filter_sublist.map _)
  have hperm : (liveGroup rows k).Perm (groupOf (normalizedRecords rows) k) :=
    (List.perm_ext_iff_of_nodup (List.Nodup.of_map _ (nodup_liveGroup hids k)) (List.Nodup.of_map _ hnodup)).mpr hmem
  refine List.Perm.eq_of_pairwise (fun a b ha hb hab hba => ?_) (pairwise_recordBefore _)
    ((pairwise_normalizedRecords rows).filter _) hperm
  exact List.inj_on_of_nodup_map hnodup ((hmem a).mp ha) hb (recordBefore_antisymm hab hba)

theorem survivor_first {m : ManagedWorktreeRecord} (h : survivor rows k = some m) :
    ∃ r ∈ rows, r.live ∧ (normalizeRecord r).wellFormed = true ∧
      normalIdentity r = k ∧ m.id = r.id ∧ givenUp rows r = false ∧ ToolStore.worktreeIdentity m = k := by
  obtain ⟨first, rest, hgroup, hid, hidentity⟩ := mergedGroup_first h
  have hmem : first ∈ liveGroup rows k := by rw [hgroup]; exact List.mem_cons_self
  obtain ⟨r, hr, hlive, hwell, hk, rfl⟩ := mem_liveGroup.mp hmem
  refine ⟨r, hr, hlive, hwell, hk, hid, ?_, hidentity.trans hk⟩
  rw [← hk] at h
  simp only [givenUp, hwell, h, Option.all_some, Bool.not_true, Bool.false_or, Bool.and_eq_false_iff]
  exact .inr (by simpa using hid)

theorem exists_survivor {r : ManagedWorktreeRecord} (hr : r ∈ rows) (hlive : r.live)
    (hwell : (normalizeRecord r).wellFormed = true) : ∃ m, survivor rows (normalIdentity r) = some m := by
  have hmem : normalizeRecord r ∈ liveGroup rows (normalIdentity r) := mem_liveGroup.mpr ⟨r, hr, hlive, hwell, rfl, rfl⟩
  unfold survivor
  cases hgroup : liveGroup rows (normalIdentity r) with
  | nil => rw [hgroup] at hmem; cases hmem
  | cons first rest => exact ⟨_, rfl⟩

theorem survivor_of_kept {r : ManagedWorktreeRecord} (hr : r ∈ rows) (hlive : r.live) (hkept : givenUp rows r = false) :
    (normalizeRecord r).wellFormed = true ∧ ∃ m, survivor rows (normalIdentity r) = some m ∧ m.id = r.id := by
  have hlive' : isRecordTombstoned r = false := hlive
  simp only [givenUp, hlive', Bool.not_false, Bool.true_and, Bool.or_eq_false_iff, Bool.not_eq_false'] at hkept
  obtain ⟨m, hm⟩ := exists_survivor hr hlive hkept.1
  have hid := hkept.2
  rw [hm] at hid
  exact ⟨hkept.1, m, hm, by simpa using hid⟩

theorem live_of_givenUp {r : ManagedWorktreeRecord} (h : givenUp rows r = true) : r.live := by
  simp only [givenUp, Bool.and_eq_true, Bool.not_eq_true'] at h
  exact h.1

end

/-! ## The writes -/

section

variable {rows : List ManagedWorktreeRecord} {now : ℤ}

def Loses (rows : List ManagedWorktreeRecord) (r : ManagedWorktreeRecord) : Prop :=
  (normalizeRecord r).wellFormed = false ∨ ∃ k, normalizeRecord r ∈ (groupOf (normalizedRecords rows) k).tail

def lostIds (rows : List ManagedWorktreeRecord) : List String :=
  ((mergedRecords rows).loserToWinner.keys.insertionSort fun a b => textBefore a b) ++
    (mergedRecords rows).malformedIds.insertionSort fun a b => textBefore a b

theorem recordWrites_eq (rows : List ManagedWorktreeRecord) (now : ℤ) :
    recordWrites rows now = (mergedRecords rows).mergedWinners.sortedValues textBefore ++
      ((lostIds rows).filterMap (normalizedRecordsById rows).lookup).map fun record => tombstoneRecord record now := rfl

theorem mem_lostIds (hids : (rows.map ManagedWorktreeRecord.id).Nodup) {id : String} :
    id ∈ lostIds rows ↔ ∃ r ∈ rows, r.id = id ∧ Loses rows r := by
  have hmerged := recordsMerged hids
  rw [lostIds, List.mem_append, (List.perm_insertionSort _ _).mem_iff, (List.perm_insertionSort _ _).mem_iff,
    hmerged.malformed]
  constructor
  · rintro (hid | hid)
    · obtain ⟨k, x, hx, hxid⟩ := (hmerged.loser id).mp (AList.mem_keys.mp hid)
      obtain ⟨r, hr, rfl⟩ := (mem_normalizedRecords hids).mp (mem_groupOf.mp (List.mem_of_mem_tail hx)).1
      exact ⟨r, hr, hxid, .inr ⟨k, hx⟩⟩
    · obtain ⟨x, hx, hxid⟩ := List.mem_map.mp hid
      obtain ⟨hx, hwell⟩ := List.mem_filter.mp hx
      obtain ⟨r, hr, rfl⟩ := (mem_normalizedRecords hids).mp hx
      exact ⟨r, hr, hxid, .inl (by simpa using hwell)⟩
  · rintro ⟨r, hr, rfl, hwell | ⟨k, htail⟩⟩
    · refine .inr (List.mem_map.mpr ⟨normalizeRecord r, List.mem_filter.mpr ⟨?_, by simp [hwell]⟩, rfl⟩)
      exact (mem_normalizedRecords hids).mpr ⟨r, hr, rfl⟩
    · exact .inl (AList.mem_keys.mpr ((hmerged.loser r.id).mpr ⟨k, _, htail, rfl⟩))

theorem mem_recordWrites (hids : (rows.map ManagedWorktreeRecord.id).Nodup) {t : ManagedWorktreeRecord} :
    t ∈ recordWrites rows now ↔ (∃ k, mergedGroup (groupOf (normalizedRecords rows) k) = some t) ∨
      ∃ r ∈ rows, Loses rows r ∧ t = tombstoneRecord (normalizeRecord r) now := by
  have hmerged := recordsMerged hids
  rw [recordWrites_eq, List.mem_append, Table.mem_sortedValues, Table.mem_values]
  refine or_congr ⟨?_, ?_⟩ ⟨fun ht => ?_, ?_⟩
  · rintro ⟨id, hl⟩
    obtain ⟨k, hk, -⟩ := (hmerged.merged id t).mp hl
    exact ⟨k, hk⟩
  · rintro ⟨k, hk⟩
    exact ⟨t.id, (hmerged.merged t.id t).mpr ⟨k, hk, rfl⟩⟩
  · obtain ⟨x, hx, rfl⟩ := List.mem_map.mp ht
    obtain ⟨id, hid, hl⟩ := List.mem_filterMap.mp hx
    obtain ⟨r, hr, rfl, hloses⟩ := (mem_lostIds hids).mp hid
    rw [lookup_normalizedRecordsById hids hr] at hl
    exact ⟨r, hr, hloses, by rw [Option.some.inj hl]⟩
  · rintro ⟨r, hr, hloses, rfl⟩
    refine List.mem_map_of_mem (List.mem_filterMap.mpr ⟨r.id, ?_, lookup_normalizedRecordsById hids hr⟩)
    exact (mem_lostIds hids).mpr ⟨r, hr, rfl, hloses⟩

theorem ids_lost (hids : (rows.map ManagedWorktreeRecord.id).Nodup) :
    ((lostIds rows).filterMap (normalizedRecordsById rows).lookup).map ManagedWorktreeRecord.id = lostIds rows := by
  have hall : ∀ ids : List String, (∀ id ∈ ids, ∃ r ∈ rows, r.id = id) →
      (ids.filterMap (normalizedRecordsById rows).lookup).map ManagedWorktreeRecord.id = ids := by
    intro ids hfrom
    induction ids with
    | nil => rfl
    | cons id ids ih =>
      obtain ⟨r, hr, rfl⟩ := hfrom id List.mem_cons_self
      simp only [List.filterMap_cons, lookup_normalizedRecordsById hids hr, List.map_cons]
      rw [ih fun id hid => hfrom id (List.mem_cons_of_mem _ hid)]
      rfl
  refine hall _ fun id hid => ?_
  obtain ⟨r, hr, hrid, -⟩ := (mem_lostIds hids).mp hid
  exact ⟨r, hr, hrid⟩

theorem nodup_lostIds (hids : (rows.map ManagedWorktreeRecord.id).Nodup) : (lostIds rows).Nodup := by
  have hmerged := recordsMerged hids
  have hnodup := nodup_normalizedRecords hids
  rw [lostIds, hmerged.malformed]
  refine List.nodup_append.mpr ⟨?_, ?_, fun id hid id' hid' he => ?_⟩
  · exact ((List.perm_insertionSort _ _).nodup_iff).mpr (mergedRecords rows).loserToWinner.keys_nodup
  · exact ((List.perm_insertionSort _ _).nodup_iff).mpr (hnodup.sublist (List.filter_sublist.map _))
  · -- a loser is well formed
    rw [(List.perm_insertionSort _ _).mem_iff] at hid hid'
    obtain ⟨k, x, hx, hxid⟩ := (hmerged.loser id).mp (AList.mem_keys.mp hid)
    obtain ⟨y, hy, hyid⟩ := List.mem_map.mp hid'
    obtain ⟨hy, hwell⟩ := List.mem_filter.mp hy
    obtain ⟨hx, hwell', -⟩ := mem_groupOf.mp (List.mem_of_mem_tail hx)
    rw [List.inj_on_of_nodup_map hnodup hx hy (hxid.trans (he.trans hyid.symm))] at hwell'
    rw [hwell'] at hwell
    cases hwell

theorem nodup_recordWrites (hids : (rows.map ManagedWorktreeRecord.id).Nodup) :
    ((recordWrites rows now).map ManagedWorktreeRecord.id).Nodup := by
  have hmerged := recordsMerged hids
  have hnodup := nodup_normalizedRecords hids
  have hcomp : (((lostIds rows).filterMap (normalizedRecordsById rows).lookup).map
      (ManagedWorktreeRecord.id ∘ fun record => tombstoneRecord record now)) = lostIds rows := ids_lost hids
  rw [recordWrites_eq, List.map_append, List.map_map, hcomp]
  refine List.nodup_append.mpr ⟨Table.nodup_sortedValues (fun id w hl => ?_) _, nodup_lostIds hids,
    fun id hid id' hid' he => ?_⟩
  · obtain ⟨k, -, hid⟩ := (hmerged.merged id w).mp hl
    exact hid
  · -- a winner is the first of its group
    obtain ⟨w, hw, hwid⟩ := List.mem_map.mp hid
    obtain ⟨wid, hl⟩ := Table.mem_values.mp (Table.mem_sortedValues.mp hw)
    obtain ⟨k, hk, -⟩ := (hmerged.merged wid w).mp hl
    obtain ⟨first, rest, hgroup, hfirst, -⟩ := mergedGroup_first hk
    have hmem : first ∈ groupOf (normalizedRecords rows) k := by rw [hgroup]; exact List.mem_cons_self
    obtain ⟨hin, hwell, hidentity⟩ := mem_groupOf.mp hmem
    obtain ⟨r, hr, hrid, hloses⟩ := (mem_lostIds hids).mp hid'
    have hrin : normalizeRecord r ∈ normalizedRecords rows := (mem_normalizedRecords hids).mpr ⟨r, hr, rfl⟩
    obtain rfl : first = normalizeRecord r :=
      List.inj_on_of_nodup_map hnodup hin hrin (hfirst.symm.trans (hwid.trans (he.trans hrid.symm)))
    rcases hloses with hmal | ⟨k', htail⟩
    · rw [hwell] at hmal
      cases hmal
    · obtain ⟨-, -, hk'⟩ := mem_groupOf.mp (List.mem_of_mem_tail htail)
      obtain rfl : k = k' := hidentity.symm.trans hk'
      rw [hgroup] at htail
      have hgroupIds : ((normalizeRecord r :: rest).map ManagedWorktreeRecord.id).Nodup := by
        rw [← hgroup]
        exact hnodup.sublist (List.filter_sublist.map _)
      exact (List.nodup_cons.mp hgroupIds).1 (List.mem_map_of_mem htail)

/-! ## Where a write lands -/

theorem targetId_cases (w : ManagedWorktreeRecord) (rows : List ManagedWorktreeRecord) :
    (∃ e ∈ rows, ToolStore.worktreeIdentity e = ToolStore.worktreeIdentity w ∧ targetId w rows = e.id) ∨
      ((∀ e ∈ rows, ToolStore.worktreeIdentity e ≠ ToolStore.worktreeIdentity w) ∧ targetId w rows = w.id) := by
  unfold targetId
  cases hfound : rows.find? fun row => ToolStore.worktreeIdentity row = ToolStore.worktreeIdentity w with
  | none =>
    refine .inr ⟨fun e he => ?_, rfl⟩
    simpa using List.find?_eq_none.mp hfound e he
  | some e =>
    have hidentity := List.find?_some hfound
    exact .inl ⟨e, List.mem_of_find?_eq_some hfound, of_decide_eq_true hidentity, rfl⟩

theorem mem_upsertRow (hids : (rows.map ManagedWorktreeRecord.id).Nodup) {w x : ManagedWorktreeRecord} :
    x ∈ upsertRow rows w ↔ x = { w with id := targetId w rows } ∨ (x ∈ rows ∧ x.id ≠ targetId w rows) := by
  constructor
  · exact fun h => mem_upsert_new hids h
  · rintro (rfl | ⟨hx, hne⟩)
    · exact mem_upsert_self _ _
    · exact mem_upsert_of_ne _ hx hne

theorem WorktreeTable.upsertRow (h : WorktreeTable rows) (w : ManagedWorktreeRecord) :
    WorktreeTable (upsertRow rows w) := by
  refine ⟨nodup_upsert (fun _ => rfl) h.ids, ?_⟩
  -- another row of the written identity would be the target
  have hother : ∀ x ∈ rows, x.id ≠ targetId w rows → ToolStore.worktreeIdentity x ≠ ToolStore.worktreeIdentity w := by
    intro x hx hne he
    rcases targetId_cases w rows with ⟨e, hmem, hidentity, ht⟩ | ⟨hnone, -⟩
    · exact hne ((h.identities x hx e hmem (he.trans hidentity.symm)).trans ht.symm)
    · exact hnone x hx he
  intro a ha b hb he
  rcases (mem_upsertRow h.ids).mp ha with rfl | ⟨ha, hane⟩
  · rcases (mem_upsertRow h.ids).mp hb with rfl | ⟨hb, hbne⟩
    · rfl
    · exact absurd he.symm (hother b hb hbne)
  · rcases (mem_upsertRow h.ids).mp hb with rfl | ⟨hb, hbne⟩
    · exact absurd he (hother a ha hane)
    · exact h.identities a ha b hb he

theorem WorktreeTable.foldl (h : WorktreeTable rows) (writes : List ManagedWorktreeRecord) :
    WorktreeTable (writes.foldl Tools.upsertRow rows) := by
  induction writes generalizing rows with
  | nil => exact h
  | cons w writes ih => exact ih (h.upsertRow w)

theorem WorktreeTable.untouched (h : WorktreeTable rows) {r : ManagedWorktreeRecord} (hr : r ∈ rows)
    {writes : List ManagedWorktreeRecord} (hw : ∀ w ∈ writes, w.id ≠ r.id ∧
      ToolStore.worktreeIdentity w ≠ ToolStore.worktreeIdentity r) : r ∈ writes.foldl Tools.upsertRow rows := by
  induction writes generalizing rows with
  | nil => exact hr
  | cons w writes ih =>
    obtain ⟨hid, hidentity⟩ := hw w List.mem_cons_self
    refine ih (h.upsertRow w) ((mem_upsertRow h.ids).mpr (.inr ⟨hr, fun he => ?_⟩)) fun w' hw' =>
      hw w' (List.mem_cons_of_mem _ hw')
    rcases targetId_cases w rows with ⟨e, hmem, hewe, ht⟩ | ⟨-, ht⟩
    · have hsame : e = r := List.inj_on_of_nodup_map h.ids hmem hr (ht.symm.trans he.symm)
      exact hidentity (hsame ▸ hewe.symm)
    · exact hid (ht.symm.trans he.symm)

end

/-! ## Stages -/

section

variable {rows : List ManagedWorktreeRecord} {now : ℤ}

/-- What a row may hold that belongs to the record `r`: tombstones stay, what is given up becomes one, and the
earliest of a group becomes the survivor. -/
inductive Follows (rows : List ManagedWorktreeRecord) (r row : ManagedWorktreeRecord) : Prop where
  | dead (old : isRecordTombstoned r = true) (new : isRecordTombstoned row = true)
  | given (up : givenUp rows r = true) (new : row = r ∨ isRecordTombstoned row = true)
  | kept (live : r.live) (kept : givenUp rows r = false)
      (new : row = r ∨ survivor rows (normalIdentity r) = some row)

theorem write_cases (hids : (rows.map ManagedWorktreeRecord.id).Nodup)
    (hlive : ∀ r ∈ rows, r.live → (normalizeRecord r).wellFormed = true → (normalizeRecord r).live)
    {t : ManagedWorktreeRecord} (ht : t ∈ recordWrites rows now) :
    (∃ k, deadIdentity k = false ∧ survivor rows k = some t) ∨
      (isRecordTombstoned t = true ∧ ∃ r ∈ rows, r.id = t.id ∧
      (isRecordTombstoned r = true ∨ givenUp rows r = true)) := by
  rcases (mem_recordWrites hids).mp ht with ⟨k, hk⟩ | ⟨r, hr, hloses, rfl⟩
  · cases hdead : deadIdentity k with
    | false => exact .inl ⟨k, hdead, by rw [survivor, liveGroup_eq hids hdead]; exact hk⟩
    | true =>
      refine .inr ⟨by rw [isRecordTombstoned_eq, mergedGroup_identity hk, hdead], ?_⟩
      obtain ⟨first, rest, hgroup, hid, -⟩ := mergedGroup_first hk
      have hmem : first ∈ groupOf (normalizedRecords rows) k := by rw [hgroup]; exact List.mem_cons_self
      obtain ⟨hin, hwell, hidentity⟩ := mem_groupOf.mp hmem
      obtain ⟨r, hr, rfl⟩ := (mem_normalizedRecords hids).mp hin
      refine ⟨r, hr, hid.symm, .inl ?_⟩
      by_contra hnot
      have hl := hlive r hr (by simpa [ManagedWorktreeRecord.live] using hnot) hwell
      rw [ManagedWorktreeRecord.live, isRecordTombstoned_eq, hidentity, hdead] at hl
      cases hl
  · refine .inr ⟨isRecordTombstoned_tombstoneRecord _ _, r, hr, rfl, ?_⟩
    cases hdead : isRecordTombstoned r with
    | true => exact .inl rfl
    | false =>
      refine .inr ?_
      rcases hloses with hmal | ⟨k, htail⟩
      · simp [givenUp, hdead, hmal]
      · -- a loser is not the first of its group
        obtain ⟨hin, hwell, hidentity⟩ := mem_groupOf.mp (List.mem_of_mem_tail htail)
        obtain rfl : normalIdentity r = k := hidentity
        have hk : deadIdentity (normalIdentity r) = false := hlive r hr hdead hwell
        rw [← liveGroup_eq hids hk] at htail
        have hnodup := nodup_liveGroup hids (normalIdentity r)
        simp only [givenUp, hdead, hwell, survivor, Bool.not_false, Bool.true_and, Bool.not_true, Bool.false_or]
        cases hgroup : liveGroup rows (normalIdentity r) with
        | nil => rw [hgroup] at htail; cases htail
        | cons first rest =>
          rw [hgroup] at htail hnodup
          have hid : (rest.foldl mergeLoser first).id = first.id := (foldl_mergeLoser rest first).1
          simp only [mergedGroup, Option.all_some, hid, decide_eq_true_eq]
          intro he
          have hin : (normalizeRecord r).id ∈ rest.map ManagedWorktreeRecord.id := List.mem_map_of_mem htail
          rw [normalizeRecord_id, ← he] at hin
          exact (List.nodup_cons.mp hnodup).1 hin

theorem tombstone_written (hids : (rows.map ManagedWorktreeRecord.id).Nodup)
    (hlive : ∀ r ∈ rows, r.live → (normalizeRecord r).wellFormed = true → (normalizeRecord r).live)
    {r : ManagedWorktreeRecord} (hr : r ∈ rows) (hup : givenUp rows r = true) :
    tombstoneRecord (normalizeRecord r) now ∈ recordWrites rows now := by
  refine (mem_recordWrites hids).mpr (.inr ⟨r, hr, ?_, rfl⟩)
  have hl := live_of_givenUp hup
  cases hwell : (normalizeRecord r).wellFormed with
  | false => exact .inl hwell
  | true =>
    refine .inr ⟨normalIdentity r, ?_⟩
    have hk : deadIdentity (normalIdentity r) = false := hlive r hr hl hwell
    have hmem : normalizeRecord r ∈ liveGroup rows (normalIdentity r) := mem_liveGroup.mpr ⟨r, hr, hl, hwell, rfl, rfl⟩
    obtain ⟨m, hm⟩ := exists_survivor hr hl hwell
    have hl' : isRecordTombstoned r = false := hl
    simp only [givenUp, hl', hwell, hm, Bool.not_false, Bool.true_and, Bool.not_true, Bool.false_or, Option.all_some,
      decide_eq_true_eq] at hup
    rw [← liveGroup_eq hids hk]
    obtain ⟨first, rest, hgroup, hid, -⟩ := mergedGroup_first hm
    rw [hgroup] at hmem ⊢
    rcases List.mem_cons.mp hmem with he | hmem
    · exact absurd (hid.trans (congrArg ManagedWorktreeRecord.id he.symm)) hup
    · exact hmem

/-- The rows after the writes `done`. -/
structure Stage (rows : List ManagedWorktreeRecord) (now : ℤ) (done current : List ManagedWorktreeRecord) : Prop where
  table : WorktreeTable current
  follows : ∀ row ∈ current, ∃ r ∈ rows, r.id = row.id ∧ Follows rows r row
  present : ∀ r ∈ rows, ∃ row ∈ current, row.id = r.id
  survivors : ∀ k m, deadIdentity k = false → survivor rows k = some m → m ∈ done → m ∈ current
  tombstones : ∀ r ∈ rows, givenUp rows r = true → tombstoneRecord (normalizeRecord r) now ∈ done →
    ∃ row ∈ current, row.id = r.id ∧ isRecordTombstoned row = true

theorem stage_start (h : WorktreeTable rows) : Stage rows now [] rows := by
  refine ⟨h, fun row hrow => ⟨row, hrow, rfl, ?_⟩, fun r hr => ⟨r, hr, rfl⟩, fun _ _ _ _ hd => (by cases hd),
    fun _ _ _ hd => by cases hd⟩
  cases hdead : isRecordTombstoned row with
  | true => exact .dead hdead hdead
  | false =>
    cases hup : givenUp rows row with
    | true => exact .given hup (.inl rfl)
    | false => exact .kept hdead hup (.inl rfl)

theorem Stage.target_survivor {done current : List ManagedWorktreeRecord} (h : Stage rows now done current)
    (hstored : ∀ r ∈ rows, givenUp rows r = true → (normalizeRecord r).wellFormed = true →
      ToolStore.worktreeIdentity r ≠ normalIdentity r)
    {k : Identity} (hk : deadIdentity k = false) {m : ManagedWorktreeRecord} (hm : survivor rows k = some m) :
    targetId m current = m.id := by
  obtain ⟨first, hfirst, hlive, hwell, hfk, hid, hkept, hidentity⟩ := survivor_first hm
  have hnormal : NormalIdentity k := hfk ▸ normal_normalIdentity first
  rcases targetId_cases m current with ⟨e, he, hem, ht⟩ | ⟨-, ht⟩
  · rw [ht]
    have hek : ToolStore.worktreeIdentity e = k := hem.trans hidentity
    have helive : isRecordTombstoned e = false := by rw [isRecordTombstoned_eq, hek, hk]
    obtain ⟨r, hr, hrid, hfollows⟩ := h.follows e he
    -- a raw record stored under the identity belongs to the group
    have hraw : e = r → normalIdentity r = ToolStore.worktreeIdentity r ∧ normalIdentity r = k := by
      rintro rfl
      have hn := normalIdentity_of_normal (hek ▸ hnormal)
      exact ⟨hn, hn.trans hek⟩
    cases hfollows with
    | dead old new =>
      rw [new] at helive
      cases helive
    | given up new =>
      rcases new with new | new
      · obtain ⟨hn, hnk⟩ := hraw new
        have hrwell : (normalizeRecord r).wellFormed = true := by
          have hsame : ToolStore.worktreeIdentity (normalizeRecord r) =
              ToolStore.worktreeIdentity (normalizeRecord first) :=
            hnk.trans hfk.symm
          rw [wellFormed_of_identity hsame]
          exact hwell
        exact absurd hn.symm (hstored r hr up hrwell)
      · rw [new] at helive
        cases helive
    | kept live kept new =>
      obtain ⟨-, m', hm', hmid⟩ := survivor_of_kept hr live kept
      rcases new with new | new
      · rw [(hraw new).2, hm] at hm'
        rw [← hrid, ← hmid, Option.some.inj hm']
      · have hke : normalIdentity r = k := by
          rw [← (survivor_first new).choose_spec.2.2.2.2.2.2, hek]
        rw [hke, hm] at new
        rw [Option.some.inj new]
  · exact ht

theorem Stage.survivor {done current : List ManagedWorktreeRecord} (h : Stage rows now done current)
    (hids : (rows.map ManagedWorktreeRecord.id).Nodup)
    (hstored : ∀ r ∈ rows, givenUp rows r = true → (normalizeRecord r).wellFormed = true →
      ToolStore.worktreeIdentity r ≠ normalIdentity r)
    {k : Identity} (hk : deadIdentity k = false) {m : ManagedWorktreeRecord} (hm : survivor rows k = some m) :
    Stage rows now (done ++ [m]) (upsertRow current m) := by
  have htarget := h.target_survivor hstored hk hm
  obtain ⟨first, hfirst, hlive, hwell, hfk, hid, hkept, hidentity⟩ := survivor_first hm
  have hmem : ∀ {x}, x ∈ upsertRow current m ↔ x = m ∨ (x ∈ current ∧ x.id ≠ m.id) := by
    intro x
    rw [mem_upsertRow h.table.ids, htarget]
  refine ⟨h.table.upsertRow m, fun row hrow => ?_, fun r hr => ?_, fun k' m' hk' hm' hdone => ?_,
    fun r hr hup hdone => ?_⟩
  · rcases hmem.mp hrow with rfl | ⟨hrow, -⟩
    · exact ⟨first, hfirst, hid.symm, .kept hlive hkept (.inr (by rw [hfk]; exact hm))⟩
    · exact h.follows row hrow
  · obtain ⟨row, hrow, hrid⟩ := h.present r hr
    by_cases he : row.id = m.id
    · exact ⟨m, hmem.mpr (.inl rfl), he.symm.trans hrid⟩
    · exact ⟨row, hmem.mpr (.inr ⟨hrow, he⟩), hrid⟩
  · by_cases he : m'.id = m.id
    · -- two survivors of one id are one
      obtain ⟨first', hfirst', -, -, hfk', hid', -, -⟩ := survivor_first hm'
      have hsame : first' = first := List.inj_on_of_nodup_map hids hfirst' hfirst (hid'.symm.trans (he.trans hid))
      rw [← hfk', hsame, hfk, hm] at hm'
      exact hmem.mpr (.inl (Option.some.inj hm').symm)
    · rcases List.mem_append.mp hdone with hdone | hdone
      · exact hmem.mpr (.inr ⟨h.survivors k' m' hk' hm' hdone, he⟩)
      · exact absurd (congrArg ManagedWorktreeRecord.id (List.mem_singleton.mp hdone)) he
  · -- what is given up is no survivor
    have hne : r.id ≠ m.id := fun he => by
      rw [List.inj_on_of_nodup_map hids hr hfirst (he.trans hid), hkept] at hup
      cases hup
    rcases List.mem_append.mp hdone with hdone | hdone
    · obtain ⟨row, hrow, hrid, hdead⟩ := h.tombstones r hr hup hdone
      exact ⟨row, hmem.mpr (.inr ⟨hrow, fun he => hne (hrid.symm.trans he)⟩), hrid, hdead⟩
    · exact absurd (congrArg ManagedWorktreeRecord.id (List.mem_singleton.mp hdone)) hne

theorem Stage.tombstone {done current : List ManagedWorktreeRecord} (h : Stage rows now done current)
    (hids : (rows.map ManagedWorktreeRecord.id).Nodup)
    (hlive : ∀ r ∈ rows, r.live → (normalizeRecord r).wellFormed = true → (normalizeRecord r).live)
    {t : ManagedWorktreeRecord} (hdead : isRecordTombstoned t = true)
    (howner : ∃ r ∈ rows, r.id = t.id ∧ (isRecordTombstoned r = true ∨ givenUp rows r = true))
    (hnamed : (∃ r ∈ rows, r.id = t.id ∧ givenUp rows r = true) → ∀ row ∈ current,
      ToolStore.worktreeIdentity row = ToolStore.worktreeIdentity t → row.id = t.id) :
    Stage rows now (done ++ [t]) (upsertRow current t) := by
  -- the row it lands in is that of a record which is no survivor
  have hlands : ∃ r ∈ rows, r.id = targetId t current ∧ (isRecordTombstoned r = true ∨ givenUp rows r = true) := by
    rcases targetId_cases t current with ⟨e, he, het, ht⟩ | ⟨-, ht⟩
    · obtain ⟨r, hr, hrid, hfollows⟩ := h.follows e he
      have hedead : isRecordTombstoned e = true := by rw [isRecordTombstoned_of_identity het, hdead]
      refine ⟨r, hr, hrid.trans ht.symm, ?_⟩
      cases hfollows with
      | dead old new => exact .inl old
      | given up new => exact .inr up
      | kept live kept new =>
        exfalso
        obtain ⟨hwell, m, hm, -⟩ := survivor_of_kept hr live kept
        rcases new with rfl | new
        · rw [ManagedWorktreeRecord.live, hedead] at live
          cases live
        · have hidentity : ToolStore.worktreeIdentity e = normalIdentity r :=
            (survivor_first new).choose_spec.2.2.2.2.2.2
          have hnlive := hlive r hr live hwell
          rw [ManagedWorktreeRecord.live, isRecordTombstoned_eq, identity_normalizeRecord, ← hidentity,
            ← isRecordTombstoned_eq, hedead] at hnlive
          cases hnlive
    · obtain ⟨r, hr, hrid, hr'⟩ := howner
      exact ⟨r, hr, hrid.trans ht.symm, hr'⟩
  obtain ⟨r₀, hr₀, hid₀, hkind₀⟩ := hlands
  have hmem : ∀ {x}, x ∈ upsertRow current t ↔ x = { t with id := targetId t current } ∨
      (x ∈ current ∧ x.id ≠ targetId t current) := mem_upsertRow h.table.ids
  have hnew : isRecordTombstoned { t with id := targetId t current } = true := hdead
  refine ⟨h.table.upsertRow t, fun row hrow => ?_, fun r hr => ?_, fun k m hk hm hdone => ?_, fun r hr hup hdone => ?_⟩
  · rcases hmem.mp hrow with rfl | ⟨hrow, -⟩
    · refine ⟨r₀, hr₀, hid₀, ?_⟩
      rcases hkind₀ with hold | hup
      · exact .dead hold hnew
      · exact .given hup (.inr hnew)
    · exact h.follows row hrow
  · obtain ⟨row, hrow, hrid⟩ := h.present r hr
    by_cases he : row.id = targetId t current
    · exact ⟨_, hmem.mpr (.inl rfl), he.symm.trans hrid⟩
    · exact ⟨row, hmem.mpr (.inr ⟨hrow, he⟩), hrid⟩
  · obtain ⟨first, hfirst, hflive, -, -, hid, hkept, hidentity⟩ := survivor_first hm
    have hmdone : m ∈ done := by
      rcases List.mem_append.mp hdone with hdone | hdone
      · exact hdone
      · rw [← hidentity, List.mem_singleton.mp hdone, ← isRecordTombstoned_eq, hdead] at hk
        cases hk
    refine hmem.mpr (.inr ⟨h.survivors k m hk hm hmdone, fun he => ?_⟩)
    have hsame : first = r₀ := List.inj_on_of_nodup_map hids hfirst hr₀ (hid.symm.trans (he.trans hid₀.symm))
    subst hsame
    rcases hkind₀ with hold | hup
    · rw [ManagedWorktreeRecord.live, hold] at hflive
      cases hflive
    · rw [hkept] at hup
      cases hup
  · rcases List.mem_append.mp hdone with hdone | hdone
    · obtain ⟨row, hrow, hrid, hrdead⟩ := h.tombstones r hr hup hdone
      by_cases he : row.id = targetId t current
      · exact ⟨_, hmem.mpr (.inl rfl), he.symm.trans hrid, hnew⟩
      · exact ⟨row, hmem.mpr (.inr ⟨hrow, he⟩), hrid, hrdead⟩
    · obtain rfl := List.mem_singleton.mp hdone
      have hid : (tombstoneRecord (normalizeRecord r) now).id = r.id := normalizeRecord_id r
      refine ⟨_, hmem.mpr (.inl rfl), ?_, hnew⟩
      dsimp only
      rcases targetId_cases (tombstoneRecord (normalizeRecord r) now) current with ⟨e, he, het, ht⟩ | ⟨-, ht⟩
      · rw [ht, hnamed ⟨r, hr, hid.symm, hup⟩ e he het, hid]
      · rw [ht, hid]

theorem stage_end (h : WorktreeTable rows) (hrep : WritesLand rows now) :
    Stage rows now (recordWrites rows now) ((recordWrites rows now).foldl upsertRow rows) := by
  have hrun : ∀ (rest done : List ManagedWorktreeRecord), recordWrites rows now = done ++ rest →
      Stage rows now done (done.foldl upsertRow rows) →
      Stage rows now (recordWrites rows now) ((recordWrites rows now).foldl upsertRow rows) := by
    intro rest
    induction rest with
    | nil =>
      intro done hsplit hstage
      rw [List.append_nil] at hsplit
      rwa [hsplit]
    | cons t rest ih =>
      intro done hsplit hstage
      refine ih (done ++ [t]) (by simp [hsplit]) ?_
      rw [List.foldl_append]
      have ht : t ∈ recordWrites rows now := by simp [hsplit]
      rcases write_cases h.ids hrep.live ht with ⟨k, hk, hm⟩ | ⟨hdead, howner⟩
      · exact hstage.survivor h.ids hrep.stored hk hm
      · exact hstage.tombstone h.ids hrep.live hdead howner (hrep.named done t rest hsplit)
  exact hrun _ [] rfl (stage_start h)

theorem repaired_of_writesLand (h : WorktreeTable rows) (hrep : WritesLand rows now) :
    Repaired rows ((recordWrites rows now).foldl upsertRow rows) := by
  have hstage := stage_end h hrep
  have hlivek : ∀ {k : Identity} {m : ManagedWorktreeRecord}, survivor rows k = some m → deadIdentity k = false := by
    intro k m hm
    obtain ⟨first, hfirst, hlive, hwell, hfk, -⟩ := survivor_first hm
    rw [← hfk]
    exact hrep.live first hfirst hlive hwell
  refine ⟨fun k row => ⟨fun hm => ?_, fun ⟨hrow, hlive, hidentity⟩ => ?_⟩, fun r hr hlost => ?_⟩
  · have hidentity := (survivor_first hm).choose_spec.2.2.2.2.2.2
    refine ⟨hstage.survivors k row (hlivek hm) hm ?_, ?_, hidentity⟩
    · refine (mem_recordWrites h.ids).mpr (.inl ⟨k, ?_⟩)
      rw [← liveGroup_eq h.ids (hlivek hm)]
      exact hm
    · rw [ManagedWorktreeRecord.live, isRecordTombstoned_eq, hidentity, hlivek hm]
  · obtain ⟨r, hr, hrid, hfollows⟩ := hstage.follows row hrow
    -- the row that is live at the end
    have hdead : ∀ row' ∈ (recordWrites rows now).foldl upsertRow rows, row'.id = row.id →
        isRecordTombstoned row' = true → False := by
      intro row' hrow' he hd
      rw [List.inj_on_of_nodup_map hstage.table.ids hrow' hrow he, hlive] at hd
      cases hd
    cases hfollows with
    | dead old new => exact (hdead row hrow rfl new).elim
    | given up new =>
      obtain ⟨row', hrow', he, hd⟩ := hstage.tombstones r hr up (tombstone_written h.ids hrep.live hr up)
      exact (hdead row' hrow' (he.trans hrid) hd).elim
    | kept live kept new =>
      obtain ⟨hwell, m, hm, hmid⟩ := survivor_of_kept hr live kept
      have hwritten : m ∈ recordWrites rows now := by
        refine (mem_recordWrites h.ids).mpr (.inl ⟨normalIdentity r, ?_⟩)
        rw [← liveGroup_eq h.ids (hlivek hm)]
        exact hm
      have hmin := hstage.survivors _ m (hlivek hm) hm hwritten
      have hsame : m = row := List.inj_on_of_nodup_map hstage.table.ids hmin hrow (hmid.trans hrid)
      have hmk := (survivor_first hm).choose_spec.2.2.2.2.2.2
      rw [hsame, hidentity] at hmk
      rw [hmk, ← hsame]
      exact hm
  · cases hdead : isRecordTombstoned r with
    | true =>
      obtain ⟨row, hrow, hrid⟩ := hstage.present r hr
      obtain ⟨r', hr', hrid', hfollows⟩ := hstage.follows row hrow
      obtain rfl : r' = r := List.inj_on_of_nodup_map h.ids hr' hr (hrid'.trans hrid)
      refine ⟨row, hrow, hrid, ?_⟩
      cases hfollows with
      | dead old new => exact new
      | given up new =>
        rw [live_of_givenUp up] at hdead
        cases hdead
      | kept live kept new =>
        rw [live] at hdead
        cases hdead
    | false =>
      have hup : givenUp rows r = true := by
        rcases hlost with hmal | hup
        · simp [givenUp, hdead, hmal]
        · exact hup
      exact hstage.tombstones r hr hup (tombstone_written h.ids hrep.live hr hup)

/-! ## The condition is needed -/

theorem stays (h : WorktreeTable rows)
    (hlive : ∀ r ∈ rows, r.live → (normalizeRecord r).wellFormed = true → (normalizeRecord r).live)
    {a : ManagedWorktreeRecord} (ha : a.live) (hraw : ToolStore.worktreeIdentity a ≠ normalIdentity a)
    {current : List ManagedWorktreeRecord} (htable : WorktreeTable current) (hcurrent : a ∈ current)
    {writes : List ManagedWorktreeRecord} (hwrites : ∀ t ∈ writes, t ∈ recordWrites rows now ∧ t.id ≠ a.id) :
    a ∈ writes.foldl upsertRow current := by
  refine htable.untouched hcurrent fun t ht => ⟨(hwrites t ht).2, fun he => ?_⟩
  rcases write_cases h.ids hlive (hwrites t ht).1 with ⟨k, hk, hm⟩ | ⟨hdead, -⟩
  · obtain ⟨first, -, -, -, hfk, -, -, hidentity⟩ := survivor_first hm
    refine hraw (normalIdentity_of_normal ?_).symm
    rw [← he, hidentity, ← hfk]
    exact normal_normalIdentity first
  · rw [ManagedWorktreeRecord.live, ← isRecordTombstoned_of_identity he, hdead] at ha
    cases ha

theorem live_of_repaired {final : List ManagedWorktreeRecord} (hrep : Repaired rows final) :
    ∀ r ∈ rows, r.live → (normalizeRecord r).wellFormed = true → (normalizeRecord r).live := by
  intro r hr hlive hwell
  obtain ⟨m, hm⟩ := exists_survivor hr hlive hwell
  obtain ⟨-, hmlive, hidentity⟩ := (hrep.survivors _ m).mp hm
  rw [ManagedWorktreeRecord.live, isRecordTombstoned_eq, hidentity] at hmlive
  exact hmlive

theorem normal_of_repaired {final : List ManagedWorktreeRecord} (hrep : Repaired rows final)
    {row : ManagedWorktreeRecord} (hrow : row ∈ final) (hlive : row.live) :
    NormalIdentity (ToolStore.worktreeIdentity row) := by
  have hm := (hrep.survivors _ row).mpr ⟨hrow, hlive, rfl⟩
  obtain ⟨first, -, -, -, hfk, -⟩ := survivor_first hm
  exact hfk ▸ normal_normalIdentity first

theorem ids_of_split (h : WorktreeTable rows) {done rest : List ManagedWorktreeRecord} {t : ManagedWorktreeRecord}
    (hsplit : recordWrites rows now = done ++ t :: rest) :
    (∀ x ∈ done, x ∈ recordWrites rows now ∧ x.id ≠ t.id) ∧ ∀ x ∈ rest, x ∈ recordWrites rows now ∧ x.id ≠ t.id := by
  have hnodup : ((recordWrites rows now).map ManagedWorktreeRecord.id).Nodup := nodup_recordWrites h.ids
  rw [hsplit, List.map_append, List.map_cons, List.nodup_append] at hnodup
  obtain ⟨-, hrest, hne⟩ := hnodup
  rw [List.nodup_cons] at hrest
  refine ⟨fun x hx => ⟨by simp [hsplit, hx], hne _ (List.mem_map_of_mem hx) _ List.mem_cons_self⟩, fun x hx => ?_⟩
  exact ⟨by simp [hsplit, hx], fun he => hrest.1 (he ▸ List.mem_map_of_mem hx)⟩

theorem stored_of_repaired (h : WorktreeTable rows)
    (hrep : Repaired rows ((recordWrites rows now).foldl upsertRow rows)) :
    ∀ b ∈ rows, givenUp rows b = true → (normalizeRecord b).wellFormed = true →
      ToolStore.worktreeIdentity b ≠ normalIdentity b := by
  intro b hb hup hwell hstored
  have hlive := live_of_repaired hrep
  have hblive := live_of_givenUp hup
  obtain ⟨m, hm⟩ := exists_survivor hb hblive hwell
  obtain ⟨a, ha, halive, hawell, hak, hid, hkept, hidentity⟩ := survivor_first hm
  have hab : a.id ≠ b.id := fun he => by
    rw [List.inj_on_of_nodup_map h.ids ha hb he, hup] at hkept
    cases hkept
  have hk : deadIdentity (normalIdentity b) = false := hlive b hb hblive hwell
  -- the earliest of the group is stored otherwise
  have hraw : ToolStore.worktreeIdentity a ≠ normalIdentity a := fun he =>
    hab (h.identities a ha b hb (he.trans (hak.trans hstored.symm)))
  have hmem : m ∈ (mergedRecords rows).mergedWinners.sortedValues textBefore := by
    rw [Table.mem_sortedValues, Table.mem_values]
    refine ⟨m.id, ((recordsMerged h.ids).merged m.id m).mpr ⟨normalIdentity b, ?_, rfl⟩⟩
    rw [← liveGroup_eq h.ids hk]
    exact hm
  obtain ⟨done, rest, hwinners⟩ := List.append_of_mem hmem
  have hsplit : ∃ rest', recordWrites rows now = done ++ m :: rest' := by
    unfold recordWrites
    rw [hwinners]
    exact ⟨_, by rw [List.append_assoc, List.cons_append]⟩
  obtain ⟨rest', hsplit⟩ := hsplit
  obtain ⟨hdone, hrest⟩ := ids_of_split h hsplit
  -- when the survivor is written, a loser's row has its identity
  have hbstays : b ∈ done.foldl upsertRow rows := by
    refine h.untouched hb fun t ht => ?_
    have htw : t ∈ (mergedRecords rows).mergedWinners.sortedValues textBefore := by simp [hwinners, ht]
    obtain ⟨id, hl⟩ := Table.mem_values.mp (Table.mem_sortedValues.mp htw)
    obtain ⟨k, hkm, -⟩ := ((recordsMerged h.ids).merged id t).mp hl
    have htk := mergedGroup_identity hkm
    have hne : k ≠ normalIdentity b := fun he => by
      rw [he, ← liveGroup_eq h.ids hk] at hkm
      exact (hdone t ht).2 (congrArg ManagedWorktreeRecord.id (Option.some.inj (hkm.symm.trans hm)))
    refine ⟨fun he => hne ?_, fun he => hne (htk.symm.trans (he.trans hstored))⟩
    obtain ⟨first, rest, hgroup, hfid, hfidentity⟩ := mergedGroup_first hkm
    have hfirst : first ∈ groupOf (normalizedRecords rows) k := by rw [hgroup]; exact List.mem_cons_self
    obtain ⟨r, hr, rfl⟩ := (mem_normalizedRecords h.ids).mp (mem_groupOf.mp hfirst).1
    have hrb : r = b := List.inj_on_of_nodup_map h.ids hr hb (hfid.symm.trans he)
    rw [← (mem_groupOf.mp hfirst).2.2, hrb, identity_normalizeRecord]
  have htable := h.foldl done
  have htarget : targetId m (done.foldl upsertRow rows) = b.id := by
    rcases targetId_cases m (done.foldl upsertRow rows) with ⟨e, he, hem, ht⟩ | ⟨hnone, -⟩
    · exact ht.trans (htable.identities e he b hbstays (hem.trans (hidentity.trans hstored.symm)))
    · exact absurd (hstored.trans hidentity.symm) (hnone b hbstays)
  -- so the earliest stays as it was
  have hafter : a ∈ upsertRow (done.foldl upsertRow rows) m := by
    refine (mem_upsertRow htable.ids).mpr (.inr ⟨?_, by rw [htarget]; exact hab⟩)
    exact stays h hlive halive hraw h ha fun t ht => ⟨(hdone t ht).1, by rw [← hid]; exact (hdone t ht).2⟩
  have hfinal : a ∈ (recordWrites rows now).foldl upsertRow rows := by
    rw [hsplit, List.foldl_append, List.foldl_cons]
    exact stays h hlive halive hraw (htable.upsertRow m) hafter fun t ht =>
      ⟨(hrest t ht).1, by rw [← hid]; exact (hrest t ht).2⟩
  exact hraw (normalIdentity_of_normal (normal_of_repaired hrep hfinal halive)).symm

theorem named_of_repaired (h : WorktreeTable rows)
    (hrep : Repaired rows ((recordWrites rows now).foldl upsertRow rows)) :
    ∀ done t rest, recordWrites rows now = done ++ t :: rest →
      (∃ r ∈ rows, r.id = t.id ∧ givenUp rows r = true) → ∀ row ∈ done.foldl upsertRow rows,
        ToolStore.worktreeIdentity row = ToolStore.worktreeIdentity t → row.id = t.id := by
  rintro done t rest hsplit ⟨b, hb, hbid, hup⟩ row hrow hidentity
  by_contra hne
  have hlive := live_of_repaired hrep
  have hblive := live_of_givenUp hup
  obtain ⟨hdone, hrest⟩ := ids_of_split h hsplit
  have htable := h.foldl done
  -- no survivor is stored where the record is
  have hfree : ∀ x ∈ recordWrites rows now, ToolStore.worktreeIdentity x ≠ ToolStore.worktreeIdentity b := by
    intro x hx he
    rcases write_cases h.ids hlive hx with ⟨k, hk, hm⟩ | ⟨hdead, -⟩
    · obtain ⟨first, -, -, hfwell, hfk, -, -, hxk⟩ := survivor_first hm
      have hnormal : NormalIdentity (ToolStore.worktreeIdentity b) := by
        rw [← he, hxk, ← hfk]
        exact normal_normalIdentity first
      have hbk := normalIdentity_of_normal hnormal
      have hbwell : (normalizeRecord b).wellFormed = true := by
        have hsame : ToolStore.worktreeIdentity (normalizeRecord b) =
            ToolStore.worktreeIdentity (normalizeRecord first) := by
          rw [identity_normalizeRecord, identity_normalizeRecord, hbk, ← he, hxk, hfk]
        rw [wellFormed_of_identity hsame]
        exact hfwell
      exact stored_of_repaired h hrep b hb hup hbwell hbk.symm
    · rw [ManagedWorktreeRecord.live, ← isRecordTombstoned_of_identity he, hdead] at hblive
      cases hblive
  have hstays : b ∈ done.foldl upsertRow rows :=
    h.untouched hb fun x hx => ⟨by rw [hbid]; exact (hdone x hx).2, hfree x (hdone x hx).1⟩
  have htarget : targetId t (done.foldl upsertRow rows) = row.id := by
    rcases targetId_cases t (done.foldl upsertRow rows) with ⟨e, he, het, ht⟩ | ⟨hnone, -⟩
    · exact ht.trans (htable.identities e he row hrow (het.trans hidentity.symm))
    · exact absurd hidentity (hnone row hrow)
  have hafter : b ∈ upsertRow (done.foldl upsertRow rows) t :=
    (mem_upsertRow htable.ids).mpr (.inr ⟨hstays, by rw [htarget, hbid]; exact Ne.symm hne⟩)
  have hfinal : b ∈ (recordWrites rows now).foldl upsertRow rows := by
    rw [hsplit, List.foldl_append, List.foldl_cons]
    exact (htable.upsertRow t).untouched hafter fun x hx =>
      ⟨by rw [hbid]; exact (hrest x hx).2, hfree x (hrest x hx).1⟩
  obtain ⟨row', hrow', he, hdead⟩ := hrep.tombstones b hb (.inr hup)
  have hsame : row' = b := List.inj_on_of_nodup_map (h.foldl _).ids hrow' hfinal he
  rw [hsame, hblive] at hdead
  cases hdead

/-! ## Another repair -/

theorem trim_deriveUnifiedWorkspacePath (repoRoot : String) :
    trim (deriveUnifiedWorkspacePath repoRoot) = deriveUnifiedWorkspacePath repoRoot ∧
      deriveUnifiedWorkspacePath repoRoot ≠ "" := by
  have hsolid : ∀ (separated : Bool) (l : List Char), ∀ c ∈ unifiedText separated l, isWhitespace c = false := by
    intro separated l
    fun_induction unifiedText separated l with
    | case1 => exact fun c hc => by cases hc
    | case2 separated ch rest hsep ih =>
      intro c hc
      rcases List.mem_append.mp hc with hc | hc
      · cases separated with
        | true => cases hc
        | false =>
          obtain rfl : c = '_' := by simpa using hc
          decide
      · exact ih c hc
    | case3 separated ch rest hsep ih =>
      intro c hc
      rcases List.mem_cons.mp hc with rfl | hc
      · split
        · next hkeep =>
          rcases hkeep with hkeep | hkeep
          · exact isWhitespace_of_isAlphanum hkeep
          · simp only [List.mem_cons, List.not_mem_nil, or_false] at hkeep
            rcases hkeep with rfl | rfl | rfl <;> decide
        · decide
      · exact ih c hc
  unfold deriveUnifiedWorkspacePath
  dsimp only
  split
  · exact ⟨by decide, by decide⟩
  · next hne =>
    refine ⟨trim_of_solid fun c hc => ?_, hne⟩
    have hin := mem_trimBy hc
    rw [String.toList_ofList] at hin
    exact hsolid false _ c hin

theorem foldl_mergeLoser_texts (rest : List ManagedWorktreeRecord) (first : ManagedWorktreeRecord) :
    ∃ policy session operation created updated, rest.foldl mergeLoser first = { first with
      deletionPolicy := policy, createdBySessionId := session, createdByOperationId := operation,
      createdAt := created, updatedAt := updated } := by
  induction rest generalizing first with
  | nil => exact ⟨_, _, _, _, _, rfl⟩
  | cons r rest ih =>
    obtain ⟨policy, session, operation, created, updated, he⟩ := ih (mergeLoser first r)
    exact ⟨policy, session, operation, created, updated, he⟩

theorem normalizeRecord_survivor (hids : (rows.map ManagedWorktreeRecord.id).Nodup) {k : Identity}
    {m : ManagedWorktreeRecord} (h : survivor rows k = some m) : ∃ r ∈ rows, r.live ∧ givenUp rows r = false ∧
      m.id = r.id ∧
      (normalizeRecord m = m ↔ (trim r.worktreeName = "" → trim r.id = r.id ∨ trim r.id = "")) := by
  obtain ⟨r, hr, hlive, -, hk, hid, hkept, -⟩ := survivor_first h
  refine ⟨r, hr, hlive, hkept, hid, ?_⟩
  unfold survivor at h
  obtain ⟨first, rest, hgroup, hmid, -⟩ := mergedGroup_first h
  have hfirst : first ∈ liveGroup rows k := by rw [hgroup]; exact List.mem_cons_self
  obtain ⟨r', hr', -, -, -, rfl⟩ := mem_liveGroup.mp hfirst
  obtain rfl : r' = r := List.inj_on_of_nodup_map hids hr' hr (hmid.symm.trans hid)
  rw [hgroup] at h
  obtain ⟨policy, session, operation, created, updated, he⟩ := foldl_mergeLoser_texts rest (normalizeRecord r')
  obtain rfl := Option.some.inj h
  obtain ⟨hunified, hunified'⟩ := trim_deriveUnifiedWorkspacePath (trim r'.repoRoot)
  rw [he]
  simp only [normalizeRecord, trim_trim, ManagedWorktreeRecord.mk.injEq, true_and, and_true]
  have hroot : (if trim (if trim r'.worktreeRoot = "" then trim r'.worktreeCwd else trim r'.worktreeRoot) = "" then
      trim r'.worktreeCwd
    else trim (if trim r'.worktreeRoot = "" then trim r'.worktreeCwd else trim r'.worktreeRoot)) =
      if trim r'.worktreeRoot = "" then trim r'.worktreeCwd else trim r'.worktreeRoot := by
    have hempty : trim "" = "" := by decide
    by_cases hr : trim r'.worktreeRoot = "" <;> by_cases hcwd : trim r'.worktreeCwd = "" <;>
      simp [hr, hcwd, hempty, trim_trim]
  have hpath : (if trim (if trim r'.unifiedWorkspacePath = "" then deriveUnifiedWorkspacePath (trim r'.repoRoot)
        else trim r'.unifiedWorkspacePath) = "" then deriveUnifiedWorkspacePath (trim r'.repoRoot)
      else trim (if trim r'.unifiedWorkspacePath = "" then deriveUnifiedWorkspacePath (trim r'.repoRoot)
        else trim r'.unifiedWorkspacePath)) =
      if trim r'.unifiedWorkspacePath = "" then deriveUnifiedWorkspacePath (trim r'.repoRoot)
        else trim r'.unifiedWorkspacePath := by
    by_cases hu : trim r'.unifiedWorkspacePath = "" <;> simp [hu, hunified, hunified', trim_trim]
  rw [hroot, hpath]
  simp only [true_and, and_true]
  by_cases hname : trim r'.worktreeName = ""
  · simp only [hname, if_true, forall_const]
    by_cases hid' : trim r'.id = "" <;> simp [hid']
  · simp [hname, trim_trim]

theorem survivor_of_repaired {final : List ManagedWorktreeRecord} (hrep : Repaired rows final)
    (htable : WorktreeTable final) {row : ManagedWorktreeRecord} (hrow : row ∈ final) (hlive : row.live) :
    survivor final (ToolStore.worktreeIdentity row) = some (normalizeRecord row) := by
  have hm := (hrep.survivors _ row).mpr ⟨hrow, hlive, rfl⟩
  have hnormal := normal_of_repaired hrep hrow hlive
  obtain ⟨first, -, -, hwell, hfk, -⟩ := survivor_first hm
  have hrwell : (normalizeRecord row).wellFormed = true := by
    have hsame : ToolStore.worktreeIdentity (normalizeRecord row) =
        ToolStore.worktreeIdentity (normalizeRecord first) := by
      rw [identity_normalizeRecord, identity_normalizeRecord, normalIdentity_of_normal hnormal, hfk]
    rw [wellFormed_of_identity hsame]
    exact hwell
  have honly : ∀ x ∈ liveGroup final (ToolStore.worktreeIdentity row), x = normalizeRecord row := by
    intro x hx
    obtain ⟨r, hr, hrlive, -, hrk, rfl⟩ := mem_liveGroup.mp hx
    rw [normalIdentity_of_normal (normal_of_repaired hrep hr hrlive)] at hrk
    have hr' := (hrep.survivors _ r).mpr ⟨hr, hrlive, hrk⟩
    rw [Option.some.inj (hr'.symm.trans hm)]
  have hmem : normalizeRecord row ∈ liveGroup final (ToolStore.worktreeIdentity row) :=
    mem_liveGroup.mpr ⟨row, hrow, hlive, hrwell, normalIdentity_of_normal hnormal, rfl⟩
  have hnodup := List.Nodup.of_map _ (nodup_liveGroup htable.ids (ToolStore.worktreeIdentity row))
  unfold survivor
  match hgroup : liveGroup final (ToolStore.worktreeIdentity row) with
  | [] => rw [hgroup] at hmem; cases hmem
  | [x] => rw [hgroup] at honly; rw [honly x List.mem_cons_self]; rfl
  | x :: y :: rest =>
    rw [hgroup] at honly hnodup
    have hxy : x = y := (honly x (by simp)).trans (honly y (by simp)).symm
    exact absurd (hxy ▸ List.mem_cons_self) (List.nodup_cons.mp hnodup).1

theorem writesLand_of_repaired {final : List ManagedWorktreeRecord} (hrep : Repaired rows final)
    (htable : WorktreeTable final) (now' : ℤ) : WritesLand final now' := by
  have hkept : ∀ row ∈ final, row.live → givenUp final row = false := by
    intro row hrow hlive
    have hnormal := normalIdentity_of_normal (normal_of_repaired hrep hrow hlive)
    have hs := survivor_of_repaired hrep htable hrow hlive
    obtain ⟨r, hr, -, hwell, -, hid, hk, -⟩ := survivor_first hs
    rwa [← List.inj_on_of_nodup_map htable.ids hr hrow hid.symm]
  refine ⟨fun row hrow hlive _ => ?_, fun row hrow hup => ?_, fun _ t _ _ ⟨row, hrow, _, hup⟩ => ?_⟩
  · rw [ManagedWorktreeRecord.live, isRecordTombstoned_eq, identity_normalizeRecord,
      normalIdentity_of_normal (normal_of_repaired hrep hrow hlive), ← isRecordTombstoned_eq]
    exact hlive
  · rw [hkept row hrow (live_of_givenUp hup)] at hup
    cases hup
  · rw [hkept row hrow (live_of_givenUp hup)] at hup
    cases hup

theorem live_again {final : List ManagedWorktreeRecord} (hrep : Repaired rows final)
    (htable : WorktreeTable final) (now' : ℤ) {x : ManagedWorktreeRecord} :
    (x ∈ (recordWrites final now').foldl upsertRow final ∧ x.live) ↔
      ∃ row ∈ final, row.live ∧ normalizeRecord row = x := by
  have hagain := repaired_of_writesLand htable (writesLand_of_repaired hrep htable now')
  constructor
  · rintro ⟨hx, hlive⟩
    have hs := (hagain.survivors _ x).mpr ⟨hx, hlive, rfl⟩
    obtain ⟨row, hrow, hrlive, -, hk, -⟩ := survivor_first hs
    have hrow' := survivor_of_repaired hrep htable hrow hrlive
    rw [← normalIdentity_of_normal (normal_of_repaired hrep hrow hrlive), hk] at hrow'
    exact ⟨row, hrow, hrlive, Option.some.inj (hrow'.symm.trans hs)⟩
  · rintro ⟨row, hrow, hlive, rfl⟩
    have hs := survivor_of_repaired hrep htable hrow hlive
    obtain ⟨hin, hl, -⟩ := (hagain.survivors _ _).mp hs
    exact ⟨hin, hl⟩

end

/-! ## The postcondition -/

theorem worktrees_of_repair {w w' : Worktrees} (hrepair : (repairStartupState w.store).result w = (.ok (), w')) :
    w'.store.worktrees = (recordWrites w.store.worktrees w.clock).foldl upsertRow w.store.worktrees := by
  have h := repairStartupState_records (w := w) w.store
  rw [after_iff, hrepair] at h
  exact h rfl

theorem repair_without_faults (w : Worktrees) : ∃ w₁ w₂ : Worktrees, w₁.store.worktrees = w.store.worktrees ∧
    (repairStartupState w₁.store).result w₁ = (.ok (), w₂) := by
  let w₁ : Worktrees := { w with store := { w.store with base := { w.store.base with faults := [] } } }
  have hsure := repairStartupState_sure (w := w₁) w₁.store rfl
  rw [after_iff] at hsure
  exact ⟨w₁, ((repairStartupState w₁.store).result w₁).2, rfl, Prod.ext hsure rfl⟩

/-- Exactly then does repair leave one record for each group of live records, and leave it alone the next time. -/
theorem repair_leaves_survivors {w w' : Worktrees} (htable : WorktreeTable w.store.worktrees)
    (hrepair : (repairStartupState w.store).result w = (.ok (), w')) :
    (Repaired w.store.worktrees w'.store.worktrees ∧ Settled w') ↔ Repairable w.store.worktrees w.clock := by
  have hfinal := worktrees_of_repair hrepair
  have htable' : WorktreeTable w'.store.worktrees := hfinal ▸ htable.foldl _
  constructor
  · rintro ⟨hrep, hsettled⟩
    have hrep' := hrep
    rw [hfinal] at hrep'
    refine ⟨⟨live_of_repaired hrep, stored_of_repaired htable hrep', named_of_repaired htable hrep'⟩, ?_⟩
    intro r hr hlive hkept hname
    obtain ⟨-, m, hm, hid⟩ := survivor_of_kept hr hlive hkept
    obtain ⟨hin, hmlive, -⟩ := (hrep.survivors _ m).mp hm
    obtain ⟨w₁, w₂, hsame, hagain⟩ := repair_without_faults w'
    have hstill : m ∈ w₂.store.worktrees := (hsettled w₁ w₂ hsame hagain m hmlive).mpr hin
    rw [worktrees_of_repair hagain, hsame] at hstill
    obtain ⟨row, hrow, hrlive, hrm⟩ := (live_again hrep htable' w₁.clock).mp ⟨hstill, hmlive⟩
    have hidentity : ToolStore.worktreeIdentity row = ToolStore.worktreeIdentity m := by
      rw [← hrm, identity_normalizeRecord, normalIdentity_of_normal (normal_of_repaired hrep hrow hrlive)]
    have hrowm : row = m := List.inj_on_of_nodup_map htable'.ids hrow hin (htable'.identities row hrow m hin hidentity)
    obtain ⟨r', hr', -, -, hid', hiff⟩ := normalizeRecord_survivor htable.ids hm
    have hrr : r' = r := List.inj_on_of_nodup_map htable.ids hr' hr (hid'.symm.trans hid)
    rw [hrowm] at hrm
    rw [hrr] at hiff
    exact hiff.mp hrm hname
  · intro hrepairable
    have hrep : Repaired w.store.worktrees w'.store.worktrees := by
      rw [hfinal]
      exact repaired_of_writesLand htable hrepairable.toWritesLand
    refine ⟨hrep, fun w₁ w₂ hsame hagain row hlive => ?_⟩
    have hfixed : ∀ row ∈ w'.store.worktrees, row.live → normalizeRecord row = row := by
      intro row hrow hlive
      have hs := (hrep.survivors _ row).mpr ⟨hrow, hlive, rfl⟩
      obtain ⟨r, hr, hrlive, hkept, -, hiff⟩ := normalizeRecord_survivor htable.ids hs
      exact hiff.mpr fun hname => hrepairable.ids r hr hrlive hkept hname
    have hagain' := live_again hrep htable' w₁.clock (x := row)
    rw [worktrees_of_repair hagain, hsame]
    constructor
    · intro hin
      obtain ⟨row', hrow', hlive', he⟩ := hagain'.mp ⟨hin, hlive⟩
      rw [hfixed row' hrow' hlive'] at he
      exact he ▸ hrow'
    · intro hin
      exact (hagain'.mpr ⟨row, hin, hlive, hfixed row hin hlive⟩).1

def Worktrees.withRecords (rows : List ManagedWorktreeRecord) : Worktrees :=
  { Worktrees.first with store := { ToolStore.empty [] with worktrees := rows } }

/-- The worktree `w` of a repository, on the branch `main`. -/
def recordAt (id repoRoot : String) (createdAt : ℤ) : ManagedWorktreeRecord :=
  ⟨id, repoRoot, "w", "w", "main", "w", "u", retainOnLastClaim, none, none, createdAt, createdAt⟩

def Worktrees.blankLater : Worktrees := .withRecords [recordAt "a" "r" 0, recordAt "b" " r" 1]

def Worktrees.blankEarlier : Worktrees := .withRecords [recordAt "a" " r" 0, recordAt "b" "r" 1]

theorem withRecords_repaired (rows : List ManagedWorktreeRecord) : ∃ w' : Worktrees,
    (repairStartupState (Worktrees.withRecords rows).store).result (Worktrees.withRecords rows) = (.ok (), w') := by
  have hsure := repairStartupState_sure (w := Worktrees.withRecords rows) (Worktrees.withRecords rows).store rfl
  rw [after_iff] at hsure
  exact ⟨_, Prod.ext hsure rfl⟩

theorem repairable_blankLater : Repairable Worktrees.blankLater.store.worktrees Worktrees.blankLater.clock where
  live := by
    unfold ManagedWorktreeRecord.live
    decide +kernel
  stored := by decide +kernel
  ids := by
    unfold ManagedWorktreeRecord.live
    decide +kernel
  named done t rest hsplit hup row hrow he := by
    have hwrites : recordWrites Worktrees.blankLater.store.worktrees Worktrees.blankLater.clock =
        [{ recordAt "a" "r" 0 with updatedAt := 1 }, tombstoneRecord (recordAt "b" "r" 1) 0] := by decide +kernel
    rw [hwrites] at hsplit
    obtain ⟨rfl, h⟩ | ⟨done, rfl, h⟩ := List.cons_eq_append_iff.mp hsplit
    · -- the record `a` is kept
      obtain ⟨rfl, -⟩ := List.cons.inj h
      exact absurd hup (by decide +kernel)
    obtain ⟨rfl, h⟩ | ⟨done, rfl, h⟩ := List.cons_eq_append_iff.mp h
    · obtain ⟨rfl, -⟩ := List.cons.inj h
      revert row
      decide +kernel
    · simp at h

theorem repair_leaves_survivors_blankLater : ∃ w' : Worktrees,
    Repaired Worktrees.blankLater.store.worktrees w'.store.worktrees ∧ Settled w' := by
  obtain ⟨w', hrepair⟩ := withRecords_repaired [recordAt "a" "r" 0, recordAt "b" " r" 1]
  exact ⟨w', (repair_leaves_survivors ⟨by decide +kernel, by decide +kernel⟩ hrepair).mpr repairable_blankLater⟩

theorem not_repair_leaves_survivors : ¬ ∀ w w' : Worktrees, WorktreeTable w.store.worktrees →
    (repairStartupState w.store).result w = (.ok (), w') →
      Repaired w.store.worktrees w'.store.worktrees ∧ Settled w' := by
  intro hall
  obtain ⟨w', hrepair⟩ := withRecords_repaired [recordAt "a" " r" 0, recordAt "b" "r" 1]
  have htable : WorktreeTable Worktrees.blankEarlier.store.worktrees := ⟨by decide +kernel, by decide +kernel⟩
  obtain ⟨hrep, -⟩ := hall _ w' htable hrepair
  rw [worktrees_of_repair hrepair] at hrep
  -- the record `b` gives way to `a`, and is stored where `a` goes
  exact stored_of_repaired htable hrep (recordAt "b" "r" 1) (by decide +kernel) (by decide +kernel) (by decide +kernel)
    (by decide +kernel)

end Gooselake.Tools
