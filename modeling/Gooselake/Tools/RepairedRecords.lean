import Gooselake.Tools.WorktreeDirectories
import Gooselake.Tools.WorktreeRepair

/-!
The records of startup repair. What the loop over the records comes to is said group by group; its writes are
taken one after the other, and each of them lands in the row of its identity before that of its id.
-/

namespace Gooselake.Tools

open Gooselake.Core Data Library Library.Exec

set_option autoImplicit false

abbrev Identity : Type := String × String × String

def ManagedWorktreeRecord.wellFormed (r : ManagedWorktreeRecord) : Bool :=
  r.repoRoot ≠ "" && r.worktreeCwd ≠ "" && r.branchName ≠ ""

/-! ## Normal records -/

@[simp] theorem normalizeRecord_id (r : ManagedWorktreeRecord) : (normalizeRecord r).id = r.id := rfl

def normalIdentity (r : ManagedWorktreeRecord) : Identity := (trim r.repoRoot, trim r.worktreeCwd, trim r.branchName)

@[simp] theorem identity_normalizeRecord (r : ManagedWorktreeRecord) :
    ToolStore.worktreeIdentity (normalizeRecord r) = normalIdentity r := rfl

def NormalIdentity (k : Identity) : Prop := trim k.1 = k.1 ∧ trim k.2.1 = k.2.1 ∧ trim k.2.2 = k.2.2

theorem normal_normalIdentity (r : ManagedWorktreeRecord) : NormalIdentity (normalIdentity r) :=
  ⟨trimBy_trimBy _ _, trimBy_trimBy _ _, trimBy_trimBy _ _⟩

theorem normalIdentity_of_normal {r : ManagedWorktreeRecord} (h : NormalIdentity (ToolStore.worktreeIdentity r)) :
    normalIdentity r = ToolStore.worktreeIdentity r := Prod.ext h.1 (Prod.ext h.2.1 h.2.2)

theorem startsWith_trim {head s : String} (hblank : ∀ c ∈ head.toList, isWhitespace c = false) (hne : head.toList ≠ [])
    (h : startsWith head s = true) : startsWith head (trim s) = true := by
  simp only [startsWith, List.isPrefixOf_iff_prefix] at h ⊢
  obtain ⟨rest, hrest⟩ := h
  obtain ⟨c, cs, hcs⟩ := List.exists_cons_of_ne_nil hne
  simp only [trim, trimBy, String.toList_ofList]
  -- nothing is dropped in front
  have hfront : s.toList.dropWhile isWhitespace = s.toList := by
    rw [← hrest, hcs, List.cons_append, List.dropWhile_cons_of_neg (by simp [hblank c (by simp [hcs])])]
  -- and at the end nothing of the head
  have hback : ∀ l : List Char, (∀ x ∈ l, isWhitespace x = false) → ∀ tail : List Char,
      (tail ++ l).dropWhile isWhitespace = tail.dropWhile isWhitespace ++ l := by
    intro l hl tail
    rw [List.dropWhile_append]
    split
    · next hall =>
      have hdone : tail.dropWhile isWhitespace = [] := by simpa using hall
      have hstay : l.dropWhile isWhitespace = l := by
        cases l with
        | nil => rfl
        | cons x xs => exact List.dropWhile_cons_of_neg (by simp [hl x (by simp)])
      rw [hdone, hstay, List.nil_append]
    · rfl
  rw [hfront, ← hrest, List.reverse_append, hback _ (fun x hx => hblank x (List.mem_reverse.mp hx)),
    List.reverse_append,
    List.reverse_reverse]
  exact List.prefix_append _ _

theorem startsWith_tombstone_trim {s : String} (h : startsWith tombstone s = true) :
    startsWith tombstone (trim s) = true := by
  have hall : (tombstone.toList.all fun c => !isWhitespace c) = true := by decide
  refine startsWith_trim (fun c hc => ?_) (by decide) h
  simpa using List.all_eq_true.mp hall c hc

theorem isRecordTombstoned_normalizeRecord {r : ManagedWorktreeRecord} (h : isRecordTombstoned r = true) :
    isRecordTombstoned (normalizeRecord r) = true := by
  simp only [isRecordTombstoned, Bool.or_eq_true] at h ⊢
  exact h.imp (Or.imp startsWith_tombstone_trim startsWith_tombstone_trim) startsWith_tombstone_trim

theorem isRecordTombstoned_tombstoneRecord (r : ManagedWorktreeRecord) (now : ℤ) :
    isRecordTombstoned (tombstoneRecord r now) = true := by
  have hstarts : startsWith tombstone (tombstone ++ r.id) = true := by
    simp only [startsWith, List.isPrefixOf_iff_prefix, String.toList_append]
    exact List.prefix_append _ _
  simp [isRecordTombstoned, tombstoneRecord, hstarts]

theorem recordBefore_total (a b : ManagedWorktreeRecord) : recordBefore a b = true ∨ recordBefore b a = true := by
  simp only [recordBefore, Bool.or_eq_true, Bool.and_eq_true, decide_eq_true_eq]
  rcases lt_trichotomy a.createdAt b.createdAt with h | h | h
  · exact .inl (.inl h)
  · rcases String.le_total a.id b.id with h' | h'
    · exact .inl (.inr ⟨h, h'⟩)
    · exact .inr (.inr ⟨h.symm, h'⟩)
  · exact .inr (.inl h)

theorem recordBefore_trans {a b c : ManagedWorktreeRecord} (h : recordBefore a b = true)
    (h' : recordBefore b c = true) :
    recordBefore a c = true := by
  simp only [recordBefore, Bool.or_eq_true, Bool.and_eq_true, decide_eq_true_eq] at h h' ⊢
  rcases h with h | ⟨h, hid⟩
  · rcases h' with h' | ⟨h', -⟩
    · exact .inl (h.trans h')
    · exact .inl (h' ▸ h)
  · rcases h' with h' | ⟨h', hid'⟩
    · exact .inl (h ▸ h')
    · exact .inr ⟨h.trans h', String.le_trans hid hid'⟩

theorem recordBefore_antisymm {a b : ManagedWorktreeRecord} (h : recordBefore a b = true)
    (h' : recordBefore b a = true) :
    a.id = b.id := by
  simp only [recordBefore, Bool.or_eq_true, Bool.and_eq_true, decide_eq_true_eq] at h h'
  rcases h with h | ⟨h, hid⟩
  · rcases h' with h' | ⟨h', -⟩ <;> omega
  · rcases h' with h' | ⟨-, hid'⟩
    · omega
    · exact String.le_antisymm hid hid'

/-! ## Groups -/

def ofIdentity (k : Identity) (r : ManagedWorktreeRecord) : Bool :=
  r.wellFormed && ToolStore.worktreeIdentity r = k

def groupOf (records : List ManagedWorktreeRecord) (k : Identity) : List ManagedWorktreeRecord :=
  records.filter (ofIdentity k)

def mergedGroup : List ManagedWorktreeRecord → Option ManagedWorktreeRecord
  | [] => none
  | first :: rest => some (rest.foldl mergeLoser first)

theorem mem_groupOf {records : List ManagedWorktreeRecord} {k : Identity} {r : ManagedWorktreeRecord} :
    r ∈ groupOf records k ↔ r ∈ records ∧ r.wellFormed = true ∧ ToolStore.worktreeIdentity r = k := by
  simp [groupOf, ofIdentity]

theorem foldl_mergeLoser (rest : List ManagedWorktreeRecord) (first : ManagedWorktreeRecord) :
    (rest.foldl mergeLoser first).id = first.id ∧
      ToolStore.worktreeIdentity (rest.foldl mergeLoser first) = ToolStore.worktreeIdentity first := by
  induction rest generalizing first with
  | nil => exact ⟨rfl, rfl⟩
  | cons r rest ih => exact ih (mergeLoser first r)

theorem mergedGroup_first {group : List ManagedWorktreeRecord} {m : ManagedWorktreeRecord}
    (h : mergedGroup group = some m) :
    ∃ first rest, group = first :: rest ∧ m.id = first.id ∧
      ToolStore.worktreeIdentity m = ToolStore.worktreeIdentity first := by
  cases group with
  | nil => cases h
  | cons first rest =>
    obtain rfl := Option.some.inj h
    exact ⟨first, rest, rfl, foldl_mergeLoser rest first⟩

theorem mergedGroup_identity {records : List ManagedWorktreeRecord} {k : Identity} {m : ManagedWorktreeRecord}
    (h : mergedGroup (groupOf records k) = some m) : ToolStore.worktreeIdentity m = k := by
  obtain ⟨first, rest, hgroup, -, hidentity⟩ := mergedGroup_first h
  have hmem : first ∈ groupOf records k := by rw [hgroup]; exact List.mem_cons_self
  exact hidentity.trans (mem_groupOf.mp hmem).2.2

theorem groupOf_append (records : List ManagedWorktreeRecord) (r : ManagedWorktreeRecord) (k : Identity) :
    groupOf (records ++ [r]) k = if ofIdentity k r = true then groupOf records k ++ [r] else groupOf records k := by
  unfold groupOf
  rw [List.filter_append]
  by_cases h : ofIdentity k r = true
  · rw [if_pos h, List.filter_cons_of_pos h, List.filter_nil]
  · rw [if_neg h, List.filter_cons_of_neg h, List.filter_nil, List.append_nil]

/-- What the loop over the records `done` has come to. -/
structure RecordsMerged (done : List ManagedWorktreeRecord) (m : MergedRecords) : Prop where
  winner : ∀ k, m.winnerByIdentity.lookup k = (groupOf done k).head?.map ManagedWorktreeRecord.id
  merged : ∀ id w, m.mergedWinners.lookup id = some w ↔ ∃ k, mergedGroup (groupOf done k) = some w ∧ w.id = id
  loser : ∀ id, id ∈ m.loserToWinner ↔ ∃ k, ∃ r ∈ (groupOf done k).tail, r.id = id
  moved : ∀ id id', m.loserToWinner.lookup id = some id' →
    ∃ k, ∃ r ∈ (groupOf done k).tail, r.id = id ∧ (groupOf done k).head?.map ManagedWorktreeRecord.id = some id'
  malformed : m.malformedIds = (done.filter fun r => !r.wellFormed).map ManagedWorktreeRecord.id

section

variable {done : List ManagedWorktreeRecord} {m : MergedRecords} {r : ManagedWorktreeRecord}

theorem RecordsMerged.malformedRecord (h : RecordsMerged done m) (hr : r.wellFormed = false) :
    RecordsMerged (done ++ [r]) { m with malformedIds := m.malformedIds ++ [r.id] } := by
  have hgroup : ∀ k, groupOf (done ++ [r]) k = groupOf done k := by
    intro k
    rw [groupOf_append, if_neg (by simp [ofIdentity, hr])]
  constructor
  · intro k
    rw [hgroup]
    exact h.winner k
  · intro id w
    simp only [hgroup]
    exact h.merged id w
  · intro id
    simp only [hgroup]
    exact h.loser id
  · intro id id' hl
    simp only [hgroup]
    exact h.moved id id' hl
  · rw [List.filter_append, List.map_append, ← h.malformed]
    simp [hr]

theorem RecordsMerged.another (h : RecordsMerged done m) (hr : r.wellFormed = true) {first : ManagedWorktreeRecord}
    {rest : List ManagedWorktreeRecord} (hfirst : groupOf done (ToolStore.worktreeIdentity r) = first :: rest) :
    RecordsMerged (done ++ [r]) { m with
      loserToWinner := m.loserToWinner.insert r.id first.id
      mergedWinners := m.mergedWinners.update first.id fun winner => mergeLoser winner r } := by
  have hgroup : ∀ k, groupOf (done ++ [r]) k =
      if ToolStore.worktreeIdentity r = k then first :: (rest ++ [r]) else groupOf done k := by
    intro k
    rw [groupOf_append]
    by_cases hk : ToolStore.worktreeIdentity r = k
    · subst hk
      simp [ofIdentity, hr, hfirst]
    · simp [ofIdentity, hk]
  -- what the group has come to so far
  have hmerged : mergedGroup (groupOf done (ToolStore.worktreeIdentity r)) = some (rest.foldl mergeLoser first) := by
    rw [hfirst]
    rfl
  have hid : (rest.foldl mergeLoser first).id = first.id := (foldl_mergeLoser rest first).1
  have hlookup : m.mergedWinners.lookup first.id = some (rest.foldl mergeLoser first) :=
    (h.merged _ _).mpr ⟨_, hmerged, hid⟩
  have hother : ∀ k w, mergedGroup (groupOf done k) = some w → w.id = first.id → k = ToolStore.worktreeIdentity r := by
    intro k w hw hwid
    have hl := (h.merged first.id w).mpr ⟨k, hw, hwid⟩
    obtain rfl := Option.some.inj (hlookup.symm.trans hl)
    exact (mergedGroup_identity hw).symm.trans (mergedGroup_identity hmerged)
  have hnew : mergedGroup (first :: (rest ++ [r])) = some (mergeLoser (rest.foldl mergeLoser first) r) := by
    simp [mergedGroup]
  constructor
  · intro k
    rw [h.winner k, hgroup]
    split
    · next hk => rw [← hk, hfirst]; rfl
    · rfl
  · intro id w
    simp only [Table.lookup_update, hgroup]
    by_cases hid' : id = first.id
    · rw [if_pos hid', hlookup, Option.map_some]
      constructor
      · intro hw
        obtain rfl := Option.some.inj hw
        exact ⟨ToolStore.worktreeIdentity r, by rw [if_pos rfl]; exact hnew, hid.trans hid'.symm⟩
      · rintro ⟨k, hw, hwid⟩
        split at hw
        · exact hnew.symm.trans hw
        · next hk => exact absurd (hother k w hw (hwid.trans hid')).symm hk
    · rw [if_neg hid', h.merged id w]
      constructor
      · rintro ⟨k, hw, hwid⟩
        refine ⟨k, ?_, hwid⟩
        split
        · next hk =>
          rw [← hk, hmerged] at hw
          obtain rfl := Option.some.inj hw
          exact absurd (hwid.symm.trans hid) hid'
        · exact hw
      · rintro ⟨k, hw, hwid⟩
        split at hw
        · rw [hnew] at hw
          obtain rfl := Option.some.inj hw
          exact absurd (hwid.symm.trans hid) hid'
        · exact ⟨k, hw, hwid⟩
  · intro id
    simp only [AList.mem_insert, hgroup]
    rw [h.loser id]
    constructor
    · rintro (rfl | ⟨k, x, hx, hxid⟩)
      · exact ⟨ToolStore.worktreeIdentity r, r, by simp, rfl⟩
      · refine ⟨k, x, ?_, hxid⟩
        split
        · next hk =>
          rw [← hk, hfirst] at hx
          exact List.mem_append_left _ hx
        · exact hx
    · rintro ⟨k, x, hx, hxid⟩
      split at hx
      · next hk =>
        rcases List.mem_append.mp hx with hx | hx
        · exact .inr ⟨ToolStore.worktreeIdentity r, x, by rw [hfirst]; exact hx, hxid⟩
        · obtain rfl := List.mem_singleton.mp hx
          exact .inl hxid.symm
      · exact .inr ⟨k, x, hx, hxid⟩
  · intro id id' hl
    simp only [Table.lookup_insert] at hl
    simp only [hgroup]
    split at hl
    · next he =>
      obtain rfl := Option.some.inj hl
      exact ⟨ToolStore.worktreeIdentity r, r, by simp, he.symm, by simp⟩
    · obtain ⟨k, x, hx, hxid, hhead⟩ := h.moved id id' hl
      refine ⟨k, x, ?_, hxid, ?_⟩
      · split
        · next hk =>
          rw [← hk, hfirst] at hx
          exact List.mem_append_left _ hx
        · exact hx
      · split
        · next hk =>
          rw [← hk, hfirst] at hhead
          exact hhead
        · exact hhead
  · rw [List.filter_append, List.map_append, ← h.malformed]
    simp [hr]

theorem RecordsMerged.firstRecord (h : RecordsMerged done m) (hr : r.wellFormed = true)
    (hnone : groupOf done (ToolStore.worktreeIdentity r) = []) (hnew : ∀ x ∈ done, x.id ≠ r.id) :
    RecordsMerged (done ++ [r]) { m with
      winnerByIdentity := m.winnerByIdentity.insert (ToolStore.worktreeIdentity r) r.id
      mergedWinners := m.mergedWinners.insert r.id r } := by
  have hgroup : ∀ k, groupOf (done ++ [r]) k =
      if ToolStore.worktreeIdentity r = k then [r] else groupOf done k := by
    intro k
    rw [groupOf_append]
    by_cases hk : ToolStore.worktreeIdentity r = k
    · subst hk
      simp [ofIdentity, hr, hnone]
    · simp [ofIdentity, hk]
  have hmember : ∀ k w, mergedGroup (groupOf done k) = some w → w.id ≠ r.id := by
    intro k w hw he
    obtain ⟨first, rest, hfirst, hid, -⟩ := mergedGroup_first hw
    have hmem : first ∈ groupOf done k := by rw [hfirst]; exact List.mem_cons_self
    exact hnew first (mem_groupOf.mp hmem).1 (hid.symm.trans he)
  constructor
  · intro k
    rw [Table.lookup_insert, hgroup, h.winner k]
    by_cases hk : k = ToolStore.worktreeIdentity r
    · rw [if_pos hk, if_pos hk.symm]
      rfl
    · rw [if_neg hk, if_neg (Ne.symm hk)]
  · intro id w
    simp only [Table.lookup_insert, hgroup]
    constructor
    · intro hl
      split at hl
      · next hid =>
        obtain rfl := Option.some.inj hl
        exact ⟨ToolStore.worktreeIdentity r, by rw [if_pos rfl]; rfl, hid.symm⟩
      · obtain ⟨k, hw, hwid⟩ := (h.merged id w).mp hl
        refine ⟨k, ?_, hwid⟩
        split
        · next hk =>
          rw [← hk, hnone] at hw
          cases hw
        · exact hw
    · rintro ⟨k, hw, hwid⟩
      split at hw
      · obtain rfl : r = w := Option.some.inj hw
        rw [if_pos hwid.symm]
      · rw [if_neg fun he => hmember k w hw (hwid.trans he)]
        exact (h.merged id w).mpr ⟨k, hw, hwid⟩
  · intro id
    simp only [hgroup]
    rw [h.loser id]
    constructor
    · rintro ⟨k, x, hx, hxid⟩
      refine ⟨k, x, ?_, hxid⟩
      split
      · next hk =>
        rw [← hk, hnone] at hx
        cases hx
      · exact hx
    · rintro ⟨k, x, hx, hxid⟩
      split at hx
      · cases hx
      · exact ⟨k, x, hx, hxid⟩
  · intro id id' hl
    obtain ⟨k, x, hx, hxid, hhead⟩ := h.moved id id' hl
    have hk : ToolStore.worktreeIdentity r ≠ k := fun hk => by
      rw [← hk, hnone] at hx
      cases hx
    exact ⟨k, x, by rw [hgroup, if_neg hk]; exact hx, hxid, by rw [hgroup, if_neg hk]; exact hhead⟩
  · rw [List.filter_append, List.map_append, ← h.malformed]
    simp [hr]

theorem RecordsMerged.add (h : RecordsMerged done m) (hnew : ∀ x ∈ done, x.id ≠ r.id) :
    RecordsMerged (done ++ [r]) (mergeRecord m r) := by
  unfold mergeRecord
  split
  · next hmalformed =>
    refine h.malformedRecord ?_
    rw [ManagedWorktreeRecord.wellFormed]
    rcases hmalformed with he | he | he <;> simp [he]
  · next hwell =>
    have hr : r.wellFormed = true := by
      simp only [not_or] at hwell
      simp [ManagedWorktreeRecord.wellFormed, hwell]
    have hwinner := h.winner (ToolStore.worktreeIdentity r)
    cases hgroup : groupOf done (ToolStore.worktreeIdentity r) with
    | nil =>
      rw [hgroup] at hwinner
      rw [hwinner]
      exact h.firstRecord hr hgroup hnew
    | cons first rest =>
      rw [hgroup] at hwinner
      rw [hwinner]
      exact h.another hr hgroup

theorem recordsMerged_foldl {records : List ManagedWorktreeRecord}
    (hids : (records.map ManagedWorktreeRecord.id).Nodup) :
    RecordsMerged records (records.foldl mergeRecord ⟨∅, ∅, ∅, []⟩) := by
  have hfold : ∀ (rest done : List ManagedWorktreeRecord) (m : MergedRecords),
      ((done ++ rest).map ManagedWorktreeRecord.id).Nodup → RecordsMerged done m →
      RecordsMerged (done ++ rest) (rest.foldl mergeRecord m) := by
    intro rest
    induction rest with
    | nil =>
      intro done m _ h
      rwa [List.append_nil]
    | cons r rest ih =>
      intro done m hnodup h
      have hnew : ∀ x ∈ done, x.id ≠ r.id := by
        intro x hx he
        rw [List.map_append, List.map_cons, List.nodup_append] at hnodup
        exact hnodup.2.2 _ (List.mem_map_of_mem hx) _ List.mem_cons_self he
      have hrest : done ++ r :: rest = done ++ [r] ++ rest := by simp
      rw [hrest] at hnodup ⊢
      exact ih (done ++ [r]) (mergeRecord m r) hnodup (h.add hnew)
  refine hfold records [] _ hids ⟨fun k => rfl, fun id w => ?_, fun id => ?_, fun id id' hl => (by cases hl), rfl⟩
  · exact ⟨fun hl => (by cases hl), fun ⟨k, hw, _⟩ => by cases hw⟩
  · exact ⟨fun hmem => (by cases hmem), fun ⟨k, x, hx, _⟩ => by cases hx⟩

end

/-! ## The records in order -/

def normalizedRecords (rows : List ManagedWorktreeRecord) : List ManagedWorktreeRecord :=
  (normalizedRecordsById rows).values.insertionSort fun a b => recordBefore a b

section

variable {rows : List ManagedWorktreeRecord}

theorem mirrors_normalizedRecordsById (hids : (rows.map ManagedWorktreeRecord.id).Nodup) :
    Mirrors ManagedWorktreeRecord.id (normalizedRecordsById rows) (rows.map normalizeRecord) := by
  have hfold : normalizedRecordsById rows =
      (rows.map normalizeRecord).foldl (fun t r => t.insert r.id r) ∅ := by
    rw [List.foldl_map]
    rfl
  rw [hfold]
  refine mirrors_foldl_insert ?_
  rwa [List.map_map]

theorem lookup_normalizedRecordsById (hids : (rows.map ManagedWorktreeRecord.id).Nodup) {r : ManagedWorktreeRecord}
    (hr : r ∈ rows) : (normalizedRecordsById rows).lookup r.id = some (normalizeRecord r) := by
  have hfound : ((rows.map normalizeRecord).find? fun x => x.id = r.id).isSome := by
    rw [List.find?_isSome]
    exact ⟨normalizeRecord r, List.mem_map_of_mem hr, by simp⟩
  rw [mirrors_normalizedRecordsById hids]
  obtain ⟨x, hx⟩ := Option.isSome_iff_exists.mp hfound
  rw [hx]
  obtain ⟨old, hold, rfl⟩ := List.mem_map.mp (List.mem_of_find?_eq_some hx)
  have hfind := List.find?_some hx
  have hid : old.id = r.id := of_decide_eq_true hfind
  rw [List.inj_on_of_nodup_map hids hold hr hid]

theorem mem_normalizedRecords (hids : (rows.map ManagedWorktreeRecord.id).Nodup) {r : ManagedWorktreeRecord} :
    r ∈ normalizedRecords rows ↔ ∃ original ∈ rows, normalizeRecord original = r := by
  rw [normalizedRecords, (List.perm_insertionSort _ _).mem_iff, Table.mem_values]
  constructor
  · rintro ⟨id, hl⟩
    rw [mirrors_normalizedRecordsById hids] at hl
    exact List.mem_map.mp (List.mem_of_find?_eq_some hl)
  · rintro ⟨original, ho, rfl⟩
    exact ⟨_, lookup_normalizedRecordsById hids ho⟩

theorem nodup_normalizedRecords (hids : (rows.map ManagedWorktreeRecord.id).Nodup) :
    ((normalizedRecords rows).map ManagedWorktreeRecord.id).Nodup := by
  have hkeys : (normalizedRecordsById rows).values.map ManagedWorktreeRecord.id =
      (normalizedRecordsById rows).keys := by
    rw [Table.values, List.map_map]
    refine List.map_congr_left fun e he => ?_
    exact (mirrors_normalizedRecordsById hids).key_eq (AList.mem_lookup_iff.mpr he)
  rw [normalizedRecords, ((List.perm_insertionSort _ _).map ManagedWorktreeRecord.id).nodup_iff, hkeys]
  exact (normalizedRecordsById rows).keys_nodup

theorem pairwise_normalizedRecords (rows : List ManagedWorktreeRecord) :
    (normalizedRecords rows).Pairwise fun a b => recordBefore a b = true := by
  have : Std.Total fun a b : ManagedWorktreeRecord => recordBefore a b = true := ⟨recordBefore_total⟩
  have : IsTrans ManagedWorktreeRecord fun a b => recordBefore a b = true := ⟨fun _ _ _ => recordBefore_trans⟩
  exact List.pairwise_insertionSort _ _

theorem recordsMerged (hids : (rows.map ManagedWorktreeRecord.id).Nodup) :
    RecordsMerged (normalizedRecords rows) (mergedRecords rows) :=
  recordsMerged_foldl (nodup_normalizedRecords hids)

end

/-! ## The writes of the records -/

def targetId (r : ManagedWorktreeRecord) (rows : List ManagedWorktreeRecord) : String :=
  ((rows.find? fun row => ToolStore.worktreeIdentity row = ToolStore.worktreeIdentity r).map
    ManagedWorktreeRecord.id).getD r.id

/-- The rows after `upsert_managed_worktree`. -/
def upsertRow (rows : List ManagedWorktreeRecord) (r : ManagedWorktreeRecord) : List ManagedWorktreeRecord :=
  upsert ManagedWorktreeRecord.id (fun _ new => new) { r with id := targetId r rows } rows

def recordWrites (rows : List ManagedWorktreeRecord) (now : ℤ) : List ManagedWorktreeRecord :=
  (mergedRecords rows).mergedWinners.sortedValues textBefore ++
    ((((mergedRecords rows).loserToWinner.keys.insertionSort fun a b => textBefore a b) ++
      (mergedRecords rows).malformedIds.insertionSort fun a b => textBefore a b).filterMap
        (normalizedRecordsById rows).lookup).map fun record => tombstoneRecord record now

section

variable {w : Worktrees}

theorem upsertRecord_after (r : ManagedWorktreeRecord) :
    After (onWorktreeStore (ToolStore.upsertManagedWorktree r)) w fun res w' =>
      res = .ok () → w'.scene.worktrees = upsertRow w.scene.worktrees r := by
  refine after_write (fun e w' _ he => by cases he) fun faults _ => ?_
  simp only [Worktrees.scene, upsertRow, targetId]
  split
  · next existing hfound => rw [hfound]; rfl
  · next hnone => rw [hnone]; rfl

theorem upsertRecords_after (records : List ManagedWorktreeRecord) :
    After (records.forM fun r => onWorktreeStore (ToolStore.upsertManagedWorktree r)) w fun res w' =>
      res = .ok () → w'.scene.worktrees = records.foldl upsertRow w.scene.worktrees := by
  induction records generalizing w with
  | nil => exact (after_pure _ _ _).mpr fun _ => rfl
  | cons r records ih =>
    refine after_bind (upsertRecord_after r) (fun _ w₁ h₁ => ?_) fun e w₁ _ he => by cases he
    refine ih.mono fun res w' h he => (h he).trans ?_
    rw [h₁ rfl]
    rfl

theorem upsertTombstones_after (byId : Table String ManagedWorktreeRecord) (now : ℤ) (ids : List String) :
    After (ids.forM (upsertTombstone byId now)) w fun res w' => res = .ok () → w'.scene.worktrees =
      ((ids.filterMap byId.lookup).map fun r => tombstoneRecord r now).foldl upsertRow w.scene.worktrees := by
  induction ids generalizing w with
  | nil => exact (after_pure _ _ _).mpr fun _ => rfl
  | cons id ids ih =>
    have hfirst : After (upsertTombstone byId now id) w fun res w' => res = .ok () → w'.scene.worktrees =
        (([id].filterMap byId.lookup).map fun r => tombstoneRecord r now).foldl upsertRow w.scene.worktrees := by
      unfold upsertTombstone
      cases hl : byId.lookup id with
      | none => simp [hl]
      | some record =>
        refine (upsertRecord_after _).mono fun res w' h he => (h he).trans ?_
        simp [hl]
    refine after_bind hfirst (fun _ w₁ h₁ => ?_) fun e w₁ _ he => by cases he
    refine ih.mono fun res w' h he => (h he).trans ?_
    rw [h₁ rfl, ← List.foldl_append, ← List.map_append, ← List.filterMap_append]
    rfl

theorem upsertClaims_worktrees (claims : List ManagedWorktreeClaimRecord) :
    After (claims.forM fun claim => onWorktreeStore (ToolStore.upsertManagedWorktreeClaim claim)) w fun _ w' =>
      w'.scene.worktrees = w.scene.worktrees := by
  refine after_forM (I := fun w' : Worktrees => w'.scene.worktrees = w.scene.worktrees) _ _ (fun claim _ w' h => ?_) rfl
  exact after_write (fun e w'' he => (congrArg Scene.worktrees he).trans h) fun faults => h

theorem repairStartupState_records (hydrated : ToolStore) : After (repairStartupState hydrated) w fun res w' =>
    res = .ok () →
      w'.scene.worktrees = (recordWrites hydrated.worktrees w.clock).foldl upsertRow w.scene.worktrees := by
  unfold repairStartupState
  rw [after_bind_iff, after_get]
  refine after_bind (upsertRecords_after _) (fun _ w₁ h₁ => ?_) fun e w₁ _ he => by cases he
  refine after_bind (upsertTombstones_after _ _ _) (fun _ w₂ h₂ => ?_) fun e w₂ _ he => by cases he
  refine after_bind (upsertTombstones_after _ _ _) (fun _ w₃ h₃ => ?_) fun e w₃ _ he => by cases he
  refine after_bind (upsertClaims_worktrees _) (fun _ w₄ h₄ => ?_) fun e w₄ _ he => by cases he
  refine (upsertClaims_worktrees _).mono fun res w' h _ => ?_
  rw [h, h₄, h₃ rfl, h₂ rfl, h₁ rfl]
  simp only [recordWrites, List.foldl_append, List.filterMap_append, List.map_append]

theorem after_sureWrite {f : ToolStore → ToolStore} (hf : ∀ s, (f s).base = s.base) (h : w.store.base.faults = []) :
    After (onWorktreeStore (ToolStore.write f)) w fun res w' => w'.store.base.faults = [] ∧ (True → res = .ok ()) := by
  rw [after_onWorktreeStore]
  unfold ToolStore.write
  rw [h]
  exact ⟨by rw [hf]; exact h, fun _ => rfl⟩

theorem upsertRecord_sure (r : ManagedWorktreeRecord) (h : w.store.base.faults = []) :
    After (onWorktreeStore (ToolStore.upsertManagedWorktree r)) w fun res w' =>
      w'.store.base.faults = [] ∧ (True → res = .ok ()) :=
  after_sureWrite (fun s => by split <;> rfl) h

theorem repairStartupState_sure (hydrated : ToolStore) (h : w.store.base.faults = []) :
    After (repairStartupState hydrated) w fun res _ => res = .ok () := by
  have htombstone : ∀ (byId : Table String ManagedWorktreeRecord) (now : ℤ) (id : String) (w : Worktrees),
      w.store.base.faults = [] → After (upsertTombstone byId now id) w fun res w' =>
        w'.store.base.faults = [] ∧ (True → res = .ok ()) := by
    intro byId now id w h
    unfold upsertTombstone
    split
    · exact upsertRecord_sure _ h
    · exact (after_pure _ _ _).mpr ⟨h, fun _ => rfl⟩
  have hclaim : ∀ (claim : ManagedWorktreeClaimRecord) (w : Worktrees), w.store.base.faults = [] →
      After (onWorktreeStore (ToolStore.upsertManagedWorktreeClaim claim)) w fun res w' =>
        w'.store.base.faults = [] ∧ (True → res = .ok ()) := fun _ _ h => after_sureWrite (fun _ => rfl) h
  unfold repairStartupState
  rw [after_bind_iff, after_get]
  refine after_bind (after_forM_ok _ _ (fun r _ w h => upsertRecord_sure r h) h) (fun _ w₁ h₁ => ?_) fun e w₁ h₁ => ?_
  · refine after_bind (after_forM_ok _ _ (fun id _ w h => htombstone _ _ id w h) h₁.1) (fun _ w₂ h₂ => ?_)
      fun e w₂ h₂ => ?_
    · refine after_bind (after_forM_ok _ _ (fun id _ w h => htombstone _ _ id w h) h₂.1) (fun _ w₃ h₃ => ?_)
        fun e w₃ h₃ => ?_
      · refine after_bind (after_forM_ok _ _ (fun claim _ w h => hclaim claim w h) h₃.1) (fun _ w₄ h₄ => ?_)
          fun e w₄ h₄ => ?_
        · exact (after_forM_ok _ _ (fun claim _ w h => hclaim claim w h) h₄.1).mono fun _ _ h => h.2 trivial
        · exact absurd (h₄.2 trivial) (by simp)
      · exact absurd (h₃.2 trivial) (by simp)
    · exact absurd (h₂.2 trivial) (by simp)
  · exact absurd (h₁.2 trivial) (by simp)

end

end Gooselake.Tools
