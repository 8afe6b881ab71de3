import Gooselake.Tools.WorktreeMoves

/-!
The directories of the worktrees. The name of a directory is made of the repository root and the branch
by two encodings that lose characters, and a record is looked up by its root, directory and branch
together: two plans may name one directory and be two records.
-/

namespace Gooselake.Tools

open Gooselake.Core Data Library Library.Exec

set_option autoImplicit false

def ManagedWorktreeRecord.live (r : ManagedWorktreeRecord) : Prop := isRecordTombstoned r = false

def DirectoriesDistinct (s : Scene) : Prop :=
  ∀ row ∈ s.worktrees, ∀ other ∈ s.worktrees, row.live → other.live → row.worktreeCwd = other.worktreeCwd → row = other

/-- The property: no two live records have one directory, and the next step of a cleanup leaves the directory
of every other live record where it is. -/
structure OneDirectory (s : WorktreeServer) : Prop where
  distinct : DirectoriesDistinct s.manager.scene
  cleanups : ∀ i c row s', s.calls.lookup i = some c → c.deleting = some row → s.step (.goOn i) = some s' →
    ∀ other ∈ s.manager.scene.worktrees, other.live → other.id ≠ row.id → other.worktreeCwd ∈ s.manager.scene.paths →
      other.worktreeCwd ∈ s'.manager.scene.paths

/-- A record is written only for a plan whose directory no live record of another root or branch has. -/
def directoryFree : WorktreeLabel → WorktreeServer → Bool
  | .goOn i, s => (s.calls.lookup i).all fun c => c.writes.all fun planned =>
    s.manager.scene.worktrees.all fun row =>
      isRecordTombstoned row || row.worktreeCwd ≠ planned.worktreeCwd || planned.identifies row
  | _, _ => true

/-! ## Identities -/

theorem isRecordTombstoned_of_identity {r r' : ManagedWorktreeRecord}
    (h : ToolStore.worktreeIdentity r = ToolStore.worktreeIdentity r') :
    isRecordTombstoned r = isRecordTombstoned r' := by
  simp only [ToolStore.worktreeIdentity, Prod.mk.injEq] at h
  unfold isRecordTombstoned
  rw [h.1, h.2.1, h.2.2]

theorem worktreeCwd_of_identity {r r' : ManagedWorktreeRecord}
    (h : ToolStore.worktreeIdentity r = ToolStore.worktreeIdentity r') : r.worktreeCwd = r'.worktreeCwd :=
  (Prod.mk.inj (Prod.mk.inj h).2).1

theorem identity_of_identifies {planned : PlannedWorktreePaths} {row : ManagedWorktreeRecord}
    (h : planned.identifies row = true) {id policy : String} {session operation : Option String} {now : ℤ} :
    ToolStore.worktreeIdentity row =
      ToolStore.worktreeIdentity (planned.record id policy session operation now) := by
  simp only [PlannedWorktreePaths.identifies, Bool.and_eq_true, decide_eq_true_eq] at h
  obtain ⟨⟨⟨-, hroot⟩, hcwd⟩, hbranch⟩ := h
  simp only [ToolStore.worktreeIdentity, PlannedWorktreePaths.record, hroot, hcwd, hbranch]

/-! ## The records -/

/-- The rows have different ids, each from the counter, and different directories. -/
structure Directories (s : Scene) : Prop where
  ids : ∀ row ∈ s.worktrees, ∃ n, n < s.nextWorktreeId ∧ row.id = numbered "wt" n
  nodup : (s.worktrees.map ManagedWorktreeRecord.id).Nodup
  distinct : DirectoriesDistinct s

def KeepsRows (s s' : Scene) : Prop :=
  ∀ row ∈ s.worktrees, ∃ row' ∈ s'.worktrees,
    row'.id = row.id ∧ ToolStore.worktreeIdentity row' = ToolStore.worktreeIdentity row

section

variable {s s' : Scene}

theorem Directories.of_same (h : Directories s) (hrows : s'.worktrees = s.worktrees)
    (hnext : s.nextWorktreeId ≤ s'.nextWorktreeId) : Directories s' where
  ids row hrow := by
    rw [hrows] at hrow
    obtain ⟨n, hn, hid⟩ := h.ids row hrow
    exact ⟨n, by omega, hid⟩
  nodup := by
    rw [hrows]
    exact h.nodup
  distinct row hrow other hother := by
    rw [hrows] at hrow hother
    exact h.distinct row hrow other hother

theorem KeepsRows.of_same (hrows : s'.worktrees = s.worktrees) : KeepsRows s s' := by
  intro row hrow
  rw [← hrows] at hrow
  exact ⟨row, hrow, rfl, rfl⟩

theorem Directories.replace (h : Directories s) {existing r : ManagedWorktreeRecord} (hmem : existing ∈ s.worktrees)
    (hid : r.id = existing.id) (hidentity : ToolStore.worktreeIdentity existing = ToolStore.worktreeIdentity r)
    (hrows : s'.worktrees = upsert ManagedWorktreeRecord.id (fun _ new => new) r s.worktrees)
    (hnext : s.nextWorktreeId ≤ s'.nextWorktreeId) : Directories s' ∧ KeepsRows s s' := by
  have hlive : r.live → existing.live := fun hr => (isRecordTombstoned_of_identity hidentity).trans hr
  have hcwd := worktreeCwd_of_identity hidentity
  -- a live row beside the new one has another directory
  have hother : ∀ row ∈ s.worktrees, row.id ≠ r.id → row.live → r.live → row.worktreeCwd ≠ r.worktreeCwd := by
    intro row hrow hne hl hr he
    have := h.distinct row hrow existing hmem hl (hlive hr) (he.trans hcwd.symm)
    exact hne (this ▸ hid.symm)
  refine ⟨⟨fun row hrow => ?_, ?_, fun row hrow other hrow' hl hl' he => ?_⟩, fun row hrow => ?_⟩
  · rw [hrows] at hrow
    rcases mem_upsert_new h.nodup hrow with rfl | ⟨hrow, -⟩
    · obtain ⟨n, hn, he⟩ := h.ids existing hmem
      exact ⟨n, by omega, hid.trans he⟩
    · obtain ⟨n, hn, he⟩ := h.ids row hrow
      exact ⟨n, by omega, he⟩
  · rw [hrows]
    exact nodup_upsert (fun _ => rfl) h.nodup
  · rw [hrows] at hrow hrow'
    rcases mem_upsert_new h.nodup hrow with rfl | ⟨hold, hne⟩
    · rcases mem_upsert_new h.nodup hrow' with rfl | ⟨hrow', hne'⟩
      · rfl
      · exact absurd he.symm (hother other hrow' hne' hl' hl)
    · rcases mem_upsert_new h.nodup hrow' with rfl | ⟨hrow', hne'⟩
      · exact absurd he (hother row hold hne hl hl')
      · exact h.distinct row hold other hrow' hl hl' he
  · by_cases hne : row.id = r.id
    · have : row = existing := List.inj_on_of_nodup_map h.nodup hrow hmem (hne.trans hid)
      subst this
      exact ⟨r, by rw [hrows]; exact mem_upsert_self _ _, hid, hidentity.symm⟩
    · exact ⟨row, by rw [hrows]; exact mem_upsert_of_ne (fun _ new => new) hrow hne, rfl, rfl⟩

theorem Directories.add (h : Directories s) {r : ManagedWorktreeRecord} (hid : r.id = numbered "wt" s.nextWorktreeId)
    (hfree : ∀ row ∈ s.worktrees, row.live → row.worktreeCwd ≠ r.worktreeCwd)
    (hrows : s'.worktrees = upsert ManagedWorktreeRecord.id (fun _ new => new) r s.worktrees)
    (hnext : s'.nextWorktreeId = s.nextWorktreeId + 1) : Directories s' ∧ KeepsRows s s' := by
  have hnew : ∀ row ∈ s.worktrees, row.id ≠ r.id := by
    intro row hrow he
    obtain ⟨n, hn, hn'⟩ := h.ids row hrow
    have := numbered_inj (hn'.symm.trans (he.trans hid))
    omega
  refine ⟨⟨fun row hrow => ?_, ?_, fun row hrow other hrow' hl hl' he => ?_⟩, fun row hrow => ?_⟩
  · rw [hrows] at hrow
    rcases mem_upsert_new h.nodup hrow with rfl | ⟨hrow, -⟩
    · exact ⟨s.nextWorktreeId, by omega, hid⟩
    · obtain ⟨n, hn, he⟩ := h.ids row hrow
      exact ⟨n, by omega, he⟩
  · rw [hrows]
    exact nodup_upsert (fun _ => rfl) h.nodup
  · rw [hrows] at hrow hrow'
    rcases mem_upsert_new h.nodup hrow with rfl | ⟨hold, -⟩
    · rcases mem_upsert_new h.nodup hrow' with rfl | ⟨hrow', -⟩
      · rfl
      · exact absurd he.symm (hfree other hrow' hl')
    · rcases mem_upsert_new h.nodup hrow' with rfl | ⟨hrow', -⟩
      · exact absurd he (hfree row hold hl)
      · exact h.distinct row hold other hrow' hl hl' he
  · exact ⟨row, by rw [hrows]; exact mem_upsert_of_ne (fun _ new => new) hrow (hnew row hrow), rfl, rfl⟩

theorem Directories.store (h : Directories s) {planned : PlannedWorktreePaths} {policy : String}
    {session operation : Option String} {now : ℤ}
    (hfree : ∀ row ∈ s.worktrees, row.live → row.worktreeCwd = planned.worktreeCwd → planned.identifies row = true)
    (hs : s' = s.allocated.store (planned.record (numbered "wt" s.nextWorktreeId) policy session operation now)) :
    Directories s' ∧ KeepsRows s s' := by
  subst hs
  cases hfound : s.worktrees.find? (fun row => ToolStore.worktreeIdentity row = ToolStore.worktreeIdentity
      (planned.record (numbered "wt" s.nextWorktreeId) policy session operation now)) with
  | some existing =>
    refine h.replace (r := { planned.record (numbered "wt" s.nextWorktreeId) policy session operation now with
      id := existing.id }) (List.mem_of_find?_eq_some hfound) rfl ?_ ?_ (Nat.le_succ _)
    · have hidentity := List.find?_some hfound
      rw [decide_eq_true_eq] at hidentity
      exact hidentity
    · simp only [Scene.store, Scene.allocated, hfound]
  | none =>
    refine h.add (r := planned.record (numbered "wt" s.nextWorktreeId) policy session operation now) rfl ?_ ?_ rfl
    · intro row hrow hl he
      have hidentity : ToolStore.worktreeIdentity row = ToolStore.worktreeIdentity
          (planned.record (numbered "wt" s.nextWorktreeId) policy session operation now) :=
        identity_of_identifies (hfree row hrow hl he)
      exact List.find?_eq_none.mp hfound row hrow (decide_eq_true hidentity)
    · simp only [Scene.store, Scene.allocated, hfound]

theorem Directories.rows (h : Directories s) {c : Option WorktreeCall} (hmove : RowMove c s s')
    (hfree : ∀ planned, c.bind WorktreeCall.writes = some planned → ∀ row ∈ s.worktrees, row.live →
      row.worktreeCwd = planned.worktreeCwd → planned.identifies row = true) :
    Directories s' ∧ KeepsRows s s' := by
  cases hmove with
  | same worktrees next => exact ⟨h.of_same worktrees next, .of_same worktrees⟩
  | stored planned policy session operation now call scene => exact h.store (hfree planned call) scene

end

/-! ## Steps -/

structure DirectoriesKept (s : WorktreeServer) : Prop where
  rows : Directories s.manager.scene
  released : Released s
  deleting : ∀ i c row, s.calls.lookup i = some c → c.deleting = some row → ∃ row' ∈ s.manager.scene.worktrees,
    row'.id = row.id ∧ ToolStore.worktreeIdentity row' = ToolStore.worktreeIdentity row ∧ row'.live

section

variable {s s' : WorktreeServer}

theorem KeepsRows.live {s s' : Scene} (h : KeepsRows s s') {row : ManagedWorktreeRecord}
    (hrow : ∃ row' ∈ s.worktrees, row'.id = row.id ∧
      ToolStore.worktreeIdentity row' = ToolStore.worktreeIdentity row ∧ row'.live) :
    ∃ row' ∈ s'.worktrees, row'.id = row.id ∧
      ToolStore.worktreeIdentity row' = ToolStore.worktreeIdentity row ∧ row'.live := by
  obtain ⟨row₁, hrow₁, hid, hidentity, hl⟩ := hrow
  obtain ⟨row₂, hrow₂, hid', hidentity'⟩ := h row₁ hrow₁
  exact ⟨row₂, hrow₂, hid'.trans hid, hidentity'.trans hidentity,
    (isRecordTombstoned_of_identity hidentity').trans hl⟩

theorem directoriesKept_step (h : DirectoriesKept s) {l : WorktreeLabel} (hcond : directoryFree l s = true)
    (hs : WorktreeServer.step l s = some s') : DirectoriesKept s' := by
  have hreleased := released_step h.released hs
  cases WorktreeServer.step_moves h.released hs with
  | begun i op server gentle =>
    obtain ⟨hrows, hkeeps⟩ := h.rows.rows gentle.rows fun planned he => by cases he
    refine ⟨hrows, hreleased, fun j call row hj hrow => ?_⟩
    subst server
    rcases WorktreeServer.settle_lookup hj with hr | hj
    · rcases gentle.deleting call row hr hrow with hbefore | ⟨-, hmem, hl⟩
      · cases hbefore
      · exact ⟨row, hmem, rfl, rfl, hl⟩
    · exact hkeeps.live (h.deleting j call row hj hrow)
  | went i c call server gentle =>
    obtain ⟨hrows, hkeeps⟩ := h.rows.rows gentle.rows fun planned he row hrow hl hcwd => by
      have he : c.writes = some planned := he
      simp only [directoryFree, call, Option.all_some, he, List.all_eq_true, Bool.or_eq_true,
        decide_eq_true_eq] at hcond
      rcases hcond row hrow with (ht | hne) | hid
      · exact absurd (hl.symm.trans ht) Bool.false_ne_true
      · exact absurd hcwd hne
      · exact hid
    refine ⟨hrows, hreleased, fun j call' row hj hrow => ?_⟩
    subst server
    rcases WorktreeServer.settle_lookup hj with hr | hj
    · rcases gentle.deleting call' row hr hrow with hbefore | ⟨-, hmem, hl⟩
      · exact hkeeps.live (h.deleting i c row call hbefore)
      · exact ⟨row, hmem, rfl, rfl, hl⟩
    · exact hkeeps.live (h.deleting j call' row hj hrow)
  | claimed i worktree claim call scene calls =>
    have hworktrees : s'.manager.scene.worktrees = s.manager.scene.worktrees := by
      rcases scene with scene | scene <;> rw [scene]
      rfl
    have hnext : s.manager.scene.nextWorktreeId ≤ s'.manager.scene.nextWorktreeId := by
      rcases scene with scene | scene <;> rw [scene]
      exact le_rfl
    exact ⟨h.rows.of_same hworktrees hnext, hreleased, fun j call' row hj hrow =>
      (KeepsRows.of_same hworktrees).live (h.deleting j call' row (calls j call' hj) hrow)⟩
  | outside _ claims worktrees next calls =>
    refine ⟨h.rows.of_same worktrees (le_of_eq next.symm), hreleased, fun j call' row hj hrow => ?_⟩
    rw [calls] at hj
    exact (KeepsRows.of_same worktrees).live (h.deleting j call' row hj hrow)

theorem deleting_piece {w : Worktrees} {c : WorktreeCall} {row : ManagedWorktreeRecord} (h : c.deleting = some row) :
    After c.piece w fun _ w' =>
      w'.scene.paths = w.scene.paths ∨ w'.scene.paths = w.scene.paths.filter (· ≠ row.worktreeCwd) := by
  cases c with
  | cleanupLock c k =>
    obtain rfl := Option.some.inj h
    have hdone : ∀ {w' : Worktrees}, w'.scene = w.scene ∨ w'.scene = w.scene.removePath c.worktree.worktreeCwd →
        w'.scene.paths = w.scene.paths ∨ w'.scene.paths = w.scene.paths.filter (· ≠ c.worktree.worktreeCwd) := by
      intro w' h
      exact h.imp (congrArg Scene.paths) (congrArg Scene.paths)
    exact after_bind (cleanupDirectory_after c) (fun c' w' h => (after_pure _ _ _).mpr (hdone h.1)) fun e w' h =>
      hdone h.1
  | cleanupShowRef c k =>
    refine after_bind (cleanupShowRef_after c) (fun shown w' h => ?_) fun e w' h =>
      .inl (congrArg Scene.paths h.1)
    exact (after_pure _ _ _).mpr (.inl (congrArg Scene.paths h.1))
  | cleanupBranch c k =>
    have hdone : ∀ {w' : Worktrees}, w'.scene = w.scene ∨
        w'.scene = w.scene.removeBranch c.worktree.repoRoot c.worktree.branchName →
        w'.scene.paths = w.scene.paths := by
      intro w' h
      rcases h with h | h <;> rw [h]
      rfl
    exact after_bind (cleanupBranch_after c) (fun c' w' h => (after_pure _ _ _).mpr (.inl (hdone h.1))) fun e w' h =>
      .inl (hdone h.1)
  | cleanupEnd c k =>
    refine after_bind (quiet_cleanupEnd c w) (fun response w₁ h₁ => ?_) fun e w₁ h₁ => .inl (congrArg Scene.paths h₁)
    refine (quiet_resume k (.ok response) w₁).mono fun _ w' h => .inl ?_
    exact congrArg Scene.paths (h.trans h₁)
  | _ => cases h

theorem DirectoriesKept.oneDirectory (h : DirectoriesKept s) : OneDirectory s := by
  refine ⟨h.rows.distinct, fun i c row s' hc hrow hs other hother hl hne hpath => ?_⟩
  simp only [WorktreeServer.step, hc, Option.bind_eq_bind, Option.bind_some] at hs
  split at hs
  · cases hs
  obtain rfl := Option.some.inj hs
  obtain ⟨row', hrow', hid, hidentity, hl'⟩ := h.deleting i c row hc hrow
  have hcwd : other.worktreeCwd ≠ row.worktreeCwd := by
    intro he
    have heq := h.rows.distinct other hother row' hrow' hl hl' (he.trans (worktreeCwd_of_identity hidentity).symm)
    exact hne (heq ▸ hid)
  simp only [WorktreeServer.settle]
  rcases (deleting_piece (w := s.manager) hrow).out with hpaths | hpaths <;> rw [hpaths]
  · exact hpath
  · exact List.mem_filter.mpr ⟨hpath, decide_eq_true hcwd⟩

end

/-! ## Directories in every run -/

/-- In every run from a service without records, on whatever disk, that meets the condition. -/
theorem worktree_directories_distinct {w : Worktrees} {s : WorktreeServer} (hw : w.store.worktrees = [])
    (hr : Reaches WorktreeServer.step (fun l s => directoryFree l s = true) (.start w) s) : OneDirectory s := by
  have hscene : w.scene.worktrees = [] := hw
  have hstart : DirectoriesKept (.start w) := by
    refine ⟨⟨fun row hrow => ?_, ?_, fun row hrow => ?_⟩, released_start w, fun i c row hi => ?_⟩
    · rw [show (WorktreeServer.start w).manager.scene.worktrees = [] from hscene] at hrow
      cases hrow
    · rw [show (WorktreeServer.start w).manager.scene.worktrees = [] from hscene]
      exact List.nodup_nil
    · rw [show (WorktreeServer.start w).manager.scene.worktrees = [] from hscene] at hrow
      cases hrow
    · simp [WorktreeServer.start] at hi
  exact (hr.invariant hstart fun _ _ _ h hp hs => directoriesKept_step h hp hs).oneDirectory

def twoWorktrees : List WorktreeLabel :=
  .start 0 (.create ⟨none, "sess_codex_0_1", none, "one", none, none, some "delete_on_last_claim", none, none, none⟩
    (.ok sourceSession)) :: List.replicate 7 (.goOn 0) ++
  .start 1 (.create ⟨none, "sess_codex_0_1", none, "two", none, none, none, none, none, none⟩
    (.ok sourceSession)) :: List.replicate 7 (.goOn 1) ++
  [.start 2 (.cleanup ⟨"wt_1", none⟩), .goOn 2, .goOn 2]

theorem worktree_directories_distinct_two : ∃ s : WorktreeServer,
    s.manager.scene.worktrees.map ManagedWorktreeRecord.id = ["wt_1", "wt_2"] ∧ s.calls.keys = [2] ∧
      OneDirectory s := by
  obtain ⟨s, hs, he⟩ := exists_reaches_of_runAll WorktreeServer.step directoryFree twoWorktrees
    (fun s => (s.manager.scene.worktrees.map ManagedWorktreeRecord.id, s.calls.keys)) (["wt_1", "wt_2"], [2])
    (s := .start Worktrees.first) (by decide +kernel)
  obtain ⟨hids, hcalls⟩ := Prod.mk.inj he
  exact ⟨s, hids, hcalls, worktree_directories_distinct rfl hs⟩

/-- The directory of branch `a/b--c` is adopted for branch `a--b/c`. -/
def adoptedDirectory : List WorktreeLabel :=
  .start 0 (.create ⟨none, "sess_codex_0_1", none, "b--c", some "a", none, some "delete_on_last_claim",
    none, none, none⟩
    (.ok sourceSession)) :: List.replicate 7 (.goOn 0) ++
  .start 1 (.reuse "/repo" "c" (some "a--b")) :: List.replicate 4 (.goOn 1)

theorem not_worktree_directories_distinct : ¬ ∀ (w : Worktrees) (s : WorktreeServer), w.store.worktrees = [] →
    Reaches WorktreeServer.step (fun _ _ => True) (.start w) s → OneDirectory s := by
  intro hall
  obtain ⟨s, hs, he⟩ := exists_reaches_of_runAll WorktreeServer.step (fun _ _ => true) adoptedDirectory
    (fun s => s.manager.scene.worktrees.map fun row => (row.id, row.worktreeCwd, isRecordTombstoned row))
    [("wt_1", "/worktrees/repo/a--b--c", false), ("wt_2", "/worktrees/repo/a--b--c", false)]
    (s := .start Worktrees.first) (by decide +kernel)
  have hdistinct := (hall _ s rfl (hs.mono fun _ _ _ => trivial)).distinct
  obtain ⟨row, rest, hrows, hrow, hrest⟩ := List.map_eq_cons_iff.mp he
  obtain ⟨other, rest', rfl, hother, -⟩ := List.map_eq_cons_iff.mp hrest
  simp only [Prod.mk.injEq] at hrow hother
  have := hdistinct row (by simp [hrows]) other (by simp [hrows]) hrow.2.2 hother.2.2 (hrow.2.1.trans hother.2.1.symm)
  rw [this, hother.1] at hrow
  exact absurd hrow.1 (by decide)

end Gooselake.Tools
