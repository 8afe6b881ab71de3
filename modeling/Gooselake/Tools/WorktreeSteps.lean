import Gooselake.Tools.WorktreeServer

/-!
What the pieces of the worktree service do to the records, the claims and the disk. Most pieces leave
all of them alone; the others make one change each.
-/

namespace Gooselake.Tools

open Gooselake.Core Data Library Library.Exec

set_option autoImplicit false

/-- The records, the claims, the directories and the branches, under the service's configuration. -/
structure Scene where
  config : WorktreeServiceConfig
  worktrees : List ManagedWorktreeRecord
  claims : List ManagedWorktreeClaimRecord
  paths : List String
  branches : List (String × String)
  nextWorktreeId : ℕ

def Worktrees.scene (w : Worktrees) : Scene :=
  ⟨w.config, w.store.worktrees, w.store.claims, w.disk.paths, w.disk.branches, w.nextWorktreeId⟩

def Scene.activeClaims (s : Scene) (worktreeId : String) : List ManagedWorktreeClaimRecord :=
  s.claims.filter fun row => row.worktreeId = worktreeId && row.active

abbrev Quiet {α : Type} (m : WorktreeM α) : Prop := Preserves Worktrees.scene m

section

variable {w : Worktrees}

/-! ## The store -/

theorem after_onWorktreeStore {α : Type} (f : ToolStore → Except RuntimeError α × ToolStore)
    (Q : Except RuntimeError α → Worktrees → Prop) :
    After (onWorktreeStore f) w Q ↔ Q (f w.store).1 { w with store := (f w.store).2 } := by
  simp [onWorktreeStore, after_bind_iff]

theorem ToolStore.write_out (f : ToolStore → ToolStore) (s : ToolStore) :
    ∃ faults, ToolStore.write f s = (.error Store.writeError, { s with base := { s.base with faults := faults } }) ∨
      ToolStore.write f s = (.ok (), f { s with base := { s.base with faults := faults } }) := by
  unfold ToolStore.write
  split
  · next rest _ => exact ⟨rest, .inl rfl⟩
  · next rest _ _ => exact ⟨rest, .inr rfl⟩
  · exact ⟨s.base.faults, .inr rfl⟩

theorem after_write {f : ToolStore → ToolStore} {Q : Except RuntimeError Unit → Worktrees → Prop}
    (herr : ∀ e w', w'.scene = w.scene → Q (.error e) w')
    (hok : ∀ faults, Q (.ok ()) { w with store := f { w.store with base := { w.store.base with faults := faults } } }) :
    After (onWorktreeStore (ToolStore.write f)) w Q := by
  rw [after_onWorktreeStore]
  obtain ⟨faults, h | h⟩ := ToolStore.write_out f w.store
  · rw [h]
    exact herr _ _ rfl
  · rw [h]
    exact hok faults

theorem hydrateRuntimeState_after : After hydrateRuntimeState w fun r w' => w'.scene = w.scene ∧
    ∀ store, r = .ok store → store.worktrees = w.store.worktrees ∧ store.claims = w.store.claims := by
  unfold hydrateRuntimeState
  rw [after_bind_iff]
  refine after_write (fun e w' h => ⟨h, fun _ he => by cases he⟩) fun faults => ?_
  simp only [after_bind_iff, after_get, after_pure]
  refine ⟨rfl, fun store hs => ?_⟩
  obtain rfl := Except.ok.inj hs
  exact ⟨rfl, rfl⟩

theorem quiet_hydrateRuntimeState : Quiet hydrateRuntimeState := fun _ =>
  hydrateRuntimeState_after.mono fun _ _ h => h.1

theorem readOnly_ensureEnabled : ReadOnly ensureEnabled :=
  .bind .get fun _ => .ite (.pure ()) (.throw _)

theorem quiet_ensureEnabled : Quiet ensureEnabled := readOnly_ensureEnabled.preserves

theorem quiet_appendRuntimeEvent (event : NewRuntimeEvent) :
    Quiet (onWorktreeStore (ToolStore.appendRuntimeEvent event)) := fun _ =>
  (after_onWorktreeStore _ _).mpr rfl

theorem appendWorktreeEvent_after (worktreeId kind : String) (payload : Json) (sessionId teamId : Option String) :
    After (appendWorktreeEvent worktreeId kind payload sessionId teamId) w fun r w' =>
      r = .ok () ∧ w'.scene = w.scene := by
  simp only [appendWorktreeEvent, after_bind_iff, after_get, after_modify, after_attempt]
  refine (quiet_appendRuntimeEvent _ _).elim (fun _ _ h => ?_) fun _ _ h => ?_ <;>
  exact (after_pure _ _ _).mpr ⟨rfl, h⟩

theorem quiet_appendWorktreeEvent (worktreeId kind : String) (payload : Json) (sessionId teamId : Option String) :
    Quiet (appendWorktreeEvent worktreeId kind payload sessionId teamId) := fun _ =>
  (appendWorktreeEvent_after worktreeId kind payload sessionId teamId).mono fun _ _ h => h.2

theorem quiet_appendDiagnostic (operationId teamId : Option String) (code message : String) (payload : Json)
    (now : ℤ) :
    Quiet (onWorktreeStore (ToolStore.appendTeamOperationDiagnostic operationId teamId code message payload now)) :=
  fun _ => after_write (fun _ _ h => h) fun _ => rfl

theorem noteDiagnostic_after (operationId teamId : Option String) (code message : String) (payload : Json) :
    After (noteDiagnostic operationId teamId code message payload) w fun r w' => r = .ok () ∧ w'.scene = w.scene := by
  simp only [noteDiagnostic, after_bind_iff, after_get, after_attempt]
  refine (quiet_appendDiagnostic operationId teamId code message payload w.clock w).elim (fun _ _ h => ?_)
    fun _ _ h => ?_ <;>
  exact (after_pure _ _ _).mpr ⟨rfl, h⟩

theorem quiet_noteDiagnostic (operationId teamId : Option String) (code message : String) (payload : Json) :
    Quiet (noteDiagnostic operationId teamId code message payload) := fun _ =>
  (noteDiagnostic_after operationId teamId code message payload).mono fun _ _ h => h.2

/-! ## Git and the file system -/

theorem nextRun_after : After nextRun w fun r w' => (∃ run, r = .ok run) ∧ w'.scene = w.scene := by
  simp only [nextRun, changeDisk, after_bind_iff, after_get, after_modify, after_pure]
  exact ⟨⟨_, rfl⟩, rfl⟩

theorem runGitForRepo_after (args : List String) (allowedExitCodes : List ℤ) {work : Disk → Disk}
    {Q : Scene → Prop} (hstay : Q w.scene)
    (hwork : ∀ d : Disk, d.paths = w.disk.paths → d.branches = w.disk.branches →
      Q { w.scene with paths := (work d).paths, branches := (work d).branches }) :
    After (runGitForRepo args allowedExitCodes work) w fun _ w' => Q w'.scene := by
  simp only [runGitForRepo, nextRun, changeDisk, after_bind_iff, after_get, after_modify, after_pure]
  have hend : ∀ (w' : Worktrees) (code : ℤ) (error : String), Q w'.scene →
      After (if code ≠ 0 ∧ code ∉ allowedExitCodes then
        throw (.io error) else pure () : WorktreeM Unit) w' fun _ w'' => Q w''.scene := by
    intro w' code error hq
    split
    · exact (after_throw _ _ _).mpr hq
    · exact (after_pure _ _ _).mpr hq
  split
  · exact (after_throw _ _ _).mpr hstay
  · next code _ =>
    split
    · rw [after_bind_iff, after_modify]
      exact hend _ code _ (hwork _ rfl rfl)
    · exact hend _ code _ hstay

theorem quiet_showRef (repoRoot branchName : String) : Quiet (showRef repoRoot branchName) := by
  refine .bind (fun w => ?_) fun _ => .bind .get fun _ => .pure _
  refine runGitForRepo_after (Q := fun s => s = w.scene) _ _ rfl fun d hp hb => ?_
  simp only [id, hp, hb]
  rfl

theorem showRef_after (repoRoot branchName : String) : After (showRef repoRoot branchName) w fun r w' =>
    w'.scene = w.scene ∧ ∀ there, r = .ok there → there = decide ((repoRoot, branchName) ∈ w.disk.branches) := by
  refine ((quiet_showRef repoRoot branchName w).and ?_).mono fun _ _ h => h
  simp only [showRef, after_bind_iff]
  refine (runGitForRepo_after (Q := fun s => s = w.scene) _ _ rfl fun d hp hb => by
    simp only [id, hp, hb]; rfl).elim (fun _ w' h => ?_) fun _ _ _ _ he => by cases he
  simp only [after_get, after_pure]
  intro there he
  have hbranches : w'.disk.branches = w.disk.branches := congrArg Scene.branches h
  rw [← Except.ok.inj he, hbranches]

theorem readOnly_pathExists (path : String) : ReadOnly (pathExists path) := .bind .get fun _ => .pure _

theorem after_pathExists (path : String) (Q : Except RuntimeError Bool → Worktrees → Prop) :
    After (pathExists path) w Q ↔ Q (.ok (decide (path ∈ w.disk.paths))) w := by
  simp only [pathExists, after_bind_iff, after_get, after_pure]

def Scene.addWorktree (s : Scene) (repoRoot worktreeCwd branchName : String) : Scene :=
  { s with paths := worktreeCwd :: s.paths, branches := (repoRoot, branchName) :: s.branches }

def Scene.removePath (s : Scene) (path : String) : Scene := { s with paths := s.paths.filter (· ≠ path) }

def Scene.removeBranch (s : Scene) (repoRoot branchName : String) : Scene :=
  { s with branches := s.branches.filter (· ≠ (repoRoot, branchName)) }

theorem gitWorktreeAdd_after (repoRoot worktreeCwd branchName : String) (baseRef : Option String) :
    After (gitWorktreeAdd repoRoot worktreeCwd branchName baseRef) w fun _ w' =>
      w'.scene = w.scene ∨ w'.scene = w.scene.addWorktree repoRoot worktreeCwd branchName := by
  refine runGitForRepo_after (Q := fun s => s = w.scene ∨ s = w.scene.addWorktree repoRoot worktreeCwd branchName)
    _ _ (.inl rfl) fun d hp hb => .inr ?_
  simp only [hp, hb]
  rfl

theorem gitWorktreeRemove_after (worktreeCwd : String) : After (gitWorktreeRemove worktreeCwd) w fun _ w' =>
    w'.scene = w.scene ∨ w'.scene = w.scene.removePath worktreeCwd := by
  refine runGitForRepo_after (Q := fun s => s = w.scene ∨ s = w.scene.removePath worktreeCwd) _ _ (.inl rfl)
    fun d hp hb => .inr ?_
  simp only [hp, hb]
  rfl

theorem gitBranchDelete_after (repoRoot branchName : String) : After (gitBranchDelete repoRoot branchName) w fun _ w' =>
    w'.scene = w.scene ∨ w'.scene = w.scene.removeBranch repoRoot branchName := by
  refine runGitForRepo_after (Q := fun s => s = w.scene ∨ s = w.scene.removeBranch repoRoot branchName) _ _ (.inl rfl)
    fun d hp hb => .inr ?_
  simp only [hp, hb]
  rfl

theorem quiet_resolveRepoRootFromSourceCwd (sourceCwd : String) : Quiet (resolveRepoRootFromSourceCwd sourceCwd) := by
  refine .bind (fun _ => nextRun_after.mono fun _ _ h => h.2) fun run => ?_
  split
  · exact .throw _
  · refine .bind .get fun _ => .bind (.orThrow _ _) fun root => ?_
    split
    · exact .throw _
    · exact .pure _

theorem quiet_hasLiveArtifactsForRecord (record : ManagedWorktreeRecord) :
    Quiet (hasLiveArtifactsForRecord record) := by
  refine .bind (readOnly_pathExists _).preserves
    fun there => .ite (.pure _) (.bind (quiet_showRef _ _).attempt fun r => ?_)
  split <;> exact .pure _

/-! ## create_worktree -/

theorem quiet_createPlan (request : WorktreeCreateRequest) (source : Except RuntimeError SessionRecord) :
    Quiet (createPlan request source) := by
  refine .bind quiet_ensureEnabled fun _ => .bind (.ofExcept _) fun session => .bind (.orThrow _ _) fun cwd => ?_
  split
  · exact .bind (.pure _) fun _ => .bind .get fun _ => .pure _
  · exact .bind (quiet_resolveRepoRootFromSourceCwd _) fun _ => .bind .get fun _ => .pure _

def Scene.found (s : Scene) (planned : PlannedWorktreePaths) : Option (ManagedWorktreeRecord × ℕ) :=
  (s.worktrees.find? planned.identifies).map fun existing => (existing, (s.activeClaims existing.id).length)

theorem createLookup_after (planned : PlannedWorktreePaths) : After (createLookup planned) w fun r w' =>
    w'.scene = w.scene ∧ ∀ found, r = .ok found → found = w.scene.found planned := by
  unfold createLookup
  refine after_bind hydrateRuntimeState_after (fun store w' h => ?_) fun e w' h => ⟨h.1, fun _ he => by cases he⟩
  obtain ⟨hworktrees, hclaims⟩ := h.2 store rfl
  refine (after_pure _ _ _).mpr ⟨h.1, fun found hf => ?_⟩
  rw [← Except.ok.inj hf, worktreeByIdentity, hworktrees]
  simp only [activeClaimsFor, hclaims]
  rfl

theorem quiet_createExisting (found : Option (ManagedWorktreeRecord × ℕ)) : Quiet (createExisting found) := by
  cases found with
  | none => exact .pure _
  | some f => exact .bind (quiet_hasLiveArtifactsForRecord _) fun _ => .pure _

def Scene.withPaths (s : Scene) (paths : List String) : Scene := { s with paths := paths }

theorem createRoot_after (planned : PlannedWorktreePaths) : After (createRoot planned) w fun r w' =>
    (w'.scene = w.scene ∨ w'.scene = w.scene.withPaths (planned.worktreeRoot :: w.scene.paths)) ∧
      (r = .ok () → (planned.repoRoot, planned.branchName) ∉ w.scene.branches ∧
        planned.worktreeCwd ∉ w.scene.paths) := by
  unfold createRoot
  refine after_bind (showRef_after _ _) (fun branchThere w₁ h₁ => ?_) fun e w₁ h₁ => ⟨.inl h₁.1, fun he => by cases he⟩
  have hbranch := h₁.2 branchThere rfl
  have hpaths : w₁.disk.paths = w.scene.paths := congrArg Scene.paths h₁.1
  rw [after_bind_iff, after_pathExists]
  dsimp only
  split
  · exact (after_bind_iff _ _ _ _).mpr ((after_throw _ _ _).mpr ⟨.inl h₁.1, fun he => by cases he⟩)
  · next hfree =>
    rw [hpaths, Bool.or_eq_true, not_or, hbranch, decide_eq_true_eq, decide_eq_true_eq] at hfree
    simp only [createDirAll, changeDisk, after_bind_iff, after_get, after_modify]
    split
    · exact (after_throw _ _ _).mpr ⟨.inl h₁.1, fun he => by cases he⟩
    · refine (after_modify _ _ _).mpr ⟨.inr ?_, fun _ => hfree⟩
      rw [← h₁.1]
      rfl

theorem quiet_createInit (request : WorktreeCreateRequest) : Quiet (createInit request) := by
  refine .ite (Preserves.attempt ?_) (.pure _)
  refine .bind .get fun _ => .bind (.modify fun _ => rfl) fun _ => ?_
  split
  · exact .pure _
  · split
    · exact .throw _
    · exact .ite (.pure _) (.throw _)

theorem createUndoWorktree_after (request : WorktreeCreateRequest) (planned : PlannedWorktreePaths)
    (error : RuntimeError) : After (createUndoWorktree request planned error) w fun _ w' =>
      w'.scene = w.scene ∨ w'.scene = w.scene.removePath planned.worktreeCwd := by
  unfold createUndoWorktree
  refine after_bind (quiet_noteDiagnostic _ _ _ _ _ w) (fun _ w₁ h₁ => ?_) fun e w₁ h₁ => .inl h₁
  rw [after_bind_iff, after_attempt]
  refine (gitWorktreeRemove_after (w := w₁) _).mono fun _ w₂ h₂ => (after_pure _ _ _).mpr ?_
  rw [h₁] at h₂
  exact h₂

theorem createUndoBranch_after (planned : PlannedWorktreePaths) : After (createUndoBranch planned) w fun _ w' =>
    w'.scene = w.scene ∨ w'.scene = w.scene.removeBranch planned.repoRoot planned.branchName := by
  unfold createUndoBranch
  rw [after_bind_iff, after_attempt]
  exact (gitBranchDelete_after _ _).mono fun _ w₂ h₂ => (after_pure _ _ _).mpr h₂

def Scene.allocated (s : Scene) : Scene := { s with nextWorktreeId := s.nextWorktreeId + 1 }

def Scene.store (s : Scene) (r : ManagedWorktreeRecord) : Scene :=
  { s with worktrees := match s.worktrees.find? fun row => ToolStore.worktreeIdentity row = ToolStore.worktreeIdentity r with
    | some existing => upsert ManagedWorktreeRecord.id (fun _ new => new) { r with id := existing.id } s.worktrees
    | none => upsert ManagedWorktreeRecord.id (fun _ new => new) r s.worktrees }

theorem upsertWorktreeWrite_after (planned : PlannedWorktreePaths) (policy : String)
    (session operation : Option String) :
    After (upsertWorktreeWrite planned policy session operation) w fun r w' =>
      (w'.scene = w.scene.allocated ∧ r ≠ .ok ()) ∨ w'.scene =
        w.scene.allocated.store (planned.record (numbered "wt" w.nextWorktreeId) policy session operation w.clock) := by
  simp only [upsertWorktreeWrite, allocateWorktreeId, after_bind_iff, after_get, after_modify, after_pure]
  refine after_write (fun e w' h => .inl ⟨h, fun he => by cases he⟩) fun faults => .inr ?_
  simp only [Worktrees.scene, Scene.allocated, Scene.store]
  generalize w.store.worktrees.find? _ = existing
  cases existing <;> rfl

theorem createWrite_after (request : WorktreeCreateRequest) (planned : PlannedWorktreePaths) :
    After (createWrite request planned) w fun r w' => (w'.scene = w.scene.allocated ∧ r ≠ .ok ()) ∨
      w'.scene = w.scene.allocated.store (planned.record (numbered "wt" w.nextWorktreeId)
        (normalizeDeletionPolicy w.config request.deletionPolicy) request.createdBySessionId request.operationId
          w.clock) := by
  simp only [createWrite, after_bind_iff, after_get]
  exact upsertWorktreeWrite_after _ _ _ _

theorem upsertWorktreeRead_after (planned : PlannedWorktreePaths) : After (upsertWorktreeRead planned) w fun r w' =>
    w'.scene = w.scene ∧ ∀ worktree, r = .ok worktree →
      w.scene.worktrees.find? planned.identifies = some worktree := by
  unfold upsertWorktreeRead
  refine after_bind hydrateRuntimeState_after (fun store w' h => ?_) fun e w' h => ⟨h.1, fun _ he => by cases he⟩
  rw [after_orThrow, worktreeByIdentity, (h.2 store rfl).1]
  refine ⟨fun worktree hw => ⟨h.1, fun worktree' he => ?_⟩, fun _ => ⟨h.1, fun _ he => by cases he⟩⟩
  rw [← Except.ok.inj he]
  exact hw

theorem createRead_after (request : WorktreeCreateRequest) (planned : PlannedWorktreePaths) (status : String) :
    After (createRead request planned status) w fun r w' => w'.scene = w.scene ∧ ∀ response, r = .ok response →
      response.created = true ∧ w.scene.worktrees.find? planned.identifies = some response.worktree := by
  unfold createRead
  refine after_bind (upsertWorktreeRead_after planned) (fun worktree w₁ h₁ => ?_) fun e w₁ h₁ =>
    ⟨h₁.1, fun _ he => by cases he⟩
  refine after_bind (appendWorktreeEvent_after _ _ _ _ _) (fun _ w₂ h₂ => ?_) fun e w₂ h₂ => by cases h₂.1
  refine (after_pure _ _ _).mpr ⟨h₂.2.trans h₁.1, fun response he => ?_⟩
  rw [← Except.ok.inj he]
  exact ⟨rfl, h₁.2 worktree rfl⟩

/-! ## The reuse mode -/

theorem quiet_reusePlan (sourceCwd worktreeName : String) (branchPrefix : Option String) :
    Quiet (reusePlan sourceCwd worktreeName branchPrefix) :=
  .bind (quiet_resolveRepoRootFromSourceCwd _) fun _ => .bind .get fun _ => .pure _

theorem quiet_reuseLookup (planned : PlannedWorktreePaths) : Quiet (reuseLookup planned) :=
  .bind quiet_hydrateRuntimeState fun _ => .pure _

theorem quiet_reuseCheck (planned : PlannedWorktreePaths) (found : Option ManagedWorktreeRecord) :
    Quiet (reuseCheck planned found) := by
  cases found with
  | some existing => exact .bind (quiet_hasLiveArtifactsForRecord _) fun _ => .ite (.pure _) (.throw _)
  | none => exact .bind (readOnly_pathExists _).preserves fun _ => .ite (.pure _) (.throw _)

theorem quiet_upsertWorktreeRead (planned : PlannedWorktreePaths) : Quiet (upsertWorktreeRead planned) := fun _ =>
  (upsertWorktreeRead_after planned).mono fun _ _ h => h.1

theorem reuseWrite_after (planned : PlannedWorktreePaths) : After (reuseWrite planned) w fun r w' =>
    (w'.scene = w.scene.allocated ∧ r ≠ .ok ()) ∨ w'.scene =
      w.scene.allocated.store (planned.record (numbered "wt" w.nextWorktreeId) retainOnLastClaim none none w.clock) :=
  upsertWorktreeWrite_after _ _ _ _

/-! ## claim_worktree and release_worktree -/

def Scene.row (s : Scene) (worktreeId : String) : Option ManagedWorktreeRecord :=
  s.worktrees.find? fun row => row.id = worktreeId && !isRecordTombstoned row

theorem getWorktreeFromHydrated_after {store : ToolStore} {s : Scene} (h : store.worktrees = s.worktrees)
    (worktreeId : String) : After (getWorktreeFromHydrated worktreeId store) w fun r w' =>
      w' = w ∧ ∀ row, r = .ok row → s.row worktreeId = some row := by
  rw [getWorktreeFromHydrated, h, after_orThrow]
  refine ⟨fun row hr => ⟨rfl, fun row' he => ?_⟩, fun _ => ⟨rfl, fun _ he => by cases he⟩⟩
  rw [← Except.ok.inj he]
  exact hr

theorem Scene.row_id {s : Scene} {worktreeId : String} {row : ManagedWorktreeRecord} (h : s.row worktreeId = some row) :
    row.id = worktreeId ∧ row ∈ s.worktrees ∧ isRecordTombstoned row = false := by
  have hp := List.find?_some h
  rw [Bool.and_eq_true, decide_eq_true_eq, Bool.not_eq_true'] at hp
  exact ⟨hp.1, List.mem_of_find?_eq_some h, hp.2⟩

theorem claimRead_after (request : WorktreeClaimRequest) : After (claimRead request) w fun r w' =>
    w'.scene = w.scene ∧ ∀ worktree claim, r = .ok (worktree, claim) → w.scene.row request.worktreeId = some worktree ∧
      claim.worktreeId = request.worktreeId ∧ claim.sessionId = request.sessionId ∧ claim.active = true := by
  unfold claimRead
  refine after_bind (readOnly_ensureEnabled w) (fun _ w₀ h₀ => ?_) fun e w₀ h₀ => ⟨h₀ ▸ rfl, fun _ _ he => by cases he⟩
  subst h₀
  refine after_bind hydrateRuntimeState_after (fun store w₁ h₁ => ?_) fun e w₁ h₁ => ⟨h₁.1, fun _ _ he => by cases he⟩
  refine after_bind (getWorktreeFromHydrated_after (s := w₀.scene) (h₁.2 store rfl).1 _) (fun row w₂ h₂ => ?_)
    fun e w₂ h₂ => ⟨h₂.1 ▸ h₁.1, fun _ _ he => by cases he⟩
  obtain ⟨rfl, hrow⟩ := h₂
  split
  · exact (after_throw _ _ _).mpr ⟨h₁.1, fun _ _ he => by cases he⟩
  · simp only [after_bind_iff, after_get, after_pure]
    refine ⟨h₁.1, fun worktree claim he => ?_⟩
    obtain ⟨rfl, rfl⟩ := Prod.mk.inj (Except.ok.inj he)
    exact ⟨hrow row rfl, rfl, rfl, rfl⟩

def Scene.put (s : Scene) (claim : ManagedWorktreeClaimRecord) : Scene :=
  { s with
    claims := upsert (fun c : ManagedWorktreeClaimRecord => (c.worktreeId, c.sessionId))
      (fun _ new => new) claim s.claims }

theorem upsertClaim_after (claim : ManagedWorktreeClaimRecord) :
    After (onWorktreeStore (ToolStore.upsertManagedWorktreeClaim claim)) w fun r w' =>
      (w'.scene = w.scene ∧ r ≠ .ok ()) ∨ (w'.scene = w.scene.put claim ∧ r = .ok ()) :=
  after_write (fun _ _ h => .inl ⟨h, fun he => by cases he⟩) fun _ => .inr ⟨rfl, rfl⟩

theorem claimWrite_after (worktree : ManagedWorktreeRecord) (claim : ManagedWorktreeClaimRecord) :
    After (claimWrite worktree claim) w fun r w' =>
      (w'.scene = w.scene ∧ ∀ response, r ≠ .ok response) ∨
      (w'.scene = w.scene.put claim ∧ r = .ok ⟨worktree, claim⟩) := by
  unfold claimWrite
  refine after_bind (upsertClaim_after claim) (fun _ w₁ h₁ => ?_) fun e w₁ h₁ => ?_
  · obtain ⟨-, hne⟩ | ⟨h₁, -⟩ := h₁
    · exact absurd rfl hne
    refine after_bind (appendWorktreeEvent_after _ _ _ _ _) (fun _ w₂ h₂ => ?_) fun e w₂ h₂ => by cases h₂.1
    exact (after_pure _ _ _).mpr (.inr ⟨h₂.2.trans h₁, rfl⟩)
  · obtain ⟨h₁, -⟩ | ⟨-, he⟩ := h₁
    · exact .inl ⟨h₁, fun _ he => by cases he⟩
    · cases he

theorem releaseRead_after (request : WorktreeReleaseRequest) : After (releaseRead request) w fun r w' =>
    w'.scene = w.scene ∧ ∀ worktree released, r = .ok (worktree, released) →
      w.scene.row request.worktreeId = some worktree ∧ released.worktreeId = request.worktreeId ∧
        released.sessionId = request.sessionId ∧ released.active = false := by
  unfold releaseRead
  refine after_bind (readOnly_ensureEnabled w) (fun _ w₀ h₀ => ?_) fun e w₀ h₀ => ⟨h₀ ▸ rfl, fun _ _ he => by cases he⟩
  subst h₀
  refine after_bind hydrateRuntimeState_after (fun store w₁ h₁ => ?_) fun e w₁ h₁ => ⟨h₁.1, fun _ _ he => by cases he⟩
  refine after_bind (getWorktreeFromHydrated_after (s := w₀.scene) (h₁.2 store rfl).1 _) (fun row w₂ h₂ => ?_)
    fun e w₂ h₂ => ⟨h₂.1 ▸ h₁.1, fun _ _ he => by cases he⟩
  obtain ⟨rfl, hrow⟩ := h₂
  simp only [after_bind_iff, after_orThrow, after_get, after_pure]
  refine ⟨fun claim hclaim => ⟨h₁.1, fun worktree released he => ?_⟩, fun _ => ⟨h₁.1, fun _ _ he => by cases he⟩⟩
  obtain ⟨rfl, rfl⟩ := Prod.mk.inj (Except.ok.inj he)
  have hkey := List.find?_some hclaim
  rw [Bool.and_eq_true, decide_eq_true_eq, decide_eq_true_eq] at hkey
  exact ⟨hrow row rfl, hkey.1, hkey.2, rfl⟩

theorem releaseWrite_after (worktree : ManagedWorktreeRecord) (released : ManagedWorktreeClaimRecord) :
    After (releaseWrite worktree released) w fun r w' =>
      (w'.scene = w.scene ∧ r ≠ .ok ()) ∨ (w'.scene = w.scene.put released ∧ r = .ok ()) := by
  unfold releaseWrite
  refine after_bind (upsertClaim_after released) (fun _ w₁ h₁ => ?_) fun e w₁ h₁ => ?_
  · obtain ⟨-, hne⟩ | ⟨h₁, -⟩ := h₁
    · exact absurd rfl hne
    exact (appendWorktreeEvent_after _ _ _ _ _).mono fun r w₂ h₂ => .inr ⟨h₂.2.trans h₁, h₂.1⟩
  · obtain ⟨h₁, -⟩ | ⟨-, he⟩ := h₁
    · exact .inl ⟨h₁, fun he => by cases he⟩
    · cases he

theorem quiet_releaseRecount (request : WorktreeReleaseRequest) (worktree : ManagedWorktreeRecord) :
    Quiet (releaseRecount request worktree) :=
  .bind quiet_hydrateRuntimeState fun _ => .pure _

/-! ## cleanup_worktree -/

theorem cleanupCount_after (request : WorktreeCleanupRequest) : After (cleanupCount request) w fun r w' =>
    w'.scene = w.scene ∧ ∀ c, r = .ok (.inr c) → w.scene.row request.worktreeId = some c.worktree ∧
      w.scene.activeClaims c.worktree.id = [] ∧ c.worktree.deletionPolicy = deleteOnLastClaim := by
  unfold cleanupCount
  refine after_bind (readOnly_ensureEnabled w) (fun _ w₀ h₀ => ?_) fun e w₀ h₀ => ⟨h₀ ▸ rfl, fun _ he => by cases he⟩
  subst h₀
  refine after_bind hydrateRuntimeState_after (fun store w₁ h₁ => ?_) fun e w₁ h₁ => ⟨h₁.1, fun _ he => by cases he⟩
  obtain ⟨hworktrees, hclaims⟩ := h₁.2 store rfl
  refine after_bind (getWorktreeFromHydrated_after (s := w₀.scene) hworktrees _) (fun row w₂ h₂ => ?_)
    fun e w₂ h₂ => ⟨h₂.1 ▸ h₁.1, fun _ he => by cases he⟩
  obtain ⟨rfl, hrow⟩ := h₂
  have hactive : activeClaimsFor store row.id = w₀.scene.activeClaims row.id := by
    rw [activeClaimsFor, hclaims]
    rfl
  dsimp only
  by_cases hcount : (activeClaimsFor store row.id).length > 0
  · rw [if_pos hcount, after_pure]
    exact ⟨h₁.1, fun _ he => by cases he⟩
  · rw [if_neg hcount]
    by_cases hpolicy : row.deletionPolicy = deleteOnLastClaim
    · rw [if_neg (not_not.mpr hpolicy), after_pure]
      refine ⟨h₁.1, fun c he => ?_⟩
      obtain rfl := Sum.inr.inj (Except.ok.inj he)
      rw [hactive] at hcount
      have hzero : (w₀.scene.activeClaims row.id).length = 0 := by omega
      exact ⟨hrow row rfl, List.eq_nil_of_length_eq_zero hzero, hpolicy⟩
    · rw [if_pos hpolicy, after_pure]
      exact ⟨h₁.1, fun _ he => by cases he⟩

theorem cleanupDirectory_after (c : Cleanup) : After (cleanupDirectory c) w fun r w' =>
    (w'.scene = w.scene ∨ w'.scene = w.scene.removePath c.worktree.worktreeCwd) ∧
      ∃ c', r = .ok c' ∧ c'.worktree = c.worktree := by
  unfold cleanupDirectory
  rw [after_bind_iff, after_pathExists]
  dsimp only
  split
  · rw [after_bind_iff, after_attempt]
    refine (gitWorktreeRemove_after _).mono fun r w₁ h₁ => ?_
    cases r with
    | ok _ =>
      simp only [after_bind_iff, after_pathExists, after_pure]
      exact ⟨h₁, _, rfl, rfl⟩
    | error e => exact (after_pure _ _ _).mpr ⟨h₁, _, rfl, rfl⟩
  · exact (after_pure _ _ _).mpr ⟨.inl rfl, _, rfl, rfl⟩

theorem cleanupShowRef_after (c : Cleanup) : After (cleanupShowRef c) w fun r w' =>
    w'.scene = w.scene ∧ ∃ c' there, r = .ok (c', there) ∧ c'.worktree = c.worktree := by
  unfold cleanupShowRef
  rw [after_bind_iff, after_attempt]
  refine (quiet_showRef _ _ w).mono fun r w₁ h₁ => ?_
  dsimp only
  split <;> exact (after_pure _ _ _).mpr ⟨h₁, _, _, rfl, rfl⟩

theorem cleanupBranch_after (c : Cleanup) : After (cleanupBranch c) w fun r w' =>
    (w'.scene = w.scene ∨ w'.scene = w.scene.removeBranch c.worktree.repoRoot c.worktree.branchName) ∧
      ∃ c', r = .ok c' ∧ c'.worktree = c.worktree := by
  unfold cleanupBranch
  rw [after_bind_iff, after_attempt]
  refine (gitBranchDelete_after _ _).mono fun r w₁ h₁ => ?_
  dsimp only
  split <;> exact (after_pure _ _ _).mpr ⟨h₁, _, rfl, rfl⟩

theorem quiet_cleanupEnd (c : Cleanup) : Quiet (cleanupEnd c) :=
  .ite (.bind (quiet_appendWorktreeEvent _ _ _ _ _) fun _ => .pure _)
    (.bind (quiet_noteDiagnostic _ _ _ _ _) fun _ => .bind (quiet_appendWorktreeEvent _ _ _ _ _) fun _ => .pure _)

/-! ## on_member_removed -/

theorem quiet_memberRemovedRead (request : WorktreeMemberRemovedRequest) : Quiet (memberRemovedRead request) :=
  .bind quiet_ensureEnabled fun _ => .bind quiet_hydrateRuntimeState fun _ => .pure _

theorem quiet_memberRemovedDiagnostic (request : WorktreeMemberRemovedRequest) (code : String) (error : RuntimeError)
    (claim : ManagedWorktreeClaimRecord) : Quiet (memberRemovedDiagnostic request code error claim) :=
  .bind .get fun _ => .bind (quiet_appendDiagnostic _ _ _ _ _ _) fun _ => .bind .get fun _ => .pure _

theorem memberRemovedRelease_after (request : WorktreeMemberRemovedRequest) (claim : ManagedWorktreeClaimRecord)
    (so : WorktreeMemberRemovedResponse) : After (memberRemovedRelease request claim so) w fun _ w' =>
      w'.scene = w.scene ∨ w'.scene = w.scene.put (releasedClaim claim w.clock) := by
  simp only [memberRemovedRelease, after_bind_iff, after_get, after_attempt]
  refine (upsertClaim_after _).elim (fun _ w₁ h₁ => (after_pure _ _ _).mpr ?_) fun e w₁ h₁ => ?_
  · exact h₁.elim (fun h => .inl h.1) fun h => .inr h.1
  · obtain ⟨h₁, -⟩ | ⟨-, he⟩ := h₁
    · exact ((quiet_memberRemovedDiagnostic _ _ _ _).bind (fun _ => .pure _) w₁).mono fun _ _ h => .inl (h.trans h₁)
    · cases he

theorem quiet_memberRemovedCleaned (request : WorktreeMemberRemovedRequest) (claim : ManagedWorktreeClaimRecord)
    (result : Except RuntimeError WorktreeCleanupResponse) (so : WorktreeMemberRemovedResponse) :
    Quiet (memberRemovedCleaned request claim result so) := by
  cases result with
  | ok result => exact .pure _
  | error error => exact .bind (quiet_memberRemovedDiagnostic _ _ _ _) fun _ => .pure _

theorem quiet_resume (k : CleanupCaller) (result : Except RuntimeError WorktreeCleanupResponse) :
    Quiet (k.resume result) := by
  cases k with
  | caller => exact .bind (.ofExcept _) fun _ => .pure _
  | release => exact .bind (.ofExcept _) fun _ => .pure _
  | member request claim rest so => exact .bind (quiet_memberRemovedCleaned _ _ _ _) fun _ => .pure _

end

end Gooselake.Tools
