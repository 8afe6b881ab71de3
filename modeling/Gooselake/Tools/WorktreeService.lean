import Gooselake.Tools.Worktrees

/-!
`RuntimeWorktreeService`: its operations, cut where they access the store, run git or wait for the lock
of a repository. Each operation in one run is its pieces one after the other.
-/

namespace Gooselake.Tools

open Gooselake.Core Data Library Library.Exec

set_option autoImplicit false

/-! ## create_worktree -/

structure WorktreeCreateRequest where
  teamId : Option String
  sourceSessionId : String
  repoRoot : Option String
  worktreeName : String
  branchPrefix : Option String
  baseRef : Option String
  deletionPolicy : Option String
  runInitScript : Option Bool
  createdBySessionId : Option String
  operationId : Option String
  deriving DecidableEq, Repr

structure WorktreeCreateResponse where
  worktree : ManagedWorktreeRecord
  created : Bool
  initScriptStatus : String
  deriving DecidableEq, Repr

/-- Up to the lock; `source` is what `get_session` answers for the source session. -/
def createPlan (request : WorktreeCreateRequest) (source : Except RuntimeError SessionRecord) :
    WorktreeM PlannedWorktreePaths := do
  ensureEnabled
  let sourceSession ← ofExcept source
  let sourceCwd ← orThrow sourceSession.cwd (.invalidState "source session has no cwd for worktree planning")
  let repoRoot ← match request.repoRoot.bind trimmedNonEmpty with
    | some root => pure root
    | none => resolveRepoRootFromSourceCwd sourceCwd
  return planWorktreePaths (← get).config repoRoot request.worktreeName request.branchPrefix

def createLookup (planned : PlannedWorktreePaths) : WorktreeM (Option (ManagedWorktreeRecord × ℕ)) := do
  let hydrated ← hydrateRuntimeState
  return (worktreeByIdentity hydrated planned).map fun existing =>
    (existing, (activeClaimsFor hydrated existing.id).length)

def createExisting (found : Option (ManagedWorktreeRecord × ℕ)) : WorktreeM (Option ManagedWorktreeRecord) := do
  match found with
  | none => return none
  | some (existing, activeClaimCount) =>
    let liveArtifacts ← hasLiveArtifactsForRecord existing
    let staleCleaned := activeClaimCount = 0 && !liveArtifacts && existing.deletionPolicy = deleteOnLastClaim
    return if staleCleaned then none else some existing

def createRoot (planned : PlannedWorktreePaths) : WorktreeM Unit := do
  let branchThere ← showRef planned.repoRoot planned.branchName
  let pathThere ← pathExists planned.worktreeCwd
  if branchThere || pathThere then
    throw (.invalidState s!"worktree name '{planned.worktreeName}' already exists")
  createDirAll planned.worktreeRoot

def createAdd (request : WorktreeCreateRequest) (planned : PlannedWorktreePaths) : WorktreeM Unit :=
  gitWorktreeAdd planned.repoRoot planned.worktreeCwd planned.branchName (request.baseRef.bind trimmedNonEmpty)

def runWorktreeInitScript : WorktreeM String := do
  let script := (← get).disk.scripts.head?.join
  changeDisk fun d => { d with scripts := d.scripts.tail }
  match script with
  | none => return "skipped_missing"
  | some run =>
    match run.exit with
    | none => throw (.io s!"failed to run worktree init script: {run.stderr}")
    | some code =>
      if code = 0 then return "succeeded"
      else
        let stderr := trim run.stderr
        throw (.invalidState (if stderr = "" then "worktree init script failed"
          else s!"worktree init script failed: {stderr}"))

def createInit (request : WorktreeCreateRequest) : WorktreeM (Except RuntimeError String) :=
  if request.runInitScript.getD true then attempt runWorktreeInitScript else return .ok "skipped_disabled"

def createUndoWorktree (request : WorktreeCreateRequest) (planned : PlannedWorktreePaths) (error : RuntimeError) :
    WorktreeM Unit := do
  noteDiagnostic request.operationId request.teamId "worktree_init_failed" error.display
    (.obj [("worktree_cwd", .str planned.worktreeCwd), ("branch_name", .str planned.branchName)])
  let _ ← attempt (gitWorktreeRemove planned.worktreeCwd)

def createUndoBranch (planned : PlannedWorktreePaths) : WorktreeM Unit := do
  let _ ← attempt (gitBranchDelete planned.repoRoot planned.branchName)

def createWrite (request : WorktreeCreateRequest) (planned : PlannedWorktreePaths) : WorktreeM Unit := do
  let policy := normalizeDeletionPolicy (← get).config request.deletionPolicy
  upsertWorktreeWrite planned policy request.createdBySessionId request.operationId

def createRead (request : WorktreeCreateRequest) (planned : PlannedWorktreePaths) (initScriptStatus : String) :
    WorktreeM WorktreeCreateResponse := do
  let worktree ← upsertWorktreeRead planned
  appendWorktreeEvent worktree.id "worktree.created"
    (.obj [("worktree", worktree.toJson), ("init_script_status", .str initScriptStatus)])
    (some request.sourceSessionId) request.teamId
  return ⟨worktree, true, initScriptStatus⟩

def createFresh (request : WorktreeCreateRequest) (planned : PlannedWorktreePaths) :
    WorktreeM WorktreeCreateResponse := do
  createRoot planned
  createAdd request planned
  match ← createInit request with
  | .error error =>
    createUndoWorktree request planned error
    createUndoBranch planned
    throw error
  | .ok initScriptStatus =>
    createWrite request planned
    createRead request planned initScriptStatus

def createWorktree (request : WorktreeCreateRequest) (source : Except RuntimeError SessionRecord) :
    WorktreeM WorktreeCreateResponse := do
  let planned ← createPlan request source
  let found ← createLookup planned
  match ← createExisting found with
  | some existing => return ⟨existing, false, "skipped_existing"⟩
  | none => createFresh request planned

/-! ## The reuse mode of spawn_team_member -/

def reusePlan (sourceCwd worktreeName : String) (branchPrefix : Option String) : WorktreeM PlannedWorktreePaths := do
  let repoRoot ← resolveRepoRootFromSourceCwd sourceCwd
  return planWorktreePaths (← get).config repoRoot worktreeName branchPrefix

def reuseLookup (planned : PlannedWorktreePaths) : WorktreeM (Option ManagedWorktreeRecord) := do
  let hydrated ← hydrateRuntimeState
  return worktreeByIdentity hydrated planned

def reuseCheck (planned : PlannedWorktreePaths) (found : Option ManagedWorktreeRecord) :
    WorktreeM (Option ManagedWorktreeRecord) := do
  match found with
  | some existing =>
    if ← hasLiveArtifactsForRecord existing then return some existing
    else throw (.notFound s!"reused worktree identity exists but artifacts are missing: {planned.worktreeCwd}")
  | none =>
    if ← pathExists planned.worktreeCwd then return none
    else throw (.notFound s!"reused worktree path not found: {planned.worktreeCwd}")

def reuseWrite (planned : PlannedWorktreePaths) : WorktreeM Unit :=
  upsertWorktreeWrite planned retainOnLastClaim none none

def reuseWorktree (planned : PlannedWorktreePaths) : WorktreeM ManagedWorktreeRecord := do
  let found ← reuseLookup planned
  match ← reuseCheck planned found with
  | some existing => return existing
  | none =>
    reuseWrite planned
    upsertWorktreeRead planned

/-! ## claim_worktree -/

structure WorktreeClaimRequest where
  worktreeId : String
  sessionId : String
  claimRole : String
  deriving DecidableEq, Repr

structure WorktreeClaimResponse where
  worktree : ManagedWorktreeRecord
  claim : ManagedWorktreeClaimRecord
  deriving DecidableEq, Repr

def conflictingClaim (store : ToolStore) (request : WorktreeClaimRequest) : Option ManagedWorktreeClaimRecord :=
  store.claims.find? fun row =>
    row.sessionId = request.sessionId && row.active && row.worktreeId ≠ request.worktreeId

def claimRead (request : WorktreeClaimRequest) : WorktreeM (ManagedWorktreeRecord × ManagedWorktreeClaimRecord) := do
  ensureEnabled
  let hydrated ← hydrateRuntimeState
  let worktree ← getWorktreeFromHydrated request.worktreeId hydrated
  match conflictingClaim hydrated request with
  | some conflict => throw (.invalidState
      s!"session {request.sessionId} already has an active claim on worktree {conflict.worktreeId}")
  | none =>
    let now := (← get).clock
    return (worktree, ⟨request.worktreeId, request.sessionId, toAsciiLowercase (trim request.claimRole), now, none⟩)

def claimPayload (claim : ManagedWorktreeClaimRecord) : Json := .obj [("claim", claim.toJson)]

def claimWrite (worktree : ManagedWorktreeRecord) (claim : ManagedWorktreeClaimRecord) :
    WorktreeM WorktreeClaimResponse := do
  onWorktreeStore (ToolStore.upsertManagedWorktreeClaim claim)
  appendWorktreeEvent worktree.id "worktree.claimed" (claimPayload claim) (some claim.sessionId) none
  return ⟨worktree, claim⟩

def claimWorktree (request : WorktreeClaimRequest) : WorktreeM WorktreeClaimResponse := do
  let (worktree, claim) ← claimRead request
  claimWrite worktree claim

/-! ## cleanup_worktree -/

structure WorktreeCleanupRequest where
  worktreeId : String
  reason : Option String
  deriving DecidableEq, Repr

structure WorktreeCleanupResponse where
  worktreeId : String
  status : String
  deletionPolicy : String
  activeClaimCount : ℕ
  worktreePathDeleted : Bool
  branchDeleted : Bool
  diagnostics : List String
  deriving DecidableEq, Repr

structure Cleanup where
  worktree : ManagedWorktreeRecord
  reason : Option String
  worktreePathDeleted : Bool
  branchDeleted : Bool
  diagnostics : List String
  deriving DecidableEq, Repr

def Cleanup.response (c : Cleanup) (status : String) (activeClaimCount : ℕ) : WorktreeCleanupResponse :=
  ⟨c.worktree.id, status, c.worktree.deletionPolicy, activeClaimCount, c.worktreePathDeleted, c.branchDeleted,
    c.diagnostics⟩

def cleanupCount (request : WorktreeCleanupRequest) : WorktreeM (WorktreeCleanupResponse ⊕ Cleanup) := do
  ensureEnabled
  let hydrated ← hydrateRuntimeState
  let worktree ← getWorktreeFromHydrated request.worktreeId hydrated
  let activeClaimCount := (activeClaimsFor hydrated worktree.id).length
  let c : Cleanup := ⟨worktree, request.reason, false, false, []⟩
  if activeClaimCount > 0 then return .inl (c.response "skipped_live_claims" activeClaimCount)
  else if worktree.deletionPolicy ≠ deleteOnLastClaim then
    return .inl (c.response "retained_by_policy" activeClaimCount)
  else return .inr c

def Cleanup.failed (c : Cleanup) (error : RuntimeError) : Cleanup :=
  { c with diagnostics := c.diagnostics ++ [error.display] }

def cleanupDirectory (c : Cleanup) : WorktreeM Cleanup := do
  if ← pathExists c.worktree.worktreeCwd then
    match ← attempt (gitWorktreeRemove c.worktree.worktreeCwd) with
    | .ok _ =>
      let left ← pathExists c.worktree.worktreeCwd
      return { c with worktreePathDeleted := !left }
    | .error error => return c.failed error
  else return { c with worktreePathDeleted := true }

def cleanupShowRef (c : Cleanup) : WorktreeM (Cleanup × Bool) := do
  match ← attempt (showRef c.worktree.repoRoot c.worktree.branchName) with
  | .ok false => return ({ c with branchDeleted := true }, false)
  | .ok true => return (c, true)
  | .error error => return (c.failed error, false)

def cleanupBranch (c : Cleanup) : WorktreeM Cleanup := do
  match ← attempt (gitBranchDelete c.worktree.repoRoot c.worktree.branchName) with
  | .ok _ => return { c with branchDeleted := true }
  | .error error => return c.failed error

def cleanupEnd (c : Cleanup) : WorktreeM WorktreeCleanupResponse := do
  let diagnostics : Json := .arr (c.diagnostics.map Json.str)
  if c.diagnostics = [] then
    appendWorktreeEvent c.worktree.id "worktree.cleaned_up"
      (.obj [("worktree_id", .str c.worktree.id), ("reason", jsonOfOption c.reason),
        ("worktree_path_deleted", .bool c.worktreePathDeleted), ("branch_deleted", .bool c.branchDeleted)]) none none
    return c.response "deleted" 0
  else
    noteDiagnostic none none "worktree_cleanup_failed" "managed worktree cleanup failed"
      (.obj [("worktree_id", .str c.worktree.id), ("diagnostics", diagnostics)])
    appendWorktreeEvent c.worktree.id "worktree.cleanup_failed"
      (.obj [("worktree_id", .str c.worktree.id), ("reason", jsonOfOption c.reason), ("diagnostics", diagnostics)])
      none none
    return c.response "cleanup_failed" 0

def cleanupDelete (c : Cleanup) : WorktreeM WorktreeCleanupResponse := do
  let c ← cleanupDirectory c
  let (c, branchThere) ← cleanupShowRef c
  let c ← if branchThere then cleanupBranch c else pure c
  cleanupEnd c

def cleanupWorktree (request : WorktreeCleanupRequest) : WorktreeM WorktreeCleanupResponse := do
  match ← cleanupCount request with
  | .inl response => return response
  | .inr c => cleanupDelete c

/-! ## release_worktree -/

structure WorktreeReleaseRequest where
  worktreeId : String
  sessionId : String
  cleanupIfLastClaim : Option Bool
  deriving DecidableEq, Repr

structure WorktreeReleaseResponse where
  worktree : ManagedWorktreeRecord
  releasedClaim : ManagedWorktreeClaimRecord
  activeClaimCount : ℕ
  cleanup : Option WorktreeCleanupResponse
  deriving DecidableEq, Repr

def releasedClaim (claim : ManagedWorktreeClaimRecord) (now : ℤ) : ManagedWorktreeClaimRecord :=
  { claim with releasedAt := some now }

def releaseRead (request : WorktreeReleaseRequest) :
    WorktreeM (ManagedWorktreeRecord × ManagedWorktreeClaimRecord) := do
  ensureEnabled
  let hydrated ← hydrateRuntimeState
  let worktree ← getWorktreeFromHydrated request.worktreeId hydrated
  let existingClaim ← orThrow
    (hydrated.claims.find? fun row => row.worktreeId = request.worktreeId && row.sessionId = request.sessionId)
    (.notFound s!"worktree claim {request.worktreeId}:{request.sessionId}")
  let now := (← get).clock
  return (worktree, releasedClaim existingClaim now)

def releaseWrite (worktree : ManagedWorktreeRecord) (released : ManagedWorktreeClaimRecord) : WorktreeM Unit := do
  onWorktreeStore (ToolStore.upsertManagedWorktreeClaim released)
  appendWorktreeEvent worktree.id "worktree.released" (claimPayload released) (some released.sessionId) none

def releaseRecount (request : WorktreeReleaseRequest) (worktree : ManagedWorktreeRecord) : WorktreeM (ℕ × Bool) := do
  let hydrated ← hydrateRuntimeState
  let activeClaimCount := (activeClaimsFor hydrated worktree.id).length
  return (activeClaimCount, request.cleanupIfLastClaim.getD true && activeClaimCount = 0)

def releaseCleanup (worktree : ManagedWorktreeRecord) : WorktreeCleanupRequest :=
  ⟨worktree.id, some "release_last_claim"⟩

def releaseWorktree (request : WorktreeReleaseRequest) : WorktreeM WorktreeReleaseResponse := do
  let (worktree, released) ← releaseRead request
  releaseWrite worktree released
  let (activeClaimCount, cleans) ← releaseRecount request worktree
  if cleans then
    let cleanup ← cleanupWorktree (releaseCleanup worktree)
    return ⟨worktree, released, activeClaimCount, some cleanup⟩
  else return ⟨worktree, released, activeClaimCount, none⟩

/-! ## on_member_removed -/

structure WorktreeMemberRemovedRequest where
  teamId : String
  agentId : String
  removedBy : Option String
  deriving DecidableEq, Repr

structure WorktreeMemberRemovedResponse where
  releasedClaims : List ManagedWorktreeClaimRecord
  cleanupResults : List WorktreeCleanupResponse
  diagnostics : List TeamOperationDiagnosticRecord
  deriving DecidableEq, Repr

def memberRemovedRead (request : WorktreeMemberRemovedRequest) : WorktreeM (List ManagedWorktreeClaimRecord) := do
  ensureEnabled
  let hydrated ← hydrateRuntimeState
  return hydrated.claims.filter fun row => row.sessionId = request.agentId && row.active

def memberRemovedDiagnostic (request : WorktreeMemberRemovedRequest) (code : String) (error : RuntimeError)
    (claim : ManagedWorktreeClaimRecord) : WorktreeM (Option TeamOperationDiagnosticRecord) := do
  let w ← get
  onWorktreeStore (ToolStore.appendTeamOperationDiagnostic none (some request.teamId) code error.display
    (.obj [("worktree_id", .str claim.worktreeId), ("session_id", .str claim.sessionId)]) w.clock)
  return (← get).store.diagnostics.getLast?

def memberRemovedRelease (request : WorktreeMemberRemovedRequest) (claim : ManagedWorktreeClaimRecord)
    (so : WorktreeMemberRemovedResponse) : WorktreeM (WorktreeMemberRemovedResponse × Bool) := do
  let released := releasedClaim claim (← get).clock
  match ← attempt (onWorktreeStore (ToolStore.upsertManagedWorktreeClaim released)) with
  | .error error =>
    let diagnostic ← memberRemovedDiagnostic request "worktree_claim_release_failed" error claim
    return ({ so with diagnostics := so.diagnostics ++ diagnostic.toList }, false)
  | .ok _ => return ({ so with releasedClaims := so.releasedClaims ++ [released] }, true)

def memberRemovedCleanup (claim : ManagedWorktreeClaimRecord) : WorktreeCleanupRequest :=
  ⟨claim.worktreeId, some "team_member_removed"⟩

def memberRemovedCleaned (request : WorktreeMemberRemovedRequest) (claim : ManagedWorktreeClaimRecord)
    (result : Except RuntimeError WorktreeCleanupResponse) (so : WorktreeMemberRemovedResponse) :
    WorktreeM WorktreeMemberRemovedResponse := do
  match result with
  | .ok result => return { so with cleanupResults := so.cleanupResults ++ [result] }
  | .error error =>
    let diagnostic ← memberRemovedDiagnostic request "worktree_cleanup_failed_on_member_remove" error claim
    return { so with diagnostics := so.diagnostics ++ diagnostic.toList }

def onMemberRemoved (request : WorktreeMemberRemovedRequest) : WorktreeM WorktreeMemberRemovedResponse := do
  let claims ← memberRemovedRead request
  claims.foldlM (fun so claim => do
    let (so, cleans) ← memberRemovedRelease request claim so
    if cleans then
      let result ← attempt (cleanupWorktree (memberRemovedCleanup claim))
      memberRemovedCleaned request claim result so
    else return so) ⟨[], [], []⟩

end Gooselake.Tools
