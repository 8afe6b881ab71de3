import Gooselake.Library.Runs
import Gooselake.Tools.WorktreeService

/-!
The worktree service with any number of calls in flight. A step runs one piece of one call: one access
to the store or one command, with the look at the file system that goes with it. The lock of a
repository is held from the piece that gets it until the call, or the cleanup in it, returns.
-/

namespace Gooselake.Tools

open Gooselake.Core Data Library Library.Exec

set_option autoImplicit false

inductive WorktreeOperation where
  /-- with the answer of `get_session` for the source session -/
  | create (request : WorktreeCreateRequest) (source : Except RuntimeError SessionRecord)
  /-- the worktree step of a spawn in reuse mode, which takes no lock -/
  | reuse (sourceCwd worktreeName : String) (branchPrefix : Option String)
  | claim (request : WorktreeClaimRequest)
  | release (request : WorktreeReleaseRequest)
  | cleanup (request : WorktreeCleanupRequest)
  | memberRemoved (request : WorktreeMemberRemovedRequest)

/-- What a cleanup returns to: its caller, a release, or the loop of `on_member_removed` at a claim. -/
inductive CleanupCaller where
  | caller
  | release
  | member (request : WorktreeMemberRemovedRequest) (claim : ManagedWorktreeClaimRecord)
      (rest : List ManagedWorktreeClaimRecord) (so : WorktreeMemberRemovedResponse)
  deriving DecidableEq, Repr

inductive WorktreeCall where
  | createLock (request : WorktreeCreateRequest) (planned : PlannedWorktreePaths)
  | createExisting (request : WorktreeCreateRequest) (planned : PlannedWorktreePaths)
      (found : Option (ManagedWorktreeRecord × ℕ))
  | createRoot (request : WorktreeCreateRequest) (planned : PlannedWorktreePaths)
  | createAdd (request : WorktreeCreateRequest) (planned : PlannedWorktreePaths)
  | createInit (request : WorktreeCreateRequest) (planned : PlannedWorktreePaths)
  | createUndoWorktree (request : WorktreeCreateRequest) (planned : PlannedWorktreePaths) (error : RuntimeError)
  | createUndoBranch (planned : PlannedWorktreePaths) (error : RuntimeError)
  | createWrite (request : WorktreeCreateRequest) (planned : PlannedWorktreePaths) (initScriptStatus : String)
  | createRead (request : WorktreeCreateRequest) (planned : PlannedWorktreePaths) (initScriptStatus : String)
  | reuseLookup (planned : PlannedWorktreePaths)
  | reuseCheck (planned : PlannedWorktreePaths) (found : Option ManagedWorktreeRecord)
  | reuseWrite (planned : PlannedWorktreePaths)
  | reuseRead (planned : PlannedWorktreePaths)
  | claimWrite (worktree : ManagedWorktreeRecord) (claim : ManagedWorktreeClaimRecord)
  | releaseWrite (request : WorktreeReleaseRequest) (worktree : ManagedWorktreeRecord)
      (released : ManagedWorktreeClaimRecord)
  | releaseRecount (request : WorktreeReleaseRequest) (worktree : ManagedWorktreeRecord)
  | memberRelease (request : WorktreeMemberRemovedRequest) (claim : ManagedWorktreeClaimRecord)
      (rest : List ManagedWorktreeClaimRecord) (so : WorktreeMemberRemovedResponse)
  | cleanupCount (request : WorktreeCleanupRequest) (k : CleanupCaller)
  | cleanupLock (c : Cleanup) (k : CleanupCaller)
  | cleanupShowRef (c : Cleanup) (k : CleanupCaller)
  | cleanupBranch (c : Cleanup) (k : CleanupCaller)
  | cleanupEnd (c : Cleanup) (k : CleanupCaller)
  deriving DecidableEq, Repr

/-- The loop of `on_member_removed` at its next claim. -/
def memberNext (request : WorktreeMemberRemovedRequest) (so : WorktreeMemberRemovedResponse) :
    List ManagedWorktreeClaimRecord → Option WorktreeCall
  | [] => none
  | claim :: rest => some (.memberRelease request claim rest so)

def CleanupCaller.resume (k : CleanupCaller) (result : Except RuntimeError WorktreeCleanupResponse) :
    WorktreeM (Option WorktreeCall) :=
  match k with
  | .caller | .release => do
    let _ ← ofExcept result
    return none
  | .member request claim rest so => do
    let so ← memberRemovedCleaned request claim result so
    return memberNext request so rest

def WorktreeOperation.begin : WorktreeOperation → WorktreeM (Option WorktreeCall)
  | .create request source => do
    let planned ← createPlan request source
    return some (.createLock request planned)
  | .reuse sourceCwd worktreeName branchPrefix => do
    let planned ← reusePlan sourceCwd worktreeName branchPrefix
    return some (.reuseLookup planned)
  | .claim request => do
    let (worktree, claimed) ← claimRead request
    return some (.claimWrite worktree claimed)
  | .release request => do
    let (worktree, released) ← releaseRead request
    return some (.releaseWrite request worktree released)
  | .cleanup request => return some (.cleanupCount request .caller)
  | .memberRemoved request => do
    let claims ← memberRemovedRead request
    return memberNext request ⟨[], [], []⟩ claims

def WorktreeCall.piece : WorktreeCall → WorktreeM (Option WorktreeCall)
  | .createLock request planned => do
    let found ← createLookup planned
    return some (.createExisting request planned found)
  | .createExisting request planned found => do
    let existing ← Tools.createExisting found
    return if existing.isSome then none else some (.createRoot request planned)
  | .createRoot request planned => do
    Tools.createRoot planned
    return some (.createAdd request planned)
  | .createAdd request planned => do
    Tools.createAdd request planned
    return some (.createInit request planned)
  | .createInit request planned => do
    match ← Tools.createInit request with
    | .ok initScriptStatus => return some (.createWrite request planned initScriptStatus)
    | .error error => return some (.createUndoWorktree request planned error)
  | .createUndoWorktree request planned error => do
    Tools.createUndoWorktree request planned error
    return some (.createUndoBranch planned error)
  | .createUndoBranch planned error => do
    Tools.createUndoBranch planned
    throw error
  | .createWrite request planned initScriptStatus => do
    Tools.createWrite request planned
    return some (.createRead request planned initScriptStatus)
  | .createRead request planned initScriptStatus => do
    let _ ← Tools.createRead request planned initScriptStatus
    return none
  | .reuseLookup planned => do
    let found ← Tools.reuseLookup planned
    return some (.reuseCheck planned found)
  | .reuseCheck planned found => do
    let existing ← Tools.reuseCheck planned found
    return if existing.isSome then none else some (.reuseWrite planned)
  | .reuseWrite planned => do
    Tools.reuseWrite planned
    return some (.reuseRead planned)
  | .reuseRead planned => do
    let _ ← upsertWorktreeRead planned
    return none
  | .claimWrite worktree claim => do
    let _ ← Tools.claimWrite worktree claim
    return none
  | .releaseWrite request worktree released => do
    Tools.releaseWrite worktree released
    return some (.releaseRecount request worktree)
  | .releaseRecount request worktree => do
    let (_, cleans) ← Tools.releaseRecount request worktree
    return if cleans then some (.cleanupCount (releaseCleanup worktree) .release) else none
  | .memberRelease request claim rest so => do
    let (so, cleans) ← memberRemovedRelease request claim so
    return if cleans then some (.cleanupCount (memberRemovedCleanup claim) (.member request claim rest so))
      else memberNext request so rest
  | .cleanupCount request k => do
    match ← attempt (Tools.cleanupCount request) with
    | .ok (.inr c) => return some (.cleanupLock c k)
    | .ok (.inl response) => k.resume (.ok response)
    | .error error => k.resume (.error error)
  | .cleanupLock c k => do
    let c ← cleanupDirectory c
    return some (.cleanupShowRef c k)
  | .cleanupShowRef c k => do
    let (c, branchThere) ← Tools.cleanupShowRef c
    return some (if branchThere then .cleanupBranch c k else .cleanupEnd c k)
  | .cleanupBranch c k => do
    let c ← Tools.cleanupBranch c
    return some (.cleanupEnd c k)
  | .cleanupEnd c k => do
    let response ← Tools.cleanupEnd c
    k.resume (.ok response)

def WorktreeCall.awaitsLock : WorktreeCall → Option String
  | .createLock _ planned => some planned.repoRoot
  | .cleanupLock c _ => some c.worktree.repoRoot
  | _ => none

def WorktreeCall.holdsLock : WorktreeCall → Option String
  | .createExisting _ planned _ | .createRoot _ planned | .createAdd _ planned | .createInit _ planned
  | .createUndoWorktree _ planned _ | .createUndoBranch planned _ | .createWrite _ planned _
  | .createRead _ planned _ => some planned.repoRoot
  | .cleanupShowRef c _ | .cleanupBranch c _ | .cleanupEnd c _ => some c.worktree.repoRoot
  | _ => none

/-! ## Steps -/

structure WorktreeServer where
  manager : Worktrees
  calls : Table ℕ WorktreeCall

inductive WorktreeLabel where
  | start (i : ℕ) (op : WorktreeOperation)
  | goOn (i : ℕ)
  | tick (now : ℤ)
  /-- others change the directories and the branches -/
  | outside (paths : List String) (branches : List (String × String))

namespace WorktreeServer

def start (w : Worktrees) : WorktreeServer := ⟨w, ∅⟩

def left : Except RuntimeError (Option WorktreeCall) → Option WorktreeCall
  | .ok after => after
  | .error _ => none

def put (calls : Table ℕ WorktreeCall) (i : ℕ) : Option WorktreeCall → Table ℕ WorktreeCall
  | some c => calls.insert i c
  | none => calls.erase i

/-- Run a piece of call `i`. -/
def settle (s : WorktreeServer) (i : ℕ) (piece : WorktreeM (Option WorktreeCall)) : WorktreeServer where
  manager := (piece.result s.manager).2
  calls := put s.calls i (left (piece.result s.manager).1)

def locked (s : WorktreeServer) (c : WorktreeCall) : Bool :=
  c.awaitsLock.any fun repoRoot => s.calls.values.any fun other => other.holdsLock = some repoRoot

def step : WorktreeLabel → WorktreeServer → Option WorktreeServer
  | .start i op, s => if i ∈ s.calls then none else some (s.settle i op.begin)
  | .goOn i, s => do
    let c ← s.calls.lookup i
    if s.locked c then none else some (s.settle i c.piece)
  | .tick now, s => some { s with manager := { s.manager with clock := now } }
  | .outside paths branches, s =>
    some { s with manager := { s.manager with disk := { s.manager.disk with paths := paths, branches := branches } } }

end WorktreeServer

/-! ## A first service -/

def Worktrees.first : Worktrees where
  config := ⟨true, "/worktrees", "setup.sh", retainOnLastClaim⟩
  store := .empty []
  disk := ⟨["/repo"], [("/repo", "main")], (∅ : Table String String).insert "/repo" "/repo", [], [], []⟩
  nextWorktreeId := 1
  nextOperationId := 1
  nextEventId := 1
  eventIdNonce := "nonce"
  clock := 0

def sourceSession : SessionRecord where
  id := "sess_codex_0_1"
  provider := "codex"
  status := .ready
  cwd := some "/repo"
  model := none
  permissionMode := none
  systemPrompt := none
  metadata := .null
  providerSessionRef := none
  canonicalProviderSessionRef := none
  activeTurnId := none
  worktreeId := none
  createdAt := 0
  updatedAt := 0
  closedAt := none
  failureCode := none
  failureMessage := none

end Gooselake.Tools
