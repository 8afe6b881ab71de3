import Gooselake.Library.Numbered
import Gooselake.Tools.Store

/-!
The managed worktrees: the service's state over its store and the git repositories, and the helpers of
`worktree/core.rs`. What the git commands, the init scripts and the file system do is the environment's;
it is told to the model in advance.
-/

namespace Gooselake.Tools

open Gooselake.Core Data Library Library.Exec

set_option autoImplicit false

structure WorktreeServiceConfig where
  enabled : Bool
  rootDir : String
  initScriptPath : String
  deletionPolicyDefault : String
  deriving DecidableEq, Repr

/-- How a command ended: `exit` is its status, none when it could not be started, and `takes` says whether
a command that fails has done its work all the same. -/
structure CommandRun where
  exit : Option ℤ
  stderr : String
  takes : Bool
  deriving DecidableEq, Repr

def CommandRun.succeeded : CommandRun := ⟨some 0, "", true⟩

/-- The directories and the branches there are, the repository each directory is in, and what comes of the
commands run next: git's, the init scripts (none where there is no script) and `create_dir_all`. -/
structure Disk where
  paths : List String
  branches : List (String × String)
  toplevels : Table String String
  runs : List CommandRun
  scripts : List (Option CommandRun)
  mkdirs : List (Option String)

structure Worktrees where
  config : WorktreeServiceConfig
  store : ToolStore
  disk : Disk
  nextWorktreeId : ℕ
  nextOperationId : ℕ
  nextEventId : ℕ
  eventIdNonce : String
  clock : ℤ

abbrev WorktreeM : Type → Type := Exec Worktrees RuntimeError

/-! ## Records -/

def ManagedWorktreeRecord.toJson (r : ManagedWorktreeRecord) : Json :=
  .obj [("id", .str r.id), ("repo_root", .str r.repoRoot), ("worktree_root", .str r.worktreeRoot),
    ("worktree_cwd", .str r.worktreeCwd), ("branch_name", .str r.branchName),
    ("worktree_name", .str r.worktreeName), ("unified_workspace_path", .str r.unifiedWorkspacePath),
    ("deletion_policy", .str r.deletionPolicy), ("created_by_session_id", jsonOfOption r.createdBySessionId),
    ("created_by_operation_id", jsonOfOption r.createdByOperationId), ("created_at", .int r.createdAt),
    ("updated_at", .int r.updatedAt)]

def ManagedWorktreeClaimRecord.toJson (r : ManagedWorktreeClaimRecord) : Json :=
  .obj [("worktree_id", .str r.worktreeId), ("session_id", .str r.sessionId), ("claim_role", .str r.claimRole),
    ("created_at", .int r.createdAt), ("released_at", jsonOfTime r.releasedAt)]

def deleteOnLastClaim : String := "delete_on_last_claim"

def retainOnLastClaim : String := "retain_on_last_claim"

def tombstone : String := "__gg_tombstoned__/"

def isRecordTombstoned (r : ManagedWorktreeRecord) : Bool :=
  startsWith tombstone r.repoRoot || startsWith tombstone r.worktreeCwd || startsWith tombstone r.branchName

def ManagedWorktreeClaimRecord.active (c : ManagedWorktreeClaimRecord) : Bool := c.releasedAt.isNone

def activeClaimsFor (store : ToolStore) (worktreeId : String) : List ManagedWorktreeClaimRecord :=
  store.claims.filter fun row => row.worktreeId = worktreeId && row.active

/-! ## Primitive actions -/

def onWorktreeStore {α : Type} (f : ToolStore → Except RuntimeError α × ToolStore) : WorktreeM α := do
  let w ← get
  modify fun w => { w with store := (f w.store).2 }
  ofExcept (f w.store).1

def hydrateRuntimeState : WorktreeM ToolStore := do
  onWorktreeStore (ToolStore.write id)
  return (← get).store

def ensureEnabled : WorktreeM Unit := do
  if (← get).config.enabled then return () else throw (.unsupported "managed worktrees are disabled")

def appendWorktreeEvent (worktreeId kind : String) (payload : Json) (sessionId teamId : Option String) :
    WorktreeM Unit := do
  let w ← get
  modify fun w => { w with nextEventId := w.nextEventId + 1 }
  let _ ← attempt (onWorktreeStore (ToolStore.appendRuntimeEvent
    { eventId := numbered s!"evt_worktree_{worktreeId}_{w.eventIdNonce}" w.nextEventId, scope := .worktree,
      scopeId := worktreeId, sessionId := sessionId, teamId := teamId, turnId := none, kind := kind,
      criticality := .critical, payload := payload, provider := none, providerSeq := none,
      createdAt := w.clock }))

def noteDiagnostic (operationId teamId : Option String) (code message : String) (payload : Json) :
    WorktreeM Unit := do
  let w ← get
  let _ ← attempt (onWorktreeStore
    (ToolStore.appendTeamOperationDiagnostic operationId teamId code message payload w.clock))

def allocateWorktreeId : WorktreeM String := do
  let w ← get
  modify fun w => { w with nextWorktreeId := w.nextWorktreeId + 1 }
  return numbered "wt" w.nextWorktreeId

def allocateOperationId : WorktreeM String := do
  let w ← get
  modify fun w => { w with nextOperationId := w.nextOperationId + 1 }
  return numbered "op_spawn" w.nextOperationId

def changeDisk (f : Disk → Disk) : WorktreeM Unit := modify fun w => { w with disk := f w.disk }

def nextRun : WorktreeM CommandRun := do
  let run := (← get).disk.runs.headD .succeeded
  changeDisk fun d => { d with runs := d.runs.tail }
  return run

/-- `run_git_for_repo`, for a command that does `work`. -/
def runGitForRepo (args : List String) (allowedExitCodes : List ℤ) (work : Disk → Disk) : WorktreeM Unit := do
  let run ← nextRun
  let command := " ".intercalate args
  match run.exit with
  | none => throw (.io s!"failed to run git {command}: {run.stderr}")
  | some code =>
    if code = 0 ∨ run.takes then changeDisk work
    if code ≠ 0 ∧ code ∉ allowedExitCodes then
      let stderr := trim run.stderr
      throw (.io (if stderr = "" then s!"git {command} failed with status exit status: {code}"
        else s!"git {command} failed: {stderr}"))

/-- `git show-ref --verify --quiet`, which answers by its exit code. -/
def showRef (repoRoot branchName : String) : WorktreeM Bool := do
  runGitForRepo ["show-ref", "--verify", "--quiet", s!"refs/heads/{branchName}"] [1] id
  return (repoRoot, branchName) ∈ (← get).disk.branches

def gitWorktreeAdd (repoRoot worktreeCwd branchName : String) (baseRef : Option String) : WorktreeM Unit :=
  runGitForRepo (["worktree", "add", "-b", branchName, worktreeCwd] ++ baseRef.toList) [] fun d =>
    { d with paths := worktreeCwd :: d.paths, branches := (repoRoot, branchName) :: d.branches }

def gitWorktreeRemove (worktreeCwd : String) : WorktreeM Unit :=
  runGitForRepo ["worktree", "remove", "--force", worktreeCwd] [128, 255] fun d =>
    { d with paths := d.paths.filter (· ≠ worktreeCwd) }

def gitBranchDelete (repoRoot branchName : String) : WorktreeM Unit :=
  runGitForRepo ["branch", "-D", branchName] [1] fun d =>
    { d with branches := d.branches.filter (· ≠ (repoRoot, branchName)) }

def pathExists (path : String) : WorktreeM Bool := do
  return path ∈ (← get).disk.paths

def createDirAll (path : String) : WorktreeM Unit := do
  let denied := ((← get).disk.mkdirs.head?).join
  changeDisk fun d => { d with mkdirs := d.mkdirs.tail }
  match denied with
  | some error => throw (.io s!"failed to create worktree root {path}: {error}")
  | none => changeDisk fun d => { d with paths := path :: d.paths }

/-! ## Paths -/

structure PlannedWorktreePaths where
  repoRoot : String
  worktreeRoot : String
  worktreeCwd : String
  branchName : String
  worktreeName : String
  unifiedWorkspacePath : String
  deriving DecidableEq, Repr

/-- The text of a repository root without its separators; `separated` says whether one came last. -/
def unifiedText : Bool → List Char → List Char
  | _, [] => []
  | separated, ch :: rest =>
    if ch = '/' ∨ ch = '\\' then (if separated then [] else ['_', '_']) ++ unifiedText true rest
    else (if ch.isAlphanum ∨ ch ∈ ['-', '_', '.'] then ch else '_') :: unifiedText false rest

def deriveUnifiedWorkspacePath (repoRoot : String) : String :=
  let trimmed := trimBy (· = '_') (String.ofList (unifiedText false repoRoot.toList))
  if trimmed = "" then "workspace" else trimmed

/-- `Path::join` of a relative path. -/
def pathJoin (path child : String) : String :=
  if path = "" then child else if path.toList.getLast? = some '/' then path ++ child else path ++ "/" ++ child

/-- `replace('/', "--")` -/
def dashed (s : String) : String :=
  String.ofList (s.toList.flatMap fun ch => if ch = '/' then ['-', '-'] else [ch])

def planWorktreePaths (config : WorktreeServiceConfig) (repoRoot worktreeName : String)
    (branchPrefix : Option String) : PlannedWorktreePaths :=
  let name := trim worktreeName
  let namespacePart := (branchPrefix.bind trimmedNonEmpty).getD "gg"
  let branchName := s!"{namespacePart}/{name}"
  let unified := deriveUnifiedWorkspacePath repoRoot
  let worktreeRoot := pathJoin config.rootDir unified
  ⟨trim repoRoot, worktreeRoot, pathJoin worktreeRoot (dashed branchName), branchName, name, unified⟩

/-- `git rev-parse --show-toplevel` -/
def resolveRepoRootFromSourceCwd (sourceCwd : String) : WorktreeM String := do
  let run ← nextRun
  match run.exit with
  | none => throw (.io s!"failed to run git rev-parse: {run.stderr}")
  | some code =>
    let toplevel := (← get).disk.toplevels.lookup sourceCwd
    let root ← orThrow (if code = 0 then toplevel else none)
      (.invalidState "source session cwd is not inside a git repository")
    if trim root = "" then throw (.invalidState "unable to resolve git repository root")
    return trim root

def normalizeDeletionPolicy (config : WorktreeServiceConfig) (requested : Option String) : String :=
  if toAsciiLowercase ((requested.bind trimmedNonEmpty).getD config.deletionPolicyDefault) = deleteOnLastClaim then
    deleteOnLastClaim
  else retainOnLastClaim

/-! ## Records of the store -/

def getWorktreeFromHydrated (worktreeId : String) (hydrated : ToolStore) : WorktreeM ManagedWorktreeRecord :=
  orThrow (hydrated.worktrees.find? fun row => row.id = worktreeId && !isRecordTombstoned row)
    (.notFound s!"worktree {worktreeId}")

def PlannedWorktreePaths.identifies (planned : PlannedWorktreePaths) (row : ManagedWorktreeRecord) : Bool :=
  !isRecordTombstoned row && row.repoRoot = planned.repoRoot && row.worktreeCwd = planned.worktreeCwd &&
    row.branchName = planned.branchName

def worktreeByIdentity (hydrated : ToolStore) (planned : PlannedWorktreePaths) : Option ManagedWorktreeRecord :=
  hydrated.worktrees.find? planned.identifies

def hasLiveArtifactsForRecord (record : ManagedWorktreeRecord) : WorktreeM Bool := do
  if ← pathExists record.worktreeCwd then return true
  else
    match ← attempt (showRef record.repoRoot record.branchName) with
    | .ok there => return there
    | .error _ => return true

def PlannedWorktreePaths.record (planned : PlannedWorktreePaths) (id deletionPolicy : String)
    (createdBySessionId createdByOperationId : Option String) (now : ℤ) : ManagedWorktreeRecord where
  id := id
  repoRoot := planned.repoRoot
  worktreeRoot := planned.worktreeRoot
  worktreeCwd := planned.worktreeCwd
  branchName := planned.branchName
  worktreeName := planned.worktreeName
  unifiedWorkspacePath := planned.unifiedWorkspacePath
  deletionPolicy := deletionPolicy
  createdBySessionId := createdBySessionId
  createdByOperationId := createdByOperationId
  createdAt := now
  updatedAt := now

/-- The write of `upsert_worktree_record`. -/
def upsertWorktreeWrite (planned : PlannedWorktreePaths) (deletionPolicy : String)
    (createdBySessionId createdByOperationId : Option String) : WorktreeM Unit := do
  let id ← allocateWorktreeId
  let now := (← get).clock
  onWorktreeStore (ToolStore.upsertManagedWorktree
    (planned.record id deletionPolicy createdBySessionId createdByOperationId now))

def upsertWorktreeRead (planned : PlannedWorktreePaths) : WorktreeM ManagedWorktreeRecord := do
  let hydrated ← hydrateRuntimeState
  orThrow (worktreeByIdentity hydrated planned)
    (.invalidState s!"managed worktree logical upsert did not persist identity for {planned.worktreeCwd}")

def upsertWorktreeRecord (planned : PlannedWorktreePaths) (deletionPolicy : String)
    (createdBySessionId createdByOperationId : Option String) : WorktreeM ManagedWorktreeRecord := do
  upsertWorktreeWrite planned deletionPolicy createdBySessionId createdByOperationId
  upsertWorktreeRead planned

end Gooselake.Tools
