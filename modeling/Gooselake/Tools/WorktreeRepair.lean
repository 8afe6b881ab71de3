import Gooselake.Tools.Worktrees

/-!
`repair_startup_state`: worktrees of one identity become the oldest of them, the others and the malformed
ones become tombstones, their claims move along, and of the active claims of a session one is kept.
-/

namespace Gooselake.Tools

open Gooselake.Core Data Library Library.Exec

set_option autoImplicit false

/-! ## Records -/

def normalizeRecord (original : ManagedWorktreeRecord) : ManagedWorktreeRecord :=
  let normalized := { original with
    repoRoot := trim original.repoRoot
    worktreeRoot := trim original.worktreeRoot
    worktreeCwd := trim original.worktreeCwd
    branchName := trim original.branchName
    worktreeName := trim original.worktreeName
    unifiedWorkspacePath := trim original.unifiedWorkspacePath }
  { normalized with
    worktreeName := if normalized.worktreeName = "" then normalized.id else normalized.worktreeName
    worktreeRoot := if normalized.worktreeRoot = "" then normalized.worktreeCwd else normalized.worktreeRoot
    unifiedWorkspacePath :=
      if normalized.unifiedWorkspacePath = "" then deriveUnifiedWorkspacePath normalized.repoRoot
      else normalized.unifiedWorkspacePath }

def normalizedRecordsById (rows : List ManagedWorktreeRecord) : Table String ManagedWorktreeRecord :=
  rows.foldl (fun t original => t.insert original.id (normalizeRecord original)) ∅

structure MergedRecords where
  winnerByIdentity : Table (String × String × String) String
  mergedWinners : Table String ManagedWorktreeRecord
  loserToWinner : Table String String
  malformedIds : List String

def mergeDeletionPolicy (left right : String) : String :=
  if left = deleteOnLastClaim ∨ right = deleteOnLastClaim then deleteOnLastClaim else retainOnLastClaim

def mergeLoser (winner record : ManagedWorktreeRecord) : ManagedWorktreeRecord :=
  { winner with
    deletionPolicy := mergeDeletionPolicy winner.deletionPolicy record.deletionPolicy
    createdAt := min winner.createdAt record.createdAt
    updatedAt := max winner.updatedAt record.updatedAt
    createdBySessionId := winner.createdBySessionId.or record.createdBySessionId
    createdByOperationId := winner.createdByOperationId.or record.createdByOperationId }

def mergeRecord (m : MergedRecords) (record : ManagedWorktreeRecord) : MergedRecords :=
  if record.repoRoot = "" ∨ record.worktreeCwd = "" ∨ record.branchName = "" then
    { m with malformedIds := m.malformedIds ++ [record.id] }
  else
    match m.winnerByIdentity.lookup (ToolStore.worktreeIdentity record) with
    | some winnerId => { m with
        loserToWinner := m.loserToWinner.insert record.id winnerId
        mergedWinners := m.mergedWinners.update winnerId fun winner => mergeLoser winner record }
    | none => { m with
        winnerByIdentity := m.winnerByIdentity.insert (ToolStore.worktreeIdentity record) record.id
        mergedWinners := m.mergedWinners.insert record.id record }

def recordBefore (a b : ManagedWorktreeRecord) : Bool :=
  a.createdAt < b.createdAt || (a.createdAt = b.createdAt && a.id ≤ b.id)

def mergedRecords (rows : List ManagedWorktreeRecord) : MergedRecords :=
  ((normalizedRecordsById rows).values.insertionSort fun a b => recordBefore a b).foldl mergeRecord ⟨∅, ∅, ∅, []⟩

def tombstoneRecord (record : ManagedWorktreeRecord) (now : ℤ) : ManagedWorktreeRecord :=
  { record with
    repoRoot := tombstone ++ record.id
    worktreeRoot := tombstone ++ record.id
    worktreeCwd := tombstone ++ record.id
    branchName := tombstone ++ record.id
    worktreeName := "tombstoned-" ++ record.id
    unifiedWorkspacePath := "tombstoned_" ++ record.id
    deletionPolicy := retainOnLastClaim
    updatedAt := now }

/-! ## Claims -/

structure MergedClaims where
  claimByKey : Table (String × String) ManagedWorktreeClaimRecord
  claimsChanged : List ManagedWorktreeClaimRecord

def ManagedWorktreeClaimRecord.key (c : ManagedWorktreeClaimRecord) : String × String := (c.worktreeId, c.sessionId)

def normalizeClaim (original : ManagedWorktreeClaimRecord) : ManagedWorktreeClaimRecord :=
  { original with
    worktreeId := trim original.worktreeId
    sessionId := trim original.sessionId
    claimRole := if trim original.claimRole = "" then "consumer" else trim original.claimRole }

def releaseNow (now : ℤ) (claim : ManagedWorktreeClaimRecord) : ManagedWorktreeClaimRecord :=
  { claim with releasedAt := some (claim.releasedAt.getD now) }

def mergeClaimRole (left right : String) : String :=
  if left = "owner" ∨ right = "owner" then "owner" else "consumer"

def mergeReleasedAt : Option ℤ → Option ℤ → Option ℤ
  | none, none => none
  | some value, none | none, some value => some value
  | some left, some right => some (min left right)

def mergeSameKey (existing claim : ManagedWorktreeClaimRecord) : ManagedWorktreeClaimRecord :=
  { existing with
    createdAt := min existing.createdAt claim.createdAt
    claimRole := mergeClaimRole existing.claimRole claim.claimRole
    releasedAt := mergeReleasedAt existing.releasedAt claim.releasedAt }

/-- The claim on the winner its worktree was merged into, released when its worktree or its session is
not there. -/
def repairedClaim (records : MergedRecords) (sessionIds : List String) (now : ℤ)
    (claim : ManagedWorktreeClaimRecord) : ManagedWorktreeClaimRecord :=
  let moved := { claim with worktreeId := (records.loserToWinner.lookup claim.worktreeId).getD claim.worktreeId }
  if moved.worktreeId ∈ records.mergedWinners ∧ moved.sessionId ∈ sessionIds then moved else releaseNow now moved

def mergeClaim (records : MergedRecords) (sessionIds : List String) (now : ℤ) (m : MergedClaims)
    (original : ManagedWorktreeClaimRecord) : MergedClaims :=
  let normalized := normalizeClaim original
  if normalized.worktreeId = "" ∨ normalized.sessionId = "" then
    { m with claimsChanged := m.claimsChanged ++ [releaseNow now normalized] }
  else
    let claim := repairedClaim records sessionIds now normalized
    { claimByKey := m.claimByKey.insert claim.key
        ((m.claimByKey.lookup claim.key).elim claim fun existing => mergeSameKey existing claim)
      claimsChanged :=
        if normalized.worktreeId ∈ records.loserToWinner then m.claimsChanged ++ [releaseNow now normalized]
        else m.claimsChanged }

def textBefore (a b : String) : Bool := a ≤ b

def keyBefore (a b : String × String) : Bool := a.1 < b.1 || (a.1 = b.1 && a.2 ≤ b.2)

/-- `i64::MAX` -/
def maxTime : ℤ := 2 ^ 63 - 1

/-- The claims of a session in the order in which they are preferred: on the oldest worktree first. -/
def claimBefore (records : MergedRecords) (left right : ManagedWorktreeClaimRecord) : Bool :=
  let createdAt := fun claim : ManagedWorktreeClaimRecord =>
    ((records.mergedWinners.lookup claim.worktreeId).map ManagedWorktreeRecord.createdAt).getD maxTime
  createdAt left < createdAt right || (createdAt left = createdAt right && left.worktreeId ≤ right.worktreeId)

def activeClaimsBySession (records : MergedRecords) (claims : List ManagedWorktreeClaimRecord) (session : String) :
    List ManagedWorktreeClaimRecord :=
  (claims.filter fun claim => claim.sessionId = session && claim.active).insertionSort
    fun a b => claimBefore records a b

def losingClaims (records : MergedRecords) (claims : List ManagedWorktreeClaimRecord) : List (String × String) :=
  (claims.map ManagedWorktreeClaimRecord.sessionId).dedup.flatMap fun session =>
    (activeClaimsBySession records claims session).tail.map ManagedWorktreeClaimRecord.key

def releaseLosing (now : ℤ) (losing : List (String × String)) (t : Table (String × String) ManagedWorktreeClaimRecord) :
    Table (String × String) ManagedWorktreeClaimRecord :=
  losing.foldl (fun t key => t.update key (releaseNow now)) t

def hydratedClaims (hydrated : ToolStore) : List ManagedWorktreeClaimRecord :=
  hydrated.claims.insertionSort fun a b =>
    a.createdAt < b.createdAt || (a.createdAt = b.createdAt && keyBefore a.key b.key)

def repairedClaims (records : MergedRecords) (hydrated : ToolStore) (now : ℤ) : MergedClaims :=
  let sessionIds := hydrated.base.sessions.map fun session => trim session.id
  let m := (hydratedClaims hydrated).foldl (mergeClaim records sessionIds now) ⟨∅, []⟩
  { m with claimByKey := releaseLosing now (losingClaims records (m.claimByKey.sortedValues keyBefore)) m.claimByKey }

/-! ## Writes -/

def upsertTombstone (byId : Table String ManagedWorktreeRecord) (now : ℤ) (id : String) : WorktreeM Unit :=
  match byId.lookup id with
  | some record => onWorktreeStore (ToolStore.upsertManagedWorktree (tombstoneRecord record now))
  | none => pure ()

def repairStartupState (hydrated : ToolStore) : WorktreeM Unit := do
  let now := (← get).clock
  let byId := normalizedRecordsById hydrated.worktrees
  let records := mergedRecords hydrated.worktrees
  (records.mergedWinners.sortedValues textBefore).forM fun winner =>
    onWorktreeStore (ToolStore.upsertManagedWorktree winner)
  (records.loserToWinner.keys.insertionSort fun a b => textBefore a b).forM (upsertTombstone byId now)
  (records.malformedIds.insertionSort fun a b => textBefore a b).forM (upsertTombstone byId now)
  let claims := repairedClaims records hydrated now
  (claims.claimByKey.sortedValues keyBefore).forM fun claim =>
    onWorktreeStore (ToolStore.upsertManagedWorktreeClaim claim)
  claims.claimsChanged.forM fun claim => onWorktreeStore (ToolStore.upsertManagedWorktreeClaim claim)

end Gooselake.Tools
