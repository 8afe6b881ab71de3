import Gooselake.Core.Store
import Gooselake.Data.Text

/-!
The rows of the tools in the SQLite store: processes, managed worktrees with their claims, and the
journal of spawns. The event log and the coming faults are those of the core's store.
-/

namespace Gooselake.Tools

open Gooselake.Core Data Library

set_option autoImplicit false

/-! ## Records -/

inductive ProcessStatus where
  | queued
  | running
  | completed
  | failed
  | timedOut
  | killed
  deriving DecidableEq, Repr

def ProcessStatus.asStr : ProcessStatus → String
  | .queued => "queued"
  | .running => "running"
  | .completed => "completed"
  | .failed => "failed"
  | .timedOut => "timed_out"
  | .killed => "killed"

structure ProcessRecord where
  id : String
  sessionId : Option String
  toolCallId : Option String
  pid : Option ℤ
  command : Json
  cwd : Option String
  status : ProcessStatus
  exitCode : Option ℤ
  signal : Option ℤ
  stdoutPath : Option String
  stderrPath : Option String
  startedAt : ℤ
  endedAt : Option ℤ
  timeoutMs : Option ℤ
  deriving DecidableEq, Repr

structure ManagedWorktreeRecord where
  id : String
  repoRoot : String
  worktreeRoot : String
  worktreeCwd : String
  branchName : String
  worktreeName : String
  unifiedWorkspacePath : String
  deletionPolicy : String
  createdBySessionId : Option String
  createdByOperationId : Option String
  createdAt : ℤ
  updatedAt : ℤ
  deriving DecidableEq, Repr

structure ManagedWorktreeClaimRecord where
  worktreeId : String
  sessionId : String
  claimRole : String
  createdAt : ℤ
  releasedAt : Option ℤ
  deriving DecidableEq, Repr

structure TeamOperationJournalRecord where
  operationId : String
  teamId : String
  kind : String
  stage : String
  payload : Json
  createdAt : ℤ
  updatedAt : ℤ
  deriving DecidableEq, Repr

structure TeamOperationDiagnosticRecord where
  id : ℤ
  operationId : Option String
  teamId : Option String
  code : String
  message : String
  payload : Json
  createdAt : ℤ
  deriving DecidableEq, Repr

/-! ## The store -/

structure ToolStore where
  base : Store
  processes : List ProcessRecord
  worktrees : List ManagedWorktreeRecord
  claims : List ManagedWorktreeClaimRecord
  journal : List TeamOperationJournalRecord
  diagnostics : List TeamOperationDiagnosticRecord
  deriving DecidableEq, Repr

namespace ToolStore

/-- No rows; `faults` says which of the coming writes fail. -/
def empty (faults : List Bool) : ToolStore := ⟨Store.empty faults, [], [], [], [], []⟩

/-- One write: the next fault decides whether `f` takes place. -/
def write (f : ToolStore → ToolStore) (s : ToolStore) : Except RuntimeError Unit × ToolStore :=
  match s.base.faults with
  | true :: rest => (.error Store.writeError, { s with base := { s.base with faults := rest } })
  | _ :: rest => (.ok (), f { s with base := { s.base with faults := rest } })
  | [] => (.ok (), f s)

def upsertProcess (r : ProcessRecord) : ToolStore → Except RuntimeError Unit × ToolStore :=
  write fun s => { s with processes := upsert ProcessRecord.id (fun _ new => new) r s.processes }

def worktreeIdentity (r : ManagedWorktreeRecord) : String × String × String :=
  (r.repoRoot, r.worktreeCwd, r.branchName)

def upsertManagedWorktree (r : ManagedWorktreeRecord) : ToolStore → Except RuntimeError Unit × ToolStore :=
  write fun s =>
    match s.worktrees.find? fun row => worktreeIdentity row = worktreeIdentity r with
    | some existing => { s with
        worktrees := upsert ManagedWorktreeRecord.id (fun _ new => new) { r with id := existing.id } s.worktrees }
    | none => { s with worktrees := upsert ManagedWorktreeRecord.id (fun _ new => new) r s.worktrees }

def upsertManagedWorktreeClaim (r : ManagedWorktreeClaimRecord) :
    ToolStore → Except RuntimeError Unit × ToolStore :=
  write fun s => { s with
    claims := upsert (fun c : ManagedWorktreeClaimRecord => (c.worktreeId, c.sessionId)) (fun _ new => new) r s.claims }

def upsertTeamOperationJournal (r : TeamOperationJournalRecord) :
    ToolStore → Except RuntimeError Unit × ToolStore :=
  write fun s => { s with
    journal := upsert TeamOperationJournalRecord.operationId (fun _ new => new) r s.journal }

def appendTeamOperationDiagnostic (operationId teamId : Option String) (code message : String) (payload : Json)
    (createdAt : ℤ) : ToolStore → Except RuntimeError Unit × ToolStore :=
  write fun s => { s with
    diagnostics := s.diagnostics ++
      [⟨s.diagnostics.length + 1, operationId, teamId, trim code, trim message, payload, createdAt⟩] }

def appendRuntimeEvent (event : NewRuntimeEvent) (s : ToolStore) :
    Except RuntimeError RuntimeEventRecord × ToolStore :=
  ((Store.appendRuntimeEvent event s.base).1, { s with base := (Store.appendRuntimeEvent event s.base).2 })

end ToolStore

end Gooselake.Tools
