import Gooselake.Core.EventLog
import Gooselake.Tools.ProcessLogs

/-!
The operations of the process manager from their request to their answer, and the operation that each `gg_process` tool
turns to. The children, the log files and the order in which the map is gone through are given.
-/

namespace Gooselake.Tools

open Gooselake.Core Data Library Library.Exec

set_option autoImplicit false

/-! ## Answers -/

structure ProcessSummary where
  processId : String
  sessionId : Option String
  pid : Option ℤ
  status : ProcessStatus
  command : Json
  cwd : Option String
  startedAt : ℤ
  endedAt : Option ℤ
  deriving DecidableEq, Repr

structure ProcessDetails where
  process : ProcessSummary
  exitCode : Option ℤ
  signal : Option ℤ
  timeoutMs : Option ℤ
  stdoutPath : Option String
  stderrPath : Option String
  stdoutBytes : ℕ
  stderrBytes : ℕ
  stdoutTruncated : Bool
  stderrTruncated : Bool
  deriving DecidableEq, Repr

def summaryOf (r : ProcessRecord) : ProcessSummary where
  processId := r.id
  sessionId := r.sessionId
  pid := r.pid
  status := r.status
  command := r.command
  cwd := r.cwd
  startedAt := r.startedAt
  endedAt := r.endedAt

def detailFromProcess (o : ManagedProcess) : ProcessDetails where
  process := summaryOf o.record
  exitCode := o.record.exitCode
  signal := o.record.signal
  timeoutMs := o.record.timeoutMs
  stdoutPath := o.record.stdoutPath
  stderrPath := o.record.stderrPath
  stdoutBytes := o.stdout.bytes
  stderrBytes := o.stderr.bytes
  stdoutTruncated := o.stdout.truncated
  stderrTruncated := o.stderr.truncated

inductive ProcessReply where
  | details (d : ProcessDetails)
  | summaries (rows : List ProcessSummary)
  | chunks (chunks : List ProcessLogsChunk)
  | events (events : List RuntimeEventRecord)

/-! ## Operations -/

/-- `run_process` with a permit at hand; `spawned` is what the spawn of the child gives. -/
def runProcess (request : ProcessRunRequest) (spawned : Except String (Option ℤ)) : ProcessM ProcessDetails := do
  let request ← runBegin request
  let (record, error) ← runSpawn request spawned
  match error with
  | some error => do
    releasePermit
    throw error
  | none => do
    runInsert record
    let h ← processFromId record.id
    return detailFromProcess (← getObject h)

def listedRow (p : Processes) (callerSessionId : Option String) (includeCompleted : Bool) (id : String) :
    Option ProcessSummary :=
  match (p.processes.lookup id).bind p.objects.lookup with
  | some o =>
    if (callerSessionId.all fun caller => o.record.sessionId = some caller) &&
        (includeCompleted || !isTerminalProcessStatus o.record.status) then
      some (summaryOf o.record)
    else none
  | none => none

/-- `list_process_entries`: processes whose retention time is over leave the map first; the newest rows come first. -/
def listProcesses (callerSessionId : Option String) (includeCompleted : Bool) (order : List String) :
    ProcessM (List ProcessSummary) := do
  let ids ← cleanupBegin
  cleanupRemove ids
  let p ← get
  return (order.filterMap (listedRow p callerSessionId includeCompleted)).mergeSort
    fun l r => decide (r.startedAt ≤ l.startedAt)

def getProcess (processId : String) (callerSessionId : Option String) : ProcessM ProcessDetails := do
  let h ← ownedProcess processId callerSessionId
  return detailFromProcess (← getObject h)

/-- What `gg_process_status` does with a pid. -/
def getProcessByPid (pid : ℤ) (callerSessionId : Option String) (order : List String) : ProcessM ProcessDetails := do
  let processId ← processIdFromPid order pid
  getProcess processId callerSessionId

def killProcess (request : ProcessKillRequest) : ProcessM ProcessDetails := do
  let h ← ownedProcess request.processId request.callerSessionId
  killFlag h
  let killed ← killChild h
  if killed then killEvent h request.reason
  return detailFromProcess (← getObject h)

def replayEvents (processId : String) (callerSessionId : Option String) (afterSeq : Option ℤ) (limit : ℕ) :
    ProcessM (List RuntimeEventRecord) := do
  let _ ← ownedProcess processId callerSessionId
  return (← get).store.base.listRuntimeEvents (some (.process, processId)) afterSeq (max limit 1)

inductive ProcessRequest where
  | run (request : ProcessRunRequest) (spawned : Except String (Option ℤ))
  | list (callerSessionId : Option String) (includeCompleted : Bool) (order : List String)
  | get (processId : String) (callerSessionId : Option String)
  | getByPid (pid : ℤ) (callerSessionId : Option String) (order : List String)
  | logs (request : ProcessLogReadRequest) (maxBytes : Option ℕ)
  | kill (request : ProcessKillRequest)
  | replay (processId : String) (callerSessionId : Option String) (afterSeq : Option ℤ) (limit : ℕ)

namespace ProcessRequest

def caller : ProcessRequest → Option String
  | .run request _ => request.callerSessionId
  | .list callerSessionId _ _ => callerSessionId
  | .get _ callerSessionId => callerSessionId
  | .getByPid _ callerSessionId _ => callerSessionId
  | .logs request _ => request.callerSessionId
  | .kill request => request.callerSessionId
  | .replay _ callerSessionId _ _ => callerSessionId

def exec (files : String → ByteArray) : ProcessRequest → ProcessM ProcessReply
  | .run request spawned => .details <$> runProcess request spawned
  | .list callerSessionId includeCompleted order => .summaries <$> listProcesses callerSessionId includeCompleted order
  | .get processId callerSessionId => .details <$> getProcess processId callerSessionId
  | .getByPid pid callerSessionId order => .details <$> getProcessByPid pid callerSessionId order
  | .logs request maxBytes => .chunks <$> readProcessLogs files request maxBytes
  | .kill request => .details <$> killProcess request
  | .replay processId callerSessionId afterSeq limit =>
      .events <$> replayEvents processId callerSessionId afterSeq limit

def ready (p : Processes) : ProcessRequest → Bool
  | .run _ _ => p.permits ≠ 0
  | _ => true

def names (p : Processes) : ProcessRequest → Option ℕ
  | .get processId _ | .replay processId _ _ _ => p.processes.lookup processId
  | .getByPid pid _ order => (order.findSome? fun id =>
      ((p.processes.lookup id).bind p.objects.lookup).filter fun o => o.record.pid = some pid).bind
        fun o => p.processes.lookup o.record.id
  | .logs request _ => p.processes.lookup request.processId
  | .kill request => p.processes.lookup request.processId
  | .run _ _ | .list _ _ _ => none

end ProcessRequest

def ToolCall.processRequest (order : List String) (spawned : Except String (Option ℤ)) : ToolCall →
      Option ProcessRequest
  | .runProcess request => some (.run request spawned)
  | .getProcess (.id processId) caller => some (.get processId (some caller))
  | .getProcess (.pid pid) caller => some (.getByPid pid (some caller) order)
  | .listProcesses caller => some (.list (some caller) false order)
  | .readProcessLogs request => some (.logs request none)
  | .killProcess request => some (.kill request)
  | _ => none

theorem processRequest_caller {request : ToolInvokeRequest} {call : ToolCall} (h : readProcessTool request = .ok call)
    (order : List String) (spawned : Except String (Option ℤ)) :
    ∃ op, call.processRequest order spawned = some op ∧ op.caller = some request.callerSessionId := by
  unfold readProcessTool at h
  split at h
  · split at h
    · obtain rfl := Except.ok.inj h
      exact ⟨_, rfl, rfl⟩
    · split at h
      · obtain rfl := Except.ok.inj h
        exact ⟨_, rfl, rfl⟩
      · split at h
        · obtain rfl := Except.ok.inj h
          exact ⟨_, rfl, rfl⟩
        · obtain rfl := Except.ok.inj h
          exact ⟨_, rfl, rfl⟩
    · obtain rfl := Except.ok.inj h
      exact ⟨_, rfl, rfl⟩
    · obtain rfl := Except.ok.inj h
      exact ⟨_, rfl, rfl⟩
    · cases h
  · cases h

end Gooselake.Tools
