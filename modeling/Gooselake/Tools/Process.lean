import Gooselake.TeamComms.Helpers
import Gooselake.Tools.Store

/-!
`RuntimeProcessManager`: its calls and the lifecycle task of each process, cut at their awaits, over
the children the operating system runs for them.
-/

namespace Gooselake.Tools

open Gooselake.Core Data Library Library.Exec
open Gooselake.TeamComms (parseU64)

set_option autoImplicit false

/-! ## Requests and answers -/

structure ProcessRunRequest where
  callerSessionId : Option String
  toolCallId : Option String
  command : String
  cwd : Option String
  timeoutMs : Option ℕ
  deriving DecidableEq, Repr

structure ProcessKillRequest where
  processId : String
  callerSessionId : Option String
  reason : Option String
  deriving DecidableEq, Repr

structure ProcessManagerConfig where
  enabled : Bool
  maxConcurrent : ℕ
  defaultTimeoutMs : ℕ
  maxOutputBytesPerProcess : ℕ
  completedRetentionMs : ℕ
  outputEventSampleBytes : ℕ
  logDir : String
  deriving DecidableEq, Repr

/-! ## Processes -/

/-- A child as the operating system has it; `killed` says whether a kill signal reached it while it ran. -/
structure Child where
  running : Bool
  exitCode : Option ℤ
  exitSignal : Option ℤ
  killed : Bool
  deriving DecidableEq, Repr

def Child.spawned : Child := ⟨true, none, none, false⟩

def Child.startKill (c : Child) : Child := { c with killed := c.killed || c.running }

/-- What `child.wait()` returned: code and signal, or the error number. -/
abbrev WaitResult : Type := Except (Option ℤ) (Option ℤ × Option ℤ)

/-- Where `run_lifecycle` of a process stands. -/
inductive Lifecycle where
  | spawned
  | waiting
  /-- The timer has fired and the child has been signalled. -/
  | reaping
  | draining (result : WaitResult)
  | recording (status : ProcessStatus) (exitCode signal : Option ℤ)
  | ended
  deriving DecidableEq, Repr

inductive OutputStream where
  | stdout
  | stderr
  deriving DecidableEq, Repr

def OutputStream.asStr : OutputStream → String
  | .stdout => "stdout"
  | .stderr => "stderr"

/-- What one `pump_stream` task counts: the bytes and the flag are shared, the budget is its own;
`budget` is `none` when the task is over. -/
structure Capture where
  bytes : ℕ
  truncated : Bool
  budget : Option ℕ
  deriving DecidableEq, Repr

structure ManagedProcess where
  record : ProcessRecord
  /-- The slot `child` is filled. -/
  childHeld : Bool
  stdout : Capture
  stderr : Capture
  killRequested : Bool
  timedOut : Bool
  /-- The child and the lifecycle task; a hydrated process has neither. -/
  child : Option Child
  lifecycle : Lifecycle
  deriving DecidableEq, Repr

/-- `ManagedProcess::new` for a record read from the store. -/
def ManagedProcess.hydrated (record : ProcessRecord) : ManagedProcess where
  record := record
  childHeld := false
  stdout := ⟨0, false, none⟩
  stderr := ⟨0, false, none⟩
  killRequested := false
  timedOut := false
  child := none
  lifecycle := .ended

/-- `ManagedProcess::new` for a child that has just been spawned, with its lifecycle task. -/
def ManagedProcess.spawned (record : ProcessRecord) : ManagedProcess :=
  { ManagedProcess.hydrated record with childHeld := true, child := some .spawned, lifecycle := .spawned }

structure Processes where
  config : ProcessManagerConfig
  store : ToolStore
  /-- The managed processes, which calls and tasks share. -/
  objects : Table ℕ ManagedProcess
  processes : Table String ℕ
  nextObject : ℕ
  nextProcessId : ℕ
  nextEventId : ℕ
  permits : ℕ
  clock : ℤ
  /-- The events sent on `event_tx`. -/
  sent : List RuntimeEventRecord

abbrev ProcessM : Type → Type := Exec Processes RuntimeError

/-! ## Starting the manager -/

def parseProcessSequence (processId : String) : Option ℕ :=
  if "proc_".toList.isPrefixOf processId.toList then parseU64 (processId.toList.drop 5) else none

def recoveredRecord (clock : ℤ) (record : ProcessRecord) : ProcessRecord :=
  if record.status = .running ∨ record.status = .queued then
    { record with status := .failed, endedAt := some clock }
  else record

def storeRecovered (clock : ℤ) : List ProcessRecord → ToolStore → Except RuntimeError Unit × ToolStore
  | [], store => (.ok (), store)
  | record :: records, store =>
    if recoveredRecord clock record = record then storeRecovered clock records store
    else match ToolStore.upsertProcess (recoveredRecord clock record) store with
      | (.ok _, store) => storeRecovered clock records store
      | (.error e, store) => (.error e, store)

/-- `RuntimeProcessManager::new`. -/
def Processes.new (store : ToolStore) (config : ProcessManagerConfig) (clock : ℤ) : Except RuntimeError Processes :=
  match storeRecovered clock store.processes store with
  | (.error e, _) => .error e
  | (.ok _, store') => .ok {
      config := config
      store := store'
      objects := store.processes.zipIdx.foldl (fun t r => t.insert r.2 (.hydrated (recoveredRecord clock r.1))) ∅
      processes := store.processes.zipIdx.foldl (fun t r => t.insert r.1.id r.2) ∅
      nextObject := store.processes.length
      nextProcessId := (store.processes.filterMap fun r => parseProcessSequence r.id).foldl max 0 + 1
      nextEventId := 1
      permits := max config.maxConcurrent 1
      clock := clock
      sent := [] }

/-! ## Primitive actions -/

def onProcessStore {α : Type} (f : ToolStore → Except RuntimeError α × ToolStore) : ProcessM α := do
  let p ← get
  modify fun p => { p with store := (f p.store).2 }
  ofExcept (f p.store).1

def updateObject (h : ℕ) (f : ManagedProcess → ManagedProcess) : ProcessM Unit :=
  modify fun p => { p with objects := p.objects.update h f }

def appendProcessEvent (id : String) (sessionId : Option String) (kind : String)
    (criticality : RuntimeEventCriticality) (payload : Json) : ProcessM Unit := do
  let p ← get
  modify fun p => { p with nextEventId := p.nextEventId + 1 }
  let appended ← attempt (onProcessStore (ToolStore.appendRuntimeEvent
    { eventId := s!"evt_proc_{id}_{p.nextEventId}", scope := .process, scopeId := id, sessionId := sessionId,
      teamId := none, turnId := none, kind := kind, criticality := criticality, payload := payload,
      provider := none, providerSeq := none, createdAt := p.clock }))
  match appended with
  | .ok record => modify fun p => { p with sent := p.sent ++ [record] }
  | .error _ => return ()

def getObject (h : ℕ) : ProcessM ManagedProcess := do
  orThrow ((← get).objects.lookup h) (.notFound "process")

def processFromId (id : String) : ProcessM ℕ := do
  orThrow ((← get).processes.lookup id) (.notFound s!"process {id}")

def ensureOwnership (process : ManagedProcess) (callerSessionId : Option String) : ProcessM Unit :=
  match callerSessionId with
  | none => return ()
  | some caller =>
    if process.record.sessionId = some caller then return ()
    else throw (.invalidState s!"process {process.record.id} belongs to a different session")

/-! ## run_process -/

/-- The cast `as i64` of a 64-bit value. -/
def asI64 (n : ℕ) : ℤ := if n % 2 ^ 64 < 2 ^ 63 then n % 2 ^ 64 else (n % 2 ^ 64 : ℤ) - 2 ^ 64

/-- What a `run_process` call has fixed when it awaits its permit. -/
def runBegin (request : ProcessRunRequest) : ProcessM ProcessRunRequest := do
  if ¬ (← get).config.enabled then throw (.unsupported "gg_process tools are disabled")
  else if trim request.command = "" then throw (.invalidState "command cannot be empty")
  else return { request with command := trim request.command, cwd := request.cwd.bind trimmedNonEmpty }

def logPath (config : ProcessManagerConfig) (id : String) (stream : OutputStream) : String :=
  s!"{config.logDir}/{id}.{stream.asStr}.log"

def startedRecord (p : Processes) (request : ProcessRunRequest) (id : String) (pid : Option ℤ) : ProcessRecord where
  id := id
  sessionId := request.callerSessionId
  toolCallId := request.toolCallId
  pid := pid
  command := .obj [("command", .str request.command)]
  cwd := request.cwd
  status := .running
  exitCode := none
  signal := none
  stdoutPath := some (logPath p.config id .stdout)
  stderrPath := some (logPath p.config id .stderr)
  startedAt := p.clock
  endedAt := none
  timeoutMs := some (asI64 (request.timeoutMs.getD p.config.defaultTimeoutMs))

def releasePermit : ProcessM Unit := modify fun p => { p with permits := p.permits + 1 }

/-- With the permit: spawn the child and store its record. The error of the write is returned after
the child, which nothing tracks, has been killed. -/
def runSpawn (request : ProcessRunRequest) (spawned : Except String (Option ℤ)) :
    ProcessM (ProcessRecord × Option RuntimeError) := do
  modify fun p => { p with permits := p.permits - 1, nextProcessId := p.nextProcessId + 1 }
  let p ← get
  let id := s!"proc_{p.nextProcessId - 1}"
  match spawned with
  | .error error => do
    releasePermit
    throw (.io s!"failed to spawn process: {error}")
  | .ok pid => do
    let record := startedRecord p request id pid
    let stored ← attempt (onProcessStore (ToolStore.upsertProcess record))
    match stored with
    | .ok _ => return (record, none)
    | .error error => return (record, some error)

def runInsert (record : ProcessRecord) : ProcessM Unit := do
  modify fun p => { p with
    objects := p.objects.insert p.nextObject (.spawned record)
    processes := p.processes.insert record.id p.nextObject
    nextObject := p.nextObject + 1 }
  appendProcessEvent record.id record.sessionId "process.started" .critical
    (.obj [("process_id", .str record.id), ("pid", jsonOfTime record.pid), ("cwd", jsonOfOption record.cwd)])

/-! ## kill_process -/

def killFlag (h : ℕ) : ProcessM Unit := updateObject h fun o => { o with killRequested := true }

def killChild (h : ℕ) : ProcessM Bool := do
  let o ← getObject h
  if o.childHeld then do
    updateObject h fun o => { o with child := o.child.map Child.startKill }
    return true
  else return false

def killEvent (h : ℕ) (reason : Option String) : ProcessM Unit := do
  let o ← getObject h
  appendProcessEvent o.record.id o.record.sessionId "process.kill_requested" .critical
    (.obj [("reason", .str (reason.getD "requested")), ("process_id", .str o.record.id)])

/-! ## run_lifecycle -/

def lifecycleTake (h : ℕ) : ProcessM Unit := do
  let o ← getObject h
  if o.childHeld then
    updateObject h fun o => { o with
      childHeld := false
      lifecycle := .waiting
      stdout := { o.stdout with budget := some 0 }
      stderr := { o.stderr with budget := some 0 } }
  else do
    updateObject h fun o => { o with lifecycle := .ended }
    releasePermit

def lifecycleTimer (h : ℕ) : ProcessM Unit :=
  updateObject h fun o => { o with
    timedOut := true
    child := o.child.map Child.startKill
    lifecycle := .reaping }

/-- `child.wait()` has returned. -/
def lifecycleWaited (h : ℕ) (result : WaitResult) : ProcessM Unit :=
  updateObject h fun o => { o with lifecycle := .draining result }

def finalStatus (o : ManagedProcess) : WaitResult → ProcessStatus × Option ℤ × Option ℤ
  | .ok (code, signal) =>
    if o.timedOut then (.timedOut, code, signal)
    else if o.killRequested then (.killed, code, signal)
    else if code = some 0 then (.completed, code, signal)
    else (.failed, code, signal)
  | .error errno => (.failed, none, errno)

def lifecycleStatus (h : ℕ) (result : WaitResult) : ProcessM Unit :=
  updateObject h fun o => { o with
    lifecycle := .recording (finalStatus o result).1 (finalStatus o result).2.1 (finalStatus o result).2.2 }

def endedEvent : ProcessStatus → String
  | .completed => "process.completed"
  | .timedOut => "process.timed_out"
  | .killed => "process.killed"
  | _ => "process.failed"

/-- A process whose end is recorded; its child's handle is dropped, which kills a child that runs. -/
def recordedProcess (now : ℤ) (status : ProcessStatus) (exitCode signal : Option ℤ) (o : ManagedProcess) :
    ManagedProcess :=
  { o with
    record := { o.record with status := status, exitCode := exitCode, signal := signal, endedAt := some now }
    child := o.child.map Child.startKill
    lifecycle := .ended }

def lifecycleRecord (h : ℕ) (status : ProcessStatus) (exitCode signal : Option ℤ) : ProcessM Unit := do
  let now := (← get).clock
  updateObject h (recordedProcess now status exitCode signal)
  let o ← getObject h
  let _ ← attempt (onProcessStore (ToolStore.upsertProcess o.record))
  appendProcessEvent o.record.id o.record.sessionId (endedEvent status) .critical
    (.obj [("process_id", .str o.record.id), ("status", .str status.asStr), ("exit_code", jsonOfTime exitCode),
      ("signal", jsonOfTime signal)])
  releasePermit

/-! ## pump_stream -/

def capture : OutputStream → ManagedProcess → Capture
  | .stdout, o => o.stdout
  | .stderr, o => o.stderr

def setCapture (c : Capture) : OutputStream → ManagedProcess → ManagedProcess
  | .stdout, o => { o with stdout := c }
  | .stderr, o => { o with stderr := c }

/-- One read of `read` bytes. -/
def pumpRead (h : ℕ) (stream : OutputStream) (read : ℕ) : ProcessM Unit := do
  let config := (← get).config
  let o ← getObject h
  let c := capture stream o
  let toWrite := min (config.maxOutputBytesPerProcess - c.bytes) read
  let truncatedNow : Bool := toWrite < read
  let budget := c.budget.getD 0 + read
  let emit : Bool := decide (max config.outputEventSampleBytes 1 ≤ budget) || truncatedNow
  updateObject h
    (setCapture ⟨c.bytes + toWrite, c.truncated || truncatedNow, some (if emit then 0 else budget)⟩ stream)
  if emit then
    appendProcessEvent o.record.id o.record.sessionId "process.output" .droppable
      (.obj [("process_id", .str o.record.id), ("stream", .str stream.asStr), ("bytes_seen", .int read),
        ("bytes_written", .int toWrite), ("truncated", .bool truncatedNow)])
  else return ()

def pumpEnd (h : ℕ) (stream : OutputStream) : ProcessM Unit :=
  updateObject h fun o => setCapture { capture stream o with budget := none } stream o

/-! ## list_processes -/

def isTerminalProcessStatus : ProcessStatus → Bool
  | .completed | .failed | .timedOut | .killed => true
  | .queued | .running => false

def expired (p : Processes) : List String :=
  p.processes.keys.filter fun id =>
    match (p.processes.lookup id).bind p.objects.lookup with
    | some o => isTerminalProcessStatus o.record.status &&
        o.record.endedAt.any fun endedAt => decide (asI64 p.config.completedRetentionMs ≤ p.clock - endedAt)
    | none => false

/-- The first piece of `cleanup_expired_terminal`. -/
def cleanupBegin : ProcessM (List String) := do
  let p ← get
  return if p.config.completedRetentionMs = 0 then [] else expired p

def cleanupRemove (ids : List String) : ProcessM Unit :=
  modify fun p => { p with processes := p.processes.eraseAll ids }

end Gooselake.Tools
