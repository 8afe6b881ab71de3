import Gooselake.Library.Runs
import Gooselake.Tools.Process

/-!
The process manager with any number of calls in flight, the lifecycle and pump tasks of every process,
and the operating system that runs the children. A step runs one piece of one task.
-/

namespace Gooselake.Tools

open Gooselake.Core Data Library Library.Exec

set_option autoImplicit false

inductive ProcessOperation where
  | run (request : ProcessRunRequest)
  | kill (request : ProcessKillRequest)
  | list

/-- A call at an await; `h` is the process the call holds. -/
inductive ProcessCall where
  | runPermit (request : ProcessRunRequest)
  | runTeardown (error : RuntimeError)
  | runInsert (record : ProcessRecord)
  | runDetail (id : String)
  | killOwner (h : ℕ) (request : ProcessKillRequest)
  | killFlag (h : ℕ) (request : ProcessKillRequest)
  | killChild (h : ℕ) (request : ProcessKillRequest)
  | killEvent (h : ℕ) (request : ProcessKillRequest)
  | killDetail (h : ℕ)
  | listRemove (ids : List String)
  | listRows
  deriving DecidableEq, Repr

inductive ProcessAnswer where
  | spawned (r : Except String (Option ℤ))
  | lock

def ProcessOperation.begin : ProcessOperation → ProcessM (Option ProcessCall)
  | .run request => do
    let request ← runBegin request
    return some (.runPermit request)
  | .kill request => do
    let h ← processFromId request.processId
    return some (.killOwner h request)
  | .list => do
    let ids ← cleanupBegin
    return some (.listRemove ids)

def ProcessCall.goOn : ProcessCall → ProcessAnswer → Option (ProcessM (Option ProcessCall))
  | .runPermit request, .spawned r => some do
    let (record, error) ← runSpawn request r
    return match error with
      | none => some (.runInsert record)
      | some error => some (.runTeardown error)
  | .runTeardown error, .lock => some do
    releasePermit
    throw error
  | .runInsert record, .lock => some do
    Tools.runInsert record
    return some (.runDetail record.id)
  | .runDetail id, .lock => some do
    let _ ← processFromId id
    return none
  | .killOwner h request, .lock => some do
    let o ← getObject h
    ensureOwnership o request.callerSessionId
    return some (.killFlag h request)
  | .killFlag h request, .lock => some do
    Tools.killFlag h
    return some (.killChild h request)
  | .killChild h request, .lock => some do
    let killed ← Tools.killChild h
    return some (if killed then .killEvent h request else .killDetail h)
  | .killEvent h request, .lock => some do
    Tools.killEvent h request.reason
    return some (.killDetail h)
  | .killDetail _, .lock => some (return none)
  | .listRemove ids, .lock => some do
    cleanupRemove ids
    return some .listRows
  | .listRows, .lock => some (return none)
  | _, _ => none

def ProcessCall.needsPermit : ProcessCall → Bool
  | .runPermit _ => true
  | _ => false

/-! ## Steps -/

structure ProcessServer where
  manager : Processes
  calls : Table ℕ ProcessCall

/-- What the lifecycle task of a process, one of its pumps or its child does next. -/
inductive Task where
  | exit (code signal : Option ℤ)
  | take
  | timer
  | waited
  | waitFailed (errno : Option ℤ)
  | drained
  | record
  | read (stream : OutputStream) (bytes : ℕ)
  | eof (stream : OutputStream)
  deriving DecidableEq, Repr

inductive ProcessLabel where
  | start (i : ℕ) (op : ProcessOperation)
  | goOn (i : ℕ) (answer : ProcessAnswer)
  | task (h : ℕ) (task : Task)
  | tick (now : ℤ)

def running (o : ManagedProcess) : Bool := o.child.any Child.running

def Child.exited (code signal : Option ℤ) (c : Child) : Child :=
  { c with running := false, exitCode := code, exitSignal := signal }

def Task.piece (h : ℕ) (o : ManagedProcess) : Task → Option (ProcessM Unit)
  | .exit code signal =>
    if running o then some (updateObject h fun o => { o with child := o.child.map (Child.exited code signal) })
    else none
  | .take => if o.lifecycle = .spawned then some (lifecycleTake h) else none
  | .timer => if o.lifecycle = .waiting then some (lifecycleTimer h) else none
  | .waited =>
    match o.child with
    | some c =>
      if (o.lifecycle = .waiting ∨ o.lifecycle = .reaping) ∧ ¬ c.running then
        some (lifecycleWaited h (.ok (c.exitCode, c.exitSignal)))
      else none
    | none => none
  | .waitFailed errno =>
    if o.lifecycle = .waiting ∨ o.lifecycle = .reaping then some (lifecycleWaited h (.error errno)) else none
  | .drained =>
    match o.lifecycle with
    | .draining result =>
      if o.stdout.budget = none ∧ o.stderr.budget = none then some (lifecycleStatus h result) else none
    | _ => none
  | .record =>
    match o.lifecycle with
    | .recording status exitCode signal => some (lifecycleRecord h status exitCode signal)
    | _ => none
  | .read stream bytes => if (capture stream o).budget.isSome then some (pumpRead h stream bytes) else none
  | .eof stream => if (capture stream o).budget.isSome then some (pumpEnd h stream) else none

namespace ProcessServer

def start (p : Processes) : ProcessServer := ⟨p, ∅⟩

def left : Except RuntimeError (Option ProcessCall) → Option ProcessCall
  | .ok after => after
  | .error _ => none

def put (calls : Table ℕ ProcessCall) (i : ℕ) : Option ProcessCall → Table ℕ ProcessCall
  | some c => calls.insert i c
  | none => calls.erase i

/-- Run a piece of call `i`. -/
def settle (s : ProcessServer) (i : ℕ) (piece : ProcessM (Option ProcessCall)) : ProcessServer where
  manager := (piece.result s.manager).2
  calls := put s.calls i (left (piece.result s.manager).1)

def run (s : ProcessServer) (piece : ProcessM Unit) : ProcessServer :=
  { s with manager := (piece.result s.manager).2 }

def step : ProcessLabel → ProcessServer → Option ProcessServer
  | .start i op, s => if i ∈ s.calls then none else some (s.settle i op.begin)
  | .goOn i answer, s => do
    let c ← s.calls.lookup i
    let piece ← c.goOn answer
    if c.needsPermit && s.manager.permits = 0 then none else some (s.settle i piece)
  | .task h task, s => do
    let o ← s.manager.objects.lookup h
    let piece ← task.piece h o
    some (s.run piece)
  | .tick now, s => some { s with manager := { s.manager with clock := now } }

end ProcessServer

end Gooselake.Tools
