import Gooselake.Core.Provider
import Gooselake.Data.Json
import Gooselake.Data.Text
import Gooselake.Library.Runs
import Gooselake.Library.Table

/-!
The turns of one Claude session: what the adapter keeps of them, the events that its lane takes up, the calls of
`send_turn` and `wait_for_turn`, and the failure of the bridge. The lane, the calls and the failure take turns, and every
step is one section under the locks of the source. The parameters of a request are for the bridge alone and are left
out, and so are the references that `session.updated` sets and the sessions next to this one.
-/

namespace Gooselake.Providers.ClaudeTurns

open Gooselake.Core Data Library

set_option autoImplicit false

/-! ## Results -/

def extractTurnStatus (value : Option Json) : ProviderTurnStatus :=
  match (value.bind Json.asStr).map fun text => toAsciiLowercase (trim text) with
  | some "completed" => .completed
  | some "interrupted" => .interrupted
  | some "failed" => .failed
  | _ => .inProgress

def extractAssistantText (value : Option Json) : Option String := (value.bind Json.asStr).bind trimmedNonEmpty

def mergeAssistantTextIntoUsage (usage : Option Json) (assistantText : Option String) : Option Json :=
  match assistantText with
  | none => usage
  | some text =>
    if trim text = "" then usage
    else
      match usage with
      | some (.obj fields) =>
        some (.obj (Json.setField "assistant_text" (.str text) (Json.setField "last_message" (.str text) fields)))
      | some existing => some
          (.obj [("last_message", .str text), ("assistant_text", .str text), ("raw_usage", existing)])
      | none => some (.obj [("last_message", .str text), ("assistant_text", .str text)])

/-- The result that the body of a `turn.completed` event, or the answer to a wait, is made into. -/
def turnResult (runtimeSessionId turnId : String) (body : Json) : ProviderTurnResult where
  runtimeSessionId := runtimeSessionId
  turnId := turnId
  status := extractTurnStatus (body.get? "status")
  usage := mergeAssistantTextIntoUsage (body.get? "usage")
    ((extractAssistantText (body.get? "assistant_text")).or (extractAssistantText (body.get? "assistantText")))
  error := body.get? "error"

def failedResult (runtimeSessionId turnId : String) (error : Json) : ProviderTurnResult :=
  ⟨runtimeSessionId, turnId, .failed, none, some error⟩

def turnIdOf (body : Json) : Option String := (body.get? "turnId").bind Json.asStr

/-! ## Events -/

/-- `Value::as_u64`. -/
def asU64 : Json → Option ℕ
  | .int n => if 0 ≤ n ∧ n < 2 ^ 64 then some n.toNat else none
  | _ => none

structure BridgeEvent where
  name : String
  seq : ℕ
  sessionId : String
  turnId : Option String
  body : Json

def readEvent (payload : Json) : Option BridgeEvent := do
  let name ← (payload.get? "event").bind Json.asStr
  let seq ← (payload.get? "seq").bind asU64
  let sessionId ← (payload.get? "sessionId").bind Json.asStr
  let body := (payload.get? "payload").getD (.obj [])
  return ⟨name, seq, sessionId, (turnIdOf payload).or (turnIdOf body), body⟩

/-! ## The handle -/

/-- What a `ClaudeSessionHandle` keeps of the turns. -/
structure Handle where
  activeTurnId : Option String
  bridgeTurnByRuntimeTurn : Table String String
  runtimeTurnByBridgeTurn : Table String String
  completedTurns : Table String ProviderTurnResult

namespace Handle

def resolveBridgeTurnId (h : Handle) (runtimeTurnId : String) : String :=
  (h.bridgeTurnByRuntimeTurn.lookup runtimeTurnId).getD runtimeTurnId

def resolveRuntimeTurnId (h : Handle) (bridgeTurnId : String) : String :=
  (h.runtimeTurnByBridgeTurn.lookup bridgeTurnId).getD bridgeTurnId

def store (result : ProviderTurnResult) (h : Handle) : Handle :=
  { h with completedTurns := h.completedTurns.insert result.turnId result }

def activate (turnId : String) (h : Handle) : Handle := { h with activeTurnId := some turnId }

def clear (turnId : String) (h : Handle) : Handle :=
  { h with activeTurnId := if h.activeTurnId = some turnId then none else h.activeTurnId }

def mapRuntime (runtimeTurnId bridgeTurnId : String) (h : Handle) : Handle :=
  { h with bridgeTurnByRuntimeTurn := h.bridgeTurnByRuntimeTurn.insert runtimeTurnId bridgeTurnId }

def mapBridge (runtimeTurnId bridgeTurnId : String) (h : Handle) : Handle :=
  { h with runtimeTurnByBridgeTurn := h.runtimeTurnByBridgeTurn.insert bridgeTurnId runtimeTurnId }

def unmap (turnId : String) (h : Handle) : Handle :=
  match h.bridgeTurnByRuntimeTurn.lookup turnId with
  | none => h
  | some bridgeTurnId =>
    { h with
      bridgeTurnByRuntimeTurn := h.bridgeTurnByRuntimeTurn.erase turnId
      runtimeTurnByBridgeTurn := h.runtimeTurnByBridgeTurn.erase bridgeTurnId }

end Handle

/-! ## Calls -/

/-- `send_bridge_request`, up to its answer. -/
inductive Request where
  | asking
  | registering
  | waiting
  deriving DecidableEq, Repr

inductive SendPoint where
  | request (r : Request)
  | mapRuntime (bridgeTurnId : String)
  | mapBridge (bridgeTurnId : String)
  | activating (bridgeTurnId : String)
  | sent (bridgeTurnId : String)
  | failed (error : RuntimeError)
  deriving DecidableEq

abbrev Finished : Type := List (String × ProviderTurnStatus)

inductive WaitPoint where
  | checking
  | resolving
  | request (bridgeTurnId : String) (r : Request)
  | answered (body : Json)
  | storing (result : ProviderTurnResult)
  | clearing (result : ProviderTurnResult)
  | unmapping (result : ProviderTurnResult)
  /-- With what was finished at the time. -/
  | returned (result : Except RuntimeError ProviderTurnResult) (finished : Finished)
  deriving DecidableEq

inductive Call where
  | send (turnId : String) (point : SendPoint)
  | wait (turnId : String) (point : WaitPoint)
  deriving DecidableEq

def Call.method : Call → String
  | .send _ _ => "session.send"
  | .wait _ _ => "session.wait"

def Request.goOn (closed : Bool) : Request → Option (Except RuntimeError Request)
  | .asking => some (if closed then .error (.io "Claude bridge process is not running") else .ok .registering)
  | .registering => some (.ok .waiting)
  | .waiting => none

def SendPoint.goOn (closed : Bool) (turnId : String) (h : Handle) : SendPoint → Option (Handle × SendPoint)
  | .request r => (r.goOn closed).map fun
    | .ok r => (h, .request r)
    | .error e => (h, .failed e)
  | .mapRuntime b => some (h.mapRuntime turnId b, .mapBridge b)
  | .mapBridge b => some (h.mapBridge turnId b, .activating b)
  | .activating b => some (h.activate turnId, .sent b)
  | .sent _ | .failed _ => none

/-- The turn that a wait's answer is put down for: the turn id of the wait is kept when a completion event has taken
the map away. -/
def answeredTurnId (h : Handle) (runtimeTurnId bridgeTurnId : String) : String :=
  if h.resolveRuntimeTurnId bridgeTurnId = bridgeTurnId ∧ runtimeTurnId ≠ bridgeTurnId then runtimeTurnId
  else h.resolveRuntimeTurnId bridgeTurnId

def WaitPoint.goOn (closed : Bool) (runtimeSessionId turnId : String) (finished : Finished) (h : Handle) :
    WaitPoint → Option (Handle × WaitPoint)
  | .checking =>
    match h.completedTurns.lookup turnId with
    | some result => some (h, .returned (.ok result) finished)
    | none => some (h, .resolving)
  | .resolving => some (h, .request (h.resolveBridgeTurnId turnId) .asking)
  | .request b r => (r.goOn closed).map fun
    | .ok r => (h, .request b r)
    | .error e => (h, .returned (.error e) finished)
  | .answered body =>
    match turnIdOf body with
    | none => some (h, .returned (.error (.protocolViolation "session.wait response missing turnId")) finished)
    | some b => some (h, .storing (turnResult runtimeSessionId (answeredTurnId h turnId b) body))
  | .storing result => some (h.store result, .clearing result)
  | .clearing result => some (h.clear result.turnId, .unmapping result)
  | .unmapping result => some (h.unmap result.turnId, .returned (.ok result) finished)
  | .returned _ _ => none

def Call.receive (finished : Finished) (response : Except RuntimeError Json) : Call → Option Call
  | .send turnId (.request .waiting) =>
    match response with
    | .ok body => some (.send turnId (.mapRuntime ((turnIdOf body).getD turnId)))
    | .error e => some (.send turnId (.failed e))
  | .wait turnId (.request _ .waiting) =>
    match response with
    | .ok body => some (.wait turnId (.answered body))
    | .error e => some (.wait turnId (.returned (.error e) finished))
  | _ => none

/-! ## Steps -/

/-- Where the lane stands with the event of a bridge turn; `completes` for a `turn.completed`. -/
inductive Lane where
  | idle
  | starting (bridgeTurnId turnId : String)
  | storing (bridgeTurnId : String) (completes : Bool) (result : ProviderTurnResult)
  | clearing (bridgeTurnId : String) (completes : Bool) (result : ProviderTurnResult)
  | unmapping (bridgeTurnId : String) (completes : Bool) (result : ProviderTurnResult)

/-- Where `fail_bridge` stands. -/
inductive Failing where
  | no
  | draining (message : String)
  | reading (message : String)
  | recording (message turnId : String)
  | done
  deriving DecidableEq

structure Turns where
  runtimeSessionId : String
  bridgeSessionId : String
  instanceId : ℕ
  lastEventSeqBySession : Table String ℕ
  handle : Handle
  lane : Lane
  calls : List Call
  failing : Failing
  /-- History: the bridge turns that were started, and those whose completion or error was taken up. -/
  begun : List String
  ended : List String
  /-- History: the bridge turns whose completion was processed before the bridge failed. -/
  finished : Finished
  /-- History: the turns that `fail_bridge` has recorded a failure for. -/
  recorded : List String

inductive Label where
  /-- The lane takes up an event; `text` is what the payload is printed as. -/
  | event (payload : Json) (text : String)
  | lane
  | send (turnId : String)
  | wait (turnId : String)
  | goOn (i : ℕ)
  | answer (i : ℕ) (response : Except RuntimeError Json)
  | timeout (i : ℕ)
  /-- The writer is gone. -/
  | lost (i : ℕ)
  | fail (message : String)
  | failing

namespace Turns

/-- The flag that the first section of `fail_bridge` raises. -/
def closed (s : Turns) : Bool := decide (s.failing ≠ .no)

/-- The first section of `fail_bridge`. Whoever fails the bridge is not held up by the rest. -/
def fail (message : String) (s : Turns) : Turns := if s.closed then s else { s with failing := .draining message }

def dispatch (e : BridgeEvent) (s : Turns) : Turns :=
  match e.turnId with
  | none => s
  | some b =>
    let turnId := s.handle.resolveRuntimeTurnId b
    match e.name with
    | "turn.started" => { s with lane := .starting b turnId, begun := b :: s.begun }
    | "turn.completed" =>
      { s with lane := .storing b true (turnResult s.runtimeSessionId turnId e.body), ended := b :: s.ended }
    | "error" =>
      { s with lane := .storing b false (failedResult s.runtimeSessionId turnId e.body), ended := b :: s.ended }
    | _ => s

def lastSeq (s : Turns) (sessionId : String) : ℕ := (s.lastEventSeqBySession.lookup sessionId).getD 0

def handleBridgeEvent (payload : Json) (text : String) (s : Turns) : Turns :=
  match readEvent payload with
  | none => s.fail s!"Bridge event missing required fields: {text}"
  | some e =>
    if e.seq ≤ s.lastSeq e.sessionId then
      s.fail s!"non-monotonic bridge event sequence for bridge instance {s.instanceId} session {e.sessionId}: current={e.seq}, previous={s.lastSeq e.sessionId}"
    else
      let s := { s with lastEventSeqBySession := s.lastEventSeqBySession.insert e.sessionId e.seq }
      if e.sessionId = s.bridgeSessionId then s.dispatch e else s

def stepLane (s : Turns) : Option Turns :=
  match s.lane with
  | .idle => none
  | .starting _ turnId => some { s with handle := s.handle.activate turnId, lane := .idle }
  | .storing b completes result => some { s with handle := s.handle.store result, lane := .clearing b completes result }
  | .clearing b completes result =>
    some { s with handle := s.handle.clear result.turnId, lane := .unmapping b completes result }
  | .unmapping b completes result =>
    some { s with
      handle := s.handle.unmap result.turnId
      lane := .idle
      finished := if completes && !s.closed then (b, result.status) :: s.finished else s.finished }

/-- The next section of call `i`. -/
def stepCall (i : ℕ) (s : Turns) : Option Turns :=
  match s.calls[i]? with
  | none => none
  | some (.send turnId point) =>
    (point.goOn s.closed turnId s.handle).map fun next =>
      { s with handle := next.1, calls := s.calls.set i (.send turnId next.2) }
  | some (.wait turnId point) =>
    (point.goOn s.closed s.runtimeSessionId turnId s.finished s.handle).map fun next =>
      { s with handle := next.1, calls := s.calls.set i (.wait turnId next.2) }

def receive (i : ℕ) (response : Except RuntimeError Json) (s : Turns) : Option Turns :=
  match s.calls[i]? with
  | none => none
  | some call => (call.receive s.finished response).map fun call => { s with calls := s.calls.set i call }

/-- The next section of `fail_bridge`. -/
def stepFailing (s : Turns) : Option Turns :=
  match s.failing with
  | .no | .done => none
  | .draining message =>
    some { s with
      calls := s.calls.map fun call => (call.receive s.finished (.error (.io message))).getD call
      failing := .reading message }
  | .reading message =>
    match s.handle.activeTurnId with
    | none => some { s with failing := .done }
    | some turnId => some { s with failing := .recording message turnId }
  | .recording message turnId =>
    some { s with
      handle := s.handle.store (failedResult s.runtimeSessionId turnId (.obj [("message", .str message)]))
      failing := .done
      recorded := turnId :: s.recorded }

def step : Label → Turns → Option Turns
  | .event payload text, s =>
    match s.lane with
    | .idle => some (s.handleBridgeEvent payload text)
    | _ => none
  | .lane, s => s.stepLane
  | .send turnId, s => some { s with calls := s.calls ++ [.send turnId (.request .asking)] }
  | .wait turnId, s => some { s with calls := s.calls ++ [.wait turnId .checking] }
  | .goOn i, s => s.stepCall i
  | .answer i response, s => s.receive i response
  | .timeout i, s =>
    match s.calls[i]? with
    | none => none
    | some call =>
      s.receive i (.error (.invalidState s!"timed out waiting for Claude bridge response to {call.method}"))
  | .lost i, s =>
    match s.calls[i]? with
    | none => none
    | some call => s.receive i (.error (.io s!"failed writing request to Claude bridge for method {call.method}"))
  | .fail message, s => some (s.fail message)
  | .failing, s => s.stepFailing

def start (runtimeSessionId bridgeSessionId : String) (instanceId : ℕ) : Turns where
  runtimeSessionId := runtimeSessionId
  bridgeSessionId := bridgeSessionId
  instanceId := instanceId
  lastEventSeqBySession := ∅
  handle := ⟨none, ∅, ∅, ∅⟩
  lane := .idle
  calls := []
  failing := .no
  begun := []
  ended := []
  finished := []
  recorded := []

end Turns

end Gooselake.Providers.ClaudeTurns
