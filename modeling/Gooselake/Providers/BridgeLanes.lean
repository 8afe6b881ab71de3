import Gooselake.Library.Lanes
import Gooselake.Library.Runs
import Gooselake.Providers.ClaudeAllocation
import Gooselake.Providers.ClaudeTurns

/-!
The stdout of a bridge: its reader hands every event to the lane of its session, and the lanes handle what they are
handed side by side. The table of the sequence numbers seen last is shared by the lanes, and every step is one section
under the locks of the source. An answer to a request goes past the lanes, to the request alone, and is left out.
-/

namespace Gooselake.Providers.BridgeLanes

open Gooselake.Core Data Library ClaudeTurns

set_option autoImplicit false

/-! ## The lane of an event -/

/-- What the standard hasher makes of a lane key, and what a JSON value is printed as. -/
structure Outside where
  hash : String → ℕ
  print : Json → String

def claudeStdoutWorkerLaneCount : ℕ := 16

def claudeStdoutWorkerQueueCapacity : ℕ := 128

def stdoutWorkerLaneKeyForPayload (payload : Json) : String :=
  match ((payload.get? "sessionId").bind Json.asStr).bind trimmedNonEmpty with
  | some bridgeSessionId => s!"session:{bridgeSessionId}"
  | none =>
    let payloadBody := (payload.get? "payload").getD .null
    match (((payload.get? "turnId").or (payloadBody.get? "turnId")).bind Json.asStr).bind trimmedNonEmpty with
    | some turnId => s!"turn:{turnId}"
    | none =>
      let eventName := (((payload.get? "event").bind Json.asStr).bind trimmedNonEmpty).getD "unknown"
      s!"event:{eventName}"

def stdoutWorkerLaneIndex (hash : String → ℕ) (key : String) (laneCount : ℕ) : ℕ :=
  if laneCount ≤ 1 then 0 else hash key % laneCount

namespace Outside

variable (o : Outside)

def laneOfKey (key : String) : ℕ := stdoutWorkerLaneIndex o.hash key claudeStdoutWorkerLaneCount

def laneOf (payload : Json) : ℕ := o.laneOfKey (stdoutWorkerLaneKeyForPayload payload)

end Outside

/-! ## What the sidecar writes -/

structure ClientEvent where
  event : String
  sessionId : String
  turnId : Option String
  payload : Json

def send (nextSeq : ℕ) (event : ClientEvent) : Json :=
  .obj [("event", .str event.event), ("seq", .int nextSeq), ("sessionId", .str event.sessionId),
    ("turnId", (event.turnId.map Json.str).getD .null), ("payload", event.payload)]

/-- The lines for the events, numbered through from `nextSeq` on. -/
def sendAll : ℕ → List ClientEvent → List Json
  | _, [] => []
  | nextSeq, event :: events => send nextSeq event :: sendAll (nextSeq + 1) events

/-! ## What an event does to its session -/

/-- The fields of a `ClaudeSessionHandle` that events read or change. -/
structure BridgedSession where
  runtimeSessionId : String
  providerSessionRef : String
  canonicalProviderSessionRef : Option String
  turns : Handle

inductive Change where
  | setRef (providerSessionRef : String)
  | setCanonical (canonical : String)
  | activate (turnId : String)
  | store (result : ProviderTurnResult)
  | clear (turnId : String)
  | unmap (turnId : String)

def Change.run (session : BridgedSession) : Change → BridgedSession
  | .setRef ref => { session with providerSessionRef := ref }
  | .setCanonical canonical => { session with canonicalProviderSessionRef := some canonical }
  | .activate turnId => { session with turns := session.turns.activate turnId }
  | .store result => { session with turns := session.turns.store result }
  | .clear turnId => { session with turns := session.turns.clear turnId }
  | .unmap turnId => { session with turns := session.turns.unmap turnId }

def settled (result : ProviderTurnResult) : List Change := [.store result, .clear result.turnId, .unmap result.turnId]

def changesOf (e : BridgeEvent) (runtimeSessionId : String) (turnId : Option String) : List Change :=
  match e.name with
  | "session.updated" =>
    let ref := (e.body.get? "providerSessionRef").bind Json.asStr
    let canonical := ((e.body.get? "claudeCanonicalSessionRef").bind Json.asStr).bind trimmedNonEmpty
    (ref.map Change.setRef).toList ++ (canonical.map Change.setCanonical).toList
  | "turn.started" => (turnId.map Change.activate).toList
  | "turn.completed" => (turnId.map fun t => settled (turnResult runtimeSessionId t e.body)).getD []
  | "error" => (turnId.map fun t => settled (failedResult runtimeSessionId t e.body)).getD []
  | _ => []

/-! ## The stdout -/

/-- What the reader gets for a line: an error, or the JSON value of the line unless it is blank or none. -/
abbrev Line : Type := Except String (Option Json)

inductive Handling where
  /-- The check is passed. -/
  | checked (e : BridgeEvent)
  | found (e : BridgeEvent) (session : ℕ)
  | changing (session : ℕ) (changes : List Change)

structure Stdout where
  instanceId : ℕ
  /-- The lines that the reader has not read yet. -/
  input : List Line
  reading : Bool
  lanes : Lanes Json Handling
  lastEventSeqBySession : Table String ℕ
  sessionsByBridgeKey : Table String ℕ
  sessions : ℕ → BridgedSession
  /-- The message that the bridge failed with first. -/
  failed : Option String
  /-- History: the events that failed the check. -/
  refused : List BridgeEvent

inductive Label where
  | read
  | lane (i : ℕ)
  /-- The bridge fails for another reason: the heartbeat, the writer, the end of the stdout. -/
  | fail (message : String)
  /-- The calls of the provider, or the end of a bridge that has failed, change the sessions. -/
  | elsewhere (sessionsByBridgeKey : Table String ℕ) (sessions : ℕ → BridgedSession)

/-- The step is one of the reader or of a lane. -/
def Label.own : Label → Prop
  | .read | .lane _ => True
  | .fail _ | .elsewhere _ _ => False

namespace Stdout

def closed (s : Stdout) : Bool := s.failed.isSome

/-- `fail_bridge`, up to the change it makes to the sessions. -/
def fail (message : String) (s : Stdout) : Stdout := { s with failed := s.failed.or (some message) }

def lastSeq (s : Stdout) (sessionId : String) : ℕ := (s.lastEventSeqBySession.lookup sessionId).getD 0

def stopReading (message : String) (rest : List Line) (s : Stdout) : Stdout :=
  { s.fail message with input := rest, reading := false }

def read (o : Outside) (s : Stdout) : Option Stdout :=
  match s.input with
  | [] => none
  | .error error :: rest => some (s.stopReading s!"Failed reading Claude bridge stdout: {error}" rest)
  | .ok none :: rest => some { s with input := rest }
  | .ok (some payload) :: rest =>
    if (payload.get? "event").isSome then
      if (s.lanes.queue (o.laneOf payload)).length < claudeStdoutWorkerQueueCapacity then
        some { s with input := rest, lanes := s.lanes.push (o.laneOf payload) payload }
      else none
    else if (payload.get? "id").isSome then some { s with input := rest }
    else some (s.stopReading s!"Unexpected Claude bridge payload shape: {o.print payload}" rest)

def reject (o : Outside) (i : ℕ) (payload : Json) (rest : List Json) (s : Stdout) : Stdout :=
  { s.fail s!"Bridge event missing required fields: {o.print payload}" with
    lanes := (s.lanes.take i payload rest (.changing 0 [])).finish i }

def nonMonotonic (e : BridgeEvent) (s : Stdout) : String :=
  s!"non-monotonic bridge event sequence for bridge instance {s.instanceId} session {e.sessionId}: " ++
    s!"current={e.seq}, previous={s.lastSeq e.sessionId}"

def refuse (i : ℕ) (payload : Json) (rest : List Json) (e : BridgeEvent) (s : Stdout) : Stdout :=
  { s.fail (s.nonMonotonic e) with
    lanes := (s.lanes.take i payload rest (.changing 0 [])).finish i
    refused := s.refused ++ [e] }

def accept (i : ℕ) (payload : Json) (rest : List Json) (e : BridgeEvent) (s : Stdout) : Stdout :=
  { s with
    lanes := s.lanes.take i payload rest (.checked e)
    lastEventSeqBySession := s.lastEventSeqBySession.insert e.sessionId e.seq }

def takeUp (o : Outside) (i : ℕ) (payload : Json) (rest : List Json) (s : Stdout) : Stdout :=
  match readEvent payload with
  | none => s.reject o i payload rest
  | some e => if e.seq ≤ s.lastSeq e.sessionId then s.refuse i payload rest e else s.accept i payload rest e

def turnOf (session : BridgedSession) (e : BridgeEvent) : Option String :=
  e.turnId.map session.turns.resolveRuntimeTurnId

def handle (i : ℕ) (s : Stdout) : Handling → Stdout
  | .checked e =>
    match s.sessionsByBridgeKey.lookup (ClaudeAllocation.bridgeSessionKey s.instanceId e.sessionId) with
    | none => { s with lanes := s.lanes.finish i }
    | some session => { s with lanes := s.lanes.goOn i (.found e session) }
  | .found e session =>
    let handle := s.sessions session
    let changes := changesOf e handle.runtimeSessionId (turnOf handle e)
    { s with lanes := s.lanes.goOn i (.changing session changes) }
  | .changing _ [] => { s with lanes := s.lanes.finish i }
  | .changing session (change :: changes) =>
    { s with
      sessions := Function.update s.sessions session (change.run (s.sessions session))
      lanes := s.lanes.goOn i (.changing session changes) }

def step (o : Outside) (l : Label) (s : Stdout) : Option Stdout :=
  match l with
  | .read => if s.reading then s.read o else none
  | .lane i =>
    match s.lanes.current i, s.lanes.queue i with
    | some work, _ => some (s.handle i work.2)
    | none, payload :: rest => some (s.takeUp o i payload rest)
    | none, [] => none
  | .fail message => some (s.fail message)
  | .elsewhere sessionsByBridgeKey sessions => some { s with sessionsByBridgeKey, sessions }

def start (instanceId : ℕ) (written : List Line) (sessionsByBridgeKey : Table String ℕ)
    (sessions : ℕ → BridgedSession) : Stdout where
  instanceId := instanceId
  input := written
  reading := true
  lanes := .empty
  lastEventSeqBySession := ∅
  sessionsByBridgeKey := sessionsByBridgeKey
  sessions := sessions
  failed := none
  refused := []

end Stdout

end Gooselake.Providers.BridgeLanes
