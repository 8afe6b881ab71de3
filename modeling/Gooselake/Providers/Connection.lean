import Gooselake.Providers.Acp

/-!
The requests on one ACP connection. A `send_request` tests the closed flag, takes a number, registers its
channel, writes its message and waits; a closing call raises the flag, answers every registered request and goes
on to the child. The callers, the closing calls, the reader of the agent's output and the reader of its error
output take turns, and every step is one section of the source. The numbers are those of an `AtomicU64` that does
not come round. The parameters of a request are for the agent alone and are left out.
-/

namespace Gooselake.Providers.Acp.Connection

open Gooselake.Core Data Library

set_option autoImplicit false

/-! ## The error output -/

def stderrTailMaxBytes : ℕ := 8 * 1024

/-- `String::split_off`, which panics within a character. -/
def splitOff : ℕ → List Char → Option (List Char)
  | 0, cs => some cs
  | _ + 1, [] => none
  | n + 1, c :: cs => if c.utf8Size ≤ n + 1 then splitOff (n + 1 - c.utf8Size) cs else none

def pushLine (tail line : String) : String := if tail = "" then line else tail ++ "\n" ++ line

def withDetail (message stderr : String) : String :=
  if trim stderr = "" then message else s!"{message}: {trim stderr}"

/-! ## Requests -/

/-- Where a `send_request` stands. -/
inductive Point where
  /-- before the test of `closed` -/
  | testing
  /-- the connection is closed, before the error output is read -/
  | refused
  /-- past the test, before `fetch_add` -/
  | numbering
  | registering (id : ℕ)
  | writing (id : ℕ)
  /-- the message could not be written, before the channel is taken back -/
  | retracting (id : ℕ) (error : RuntimeError)
  | waiting (id : ℕ)
  /-- the time is up, before the channel is taken back -/
  | expiring (id : ℕ)
  | returned (outcome : Except RuntimeError Json)

structure Request where
  method : String
  timeout : Bool
  point : Point
  reply : Option (Except RuntimeError Json)

def Point.id? : Point → Option ℕ
  | .registering id | .writing id | .retracting id _ | .waiting id | .expiring id => some id
  | .testing | .refused | .numbering | .returned _ => none

/-! ## Closing calls -/

inductive Closing where
  /-- `mark_closed_io` or `mark_closed_protocol`, before it swaps the flag -/
  | marking (error : RuntimeError)
  /-- `shutdown`, before it sets the flag -/
  | shutting (killIfRunning : Bool)
  /-- before it drains the requests; `shutdown` goes on -/
  | draining (error : RuntimeError) (killIfRunning : Option Bool)
  | flushing (killIfRunning : Bool)
  | reaping
  /-- over, with whether it has drained -/
  | finished (drained : Bool)
  deriving DecidableEq, Repr

def Closing.pastDrain : Closing → Bool
  | .flushing _ | .reaping => true
  | .finished drained => drained
  | .marking _ | .shutting _ | .draining _ _ => false

inductive Incoming where
  /-- a message without a method of its own, or a session update, whose id is that of a request -/
  | response (id : ℕ) (reply : Reply)
  | other
  | malformed (error : String)
  | ended
  | unreadable (error : String)
  deriving DecidableEq, Repr

structure State where
  closed : Bool
  nextRequestId : ℕ
  pendingRequests : Table ℕ ℕ
  requests : List Request
  closings : List Closing
  reading : Bool
  stderrTail : String
  stderrReading : Bool
  /-- A shutdown has killed the child. -/
  killed : Bool

def State.spawned : State := ⟨false, 1, ∅, [], [], true, "", true, false⟩

namespace State

/-- A close has taken out the pending requests. -/
def drained (s : State) : Bool := s.closings.any Closing.pastDrain

def putRequest (i : ℕ) (r : Request) (s : State) : State := { s with requests := s.requests.set i r }

def putClosing (k : ℕ) (c : Closing) (s : State) : State := { s with closings := s.closings.set k c }

def unregister (id : ℕ) (s : State) : State := { s with pendingRequests := s.pendingRequests.erase id }

def drain (error : RuntimeError) (s : State) : State :=
  { s with
    pendingRequests := ∅
    requests := s.requests.mapIdx fun i r =>
      if i ∈ s.pendingRequests.values then { r with reply := some (.error error) } else r }

/-! ## `send_request` -/

def receive (i id : ℕ) (r : Request) (s : State) : Option Request :=
  match r.reply with
  | some outcome => some { r with point := .returned outcome }
  | none =>
    if s.pendingRequests.lookup id = some i then none
    else some { r with point := .returned (.error (.invalidState s!"acp response channel closed for request {id}")) }

/-- The next section of a request; a write ends as `written` says. -/
def goOn (i : ℕ) (written : Except RuntimeError Unit) (s : State) : Option State :=
  match s.requests[i]? with
  | none => none
  | some r =>
    match r.point with
    | .testing => some (s.putRequest i { r with point := if s.closed then .refused else .numbering })
    | .refused =>
      some (s.putRequest i { r with
        point := .returned (.error (.io (withDetail "acp agent connection is closed" s.stderrTail))) })
    | .numbering =>
      some { s.putRequest i { r with point := .registering s.nextRequestId } with nextRequestId := s.nextRequestId + 1 }
    | .registering id =>
      some { s.putRequest i { r with point := .writing id } with pendingRequests := s.pendingRequests.insert id i }
    | .writing id =>
      match written with
      | .ok () => some (s.putRequest i { r with point := .waiting id })
      | .error error => some (s.putRequest i { r with point := .retracting id error })
    | .retracting id error => some ((s.unregister id).putRequest i { r with point := .returned (.error error) })
    | .waiting id => (s.receive i id r).map fun r' => s.putRequest i r'
    | .expiring id =>
      some ((s.unregister id).putRequest i
        { r with point := .returned (.error (.invalidState s!"timed out waiting for acp response to {r.method}")) })
    | .returned _ => none

def expire (i : ℕ) (s : State) : Option State :=
  match s.requests[i]? with
  | none => none
  | some r =>
    match r.point, r.timeout, r.reply with
    | .waiting id, true, none => some (s.putRequest i { r with point := .expiring id })
    | _, _, _ => none

/-! ## The reader -/

def respond (id : ℕ) (reply : Reply) (s : State) : State :=
  match s.pendingRequests.lookup id with
  | none => s
  | some i =>
    { s.unregister id with
      requests := s.requests.modify i fun r => { r with reply := some (reply.outcome id) } }

def markClosedBy (incoming : Incoming) (s : State) : Option Closing :=
  match incoming with
  | .response _ _ | .other => none
  | .malformed error =>
    some (.marking (.protocolViolation s!"acp agent emitted malformed JSON-RPC line: {error}"))
  | .ended => some (.marking (.io (withDetail "acp agent connection closed" s.stderrTail)))
  | .unreadable error => some (.marking (.io s!"failed reading acp agent stdout: {error}"))

def read (incoming : Incoming) (s : State) : Option State :=
  if s.reading then
    match incoming with
    | .response id reply => some (s.respond id reply)
    | .other => some s
    | .malformed _ | .ended | .unreadable _ =>
      some { s with reading := false, closings := s.closings ++ (s.markClosedBy incoming).toList }
  else none

/-! ## Closing -/

def advanceClosing (k : ℕ) (s : State) : Option State :=
  match s.closings[k]? with
  | none => none
  | some c =>
    match c with
    | .marking error =>
      if s.closed then some (s.putClosing k (.finished false))
      else some { s.putClosing k (.draining error none) with closed := true }
    | .shutting killIfRunning =>
      some { s.putClosing k (.draining (.io "acp connection shutting down") (some killIfRunning)) with closed := true }
    | .draining error none => some ((s.drain error).putClosing k (.finished true))
    | .draining error (some killIfRunning) => some ((s.drain error).putClosing k (.flushing killIfRunning))
    | .flushing killIfRunning =>
      some { s.putClosing k .reaping with killed := s.killed || killIfRunning }
    | .reaping => some (s.putClosing k (.finished true))
    | .finished _ => none

/-- The reader of the error output takes a line; a tail that would be cut within a character ends it. -/
def stderrLine (line : String) (s : State) : Option State :=
  if s.stderrReading then
    let tail := pushLine s.stderrTail line
    if tail.utf8ByteSize ≤ stderrTailMaxBytes then some { s with stderrTail := tail }
    else
      match splitOff (tail.utf8ByteSize - stderrTailMaxBytes) tail.toList with
      | some cs => some { s with stderrTail := String.ofList cs }
      | none => some { s with stderrTail := tail, stderrReading := false }
  else none

/-! ## The system -/

inductive Event where
  /-- a call of `send_request` -/
  | send (method : String) (timeout : Bool)
  | goOn (i : ℕ) (written : Except RuntimeError Unit)
  | expire (i : ℕ)
  | read (incoming : Incoming)
  /-- a call of `shutdown` -/
  | shutdown (killIfRunning : Bool)
  | close (k : ℕ)
  | stderr (line : String)

def step (e : Event) (s : State) : Option State :=
  match e with
  | .send method timeout => some { s with requests := s.requests ++ [⟨method, timeout, .testing, none⟩] }
  | .goOn i written => s.goOn i written
  | .expire i => s.expire i
  | .read incoming => s.read incoming
  | .shutdown killIfRunning => some { s with closings := s.closings ++ [.shutting killIfRunning] }
  | .close k => s.advanceClosing k
  | .stderr line => s.stderrLine line

end State

end Gooselake.Providers.Acp.Connection
