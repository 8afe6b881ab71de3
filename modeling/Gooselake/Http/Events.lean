import Gooselake.Core.EventLog
import Gooselake.Library.Runs

/-!
The event streams of the server. An event is appended to the store and then, as a step of its own,
sent on the broadcast channel of its manager; a subscriber subscribes, replays the store page by page
and then reads the channel.
-/

namespace Gooselake.Http

open Gooselake.Core Data Library

set_option autoImplicit false

/-! ## Appends -/

/-- Who appends an event: the session manager, for a session or for itself, the process manager, or a
service that does not send what it appends. -/
inductive Origin where
  | session (sessionId : String)
  | system (scopeId : String)
  | process (processId : String) (sessionId : Option String)
  | team (teamId : String) (sessionId : Option String)
  | worktree (worktreeId : String) (sessionId : Option String)
  deriving DecidableEq, Repr

def Origin.scope : Origin → RuntimeEventScope × String × Option String
  | .session sessionId => (.session, sessionId, some sessionId)
  | .system scopeId => (.system, scopeId, none)
  | .process processId sessionId => (.process, processId, sessionId)
  | .team teamId sessionId => (.team, teamId, sessionId)
  | .worktree worktreeId sessionId => (.worktree, worktreeId, sessionId)

structure Draft where
  eventId : String
  teamId : Option String
  turnId : Option String
  kind : String
  criticality : RuntimeEventCriticality
  payload : Json
  createdAt : ℤ
  deriving DecidableEq, Repr

def Origin.event (o : Origin) (d : Draft) : NewRuntimeEvent where
  eventId := d.eventId
  scope := o.scope.1
  scopeId := o.scope.2.1
  sessionId := o.scope.2.2
  teamId := d.teamId
  turnId := d.turnId
  kind := d.kind
  criticality := d.criticality
  payload := d.payload
  provider := none
  providerSeq := none
  createdAt := d.createdAt

/-! ## Channels -/

inductive Source where
  | runtime
  | processes
  deriving DecidableEq, Repr

def Origin.source : Origin → Option Source
  | .session _ | .system _ => some .runtime
  | .process _ _ => some .processes
  | .team _ _ | .worktree _ _ => none

/-- A broadcast channel: all values sent on it, and the records whose appenders have not sent them yet. -/
structure Channel where
  sent : List RuntimeEventRecord
  unsent : List RuntimeEventRecord
  deriving DecidableEq, Repr

/-! ## Subscribers -/

inductive EventStream where
  | session (sessionId : String)
  | process (processId : String)
  deriving DecidableEq, Repr

def EventStream.source : EventStream → Source
  | .session _ => .runtime
  | .process _ => .processes

def EventStream.scope : EventStream → RuntimeEventScope × String
  | .session sessionId => (.session, sessionId)
  | .process processId => (.process, processId)

/-- The filter of the live phase: a session's by `session_id`, a process's by scope. -/
def EventStream.live : EventStream → RuntimeEventRecord → Bool
  | .session sessionId, e => e.sessionId = some sessionId
  | .process processId, e => e.scope = .process && e.scopeId = processId

inductive Phase where
  /-- The pages read so far and the cursor of the next. -/
  | replaying (replayCursor : Option ℤ) (events : List RuntimeEventRecord)
  /-- The replayed events still to be taken, then the channel. -/
  | streaming (queue : List RuntimeEventRecord) (watermark : ℤ)
  deriving DecidableEq, Repr

structure Subscriber where
  stream : EventStream
  cursor : Option ℤ
  limit : ℕ
  /-- How much of the channel the receiver has gone past. -/
  next : ℕ
  phase : Phase
  emitted : List ℤ
  deriving DecidableEq, Repr

/-- `limit.unwrap_or(2_000).clamp(1, 10_000)`. -/
def replayPageLimit (limit : Option ℕ) : ℕ := min (max (limit.getD 2000) 1) 10000

def Subscriber.page (sub : Subscriber) (store : Store) : Option Subscriber :=
  match sub.phase with
  | .replaying replayCursor events =>
    let page := store.listRuntimeEvents (some sub.stream.scope) replayCursor sub.limit
    match page.getLast? with
    | none => some { sub with phase := .streaming events ((replayCursor.or sub.cursor).getD 0) }
    | some last =>
      if page.length < sub.limit then
        some { sub with phase := .streaming (events ++ page) last.seq }
      else some { sub with phase := .replaying (some last.seq) (events ++ page) }
  | .streaming _ _ => none

def Subscriber.emit (sub : Subscriber) : Option Subscriber :=
  match sub.phase with
  | .streaming (e :: queue) watermark =>
    some { sub with phase := .streaming queue watermark, emitted := sub.emitted ++ [e.seq] }
  | _ => none

def Subscriber.passes (sub : Subscriber) (watermark : ℤ) (e : RuntimeEventRecord) : Bool :=
  sub.stream.live e && decide (watermark < e.seq)

/-- One receive: a receiver that lags skips what the channel no longer holds, and the stream drops the
notice; otherwise the next value is filtered. -/
def Subscriber.receive (sub : Subscriber) (sent : List RuntimeEventRecord) (capacity : ℕ) : Option Subscriber :=
  match sub.phase with
  | .streaming [] watermark =>
    if sub.next + capacity < sent.length then some { sub with next := sent.length - capacity }
    else do
      let e ← sent[sub.next]?
      some { sub with
        next := sub.next + 1
        emitted := if sub.passes watermark e then sub.emitted ++ [e.seq] else sub.emitted }
  | _ => none

/-! ## Steps -/

structure Streams where
  store : Store
  runtime : Channel
  processes : Channel
  runtimeCapacity : ℕ
  processCapacity : ℕ
  subscriber : Option Subscriber

inductive StreamLabel where
  | append (o : Origin) (d : Draft)
  /-- The appender of an unsent record sends it. -/
  | send (source : Source) (k : ℕ)
  | subscribe (stream : EventStream) (cursor : Option ℤ) (limit : Option ℕ)
  | page
  | emit
  | receive
  | disconnect
  | restart

namespace Streams

def channel (s : Streams) : Source → Channel
  | .runtime => s.runtime
  | .processes => s.processes

def capacity (s : Streams) : Source → ℕ
  | .runtime => s.runtimeCapacity
  | .processes => s.processCapacity

def setChannel (s : Streams) (source : Source) (c : Channel) : Streams :=
  match source with
  | .runtime => { s with runtime := c }
  | .processes => { s with processes := c }

def empty (faults : List Bool) (runtimeCapacity processCapacity : ℕ) : Streams :=
  ⟨Store.empty faults, ⟨[], []⟩, ⟨[], []⟩, runtimeCapacity, processCapacity, none⟩

/-- `append_runtime_event`; a record that is returned is to be sent. -/
def append (s : Streams) (o : Origin) (d : Draft) : Streams :=
  let s' := { s with store := (Store.appendRuntimeEvent (o.event d) s.store).2 }
  match (Store.appendRuntimeEvent (o.event d) s.store).1, o.source with
  | .ok record, some source => s'.setChannel source ⟨(s.channel source).sent, (s.channel source).unsent ++ [record]⟩
  | _, _ => s'

def send (s : Streams) (source : Source) (k : ℕ) : Option Streams := do
  let record ← (s.channel source).unsent[k]?
  some (s.setChannel source ⟨(s.channel source).sent ++ [record], (s.channel source).unsent.eraseIdx k⟩)

def subscribed (s : Streams) (stream : EventStream) (cursor : Option ℤ) (limit : Option ℕ) : Subscriber where
  stream := stream
  cursor := cursor
  limit := replayPageLimit limit
  next := (s.channel stream.source).sent.length
  phase := .replaying cursor []
  emitted := []

def step : StreamLabel → Streams → Option Streams
  | .append o d, s => some (s.append o d)
  | .send source k, s => s.send source k
  | .subscribe stream cursor limit, s =>
    match s.subscriber with
    | none => some { s with subscriber := some (s.subscribed stream cursor limit) }
    | some _ => none
  | .page, s => do
    let sub ← s.subscriber
    let sub ← Subscriber.page sub s.store
    some { s with subscriber := some sub }
  | .emit, s => do
    let sub ← s.subscriber
    let sub ← Subscriber.emit sub
    some { s with subscriber := some sub }
  | .receive, s => do
    let sub ← s.subscriber
    let sub ← Subscriber.receive sub (s.channel sub.stream.source).sent (s.capacity sub.stream.source)
    some { s with subscriber := some sub }
  | .disconnect, s => some { s with subscriber := none }
  | .restart, s => some { s with runtime := ⟨[], []⟩, processes := ⟨[], []⟩, subscriber := none }

end Streams

end Gooselake.Http
