import Gooselake.Core.Provider
import Gooselake.Data.Json
import Gooselake.Library.Runs
import Gooselake.Library.Table

/-!
How the Claude adapter shares its bridges. A new session takes a bridge that has room, or a bridge spawned for it,
under the allocation lock, and is registered when the bridge has answered; a close that finds no session left fails
every bridge. The calls and the bridges take turns, and every step is one section under the locks of the source.
The turns use a session's bridge without touching what is modelled here and are left out, as are the counters'
wrap-around and the results that a failed bridge leaves to its sessions' turns.
-/

namespace Gooselake.Providers.ClaudeAllocation

open Gooselake.Core Data Library

set_option autoImplicit false

structure SessionHandle where
  bridge : ℕ
  bridgeSessionId : String
  deriving DecidableEq, Repr

def bridgeSessionKey (instanceId : ℕ) (bridgeSessionId : String) : String := s!"{instanceId}:{bridgeSessionId}"

inductive Kind where
  | create
  | resume
  | close
  deriving DecidableEq, Repr

inductive Point where
  /-- before the session is taken out of the sessions, and out of those by bridge -/
  | removing
  | removingKey (handle : SessionHandle)
  /-- before the allocation lock, then holding it -/
  | allocating
  | pruning
  | selecting
  | counting
  | spawning
  /-- a bridge was spawned for it and is not in the map yet -/
  | mapping (bridge : ℕ)
  | selectingExisting
  /-- its request is on the way to the bridge or back -/
  | holding (bridge : ℕ)
  | inserting (bridge : ℕ) (bridgeSessionId : String)
  /-- the bridge is told to close the session -/
  | closing
  /-- `shutdown_bridges_if_idle`: before the test, before the bridges are taken, before each of them is failed -/
  | leaving
  | taking
  | failing (bridges : List ℕ)
  | returned (outcome : Except RuntimeError Unit)
  deriving DecidableEq

def Point.bridge? : Point → Option ℕ
  | .holding bridge | .inserting bridge _ => some bridge
  | _ => none

structure Call where
  kind : Kind
  runtimeSessionId : String
  point : Point
  deriving DecidableEq

structure ClaudeProvider where
  maxBridges : ℕ
  maxSessionsPerBridge : ℕ
  nextBridgeInstanceId : ℕ
  nextBridgeSelection : ℕ
  /-- The bridges in the map, in the order of their numbers. -/
  bridges : List ℕ
  closed : List ℕ
  /-- The call that holds the allocation lock. -/
  allocation : Option ℕ
  sessions : Table String SessionHandle
  sessionsByBridgeKey : Table String SessionHandle
  calls : List Call

def ClaudeProvider.new (maxBridges maxSessionsPerBridge : ℕ) : ClaudeProvider :=
  ⟨max maxBridges 1, max maxSessionsPerBridge 1, 1, 0, [], [], none, ∅, ∅, []⟩

namespace ClaudeProvider

def putCall (i : ℕ) (c : Call) (point : Point) (s : ClaudeProvider) : ClaudeProvider :=
  { s with calls := s.calls.set i { c with point := point } }

/-! ## Bridges for new sessions -/

def assignedSessions (bridge : ℕ) (s : ClaudeProvider) : ℕ :=
  (s.sessions.values.filter fun h => h.bridge = bridge).length

def eligible (s : ClaudeProvider) : List ℕ :=
  s.bridges.filter fun bridge => s.assignedSessions bridge < s.maxSessionsPerBridge

def select (among : List ℕ) (s : ClaudeProvider) : Option ℕ := among[s.nextBridgeSelection % among.length]?

def acquire (i : ℕ) (c : Call) (bridge : ℕ) (s : ClaudeProvider) : ClaudeProvider :=
  { s.putCall i c (.holding bridge) with allocation := none }

def selected (i : ℕ) (c : Call) (bridge : ℕ) (s : ClaudeProvider) : ClaudeProvider :=
  { s.acquire i c bridge with nextBridgeSelection := s.nextBridgeSelection + 1 }

/-! ## The sections of a call -/

def removed (i : ℕ) (c : Call) (handle : Option SessionHandle) (s : ClaudeProvider) : ClaudeProvider :=
  match handle, c.kind with
  | some handle, _ => { s.putCall i c (.removingKey handle) with sessions := s.sessions.erase c.runtimeSessionId }
  | none, .close => s.putCall i c (.returned (.ok ()))
  | none, _ => s.putCall i c .allocating

def insertSession (i : ℕ) (c : Call) (handle : SessionHandle) (s : ClaudeProvider) : ClaudeProvider :=
  let key := bridgeSessionKey handle.bridge handle.bridgeSessionId
  if c.runtimeSessionId ∈ s.sessions then
    s.putCall i c (.returned (.error (.invalidState s!"Claude runtime session already exists: {c.runtimeSessionId}")))
  else if key ∈ s.sessionsByBridgeKey then
    s.putCall i c (.returned (.error (.invalidState s!"Claude bridge session already mapped: {key}")))
  else
    { s.putCall i c (.returned (.ok ())) with
      sessions := s.sessions.insert c.runtimeSessionId handle
      sessionsByBridgeKey := s.sessionsByBridgeKey.insert key handle }

/-- The next section of call `i`; `answer` is how a spawn or a request ends. -/
def advance (i : ℕ) (c : Call) (answer : Except RuntimeError String) (s : ClaudeProvider) : Option ClaudeProvider :=
  match c.point with
  | .removing => some (s.removed i c (s.sessions.lookup c.runtimeSessionId))
  | .removingKey handle =>
    some { s.putCall i c (if c.kind = .close then .closing else .allocating) with
      sessionsByBridgeKey := s.sessionsByBridgeKey.erase (bridgeSessionKey handle.bridge handle.bridgeSessionId) }
  | .allocating => if s.allocation.isSome then none else some { s.putCall i c .pruning with allocation := some i }
  | .pruning => some { s.putCall i c .selecting with bridges := s.bridges.filter fun bridge => bridge ∉ s.closed }
  | .selecting =>
    match s.select s.eligible with
    | some bridge => some (s.selected i c bridge)
    | none => some (s.putCall i c .counting)
  | .counting => some (s.putCall i c (if s.bridges.length < s.maxBridges then .spawning else .selectingExisting))
  | .spawning =>
    match answer with
    | .ok _ =>
      some { s.putCall i c (.mapping s.nextBridgeInstanceId) with nextBridgeInstanceId := s.nextBridgeInstanceId + 1 }
    | .error e =>
      some { s.putCall i c (.returned (.error e)) with
        nextBridgeInstanceId := s.nextBridgeInstanceId + 1, allocation := none }
  | .mapping bridge => some { s.acquire i c bridge with bridges := s.bridges ++ [bridge] }
  | .selectingExisting =>
    match s.select s.bridges with
    | some bridge => some (s.selected i c bridge)
    | none => some (s.putCall i c .spawning)
  | .holding bridge =>
    match answer with
    | .ok bridgeSessionId => some (s.putCall i c (.inserting bridge bridgeSessionId))
    | .error e => some (s.putCall i c (.returned (.error e)))
  | .inserting bridge bridgeSessionId => some (s.insertSession i c ⟨bridge, bridgeSessionId⟩)
  | .closing => some (s.putCall i c .leaving)
  | .leaving => some (s.putCall i c (if s.sessions.keys = [] then .taking else .returned (.ok ())))
  | .taking => some { s.putCall i c (.failing s.bridges) with bridges := [] }
  | .failing [] => some (s.putCall i c (.returned (.ok ())))
  | .failing (bridge :: bridges) =>
    some { s.putCall i c (.failing bridges) with
      closed := if bridge ∈ s.closed then s.closed else s.closed ++ [bridge] }
  | .returned _ => none

/-! ## The system -/

inductive Event where
  | call (kind : Kind) (runtimeSessionId : String)
  | goOn (i : ℕ) (answer : Except RuntimeError String)
  /-- a bridge fails by itself, and is taken out of the map -/
  | fails (bridge : ℕ)
  | drops (bridge : ℕ)

def begin (kind : Kind) : Point :=
  match kind with
  | .create => .allocating
  | .resume | .close => .removing

def step (e : Event) (s : ClaudeProvider) : Option ClaudeProvider :=
  match e with
  | .call kind runtimeSessionId => some { s with calls := s.calls ++ [⟨kind, runtimeSessionId, begin kind⟩] }
  | .goOn i answer => (s.calls[i]?).bind fun c => s.advance i c answer
  | .fails bridge =>
    if bridge < s.nextBridgeInstanceId ∧ bridge ∉ s.closed then some { s with closed := s.closed ++ [bridge] } else none
  | .drops bridge => if bridge ∈ s.closed then some { s with bridges := s.bridges.filter (· ≠ bridge) } else none

/-- Nobody uses the bridge: no session is registered on it, and no create or resume is in flight on it. -/
def Unused (bridge : ℕ) (s : ClaudeProvider) : Prop :=
  (∀ k h, s.sessions.lookup k = some h → h.bridge ≠ bridge) ∧ ∀ c ∈ s.calls, c.point.bridge? ≠ some bridge

/-- A bridge that is about to be shut down is unused. -/
def SparesInUse (s : ClaudeProvider) : Prop :=
  ∀ c ∈ s.calls, ∀ bridge bridges, c.point = .failing (bridge :: bridges) → bridge ∉ s.closed → s.Unused bridge

def inFlight (s : ClaudeProvider) : List ℕ := s.calls.filterMap fun c => c.point.bridge?

def acquires (c : Call) (s : ClaudeProvider) : Bool :=
  match c.point with
  | .selecting => s.eligible ≠ []
  | .selectingExisting => s.bridges ≠ []
  | .mapping _ => true
  | _ => false

/-- A close finds the adapter idle only if no call is in flight on a running bridge of the map, and nobody gets a
bridge between that and the moment when the bridges are taken. -/
def orderly (e : Event) (s : ClaudeProvider) : Bool :=
  match e with
  | .goOn i _ =>
    match s.calls[i]? with
    | none => true
    | some c =>
      if c.point = .leaving ∧ s.sessions.keys = [] then
        s.inFlight.all fun bridge => bridge ∉ s.bridges ∨ bridge ∈ s.closed
      else if s.acquires c then s.calls.all fun d => d.point ≠ .taking
      else true
  | _ => true

end ClaudeProvider

end Gooselake.Providers.ClaudeAllocation
