import Gooselake.Core.Provider
import Gooselake.Providers.ClaudeBridge

/-!
The Claude adapter: a handle for each runtime session, naming the bridge process and the bridge session
its requests go to.
-/

namespace Gooselake.Providers

open Gooselake.Core Data Library Library.Exec

set_option autoImplicit false

structure ClaudeSessionHandle where
  bridgeSessionId : String
  providerSessionRef : String
  canonicalProviderSessionRef : Option String
  bridge : ℕ
  deriving DecidableEq, Repr

structure Claude where
  bridges : Table ℕ Bridge
  nextBridgeInstanceId : ℕ
  sessions : Table String ClaudeSessionHandle

/-- What happens to a request on its way: the running bridge that is picked for a new session (a number
without a running bridge stands for a bridge spawned now), the error of a request that never reaches its
bridge, and the error returned when the answer does not come back. -/
structure Transit where
  bridge : ℕ
  lost : Option RuntimeError
  late : Option RuntimeError
  deriving DecidableEq, Repr

abbrev ClaudeM : Type → Type := Exec Claude RuntimeError

def mapBridgeError (error : BridgeError) : RuntimeError :=
  let message := s!"claude bridge {error.code.asStr}: {error.message}"
  match error.code with
  | .sessionNotFound => .notFound message
  | .badRequest | .turnInProgress => .invalidState message

namespace Claude

def new : Claude := ⟨∅, 1, ∅⟩

def getSession (runtimeSessionId : String) : ClaudeM ClaudeSessionHandle := do
  orThrow ((← get).sessions.lookup runtimeSessionId) (.notFound s!"claude session {runtimeSessionId}")

def acquired (t : Transit) (c : Claude) : ℕ × Claude :=
  if t.bridge ∈ c.bridges then (t.bridge, c)
  else (c.nextBridgeInstanceId, { c with
    bridges := c.bridges.insert c.nextBridgeInstanceId Bridge.new
    nextBridgeInstanceId := c.nextBridgeInstanceId + 1 })

def acquireBridgeForNewSession (t : Transit) : ClaudeM ℕ := do
  let c ← get
  modify fun c => (acquired t c).2
  return (acquired t c).1

def failing (error : Option RuntimeError) : ClaudeM Unit :=
  match error with
  | none => return ()
  | some e => throw e

def sendBridgeRequest {α : Type} (bridge : ℕ) (t : Transit) (m : BridgeM α) : ClaudeM α := do
  failing t.lost
  let b ← orThrow ((← get).bridges.lookup bridge) (.io "Claude bridge process is not running")
  modify fun c => { c with bridges := c.bridges.insert bridge (m.result b).2 }
  failing t.late
  ofExcept ((m.result b).1.mapError mapBridgeError)

def mapped (bridge : ℕ) (bridgeSessionId : String) (c : Claude) : Bool :=
  c.sessions.values.any fun h => h.bridge = bridge && h.bridgeSessionId = bridgeSessionId

def insertSession (runtimeSessionId : String) (handle : ClaudeSessionHandle) : ClaudeM Unit := do
  if runtimeSessionId ∈ (← get).sessions then
    throw (.invalidState s!"Claude runtime session already exists: {runtimeSessionId}")
  if mapped handle.bridge handle.bridgeSessionId (← get) then
    throw (.invalidState s!"Claude bridge session already mapped: {handle.bridge}:{handle.bridgeSessionId}")
  modify fun c => { c with sessions := c.sessions.insert runtimeSessionId handle }

def removeSession (runtimeSessionId : String) : ClaudeM (Option ClaudeSessionHandle) := do
  let c ← get
  modify fun c => { c with sessions := c.sessions.erase runtimeSessionId }
  return c.sessions.lookup runtimeSessionId

/-! ## Requests -/

def createSession (req : ProviderCreateSessionRequest) (t : Transit) : ClaudeM ProviderSession := do
  let bridge ← acquireBridgeForNewSession t
  let response ← sendBridgeRequest bridge t (Bridge.createSession req.runtimeSessionId)
  let canonical := response.claudeCanonicalSessionRef.bind trimmedNonEmpty
  insertSession req.runtimeSessionId ⟨response.sessionId, response.providerSessionRef, canonical, bridge⟩
  return ⟨req.runtimeSessionId, response.providerSessionRef, canonical⟩

def resumeSession (req : ProviderResumeSessionRequest) (t : Transit) : ClaudeM ProviderSession := do
  let _ ← removeSession req.runtimeSessionId
  let bridge ← acquireBridgeForNewSession t
  let response ← sendBridgeRequest bridge t
    (Bridge.resumeSession req.runtimeSessionId req.providerSessionRef req.canonicalProviderSessionRef)
  let canonical := (response.claudeCanonicalSessionRef.bind trimmedNonEmpty).or req.canonicalProviderSessionRef
  insertSession req.runtimeSessionId ⟨response.sessionId, response.providerSessionRef, canonical, bridge⟩
  return ⟨req.runtimeSessionId, response.providerSessionRef, canonical⟩

def sendTurn (req : ProviderSendTurnRequest) (t : Transit) : ClaudeM ProviderTurnAck := do
  let handle ← getSession req.runtimeSessionId
  let _ ← sendBridgeRequest handle.bridge t (Bridge.sendInput handle.bridgeSessionId req.expectedTurnId)
  return ⟨req.runtimeSessionId, req.turnId⟩

def closeSession (req : ProviderCloseSessionRequest) (t : Transit) : ClaudeM Unit := do
  match ← removeSession req.runtimeSessionId with
  | none => return ()
  | some handle =>
    let _ ← attempt (sendBridgeRequest handle.bridge t (Bridge.closeSession handle.bridgeSessionId))
    modify fun c => if c.sessions.keys = [] then { c with bridges := ∅ } else c

end Claude

end Gooselake.Providers
