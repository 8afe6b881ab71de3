import Mathlib.Data.List.Sort
import Gooselake.Runtime.Recovery
import Gooselake.TeamComms.Helpers

/-!
The state of `RuntimeTeamCommsService` over the session manager it calls, and the primitive actions
its operations are written in. `store` is the service's part of the store: the team tables and the
team events.
-/

namespace Gooselake.TeamComms

open Gooselake.Core Data Library Library.Exec
open Gooselake.Runtime (Manager RuntimeM isClosedOrFailed)

set_option autoImplicit false

structure RuntimeTeamCommsConfig where
  enabled : Bool
  maxPendingDeliveries : ℕ
  deriving DecidableEq, Repr

structure TeamCommsState where
  teams : Table String TeamRecord
  membersByTeam : Table String (Table String TeamMemberRecord)
  messages : Table String TeamMessageRecord
  deliveries : Table String TeamDeliveryRecord
  teamMessageIds : Table String (List String)
  teamDeliveryIds : Table String (List String)
  messageDeliveryIds : Table String (List String)
  recipientDeliveryIds : Table String (List String)
  idempotencyIndex : Table String String

structure Comms where
  runtime : Manager
  store : Store
  config : RuntimeTeamCommsConfig
  state : TeamCommsState
  nextTeamId : ℕ
  nextMessageId : ℕ
  nextDeliveryId : ℕ
  nextEventId : ℕ
  eventIdNonce : String

abbrev CommsM : Type → Type := Exec Comms RuntimeError

/-! ## Starting from the store -/

def storedBefore (createdAt : ℤ) (id : String) (createdAt' : ℤ) (id' : String) : Bool :=
  createdAt < createdAt' || (createdAt = createdAt' && id ≤ id')

namespace TeamCommsState

def empty : TeamCommsState := ⟨∅, ∅, ∅, ∅, ∅, ∅, ∅, ∅, ∅⟩

def hydrateTeam (s : TeamCommsState) (team : TeamRecord) : TeamCommsState :=
  if team.deletedAt.isNone then { s with teams := s.teams.insert team.id team } else s

def hydrateMember (s : TeamCommsState) (member : TeamMemberRecord) : TeamCommsState :=
  if member.teamId ∈ s.teams then
    { s with
      membersByTeam := s.membersByTeam.insert member.teamId
        (((s.membersByTeam.lookup member.teamId).getD ∅).insert member.agentId member) }
  else s

def hydrateMessage (s : TeamCommsState) (message : TeamMessageRecord) : TeamCommsState :=
  if message.teamId ∈ s.teams then
    { s with
      idempotencyIndex := match normalizedNonEmpty message.idempotencyKey with
        | some key => s.idempotencyIndex.insert
            (idempotencyIndexKey message.teamId message.senderAgentId message.scope key) message.id
        | none => s.idempotencyIndex
      teamMessageIds := pushAt s.teamMessageIds message.teamId message.id
      messages := s.messages.insert message.id message }
  else s

def addDelivery (s : TeamCommsState) (delivery : TeamDeliveryRecord) : TeamCommsState :=
  { s with
    teamDeliveryIds := pushAt s.teamDeliveryIds delivery.teamId delivery.id
    messageDeliveryIds := pushAt s.messageDeliveryIds delivery.messageId delivery.id
    recipientDeliveryIds := pushAt s.recipientDeliveryIds delivery.recipientAgentId delivery.id
    deliveries := s.deliveries.insert delivery.id delivery }

def hydrateDelivery (s : TeamCommsState) (delivery : TeamDeliveryRecord) : TeamCommsState :=
  if delivery.teamId ∈ s.teams ∧ delivery.messageId ∈ s.messages then s.addDelivery delivery else s

/-- `hydrate_runtime_state` and the loops of `new` over what it returns. -/
def hydrate (store : Store) : TeamCommsState :=
  let s := store.teams.foldl hydrateTeam empty
  let s := store.teamMembers.foldl hydrateMember s
  let s := (store.teamMessages.insertionSort fun a b => storedBefore a.createdAt a.id b.createdAt b.id).foldl
    hydrateMessage s
  (store.teamDeliveries.insertionSort fun a b => storedBefore a.createdAt a.id b.createdAt b.id).foldl
    hydrateDelivery s

end TeamCommsState

def nextCounter {α : Type} (t : Table String α) : ℕ :=
  t.keys.foldl (fun m id => max m ((parseCounter id).getD 0)) 0 + 1

/-- `RuntimeTeamCommsService::new`: the counters go on from the rows that are kept. -/
def Comms.new (runtime : Manager) (store : Store) (config : RuntimeTeamCommsConfig)
    (eventIdNonce : String) : Comms :=
  let state := TeamCommsState.hydrate store
  { runtime := runtime, store := store, config := config, state := state,
    nextTeamId := nextCounter state.teams, nextMessageId := nextCounter state.messages,
    nextDeliveryId := nextCounter state.deliveries, nextEventId := 1, eventIdNonce := eventIdNonce }

/-! ## Primitive actions -/

def onRuntime {α : Type} (m : RuntimeM α) : CommsM α :=
  zoom Comms.runtime (fun runtime c => { c with runtime := runtime }) m

def nowMs : CommsM ℤ := do
  return (← get).runtime.clock

def changeState (f : TeamCommsState → TeamCommsState) : CommsM Unit :=
  modify fun c => { c with state := f c.state }

def onStore {α : Type} (f : Store → Except RuntimeError α × Store) : CommsM α := do
  let c ← get
  modify fun c => { c with store := (f c.store).2 }
  ofExcept (f c.store).1

def ensureEnabled : CommsM Unit := do
  if (← get).config.enabled then pure () else throw (.unsupported "team comms service is disabled")

def appendTeamEvent (teamId kind : String) (payload : Json) (sessionId : Option String) :
    CommsM RuntimeEventRecord := do
  let c ← get
  modify fun c => { c with nextEventId := c.nextEventId + 1 }
  let now ← nowMs
  onStore (Store.appendRuntimeEvent
    { eventId := numbered s!"evt_team_{teamId}_{c.eventIdNonce}" c.nextEventId, scope := .team,
      scopeId := teamId, sessionId := sessionId, teamId := some teamId, turnId := none, kind := kind,
      criticality := .critical, payload := payload, provider := none, providerSeq := none,
      createdAt := now })

/-- An event whose failure is ignored: `let _ = self.append_team_event(..).await`. -/
def noteTeamEvent (teamId kind : String) (payload : Json) (sessionId : Option String) : CommsM Unit := do
  let _ ← attempt (appendTeamEvent teamId kind payload sessionId)

def nextFree {α : Type} (stem : String) (taken : Table String α) (next : ℕ) : ℕ :=
  firstFree taken.keys stem taken.keys.length next

def allocateTeamId : CommsM String := do
  let c ← get
  let n := nextFree "team" c.state.teams c.nextTeamId
  modify fun c => { c with nextTeamId := n + 1 }
  return numbered "team" n

def allocateMessageId : CommsM String := do
  let c ← get
  let n := nextFree "msg" c.state.messages c.nextMessageId
  modify fun c => { c with nextMessageId := n + 1 }
  return numbered "msg" n

def allocateDeliveryId : CommsM String := do
  let c ← get
  let n := nextFree "dlv" c.state.deliveries c.nextDeliveryId
  modify fun c => { c with nextDeliveryId := n + 1 }
  return numbered "dlv" n

theorem nextFree_notMem {α : Type} (stem : String) (taken : Table String α) (next : ℕ) :
    numbered stem (nextFree stem taken next) ∉ taken.keys :=
  firstFree_notMem _ _ _ _ (List.length_filter_le _ _)

def requireSessionActive (sessionId : String) : CommsM SessionRecord := do
  let session ← onRuntime (Runtime.getSession sessionId)
  if isClosedOrFailed session.status then
    throw (.invalidState s!"session {sessionId} is not available in status {session.status.asStr}")
  return session

end Gooselake.TeamComms
