import Gooselake.TeamComms.Delivery

/-!
The operations of the team service, cut at their awaits. Each operation in one run is its pieces one
after the other.
-/

namespace Gooselake.TeamComms

open Gooselake.Core Data Library Library.Exec
open Gooselake.Runtime (isClosedOrFailed)

set_option autoImplicit false

/-! ## Teams and members -/

structure TeamWithMembers where
  team : TeamRecord
  members : List TeamMemberRecord
  deriving DecidableEq, Repr

def sortedMembers (members : Table String TeamMemberRecord) : List TeamMemberRecord :=
  members.values.insertionSort fun a b => storedBefore a.joinedAt a.agentId b.joinedAt b.agentId

def teamWithMembers (teamId : String) : CommsM TeamWithMembers := do
  let s := (← get).state
  let team ← orThrow (s.teams.lookup teamId) (.notFound s!"team {teamId}")
  return ⟨team, sortedMembers ((s.membersByTeam.lookup teamId).getD ∅)⟩

structure TeamCreateRequest where
  name : String
  leadAgentId : String
  memberAgentIds : List String
  createdBy : Option String
  deriving DecidableEq, Repr

/-- What `create_team` has fixed before it checks the sessions. -/
structure TeamDraft where
  name : String
  leadAgentId : String
  memberAgentIds : List String
  createdBy : String
  now : ℤ
  deriving DecidableEq, Repr

def createTeamBegin (request : TeamCreateRequest) : CommsM TeamDraft := do
  ensureEnabled
  let name ← ofExcept (normalizeNonEmpty request.name "name")
  let leadAgentId ← ofExcept (normalizeNonEmpty request.leadAgentId "lead_agent_id")
  let now ← nowMs
  return ⟨name, leadAgentId, request.memberAgentIds, request.createdBy.getD "user", now⟩

def TeamDraft.member (d : TeamDraft) (teamId agentId : String) : TeamMemberRecord where
  teamId := teamId
  agentId := agentId
  title := none
  joinedAt := d.now
  addedBy := d.createdBy
  creatorAgentId := none
  creatorCompactionSubscription := "auto"
  worktreeId := none

def TeamDraft.members (d : TeamDraft) (teamId : String) : Table String TeamMemberRecord :=
  (d.memberAgentIds.filter fun agentId => agentId ≠ d.leadAgentId).foldl
    (fun members agentId => members.insert agentId (d.member teamId agentId))
    ((∅ : Table String TeamMemberRecord).insert d.leadAgentId (d.member teamId d.leadAgentId))

def TeamDraft.team (d : TeamDraft) (teamId : String) : TeamRecord where
  id := teamId
  name := d.name
  leadAgentId := d.leadAgentId
  createdBy := d.createdBy
  createdAt := d.now
  updatedAt := d.now
  deletedAt := none

def createTeamWrite (d : TeamDraft) : CommsM TeamRecord := do
  let teamId ← allocateTeamId
  let team := d.team teamId
  changeState fun s => { s with
    teams := s.teams.insert teamId team
    membersByTeam := s.membersByTeam.insert teamId (d.members teamId) }
  onStore (Store.upsertTeam team)
  return team

def createTeamMembers (team : TeamRecord) : CommsM TeamWithMembers := do
  let members := ((← get).state.membersByTeam.lookup team.id).elim [] Table.values
  members.forM fun member => onStore (Store.upsertTeamMember member)
  noteTeamEvent team.id "team.created"
    (.obj [("team", team.toJson), ("members", .arr (members.map TeamMemberRecord.toJson))])
    (some team.leadAgentId)
  teamWithMembers team.id

def createTeam (request : TeamCreateRequest) : CommsM TeamWithMembers := do
  let d ← createTeamBegin request
  let _ ← requireSessionActive d.leadAgentId
  d.memberAgentIds.forM fun member => do
    let _ ← requireSessionActive member
  let team ← createTeamWrite d
  createTeamMembers team

structure TeamJoinRequest where
  teamId : String
  agentId : String
  title : Option String
  addedBy : Option String
  creatorAgentId : Option String
  creatorCompactionSubscription : Option String
  worktreeId : Option String
  deriving DecidableEq, Repr

def joinTeamBegin (request : TeamJoinRequest) : CommsM TeamJoinRequest := do
  ensureEnabled
  let teamId ← ofExcept (normalizeNonEmpty request.teamId "team_id")
  let agentId ← ofExcept (normalizeNonEmpty request.agentId "agent_id")
  return { request with teamId := teamId, agentId := agentId }

def TeamJoinRequest.member (r : TeamJoinRequest) (lead : String) (now : ℤ) : TeamMemberRecord where
  teamId := r.teamId
  agentId := r.agentId
  title := normalizedNonEmpty r.title
  joinedAt := now
  addedBy := r.addedBy.getD lead
  creatorAgentId := r.creatorAgentId
  creatorCompactionSubscription := r.creatorCompactionSubscription.getD "auto"
  worktreeId := r.worktreeId

/-- How a change of a team ends: the team and its members are put in place and stored, the change is
announced and the team returned. -/
def saveTeam (teamId : String) (team : TeamRecord) (members : Table String (Table String TeamMemberRecord))
    (saveMember : CommsM Unit) (kind : String) (payload : Json) (sessionId : String) : CommsM TeamWithMembers := do
  changeState fun s => { s with teams := s.teams.insert teamId team, membersByTeam := members }
  onStore (Store.upsertTeam team)
  saveMember
  noteTeamEvent teamId kind payload (some sessionId)
  teamWithMembers teamId

def joinTeamWrite (r : TeamJoinRequest) : CommsM TeamWithMembers := do
  let s := (← get).state
  let now ← nowMs
  let team ← orThrow (s.teams.lookup r.teamId) (.notFound s!"team {r.teamId}")
  let members := (s.membersByTeam.lookup r.teamId).getD ∅
  if (members.lookup r.agentId).isSome then
    throw (.invalidState s!"agent {r.agentId} is already a member of team {r.teamId}")
  else
    let member := r.member team.leadAgentId now
    let team := { team with updatedAt := now }
    saveTeam r.teamId team (s.membersByTeam.insert r.teamId (members.insert r.agentId member))
      (onStore (Store.upsertTeamMember member)) "team.member_joined"
      (.obj [("team", team.toJson), ("member", member.toJson)]) r.agentId

def joinTeam (request : TeamJoinRequest) : CommsM TeamWithMembers := do
  let r ← joinTeamBegin request
  let _ ← requireSessionActive r.agentId
  joinTeamWrite r

def leadWithout (team : TeamRecord) (agentId : String) (members : Table String TeamMemberRecord) : String :=
  if team.leadAgentId = agentId then
    ((sortedMembers members).head?.map TeamMemberRecord.agentId).getD team.leadAgentId
  else team.leadAgentId

def removeTeamMember (teamId agentId : String) : CommsM TeamWithMembers := do
  ensureEnabled
  let teamId ← ofExcept (normalizeNonEmpty teamId "team_id")
  let agentId ← ofExcept (normalizeNonEmpty agentId "agent_id")
  let s := (← get).state
  let team ← orThrow (s.teams.lookup teamId) (.notFound s!"team {teamId}")
  let members ← orThrow (s.membersByTeam.lookup teamId) (.notFound s!"team {teamId} members")
  if (members.lookup agentId).isNone then
    throw (.notFound s!"agent {agentId} not in team {teamId}")
  else if members.keys.length ≤ 1 then
    throw (.invalidState s!"cannot remove last member from team {teamId}; delete team instead")
  else
    let members := members.erase agentId
    let now ← nowMs
    let team := { team with leadAgentId := leadWithout team agentId members, updatedAt := now }
    saveTeam teamId team (s.membersByTeam.insert teamId members)
      (onStore (Store.deleteTeamMember teamId agentId)) "team.member_left"
      (.obj [("team", team.toJson), ("agent_id", .str agentId)]) agentId

def setTeamLead (teamId leadAgentId : String) : CommsM TeamWithMembers := do
  ensureEnabled
  let teamId ← ofExcept (normalizeNonEmpty teamId "team_id")
  let leadAgentId ← ofExcept (normalizeNonEmpty leadAgentId "lead_agent_id")
  let s := (← get).state
  ofExcept (ensureMember (s.membersByTeam.lookup teamId) leadAgentId teamId)
  let team ← orThrow (s.teams.lookup teamId) (.notFound s!"team {teamId}")
  if team.leadAgentId = leadAgentId then teamWithMembers teamId
  else
    let now ← nowMs
    let team := { team with leadAgentId := leadAgentId, updatedAt := now }
    saveTeam teamId team s.membersByTeam (pure ()) "team.lead_changed"
      (.obj [("team", team.toJson), ("lead_agent_id", .str leadAgentId)]) leadAgentId

/-! ## delete_team -/

def teamDeliveries (s : TeamCommsState) (teamId : String) : List String :=
  ((s.teamDeliveryIds.lookup teamId).getD [] ++
    ((s.teamMessageIds.lookup teamId).getD []).flatMap fun id => (s.messageDeliveryIds.lookup id).getD []).dedup

def idempotencyEntry (message : TeamMessageRecord) : Option String :=
  (normalizedNonEmpty message.idempotencyKey).map
    (idempotencyIndexKey message.teamId message.senderAgentId message.scope)

def cancelDelivery (now : ℤ) (delivery : TeamDeliveryRecord) : TeamDeliveryRecord :=
  { delivery with status := .cancelled, updatedAt := now }

def cancelledByDelete (s : TeamCommsState) (teamId : String) (now : ℤ) : List TeamDeliveryRecord :=
  ((teamDeliveries s teamId).filterMap fun id => s.deliveries.lookup id).filterMap fun delivery =>
    if isQueued delivery.status then some (cancelDelivery now delivery) else none

def removeTeam (teamId : String) (s : TeamCommsState) : TeamCommsState :=
  let messageIds := (s.teamMessageIds.lookup teamId).getD []
  let removed := teamDeliveries s teamId
  let entries := (messageIds.filterMap fun id => s.messages.lookup id).filterMap idempotencyEntry
  { teams := s.teams.erase teamId
    membersByTeam := s.membersByTeam.erase teamId
    messages := s.messages.eraseAll messageIds
    deliveries := s.deliveries.eraseAll removed
    teamMessageIds := s.teamMessageIds.erase teamId
    teamDeliveryIds := s.teamDeliveryIds.erase teamId
    messageDeliveryIds := s.messageDeliveryIds.eraseAll messageIds
    recipientDeliveryIds := (removed.filterMap fun id => s.deliveries.lookup id).foldl
      (fun index d => removeDeliveryFromRecipientIndex index d.recipientAgentId d.id) s.recipientDeliveryIds
    idempotencyIndex := (s.idempotencyIndex.eraseAll entries).retain fun key =>
      !(teamId ++ "|").toList.isPrefixOf key.toList }

def storeCancelled (teamId : String) (delivery : TeamDeliveryRecord) : CommsM Unit := do
  onStore (Store.upsertTeamDelivery delivery)
  noteTeamEvent teamId "team_delivery.cancelled" (deliveryPayload delivery) (some delivery.recipientAgentId)

def deleteTeam (teamId : String) : CommsM Unit := do
  ensureEnabled
  let teamId ← ofExcept (normalizeNonEmpty teamId "team_id")
  let s := (← get).state
  let team ← orThrow (s.teams.lookup teamId) (.notFound s!"team {teamId}")
  let now ← nowMs
  let deleted := { team with deletedAt := some now, updatedAt := now }
  changeState (removeTeam teamId)
  onStore (Store.upsertTeam deleted)
  (cancelledByDelete s teamId now).forM (storeCancelled teamId)
  noteTeamEvent teamId "team.deleted" (.obj [("team", deleted.toJson)]) (some deleted.createdBy)

/-! ## Messages -/

inductive Disposition where
  | created
  | existing
  deriving DecidableEq, Repr

structure TeamMessageAck where
  message : TeamMessageRecord
  deliveries : List TeamDeliveryRecord
  disposition : Disposition
  deriving DecidableEq, Repr

/-- What `create_message_and_deliveries` has fixed; `recipients` are those admitted so far, each with
the provider of its session. -/
structure MessageDraft where
  teamId : String
  scope : String
  senderAgentId : String
  input : List Json
  imagePaths : List String
  priority : String
  policy : DeliveryPolicy
  correlationId : Option String
  replyToMessageId : Option String
  idempotencyKey : Option String
  recipients : List (String × String)
  deriving DecidableEq, Repr

/-- The checks of `create_message_and_deliveries` before it looks at a recipient. -/
def draftMessage (teamId scope sender : String) (recipientCount : ℕ) (input : List Json)
    (imagePaths : List String) (priority policy : String)
    (correlationId replyToMessageId idempotencyKey : Option String) : CommsM MessageDraft := do
  let scope ← ofExcept (normalizeScope scope)
  let policy ← ofExcept (normalizePolicy policy)
  let sender ← ofExcept (normalizeNonEmpty sender "sender_agent_id")
  let bound := (← get).config.maxPendingDeliveries
  if recipientCount > bound then
    throw (.invalidState s!"recipient count exceeds max_pending_deliveries ({bound})")
  else return ⟨teamId, scope, sender, input, imagePaths, normalizePriority priority, policy, correlationId,
    replyToMessageId, normalizedNonEmpty idempotencyKey, []⟩

def admitRecipient (m : MessageDraft) (recipient : String) : CommsM MessageDraft := do
  let recipient ← ofExcept (normalizeNonEmpty recipient "recipient_agent_id")
  if recipient ∈ m.recipients.map Prod.fst then return m
  else
    let session ← requireSessionActive recipient
    return { m with recipients := m.recipients ++ [(recipient, session.provider)] }

def MessageDraft.message (m : MessageDraft) (id : String) (now : ℤ) : TeamMessageRecord where
  id := id
  teamId := m.teamId
  scope := m.scope
  senderAgentId := m.senderAgentId
  recipientAgentIds := .arr (m.recipients.map fun r => .str r.1)
  input := .arr m.input
  imagePaths := .arr (m.imagePaths.map Json.str)
  priority := m.priority
  policy := m.policy.asStr
  correlationId := m.correlationId
  replyToMessageId := m.replyToMessageId
  idempotencyKey := m.idempotencyKey
  createdAt := now

def newDelivery (message : TeamMessageRecord) (id recipient provider : String) : TeamDeliveryRecord where
  id := id
  messageId := message.id
  teamId := message.teamId
  recipientAgentId := recipient
  provider := provider
  status := .pending
  effectivePolicy := some message.policy
  injectionStrategy := none
  injectedTurnId := none
  lastErrorCode := none
  lastErrorMessage := none
  createdAt := message.createdAt
  updatedAt := message.createdAt

def draftDeliveries (message : TeamMessageRecord) : List (String × String) → CommsM (List TeamDeliveryRecord)
  | [] => return []
  | (recipient, provider) :: rest => do
    let id ← allocateDeliveryId
    let deliveries ← draftDeliveries message rest
    return newDelivery message id recipient provider :: deliveries

def existingAck (s : TeamCommsState) (m : MessageDraft) : Option TeamMessageAck := do
  let key ← m.idempotencyKey
  let id ← s.idempotencyIndex.lookup (idempotencyIndexKey m.teamId m.senderAgentId m.scope key)
  let message ← s.messages.lookup id
  let deliveries := ((s.messageDeliveryIds.lookup id).getD []).filterMap fun id => s.deliveries.lookup id
  return ⟨message, deliveries, .existing⟩

def addMessage (m : MessageDraft) (message : TeamMessageRecord) (deliveries : List TeamDeliveryRecord)
    (s : TeamCommsState) : TeamCommsState :=
  deliveries.foldl TeamCommsState.addDelivery
    { s with
      messages := s.messages.insert message.id message
      teamMessageIds := pushAt s.teamMessageIds m.teamId message.id
      idempotencyIndex := match m.idempotencyKey with
        | some key => s.idempotencyIndex.insert
            (idempotencyIndexKey m.teamId m.senderAgentId m.scope key) message.id
        | none => s.idempotencyIndex }

def storeMessage (m : MessageDraft) (message : TeamMessageRecord) (deliveries : List TeamDeliveryRecord) :
    CommsM Unit := do
  onStore (Store.upsertTeamMessage message)
  deliveries.forM fun delivery => onStore (Store.upsertTeamDelivery delivery)
  noteTeamEvent m.teamId "team_message.created"
    (.obj [("message", message.toJson), ("deliveries", .arr (deliveries.map TeamDeliveryRecord.toJson))])
    (some m.senderAgentId)
  deliveries.forM fun delivery =>
    noteTeamEvent m.teamId "team_delivery.pending" (deliveryPayload delivery) (some delivery.recipientAgentId)

def checkMembers (s : TeamCommsState) (m : MessageDraft) : CommsM Unit := do
  let _ ← orThrow (s.teams.lookup m.teamId) (.notFound s!"team {m.teamId}")
  ofExcept (ensureMember (s.membersByTeam.lookup m.teamId) m.senderAgentId m.teamId)
  m.recipients.forM fun r => ofExcept (ensureMember (s.membersByTeam.lookup m.teamId) r.1 m.teamId)

def createMessage (m : MessageDraft) : CommsM TeamMessageAck := do
  let s := (← get).state
  checkMembers s m
  match existingAck s m with
  | some ack => return ack
  | none =>
    let now ← nowMs
    let messageId ← allocateMessageId
    let message := m.message messageId now
    let deliveries ← draftDeliveries message m.recipients
    changeState (addMessage m message deliveries)
    storeMessage m message deliveries
    return ⟨message, deliveries, .created⟩

structure TeamSendDirectRequest where
  teamId : String
  senderAgentId : String
  recipientAgentId : String
  input : Json
  imagePaths : List String
  priority : String
  policy : String
  correlationId : Option String
  replyToMessageId : Option String
  idempotencyKey : Option String
  deriving DecidableEq, Repr

def sendDirectBegin (r : TeamSendDirectRequest) : CommsM (MessageDraft × List String) := do
  ensureEnabled
  let teamId ← ofExcept (normalizeNonEmpty r.teamId "team_id")
  let sender ← ofExcept (normalizeNonEmpty r.senderAgentId "sender_agent_id")
  let recipient ← ofExcept (normalizeNonEmpty r.recipientAgentId "recipient_agent_id")
  let input ← ofExcept (normalizeNonEmptyInput r.input)
  let m ← draftMessage teamId "direct" sender 1 input r.imagePaths r.priority r.policy r.correlationId
    r.replyToMessageId r.idempotencyKey
  return (m, [recipient])

structure TeamBroadcastRequest where
  teamId : String
  senderAgentId : String
  input : Json
  imagePaths : List String
  priority : String
  policy : String
  includeSender : Bool
  correlationId : Option String
  idempotencyKey : Option String
  deriving DecidableEq, Repr

def broadcastRecipients (members : Table String TeamMemberRecord) (sender : String) (includeSender : Bool) :
    List String :=
  (members.keys.insertionSort fun a b => a ≤ b).filter fun member => includeSender || member ≠ sender

def broadcastBegin (r : TeamBroadcastRequest) : CommsM (MessageDraft × List String) := do
  ensureEnabled
  let teamId ← ofExcept (normalizeNonEmpty r.teamId "team_id")
  let sender ← ofExcept (normalizeNonEmpty r.senderAgentId "sender_agent_id")
  let input ← ofExcept (normalizeNonEmptyInput r.input)
  let members ← orThrow ((← get).state.membersByTeam.lookup teamId) (.notFound s!"team {teamId}")
  let recipients := broadcastRecipients members sender r.includeSender
  let m ← draftMessage teamId "broadcast" sender recipients.length input r.imagePaths r.priority r.policy
    r.correlationId none r.idempotencyKey
  return (m, recipients)

/-! ## retry_delivery and cancel_message -/

def retriedRecord (now : ℤ) (delivery : TeamDeliveryRecord) : TeamDeliveryRecord :=
  { delivery with
    status := .pending
    injectionStrategy := none
    injectedTurnId := none
    lastErrorCode := none
    lastErrorMessage := none
    updatedAt := now }

/-- `retry_delivery` up to its `inject_delivery`. -/
def retryWrite (teamId deliveryId : String) : CommsM String := do
  ensureEnabled
  let teamId ← ofExcept (normalizeNonEmpty teamId "team_id")
  let deliveryId ← ofExcept (normalizeNonEmpty deliveryId "delivery_id")
  let delivery ← orThrow ((← get).state.deliveries.lookup deliveryId) (.notFound s!"delivery {deliveryId}")
  if delivery.teamId ≠ teamId then
    throw (.invalidState s!"delivery {deliveryId} does not belong to team {teamId}")
  else if ¬ (delivery.status = .failed ∨ delivery.status = .deferred) then
    throw (.invalidState s!"delivery {deliveryId} can only be retried from failed/deferred state")
  else
    let now ← nowMs
    let updated := retriedRecord now delivery
    changeState fun s => { s with deliveries := s.deliveries.insert deliveryId updated }
    onStore (Store.upsertTeamDelivery updated)
    noteTeamEvent teamId "team_delivery.pending" (deliveryPayload updated) (some updated.recipientAgentId)
    return deliveryId

def messageDeliveries (s : TeamCommsState) (messageId : String) : List TeamDeliveryRecord :=
  ((s.messageDeliveryIds.lookup messageId).getD []).filterMap fun id => s.deliveries.lookup id

def cancelMessage (teamId messageId : String) : CommsM (List TeamDeliveryRecord) := do
  ensureEnabled
  let teamId ← ofExcept (normalizeNonEmpty teamId "team_id")
  let messageId ← ofExcept (normalizeNonEmpty messageId "message_id")
  let s := (← get).state
  let message ← orThrow (s.messages.lookup messageId) (.notFound s!"message {messageId}")
  if message.teamId ≠ teamId then
    throw (.invalidState s!"message {messageId} does not belong to team {teamId}")
  else
    match (messageDeliveries s messageId).find? fun d => !isQueued d.status with
    | some delivery =>
      throw (.invalidState s!"message {messageId} cannot be cancelled because delivery {delivery.id} is in {delivery.status.asStr}")
    | none =>
      let now ← nowMs
      let cancelled := (messageDeliveries s messageId).map (cancelDelivery now)
      changeState fun s => cancelled.foldl (fun s d => putDelivery d s) s
      cancelled.forM (storeCancelled teamId)
      noteTeamEvent teamId "team_message.completed" (.obj [("message_id", .str messageId)]) none
      return cancelled

/-! ## Deferred deliveries -/

def deferredFor (s : TeamCommsState) (recipient : String) : List String :=
  ((s.recipientDeliveryIds.lookup recipient).getD []).filter fun id =>
    (s.deliveries.lookup id).any fun d => d.status = .deferred

def isIdle (session : SessionRecord) : Bool :=
  !isClosedOrFailed session.status && session.activeTurnId.isNone

end Gooselake.TeamComms
