import Gooselake.Data.Json

/-!
Errors, statuses and records of the runtime core. A status the source keeps as a text is an
enumeration here, with its text in `asStr`.
-/

namespace Gooselake.Core

open Data

set_option autoImplicit false

/-! ## Errors -/

inductive RuntimeError where
  | configuration (message : String)
  | providerAlreadyRegistered (provider : String)
  | providerNotRegistered (provider : String)
  | notFound (what : String)
  | invalidState (message : String)
  | protocolViolation (message : String)
  | unsupported (message : String)
  | bootstrap (message : String)
  | io (message : String)
  deriving DecidableEq, Repr

/-- The `Display` text of an error. -/
def RuntimeError.display : RuntimeError → String
  | .configuration m => s!"configuration error: {m}"
  | .providerAlreadyRegistered p => s!"provider '{p}' is already registered"
  | .providerNotRegistered p => s!"provider '{p}' is not registered"
  | .notFound w => s!"resource not found: {w}"
  | .invalidState m => s!"invalid state: {m}"
  | .protocolViolation m => s!"protocol violation: {m}"
  | .unsupported m => s!"unsupported: {m}"
  | .bootstrap m => s!"bootstrap error: {m}"
  | .io m => s!"io error: {m}"

/-! ## Statuses -/

inductive SessionStatus where
  | ready
  | turnRunning
  | waitingForApproval
  | closed
  | failed
  deriving DecidableEq, Repr

def SessionStatus.asStr : SessionStatus → String
  | .ready => "ready"
  | .turnRunning => "turn_running"
  | .waitingForApproval => "waiting_for_approval"
  | .closed => "closed"
  | .failed => "failed"

inductive TurnStatus where
  | inProgress
  | waitingForApproval
  | completed
  | interrupted
  | failed
  deriving DecidableEq, Repr

def TurnStatus.asStr : TurnStatus → String
  | .inProgress => "in_progress"
  | .waitingForApproval => "waiting_for_approval"
  | .completed => "completed"
  | .interrupted => "interrupted"
  | .failed => "failed"

inductive ApprovalStatus where
  | pending
  | accept
  | decline
  deriving DecidableEq, Repr

inductive DeliveryStatus where
  | pending
  | deferred
  | injecting
  | injected
  | failed
  | cancelled
  deriving DecidableEq, Repr

def DeliveryStatus.asStr : DeliveryStatus → String
  | .pending => "pending"
  | .deferred => "deferred"
  | .injecting => "injecting"
  | .injected => "injected"
  | .failed => "failed"
  | .cancelled => "cancelled"

/-! ## Session records -/

structure SessionRecord where
  id : String
  provider : String
  status : SessionStatus
  cwd : Option String
  model : Option String
  permissionMode : Option String
  systemPrompt : Option String
  metadata : Json
  providerSessionRef : Option String
  canonicalProviderSessionRef : Option String
  activeTurnId : Option String
  worktreeId : Option String
  createdAt : ℤ
  updatedAt : ℤ
  closedAt : Option ℤ
  failureCode : Option String
  failureMessage : Option String
  deriving DecidableEq, Repr

structure TurnRecord where
  id : String
  sessionId : String
  providerTurnRef : Option String
  status : TurnStatus
  input : Json
  source : Option String
  startedAt : Option ℤ
  completedAt : Option ℤ
  usage : Option Json
  error : Option Json
  deriving DecidableEq, Repr

structure ApprovalRecord where
  id : String
  sessionId : String
  turnId : String
  toolCallId : Option String
  providerApprovalRef : Option String
  status : ApprovalStatus
  request : Json
  response : Option Json
  createdAt : ℤ
  resolvedAt : Option ℤ
  deriving DecidableEq, Repr

/-! ## Team records -/

structure TeamRecord where
  id : String
  name : String
  leadAgentId : String
  createdBy : String
  createdAt : ℤ
  updatedAt : ℤ
  deletedAt : Option ℤ
  deriving DecidableEq, Repr

structure TeamMemberRecord where
  teamId : String
  agentId : String
  title : Option String
  joinedAt : ℤ
  addedBy : String
  creatorAgentId : Option String
  creatorCompactionSubscription : String
  worktreeId : Option String
  deriving DecidableEq, Repr

structure TeamMessageRecord where
  id : String
  teamId : String
  scope : String
  senderAgentId : String
  recipientAgentIds : Json
  input : Json
  imagePaths : Json
  priority : String
  policy : String
  correlationId : Option String
  replyToMessageId : Option String
  idempotencyKey : Option String
  createdAt : ℤ
  deriving DecidableEq, Repr

structure TeamDeliveryRecord where
  id : String
  messageId : String
  teamId : String
  recipientAgentId : String
  provider : String
  status : DeliveryStatus
  effectivePolicy : Option String
  injectionStrategy : Option String
  injectedTurnId : Option String
  lastErrorCode : Option String
  lastErrorMessage : Option String
  createdAt : ℤ
  updatedAt : ℤ
  deriving DecidableEq, Repr

/-! ## Events -/

inductive RuntimeEventScope where
  | session
  | team
  | process
  | worktree
  | system
  deriving DecidableEq, Repr

def RuntimeEventScope.asStr : RuntimeEventScope → String
  | .session => "session"
  | .team => "team"
  | .process => "process"
  | .worktree => "worktree"
  | .system => "system"

inductive RuntimeEventCriticality where
  | critical
  | droppable
  deriving DecidableEq, Repr

structure NewRuntimeEvent where
  eventId : String
  scope : RuntimeEventScope
  scopeId : String
  sessionId : Option String
  teamId : Option String
  turnId : Option String
  kind : String
  criticality : RuntimeEventCriticality
  payload : Json
  provider : Option String
  providerSeq : Option ℤ
  createdAt : ℤ
  deriving DecidableEq, Repr

structure RuntimeEventRecord extends NewRuntimeEvent where
  rowId : ℤ
  seq : ℤ
  deriving DecidableEq, Repr

/-! ## Serialisation -/

/-- An optional text as JSON, `null` when absent. -/
def jsonOfOption (o : Option String) : Json :=
  match o with
  | some s => .str s
  | none => .null

def jsonOfTime (o : Option ℤ) : Json :=
  match o with
  | some n => .int n
  | none => .null

def TeamRecord.toJson (r : TeamRecord) : Json :=
  .obj [("id", .str r.id), ("name", .str r.name), ("lead_agent_id", .str r.leadAgentId),
    ("created_by", .str r.createdBy), ("created_at", .int r.createdAt),
    ("updated_at", .int r.updatedAt), ("deleted_at", jsonOfTime r.deletedAt)]

def TeamMemberRecord.toJson (r : TeamMemberRecord) : Json :=
  .obj [("team_id", .str r.teamId), ("agent_id", .str r.agentId), ("title", jsonOfOption r.title),
    ("joined_at", .int r.joinedAt), ("added_by", .str r.addedBy),
    ("creator_agent_id", jsonOfOption r.creatorAgentId),
    ("creator_compaction_subscription", .str r.creatorCompactionSubscription),
    ("worktree_id", jsonOfOption r.worktreeId)]

def TeamMessageRecord.toJson (r : TeamMessageRecord) : Json :=
  .obj [("id", .str r.id), ("team_id", .str r.teamId), ("scope", .str r.scope),
    ("sender_agent_id", .str r.senderAgentId), ("recipient_agent_ids", r.recipientAgentIds),
    ("input", r.input), ("image_paths", r.imagePaths), ("priority", .str r.priority),
    ("policy", .str r.policy), ("correlation_id", jsonOfOption r.correlationId),
    ("reply_to_message_id", jsonOfOption r.replyToMessageId),
    ("idempotency_key", jsonOfOption r.idempotencyKey), ("created_at", .int r.createdAt)]

def TeamDeliveryRecord.toJson (r : TeamDeliveryRecord) : Json :=
  .obj [("id", .str r.id), ("message_id", .str r.messageId), ("team_id", .str r.teamId),
    ("recipient_agent_id", .str r.recipientAgentId), ("provider", .str r.provider),
    ("status", .str r.status.asStr), ("effective_policy", jsonOfOption r.effectivePolicy),
    ("injection_strategy", jsonOfOption r.injectionStrategy),
    ("injected_turn_id", jsonOfOption r.injectedTurnId),
    ("last_error_code", jsonOfOption r.lastErrorCode),
    ("last_error_message", jsonOfOption r.lastErrorMessage), ("created_at", .int r.createdAt),
    ("updated_at", .int r.updatedAt)]

end Gooselake.Core
