import Gooselake.Core.Records
import Gooselake.Data.Text

/-! The provider interface: kinds, requests and answers of a `RuntimeProvider`. -/

namespace Gooselake.Core

open Data

set_option autoImplicit false

/-! ## Kinds -/

inductive ProviderKind where
  | codex
  | claude
  | acp
  deriving DecidableEq, Repr

def ProviderKind.asStr : ProviderKind → String
  | .codex => "codex"
  | .claude => "claude"
  | .acp => "acp"

def ProviderKind.fromStr (value : String) : Option ProviderKind :=
  match toAsciiLowercase (trim value) with
  | "codex" => some .codex
  | "claude" => some .claude
  | "acp" => some .acp
  | _ => none

@[simp] theorem ProviderKind.fromStr_asStr (k : ProviderKind) : fromStr k.asStr = some k := by
  cases k <;> decide

/-! ## Requests -/

structure ProviderCreateSessionRequest where
  runtimeSessionId : String
  model : Option String
  cwd : Option String
  permissionMode : Option String
  metadata : Option Json
  deriving DecidableEq, Repr

structure ProviderResumeSessionRequest where
  runtimeSessionId : String
  providerSessionRef : String
  canonicalProviderSessionRef : Option String
  cwd : Option String
  metadata : Option Json
  deriving DecidableEq, Repr

structure ProviderSendTurnRequest where
  runtimeSessionId : String
  turnId : String
  input : List Json
  expectedTurnId : Option String
  permissionMode : Option String
  approvalId : Option String
  deriving DecidableEq, Repr

structure ProviderInterruptTurnRequest where
  runtimeSessionId : String
  turnId : String
  deriving DecidableEq, Repr

structure ProviderApprovalResponseRequest where
  runtimeSessionId : String
  turnId : String
  approvalId : String
  decision : String
  payload : Option Json
  deriving DecidableEq, Repr

structure ProviderCloseSessionRequest where
  runtimeSessionId : String
  reason : Option String
  deriving DecidableEq, Repr

/-! ## Answers -/

structure ProviderSession where
  runtimeSessionId : String
  providerSessionRef : String
  canonicalProviderSessionRef : Option String
  deriving DecidableEq, Repr

structure ProviderTurnAck where
  runtimeSessionId : String
  turnId : String
  deriving DecidableEq, Repr

inductive ProviderTurnStatus where
  | inProgress
  | completed
  | interrupted
  | failed
  deriving DecidableEq, Repr

def ProviderTurnStatus.toTurnStatus : ProviderTurnStatus → TurnStatus
  | .inProgress => .inProgress
  | .completed => .completed
  | .interrupted => .interrupted
  | .failed => .failed

def ProviderTurnStatus.asStr (s : ProviderTurnStatus) : String := s.toTurnStatus.asStr

structure ProviderTurnResult where
  runtimeSessionId : String
  turnId : String
  status : ProviderTurnStatus
  usage : Option Json
  error : Option Json
  deriving DecidableEq, Repr

/-! ## Approval decisions -/

inductive ApprovalDecision where
  | accept
  | decline
  deriving DecidableEq, Repr

def ApprovalDecision.parse (value : String) : Except RuntimeError ApprovalDecision :=
  match toAsciiLowercase (trim value) with
  | "accept" | "accepted" => .ok .accept
  | "decline" | "declined" | "reject" | "rejected" => .ok .decline
  | _ => .error (.invalidState s!"invalid approval decision '{value}'; expected accept or decline")

def ApprovalDecision.asStr : ApprovalDecision → String
  | .accept => "accept"
  | .decline => "decline"

def ApprovalDecision.toStatus : ApprovalDecision → ApprovalStatus
  | .accept => .accept
  | .decline => .decline

end Gooselake.Core
