import Gooselake.Runtime.Turns

/-!
`recover_startup`: every session is resumed with its provider and reconciled with its active turn,
then the approvals whose turn is gone or over are declined.
-/

namespace Gooselake.Runtime

open Gooselake.Core Data Library Library.Exec

set_option autoImplicit false

structure StartupRecoveryProviderStatus where
  provider : String
  healthy : Bool
  detail : Option String
  deriving DecidableEq, Repr

structure StartupRecoverySummary where
  startedAt : ℤ
  completedAt : ℤ
  sessionsScanned : ℕ
  turnsScanned : ℕ
  approvalsScanned : ℕ
  sessionsReconciled : ℕ
  turnsReconciled : ℕ
  approvalsReconciled : ℕ
  resumedSessions : ℕ
  resumedWaits : ℕ
  providerStatus : List StartupRecoveryProviderStatus
  notes : List String
  deriving DecidableEq, Repr

structure RecoveryAnswers where
  healthcheck : ProviderKind → Except RuntimeError Unit
  resume : ProviderResumeSessionRequest → Except RuntimeError ProviderSession

def isClosedOrFailed (status : SessionStatus) : Bool := status = .closed || status = .failed

structure Repair where
  session : SessionRecord
  changed : Bool
  summary : StartupRecoverySummary
  deriving DecidableEq, Repr

def Repair.note (r : Repair) (text : String) : Repair :=
  { r with summary := { r.summary with notes := r.summary.notes ++ [text] } }

/-! ## Resuming with the provider -/

def resumedRepair (r : Repair) (resumed : ProviderSession) : Repair where
  session := { r.session with
    providerSessionRef := some resumed.providerSessionRef
    canonicalProviderSessionRef := resumed.canonicalProviderSessionRef }
  changed := r.changed || r.session.providerSessionRef ≠ some resumed.providerSessionRef ||
    r.session.canonicalProviderSessionRef ≠ resumed.canonicalProviderSessionRef
  summary := { r.summary with resumedSessions := r.summary.resumedSessions + 1 }

def failRepair (r : Repair) (code message : String) : Repair :=
  { r with
    session := { r.session with
      status := .failed
      failureCode := some code
      failureMessage := some message
      activeTurnId := none }
    changed := true }

def repairProviderRef (answers : RecoveryAnswers) (session : SessionRecord)
    (summary : StartupRecoverySummary) : RuntimeM Repair := do
  let start : Repair := ⟨session, false, summary⟩
  if isClosedOrFailed session.status then return start
  match session.providerSessionRef with
  | none => return failRepair start "startup_missing_provider_ref" "missing provider_session_ref"
  | some ref =>
    let kind ← providerKindOf session
    if kind ∉ (← get).providers then return start
    match answers.resume ⟨session.id, ref, session.canonicalProviderSessionRef, session.cwd,
      some session.metadata⟩ with
    | .ok resumed => return resumedRepair start resumed
    | .error error =>
      return (failRepair start "startup_provider_resume_failed" error.display).note
        s!"session {session.id} marked failed: {error.display}"

/-! ## Reconciling the active turn -/

def clearActive (r : Repair) : Repair :=
  { r with
    session := { r.session with
      activeTurnId := none
      status := readyUnlessEnded r.session.status }
    changed := true }

def pendingApprovalForTurn (approvals : Table String ApprovalRecord) (sessionId turnId : String) : Bool :=
  approvals.values.any fun a => a.turnId = turnId && a.sessionId = sessionId && a.status = .pending

def repairActiveTurn (turnsSnapshot : Table String TurnRecord)
    (approvalsSnapshot : Table String ApprovalRecord) (session : SessionRecord) (r : Repair) :
    RuntimeM Repair := do
  let now ← nowMs
  match r.session.activeTurnId with
  | none =>
    if r.session.status = .turnRunning ∨ r.session.status = .waitingForApproval then
      return { r with session := { r.session with status := .ready }, changed := true }
    else return r
  | some activeTurnId =>
    match turnsSnapshot.lookup activeTurnId with
    | none =>
      return (clearActive r).note s!"session {session.id} cleared stale active turn {activeTurnId}"
    | some turn =>
      if turn.sessionId ≠ session.id then
        return failRepair r "startup_turn_ownership_mismatch" s!"turn {turn.id} belongs to {turn.sessionId}"
      else if isTerminalTurnStatus turn.status then
        return clearActive r
      else if turn.status = .waitingForApproval then
        if pendingApprovalForTurn approvalsSnapshot session.id turn.id then
          return { r with
            session := { r.session with status := .waitingForApproval }
            changed := r.changed || r.session.status ≠ .waitingForApproval }
        else
          let repaired := { turn with
            status := .failed
            completedAt := some now
            error := some (errorJson "startup recovery: missing pending approval") }
          onStore (Store.upsertTurn repaired)
          insertTurn repaired.id repaired
          return clearActive { r with
            summary := { r.summary with turnsReconciled := r.summary.turnsReconciled + 1 } }
      else
        let kind ← providerKindOf session
        spawnWaitForTurn kind session.id turn.id
        -- the record counts as changed only if the resume changed it
        return { r with
          session := { r.session with
            status := if isClosedOrFailed r.session.status then r.session.status else .turnRunning }
          summary := { r.summary with resumedWaits := r.summary.resumedWaits + 1 } }

def recoverSession (answers : RecoveryAnswers) (turnsSnapshot : Table String TurnRecord)
    (approvalsSnapshot : Table String ApprovalRecord) (summary : StartupRecoverySummary)
    (sessionId : String) : RuntimeM StartupRecoverySummary := do
  match (← get).sessions.lookup sessionId with
  | none => return summary
  | some session =>
    let r ← repairProviderRef answers session summary
    let r ← repairActiveTurn turnsSnapshot approvalsSnapshot session r
    if r.changed then
      let now ← nowMs
      let updated := { r.session with updatedAt := now }
      onStore (Store.upsertSession updated)
      insertSession updated.id updated
      return { r.summary with sessionsReconciled := r.summary.sessionsReconciled + 1 }
    else return r.summary

/-! ## Orphaned approvals -/

def orphaned (turnsSnapshot : Table String TurnRecord) (approval : ApprovalRecord) : Bool :=
  match turnsSnapshot.lookup approval.turnId with
  | none => true
  | some turn => isTerminalTurnStatus turn.status

def recoverApproval (turnsSnapshot : Table String TurnRecord) (summary : StartupRecoverySummary)
    (approval : ApprovalRecord) : RuntimeM StartupRecoverySummary := do
  let now ← nowMs
  if approval.status = .pending ∧ orphaned turnsSnapshot approval then
    let resolved := { approval with
      status := .decline
      resolvedAt := some now
      response := some (.obj [("reason", .str "startup_recovery_orphaned_approval")]) }
    onStore (Store.upsertApproval resolved)
    insertApproval resolved.id resolved
    return { summary with approvalsReconciled := summary.approvalsReconciled + 1 }
  else return summary

/-! ## recover_startup -/

def providerStatusOf (answers : RecoveryAnswers) (kind : ProviderKind) : StartupRecoveryProviderStatus :=
  match answers.healthcheck kind with
  | .ok _ => ⟨kind.asStr, true, none⟩
  | .error error => ⟨kind.asStr, false, some error.display⟩

def recoverStartup (answers : RecoveryAnswers) : RuntimeM StartupRecoverySummary := do
  let startedAt ← nowMs
  let m ← get
  let summary : StartupRecoverySummary :=
    { startedAt := startedAt, completedAt := 0, sessionsScanned := m.sessions.keys.length,
      turnsScanned := m.turns.keys.length, approvalsScanned := m.approvals.keys.length,
      sessionsReconciled := 0, turnsReconciled := 0, approvalsReconciled := 0, resumedSessions := 0,
      resumedWaits := 0, providerStatus := m.providers.map (providerStatusOf answers), notes := [] }
  let summary ← m.sessions.keys.foldlM (recoverSession answers m.turns m.approvals) summary
  let summary ← m.approvals.values.foldlM (recoverApproval m.turns) summary
  let completedAt ← nowMs
  return { summary with completedAt := completedAt }

end Gooselake.Runtime
