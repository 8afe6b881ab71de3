import Gooselake.Runtime.Manager

/-!
The session operations. An operation that awaits is cut at its awaits: each piece is one atomic
computation, and the operation itself runs its pieces one after the other.
-/

namespace Gooselake.Runtime

open Gooselake.Core Data Library Library.Exec

set_option autoImplicit false

structure CreateSessionInput where
  provider : ProviderKind
  model : Option String
  cwd : Option String
  permissionMode : Option String
  metadata : Option Json
  deriving DecidableEq, Repr

structure ResumeSessionInput where
  providerSessionRef : Option String
  canonicalProviderSessionRef : Option String
  deriving DecidableEq, Repr

def setSessionWorktreeId (sessionId : String) (worktreeId : Option String) : RuntimeM SessionRecord := do
  let session ← getSession sessionId
  let now ← nowMs
  let updated := { session with worktreeId := worktreeId, updatedAt := now }
  insertSession sessionId updated
  onStore (Store.upsertSession updated)
  return updated

/-! ## create_session -/

/-- What a `create_session` call has fixed when it awaits the provider. -/
structure CreateCall where
  input : CreateSessionInput
  sessionId : String
  now : ℤ
  deriving DecidableEq, Repr

def createSessionBegin (input : CreateSessionInput) : RuntimeM CreateCall := do
  requireProvider input.provider
  let now ← nowMs
  let sessionId ← allocateId "sess" input.provider.asStr
  return ⟨input, sessionId, now⟩

def CreateCall.request (c : CreateCall) : ProviderCreateSessionRequest where
  runtimeSessionId := c.sessionId
  model := c.input.model
  cwd := c.input.cwd
  permissionMode := c.input.permissionMode
  metadata := c.input.metadata

def CreateCall.record (c : CreateCall) (created : ProviderSession) : SessionRecord where
  id := c.sessionId
  provider := c.input.provider.asStr
  status := .ready
  cwd := c.input.cwd
  model := c.input.model
  permissionMode := c.input.permissionMode
  systemPrompt := none
  metadata := c.input.metadata.getD (.obj [])
  providerSessionRef := some created.providerSessionRef
  canonicalProviderSessionRef := created.canonicalProviderSessionRef
  activeTurnId := none
  worktreeId := none
  createdAt := c.now
  updatedAt := c.now
  closedAt := none
  failureCode := none
  failureMessage := none

def createSessionStore (c : CreateCall) (answer : Except RuntimeError ProviderSession) :
    RuntimeM SessionRecord := do
  let created ← ofExcept answer
  if created.runtimeSessionId ≠ c.sessionId then
    throw (.protocolViolation s!"provider returned mismatched runtime session id (expected={c.sessionId}, actual={created.runtimeSessionId})")
  let record := c.record created
  onStore (Store.upsertSession record)
  return record

def createSessionInsert (record : SessionRecord) : RuntimeM SessionRecord := do
  insertSession record.id record
  let _ ← appendSessionEvent record.id none "session.created" (.obj [("provider", .str record.provider)])
  return record

def createSession (input : CreateSessionInput)
    (provider : ProviderCreateSessionRequest → Except RuntimeError ProviderSession) :
    RuntimeM SessionRecord := do
  let c ← createSessionBegin input
  let record ← createSessionStore c (provider c.request)
  createSessionInsert record

/-! ## close_session and force_close_session -/

def closeSessionBegin (sessionId : String) : RuntimeM Unit := do
  let session ← getSession sessionId
  let kind ← providerKindOf session
  requireProvider kind

def closedRecord (session : SessionRecord) (now : ℤ) : SessionRecord :=
  { session with status := .closed, closedAt := some now, updatedAt := now, activeTurnId := none }

/-- `finalize_session_close` up to its store write. -/
def finalizeSessionCloseStore (sessionId : String) : RuntimeM SessionRecord := do
  let session ← getSession sessionId
  let now ← nowMs
  let updated := closedRecord session now
  onStore (Store.upsertSession updated)
  return updated

def finalizeSessionCloseInsert (sessionId : String) (updated : SessionRecord) (reason : String) :
    RuntimeM SessionRecord := do
  insertSession sessionId updated
  let _ ← appendSessionEvent sessionId none "session.closed" (.obj [("reason", .str reason)])
  return updated

def finalizeSessionClose (sessionId reason : String) : RuntimeM SessionRecord := do
  let updated ← finalizeSessionCloseStore sessionId
  finalizeSessionCloseInsert sessionId updated reason

def closeSession (sessionId : String) (reason : Option String)
    (provider : ProviderCloseSessionRequest → Except RuntimeError Unit) : RuntimeM SessionRecord := do
  closeSessionBegin sessionId
  ofExcept (provider ⟨sessionId, reason⟩)
  finalizeSessionClose sessionId (reason.getD "closed_by_request")

def forceCloseSession (sessionId : String) (reason : Option String) : RuntimeM SessionRecord :=
  finalizeSessionClose sessionId (reason.getD "closed_by_runtime_rollback")

/-! ## resume_session -/

/-- What a `resume_session` call has fixed when it awaits the provider: the record it read and the
references it asks for. -/
structure ResumeCall where
  sessionId : String
  session : SessionRecord
  providerSessionRef : String
  canonicalProviderSessionRef : Option String
  deriving DecidableEq, Repr

def resumeSessionBegin (sessionId : String) (input : ResumeSessionInput) : RuntimeM ResumeCall := do
  let session ← getSession sessionId
  let kind ← providerKindOf session
  requireProvider kind
  let ref ← orThrow (input.providerSessionRef.or session.providerSessionRef)
    (.invalidState s!"session {sessionId} has no provider_session_ref to resume")
  return ⟨sessionId, session, ref,
    input.canonicalProviderSessionRef.or session.canonicalProviderSessionRef⟩

def ResumeCall.request (c : ResumeCall) : ProviderResumeSessionRequest where
  runtimeSessionId := c.sessionId
  providerSessionRef := c.providerSessionRef
  canonicalProviderSessionRef := c.canonicalProviderSessionRef
  cwd := c.session.cwd
  metadata := some c.session.metadata

def ResumeCall.record (c : ResumeCall) (resumed : ProviderSession) (now : ℤ) : SessionRecord :=
  { c.session with
    providerSessionRef := some resumed.providerSessionRef
    canonicalProviderSessionRef := resumed.canonicalProviderSessionRef
    status := if c.session.status ≠ .closed then .ready else c.session.status
    updatedAt := now }

def resumeSessionStore (c : ResumeCall) (answer : Except RuntimeError ProviderSession) :
    RuntimeM SessionRecord := do
  let resumed ← ofExcept answer
  if resumed.runtimeSessionId ≠ c.sessionId then
    throw (.protocolViolation s!"provider resume returned mismatched session id (expected={c.sessionId}, actual={resumed.runtimeSessionId})")
  let now ← nowMs
  let updated := c.record resumed now
  onStore (Store.upsertSession updated)
  return updated

def resumeSessionInsert (sessionId : String) (updated : SessionRecord) : RuntimeM SessionRecord := do
  insertSession sessionId updated
  let _ ← appendSessionEvent sessionId none "session.resumed" (.obj [])
  return updated

def resumeSession (sessionId : String) (input : ResumeSessionInput)
    (provider : ProviderResumeSessionRequest → Except RuntimeError ProviderSession) :
    RuntimeM SessionRecord := do
  let c ← resumeSessionBegin sessionId input
  let updated ← resumeSessionStore c (provider c.request)
  resumeSessionInsert sessionId updated

end Gooselake.Runtime
