import Gooselake.Core.Provider
import Gooselake.Core.Store
import Gooselake.Library.Numbered

/-!
The state of `RuntimeSessionManager` and the primitive actions its operations are written in: reads
and inserts of the three maps, store writes, id allocation, event appends and spawned waits.
-/

namespace Gooselake.Runtime

open Gooselake.Core Data Library Library.Exec

set_option autoImplicit false

/-- A task spawned by `spawn_wait_for_turn` that has not got its answer yet. -/
structure WaitTask where
  provider : ProviderKind
  sessionId : String
  turnId : String
  deriving DecidableEq, Repr

structure Manager where
  store : Store
  providers : List ProviderKind
  sessions : Table String SessionRecord
  turns : Table String TurnRecord
  approvals : Table String ApprovalRecord
  nextId : ℕ
  /-- What `now_ms` reads. -/
  clock : ℤ
  waits : List WaitTask
  /-- The events sent on `event_tx`. -/
  sent : List RuntimeEventRecord

abbrev RuntimeM : Type → Type := Exec Manager RuntimeError

namespace Manager

def empty (providers : List ProviderKind) (faults : List Bool) : Manager :=
  ⟨Store.empty faults, providers, ∅, ∅, ∅, 1, 0, [], []⟩

/-- `RuntimeSessionManager::new`: the maps are what the store holds. -/
def new (store : Store) (providers : List ProviderKind) (clock : ℤ) : Manager where
  store := store
  providers := providers
  sessions := store.sessions.foldl (fun t r => t.insert r.id r) ∅
  turns := store.turns.foldl (fun t r => t.insert r.id r) ∅
  approvals := store.approvals.foldl (fun t r => t.insert r.id r) ∅
  nextId := 1
  clock := clock
  waits := []
  sent := []

end Manager

/-! ## Primitive actions -/

def nowMs : RuntimeM ℤ := do
  return (← get).clock

/-- `{stem}_{suffix}_{now}_{seq}` with the next sequence number. -/
def allocateId (stem suffix : String) : RuntimeM String := do
  let m ← get
  modify fun m => { m with nextId := m.nextId + 1 }
  return numbered s!"{stem}_{suffix}_{m.clock}" m.nextId

def onStore {α : Type} (f : Store → Except RuntimeError α × Store) : RuntimeM α := do
  let m ← get
  modify fun m => { m with store := (f m.store).2 }
  ofExcept (f m.store).1

def insertSession (key : String) (r : SessionRecord) : RuntimeM Unit :=
  modify fun m => { m with sessions := m.sessions.insert key r }

def insertTurn (key : String) (r : TurnRecord) : RuntimeM Unit :=
  modify fun m => { m with turns := m.turns.insert key r }

def insertApproval (key : String) (r : ApprovalRecord) : RuntimeM Unit :=
  modify fun m => { m with approvals := m.approvals.insert key r }

def getSession (sessionId : String) : RuntimeM SessionRecord := do
  orThrow ((← get).sessions.lookup sessionId) (.notFound s!"session {sessionId}")

/-- `ProviderKind::from_str` of a session's provider. -/
def providerKindOf (session : SessionRecord) : RuntimeM ProviderKind :=
  orThrow (ProviderKind.fromStr session.provider)
    (.protocolViolation s!"unknown provider {session.provider}")

/-- `providers.get(kind)`, an error when the kind is not registered. -/
def requireProvider (kind : ProviderKind) : RuntimeM Unit := do
  if kind ∈ (← get).providers then pure () else throw (.providerNotRegistered kind.asStr)

def appendEvent (scope : RuntimeEventScope) (scopeId : String) (sessionId turnId : Option String)
    (kind : String) (payload : Json) : RuntimeM RuntimeEventRecord := do
  let eventId ← allocateId "evt" scope.asStr
  let now ← nowMs
  let record ← onStore (Store.appendRuntimeEvent
    { eventId := eventId, scope := scope, scopeId := scopeId, sessionId := sessionId, teamId := none,
      turnId := turnId, kind := kind, criticality := .critical, payload := payload,
      provider := none, providerSeq := none, createdAt := now })
  modify fun m => { m with sent := m.sent ++ [record] }
  return record

def appendSessionEvent (sessionId : String) (turnId : Option String) (kind : String)
    (payload : Json) : RuntimeM RuntimeEventRecord :=
  appendEvent .session sessionId (some sessionId) turnId kind payload

def spawnWaitForTurn (provider : ProviderKind) (sessionId turnId : String) : RuntimeM Unit :=
  modify fun m =>
    if provider ∈ m.providers then { m with waits := m.waits ++ [⟨provider, sessionId, turnId⟩] } else m

/-! ## What the actions do -/

section Rules

variable {m : Manager}

@[simp] theorem after_nowMs (Q : Except RuntimeError ℤ → Manager → Prop) :
    After nowMs m Q ↔ Q (.ok m.clock) m := after_iff

@[simp] theorem after_allocateId (stem suffix : String) (Q : Except RuntimeError String → Manager → Prop) :
    After (allocateId stem suffix) m Q ↔
      Q (.ok (numbered s!"{stem}_{suffix}_{m.clock}" m.nextId)) { m with nextId := m.nextId + 1 } :=
  after_iff

theorem after_onStore {α : Type} (f : Store → Except RuntimeError α × Store)
    (Q : Except RuntimeError α → Manager → Prop) :
    After (onStore f) m Q ↔ Q (f m.store).1 { m with store := (f m.store).2 } := by
  simp [onStore, after_bind_iff]

theorem after_write {f : Store → Store} {Q : Except RuntimeError Unit → Manager → Prop}
    (h : ∀ r st, (m.store.faults = [] → r = .ok () ∧ st.faults = []) → Q r { m with store := st }) :
    After (onStore (Store.write f)) m Q := by
  rw [after_onStore]
  exact h _ _ (Store.write_faults f m.store)

@[simp] theorem after_insertSession (key : String) (r : SessionRecord)
    (Q : Except RuntimeError Unit → Manager → Prop) :
    After (insertSession key r) m Q ↔ Q (.ok ()) { m with sessions := m.sessions.insert key r } := after_iff

@[simp] theorem after_insertTurn (key : String) (r : TurnRecord)
    (Q : Except RuntimeError Unit → Manager → Prop) :
    After (insertTurn key r) m Q ↔ Q (.ok ()) { m with turns := m.turns.insert key r } := after_iff

@[simp] theorem after_insertApproval (key : String) (r : ApprovalRecord)
    (Q : Except RuntimeError Unit → Manager → Prop) :
    After (insertApproval key r) m Q ↔ Q (.ok ()) { m with approvals := m.approvals.insert key r } :=
  after_iff

@[simp] theorem after_getSession (sessionId : String) (Q : Except RuntimeError SessionRecord → Manager → Prop) :
    After (getSession sessionId) m Q ↔
      (∀ r, m.sessions.lookup sessionId = some r → Q (.ok r) m) ∧
        (m.sessions.lookup sessionId = none → Q (.error (.notFound s!"session {sessionId}")) m) := by
  simp [getSession, after_bind_iff]

@[simp] theorem after_requireProvider (kind : ProviderKind) (Q : Except RuntimeError Unit → Manager → Prop) :
    After (requireProvider kind) m Q ↔
      (kind ∈ m.providers → Q (.ok ()) m) ∧
        (kind ∉ m.providers → Q (.error (.providerNotRegistered kind.asStr)) m) := by
  by_cases h : kind ∈ m.providers <;> simp [requireProvider, after_bind_iff, h]

theorem after_appendEvent {scope : RuntimeEventScope} {scopeId : String} {sessionId turnId : Option String}
    {kind : String} {payload : Json} {Q : Except RuntimeError RuntimeEventRecord → Manager → Prop}
    (h : ∀ r st sent, (m.store.faults = [] → (∃ record, r = .ok record) ∧ st.faults = []) →
      Q r { m with nextId := m.nextId + 1, store := st, sent := sent }) :
    After (appendEvent scope scopeId sessionId turnId kind payload) m Q := by
  simp only [appendEvent, after_bind_iff, after_allocateId, after_nowMs, after_onStore]
  generalize hst : Store.appendRuntimeEvent _ _ = o
  have hf := fun hf => hst ▸ Store.appendRuntimeEvent_faults _ _ hf
  obtain ⟨r | r, st⟩ := o
  · exact h (.error r) st m.sent hf
  · simp only [after_modify, after_pure]
    exact h (.ok r) st _ hf

theorem after_appendSessionEvent {sessionId : String} {turnId : Option String} {kind : String}
    {payload : Json} {Q : Except RuntimeError RuntimeEventRecord → Manager → Prop}
    (h : ∀ r st sent, (m.store.faults = [] → (∃ record, r = .ok record) ∧ st.faults = []) →
      Q r { m with nextId := m.nextId + 1, store := st, sent := sent }) :
    After (appendSessionEvent sessionId turnId kind payload) m Q :=
  after_appendEvent h

@[simp] theorem after_spawnWaitForTurn (provider : ProviderKind) (sessionId turnId : String)
    (Q : Except RuntimeError Unit → Manager → Prop) :
    After (spawnWaitForTurn provider sessionId turnId) m Q ↔ Q (.ok ())
      (if provider ∈ m.providers then { m with waits := m.waits ++ [⟨provider, sessionId, turnId⟩] } else m) :=
  after_iff

end Rules

end Gooselake.Runtime
