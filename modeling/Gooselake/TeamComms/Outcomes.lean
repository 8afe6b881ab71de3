import Mathlib.Logic.Relation
import Gooselake.TeamComms.Operations

/-!
What each piece of an operation of the team service can do: the state it leaves, the ids it takes and
the writes it makes to the store, whichever of them fail.
-/

namespace Gooselake.TeamComms

open Gooselake.Core Data Library Library.Exec
open Gooselake.Runtime (RuntimeM isClosedOrFailed)

set_option autoImplicit false

/-! ## Writes to the store -/

inductive Write where
  | team (r : TeamRecord)
  | member (r : TeamMemberRecord)
  | memberGone (teamId agentId : String)
  | message (r : TeamMessageRecord)
  | delivery (r : TeamDeliveryRecord)
  | event (e : NewRuntimeEvent)

def Write.run : Write → Store → Store
  | .team r, s => (Store.upsertTeam r s).2
  | .member r, s => (Store.upsertTeamMember r s).2
  | .memberGone teamId agentId, s => (Store.deleteTeamMember teamId agentId s).2
  | .message r, s => (Store.upsertTeamMessage r s).2
  | .delivery r, s => (Store.upsertTeamDelivery r s).2
  | .event e, s => (Store.appendRuntimeEvent e s).2

/-- `t` is `s` after writes that meet `W`. -/
def Wrote (W : Write → Prop) : Store → Store → Prop :=
  Relation.ReflTransGen fun s t => ∃ x, W x ∧ t = x.run s

theorem Wrote.mono {W W' : Write → Prop} (hW : ∀ x, W x → W' x) {s t : Store} (h : Wrote W s t) :
    Wrote W' s t :=
  Relation.ReflTransGen.mono (fun _ _ ⟨x, hx, he⟩ => ⟨x, hW x hx, he⟩) _ _ h

def Write.isEvent : Write → Prop
  | .event _ => True
  | _ => False

/-- Events and rows of deliveries that meet `p`. -/
def Write.delivers (p : TeamDeliveryRecord → Prop) : Write → Prop
  | .delivery r => p r
  | .event _ => True
  | _ => False

def Write.changesTeam (team : TeamRecord) : Write → Prop
  | .team r => r.id = team.id ∧ r.deletedAt = team.deletedAt
  | .member _ | .memberGone _ _ | .event _ => True
  | _ => False

def Write.storesMembers : Write → Prop
  | .member _ | .event _ => True
  | _ => False

theorem Write.storesMembers_of_isEvent {x : Write} (h : x.isEvent) : x.storesMembers := by
  cases x <;> first | exact h | exact h.elim

theorem Write.delivers_of_isEvent {p : TeamDeliveryRecord → Prop} {x : Write} (h : x.isEvent) : x.delivers p := by
  cases x <;> first | exact h | exact h.elim

theorem Write.changesTeam_of_isEvent {team : TeamRecord} {x : Write} (h : x.isEvent) : x.changesTeam team := by
  cases x <;> first | exact h | exact h.elim

/-! ## What a piece leaves alone -/

/-- `c'` has the given state, the runtime and the counters of `c`, and a store some writes later. -/
structure Sets (W : Write → Prop) (c c' : Comms) (state : TeamCommsState) : Prop where
  runtime : c'.runtime = c.runtime
  config : c'.config = c.config
  nextTeamId : c'.nextTeamId = c.nextTeamId
  nextMessageId : c'.nextMessageId = c.nextMessageId
  nextDeliveryId : c'.nextDeliveryId = c.nextDeliveryId
  faults : c.store.faults = [] → c'.store.faults = []
  state : c'.state = state
  wrote : Wrote W c.store c'.store

theorem Sets.refl (W : Write → Prop) (c : Comms) : Sets W c c c.state :=
  ⟨rfl, rfl, rfl, rfl, rfl, id, rfl, .refl⟩

theorem Sets.mono {W W' : Write → Prop} {c c' : Comms} {s : TeamCommsState} (h : Sets W c c' s)
    (hW : ∀ x, W x → W' x) : Sets W' c c' s :=
  { h with wrote := h.wrote.mono hW }

theorem Sets.trans {W : Write → Prop} {c c' c'' : Comms} {s s' : TeamCommsState} (h : Sets W c c' s)
    (h' : Sets W c' c'' s') : Sets W c c'' s' :=
  ⟨h'.runtime.trans h.runtime, h'.config.trans h.config, h'.nextTeamId.trans h.nextTeamId,
    h'.nextMessageId.trans h.nextMessageId, h'.nextDeliveryId.trans h.nextDeliveryId,
    fun hf => h'.faults (h.faults hf), h'.state, Relation.ReflTransGen.trans h.wrote h'.wrote⟩

theorem Sets.andQuiet {W : Write → Prop} {c c' c'' : Comms} {s : TeamCommsState} (h : Sets W c c' s)
    (h' : Sets W c' c'' c'.state) : Sets W c c'' s :=
  h.trans (h.state ▸ h')

section

variable {c : Comms}

/-! ## Primitive actions -/

@[simp] theorem after_nowMs (Q : Except RuntimeError ℤ → Comms → Prop) :
    After nowMs c Q ↔ Q (.ok c.runtime.clock) c := after_iff

@[simp] theorem after_changeState (f : TeamCommsState → TeamCommsState) (Q : Except RuntimeError Unit → Comms → Prop) :
    After (changeState f) c Q ↔ Q (.ok ()) { c with state := f c.state } := after_iff

@[simp] theorem after_onRuntime {α : Type} (m : RuntimeM α) (Q : Except RuntimeError α → Comms → Prop) :
    After (onRuntime m) c Q ↔ After m c.runtime fun r runtime => Q r { c with runtime := runtime } :=
  after_zoom _ _ _ _ _

theorem after_onStore {α : Type} (f : Store → Except RuntimeError α × Store)
    (Q : Except RuntimeError α → Comms → Prop) :
    After (onStore f) c Q ↔ Q (f c.store).1 { c with store := (f c.store).2 } := by
  simp [onStore, after_bind_iff]

theorem after_write {f : Store → Store} (x : Write) (hx : x.run c.store = (Store.write f c.store).2)
    {Q : Except RuntimeError Unit → Comms → Prop}
    (h : ∀ r c', Sets (· = x) c c' c.state → (c.store.faults = [] → r = .ok ()) → Q r c') :
    After (onStore (Store.write f)) c Q := by
  rw [after_onStore]
  have hf := Store.write_faults f c.store
  exact h _ _ ⟨rfl, rfl, rfl, rfl, rfl, fun hs => (hf hs).2, rfl, hx ▸ .single ⟨x, rfl, rfl⟩⟩ fun hs => (hf hs).1

theorem after_noteTeamEvent {teamId kind : String} {payload : Json} {sessionId : Option String}
    {Q : Except RuntimeError Unit → Comms → Prop}
    (h : ∀ c', Sets Write.isEvent c c' c.state → Q (.ok ()) c') :
    After (noteTeamEvent teamId kind payload sessionId) c Q := by
  simp only [noteTeamEvent, appendTeamEvent, after_bind_iff, after_attempt, after_get, after_modify, after_nowMs,
    after_onStore, after_pure]
  refine h _ ⟨rfl, rfl, rfl, rfl, rfl, fun hf => ?_, rfl, .single ⟨.event _, trivial, rfl⟩⟩
  exact (Store.appendRuntimeEvent_faults _ _ hf).2

@[simp] theorem after_ensureEnabled (Q : Except RuntimeError Unit → Comms → Prop) :
    After ensureEnabled c Q ↔ (c.config.enabled = true → Q (.ok ()) c) ∧
      (c.config.enabled = false → Q (.error (.unsupported "team comms service is disabled")) c) := by
  cases h : c.config.enabled <;> simp [ensureEnabled, after_bind_iff, h]

theorem requireSessionActive_after (sessionId : String) :
    After (requireSessionActive sessionId) c fun r c' => c' = c ∧ ∀ session, r = .ok session →
      c.runtime.sessions.lookup sessionId = some session ∧ isClosedOrFailed session.status = false := by
  simp only [requireSessionActive, after_bind_iff, after_onRuntime, Runtime.after_getSession]
  refine ⟨fun session hs => ?_, fun _ => ⟨trivial, fun _ h => by cases h⟩⟩
  split
  · exact (after_throw _ _ _).mpr ⟨rfl, fun _ h => by cases h⟩
  · next hopen =>
    refine (after_pure _ _ _).mpr ⟨rfl, fun r hr => ?_⟩
    obtain rfl := Except.ok.inj hr
    exact ⟨hs, by simpa using hopen⟩

/-! ## Status changes -/

inductive Transitioned (c : Comms) (x : Change) : Except RuntimeError Written → Comms → Prop where
  | refused {e : RuntimeError} (valid : isValidTransition x.current.status x.next = false)
      (differs : x.current.status ≠ x.next) : Transitioned c x (.error e) c
  | already (same : x.current.status = x.next) : Transitioned c x (.ok (.unchanged x.current)) c
  | missing {e : RuntimeError} (found : c.state.deliveries.lookup x.current.id = none) :
      Transitioned c x (.error e) c
  | lost {d : TeamDeliveryRecord} (valid : isValidTransition x.current.status x.next = true)
      (found : c.state.deliveries.lookup x.current.id = some d) (differs : d.status ≠ x.current.status) :
      Transitioned c x (.ok (.unchanged d)) c
  | written {d : TeamDeliveryRecord} {r : Except RuntimeError Written} {c' : Comms}
      (valid : isValidTransition x.current.status x.next = true)
      (found : c.state.deliveries.lookup x.current.id = some d) (same : d.status = x.current.status)
      (sets : Sets (Write.delivers (· = x.apply c.runtime.clock d)) c c' { c.state with
        deliveries := c.state.deliveries.insert x.current.id (x.apply c.runtime.clock d) })
      (result : r = .ok (.changed (x.apply c.runtime.clock d)) ∨ ∃ e, r = .error e)
      (saved : c.store.faults = [] → r = .ok (.changed (x.apply c.runtime.clock d))) :
      Transitioned c x r c'

theorem Transitioned.changed {x : Change} {d : TeamDeliveryRecord} {c' : Comms}
    (h : Transitioned c x (.ok (.changed d)) c') : isValidTransition x.current.status x.next = true ∧
      ∃ d₀, c.state.deliveries.lookup x.current.id = some d₀ ∧ d₀.status = x.current.status ∧
        d = x.apply c.runtime.clock d₀ ∧ c'.state = { c.state with
          deliveries := c.state.deliveries.insert x.current.id (x.apply c.runtime.clock d₀) } := by
  generalize hresult : (Except.ok (Written.changed d) : Except RuntimeError Written) = result at h
  cases h with
  | refused | missing | already | lost => cases hresult
  | written valid found same sets result =>
    rcases result with he | ⟨e, he⟩
    · rw [he] at hresult
      exact ⟨valid, _, found, same, Written.changed.inj (Except.ok.inj hresult), sets.state⟩
    · rw [he] at hresult
      cases hresult

theorem Transitioned.unchanged {x : Change} {d : TeamDeliveryRecord} {c' : Comms}
    (h : Transitioned c x (.ok (.unchanged d)) c') : c' = c ∧ (x.current.status = x.next ∧ d = x.current ∨
      isValidTransition x.current.status x.next = true ∧ c.state.deliveries.lookup x.current.id = some d ∧
        d.status ≠ x.current.status) := by
  generalize hresult : (Except.ok (Written.unchanged d) : Except RuntimeError Written) = result at h
  cases h with
  | refused | missing => cases hresult
  | already same => exact ⟨rfl, .inl ⟨same, Written.unchanged.inj (Except.ok.inj hresult)⟩⟩
  | lost valid found differs =>
    obtain rfl := Written.unchanged.inj (Except.ok.inj hresult)
    exact ⟨rfl, .inr ⟨valid, found, differs⟩⟩
  | written _ _ _ _ result =>
    rcases result with he | ⟨e, he⟩ <;>
      · rw [he] at hresult
        cases hresult

theorem Sets.after {W : Write → Prop} {s : TeamCommsState} {c' : Comms}
    (h : Sets W { c with state := s } c' s) : Sets W c c' s :=
  ⟨h.runtime, h.config, h.nextTeamId, h.nextMessageId, h.nextDeliveryId, h.faults, h.state, h.wrote⟩

theorem after_upsertDelivery {d : TeamDeliveryRecord} {p : TeamDeliveryRecord → Prop} (hp : p d)
    {Q : Except RuntimeError Unit → Comms → Prop}
    (h : ∀ r c', Sets (Write.delivers p) c c' c.state → (c.store.faults = [] → r = .ok ()) → Q r c') :
    After (onStore (Store.upsertTeamDelivery d)) c Q :=
  after_write (.delivery d) rfl fun r c' hs hf => h r c' (hs.mono fun _ he => he ▸ hp) hf

theorem transitionWrite_after (trigger : DeliveryAttemptTrigger) (x : Change) :
    After (transitionWrite trigger x) c (Transitioned c x) := by
  unfold transitionWrite
  split
  · next hvalid =>
    simp only [after_bind_iff, after_get, after_orThrow]
    refine ⟨fun d hd => ?_, fun hnone => .missing hnone⟩
    split
    · next hne => exact (after_pure _ _ _).mpr (.lost hvalid hd hne)
    · next he =>
      simp only [after_bind_iff, after_nowMs, after_changeState]
      refine after_upsertDelivery (p := (· = x.apply c.runtime.clock d)) rfl fun r c' hs hf => ?_
      cases r with
      | error e =>
        exact .written hvalid hd (by simpa using he) hs.after (.inr ⟨e, rfl⟩) fun hn => by cases hf hn
      | ok _ =>
        refine after_noteTeamEvent fun c'' hq => (after_pure _ _ _).mpr ?_
        have hq := hq.mono fun _ => Write.delivers_of_isEvent (p := (· = x.apply c.runtime.clock d))
        exact .written hvalid hd (by simpa using he) (hs.after.andQuiet hq) (.inl rfl) fun _ => rfl
  · next hvalid =>
    split
    · next he => exact (after_pure _ _ _).mpr (.already he)
    · next hne => exact (after_throw _ _ _).mpr (.refused (by simpa using hvalid) hne)

theorem transitionFinish_after (x : Change) :
    After (transitionFinish x) c fun r c' => r = .ok () ∧ Sets Write.isEvent c c' c.state := by
  simp only [transitionFinish, after_bind_iff, after_get]
  split
  · exact after_noteTeamEvent fun c' hq => ⟨rfl, hq⟩
  · exact (after_pure _ _ _).mpr ⟨rfl, Sets.refl _ c⟩

def withTurn (turnId : String) (now : ℤ) (d : TeamDeliveryRecord) : TeamDeliveryRecord :=
  { d with injectedTurnId := some turnId, updatedAt := now }

theorem transitionDeliveryWithTurnId_after (deliveryId turnId : String) :
    After (transitionDeliveryWithTurnId deliveryId turnId) c fun r c' =>
      (c.state.deliveries.lookup deliveryId = none ∧ c' = c ∧ r = .ok ()) ∨
        ∃ d, c.state.deliveries.lookup deliveryId = some d ∧
          Sets (Write.delivers (· = withTurn turnId c.runtime.clock d)) c c' { c.state with
            deliveries := c.state.deliveries.insert deliveryId (withTurn turnId c.runtime.clock d) } := by
  simp only [transitionDeliveryWithTurnId, after_bind_iff, after_get]
  cases hd : c.state.deliveries.lookup deliveryId with
  | none => exact (after_pure _ _ _).mpr (.inl ⟨rfl, rfl, rfl⟩)
  | some d =>
    simp only [after_bind_iff, after_nowMs, after_changeState]
    refine after_upsertDelivery (p := (· = withTurn turnId c.runtime.clock d)) rfl fun r c' hs _ => ?_
    cases r with
    | error e => exact .inr ⟨d, rfl, hs.after⟩
    | ok _ =>
      refine after_noteTeamEvent fun c'' hq => .inr ⟨d, rfl, ?_⟩
      exact hs.after.andQuiet (hq.mono fun _ => Write.delivers_of_isEvent)

/-! ## Reads of inject_delivery -/

theorem injectRecipient_after (deliveryId : String) :
    After (injectRecipient deliveryId) c fun r c' => c' = c ∧ ∀ recipient, r = .ok recipient →
      ∃ d, c.state.deliveries.lookup deliveryId = some d ∧ d.recipientAgentId = recipient := by
  simp only [injectRecipient, after_bind_iff, after_get, after_orThrow, after_pure]
  refine ⟨fun d hd => ⟨trivial, fun recipient h => ?_⟩, fun _ => ⟨trivial, fun _ h => by cases h⟩⟩
  exact ⟨d, hd, Except.ok.inj h⟩

theorem injectSnapshot_after (deliveryId : String) :
    After (injectSnapshot deliveryId) c fun r c' => c' = c ∧ ∀ p, r = .ok p →
      c.state.deliveries.lookup deliveryId = some p.1 ∧ c.state.messages.lookup p.1.messageId = some p.2 := by
  simp only [injectSnapshot, after_bind_iff, after_get, after_orThrow, after_pure]
  refine ⟨fun d hd => ⟨fun m hm => ⟨trivial, fun p h => ?_⟩, fun _ => ⟨trivial, fun _ h => by cases h⟩⟩,
    fun _ => ⟨trivial, fun _ h => by cases h⟩⟩
  obtain rfl := Except.ok.inj h
  exact ⟨hd, hm⟩

/-! ## Teams and members -/

theorem readOnly_ensureEnabled : ReadOnly ensureEnabled := .bind .get fun _ => .ite (.pure _) (.throw _)

theorem readOnly_nowMs : ReadOnly nowMs := .bind .get fun _ => .pure _

theorem readOnly_requireSessionActive (sessionId : String) : ReadOnly (requireSessionActive sessionId) :=
  fun c => (requireSessionActive_after (c := c) sessionId).mono fun _ _ h => h.1

theorem readOnly_teamWithMembers (teamId : String) : ReadOnly (teamWithMembers teamId) :=
  .bind .get fun _ => .bind (.orThrow _ _) fun _ => .pure _

theorem readOnly_createTeamBegin (request : TeamCreateRequest) : ReadOnly (createTeamBegin request) :=
  .bind readOnly_ensureEnabled fun _ => .bind (.ofExcept _) fun _ => .bind (.ofExcept _) fun _ =>
    .bind readOnly_nowMs fun _ => .pure _

def newTeamId (c : Comms) : String := numbered "team" (nextFree "team" c.state.teams c.nextTeamId)

def withTeam (d : TeamDraft) (teamId : String) (s : TeamCommsState) : TeamCommsState :=
  { s with
    teams := s.teams.insert teamId (d.team teamId)
    membersByTeam := s.membersByTeam.insert teamId (d.members teamId) }

theorem createTeamWrite_after (d : TeamDraft) :
    After (createTeamWrite d) c fun r c' =>
      Sets (Write.changesTeam (d.team (newTeamId c)))
        { c with nextTeamId := nextFree "team" c.state.teams c.nextTeamId + 1 } c'
        (withTeam d (newTeamId c) c.state) ∧
      (∀ team, r = .ok team → team = d.team (newTeamId c)) := by
  simp only [createTeamWrite, allocateTeamId, after_bind_iff, after_get, after_modify, after_pure, after_changeState]
  have hW : ∀ x, x = Write.team (d.team (newTeamId c)) → Write.changesTeam (d.team (newTeamId c)) x :=
    fun _ he => he ▸ ⟨rfl, rfl⟩
  refine after_write (.team (d.team (newTeamId c))) rfl fun r c' hs _ => ?_
  have hs' := hs.mono hW
  cases r with
  | error e => exact ⟨hs'.after, fun _ h => by cases h⟩
  | ok _ => exact ⟨hs'.after, fun team h => (Except.ok.inj h).symm⟩

theorem createTeamMembers_after (team : TeamRecord) :
    After (createTeamMembers team) c fun _ c' => Sets (Write.storesMembers) c c' c.state := by
  simp only [createTeamMembers, after_bind_iff, after_get]
  refine (after_forM (I := fun c' => Sets (Write.storesMembers) c c' c.state) _ _
    (fun member _ c' hs => ?_) (Sets.refl _ c)).elim (fun _ c' hs => ?_) (fun _ _ hs => hs)
  · refine after_write (.member member) rfl fun r c'' hs' _ => ?_
    exact hs.andQuiet (hs'.mono fun _ he => he ▸ trivial)
  · refine after_noteTeamEvent fun c'' hq => ?_
    refine (readOnly_teamWithMembers team.id c'').mono fun _ _ h => h ▸ ?_
    exact hs.andQuiet (hq.mono fun _ => Write.storesMembers_of_isEvent)

def Reteamed (c c' : Comms) : Prop :=
  c' = c ∨ ∃ teamId team team' members, c.state.teams.lookup teamId = some team ∧
    (team'.id = team.id ∧ team'.deletedAt = team.deletedAt) ∧ Sets (Write.changesTeam team) c c' { c.state with
      teams := c.state.teams.insert teamId team'
      membersByTeam := members }

theorem after_upsertTeam {r team : TeamRecord} (hid : r.id = team.id ∧ r.deletedAt = team.deletedAt)
    {Q : Except RuntimeError Unit → Comms → Prop}
    (h : ∀ r c', Sets (Write.changesTeam team) c c' c.state → Q r c') :
    After (onStore (Store.upsertTeam r)) c Q :=
  after_write (.team r) rfl fun r c' hs _ => h r c' (hs.mono fun _ he => he ▸ hid)

theorem saveTeam_after {teamId kind sessionId : String} {team team' : TeamRecord}
    {members : Table String (Table String TeamMemberRecord)} {saveMember : CommsM Unit} {payload : Json}
    (hteam : c.state.teams.lookup teamId = some team) (hid : team'.id = team.id ∧ team'.deletedAt = team.deletedAt)
    (hmember : ∀ c', After saveMember c' fun _ c'' => Sets (Write.changesTeam team) c' c'' c'.state) :
    After (saveTeam teamId team' members saveMember kind payload sessionId) c fun _ c' => Reteamed c c' := by
  have hre : ∀ c', Sets (Write.changesTeam team) c c' { c.state with
      teams := c.state.teams.insert teamId team'
      membersByTeam := members } → Reteamed c c' :=
    fun c' hs => .inr ⟨teamId, team, team', members, hteam, hid, hs⟩
  simp only [saveTeam, after_bind_iff, after_changeState]
  refine after_upsertTeam hid fun r c' hs => ?_
  cases r with
  | error e => exact hre _ hs.after
  | ok _ =>
    refine (hmember c').elim (fun _ c'' hs' => ?_) (fun _ c'' hs' => hre _ (hs.after.andQuiet hs'))
    refine after_noteTeamEvent fun d hq => ?_
    refine (readOnly_teamWithMembers teamId d).mono fun _ _ h => h ▸ hre _ ?_
    exact (hs.after.andQuiet hs').andQuiet (hq.mono fun _ => Write.changesTeam_of_isEvent)

theorem readOnly_joinTeamBegin (request : TeamJoinRequest) : ReadOnly (joinTeamBegin request) :=
  .bind readOnly_ensureEnabled fun _ => .bind (.ofExcept _) fun _ => .bind (.ofExcept _) fun _ => .pure _

theorem joinTeamWrite_after (r : TeamJoinRequest) : After (joinTeamWrite r) c fun _ c' => Reteamed c c' := by
  simp only [joinTeamWrite, after_bind_iff, after_get, after_nowMs, after_orThrow]
  refine ⟨fun team hteam => ?_, fun _ => .inl rfl⟩
  split
  · exact (after_throw _ _ _).mpr (.inl rfl)
  · refine saveTeam_after hteam ?_ fun c' => after_write (.member _) rfl fun _ _ hs _ => hs.mono
      fun _ he => he ▸ trivial
    exact ⟨rfl, rfl⟩

theorem removeTeamMember_after (teamId agentId : String) :
    After (removeTeamMember teamId agentId) c fun _ c' => Reteamed c c' := by
  refine readOnly_ensureEnabled.after_bind (fun _ => ?_) fun _ => .inl rfl
  refine (ReadOnly.ofExcept (normalizeNonEmpty teamId "team_id")).after_bind (fun teamId => ?_) fun _ => .inl rfl
  refine (ReadOnly.ofExcept (normalizeNonEmpty agentId "agent_id")).after_bind (fun agentId => ?_) fun _ => .inl rfl
  simp only [after_bind_iff, after_get, after_orThrow]
  refine ⟨fun team hteam => ⟨fun members _ => ?_, fun _ => .inl rfl⟩, fun _ => .inl rfl⟩
  split
  · exact (after_throw _ _ _).mpr (.inl rfl)
  · split
    · exact (after_throw _ _ _).mpr (.inl rfl)
    · rw [after_bind_iff, after_nowMs]
      refine saveTeam_after hteam ?_ fun c' => after_write (.memberGone _ _) rfl fun _ _ hs _ =>
        hs.mono fun _ he => he ▸ trivial
      exact ⟨rfl, rfl⟩

theorem setTeamLead_after (teamId leadAgentId : String) :
    After (setTeamLead teamId leadAgentId) c fun _ c' => Reteamed c c' := by
  refine readOnly_ensureEnabled.after_bind (fun _ => ?_) fun _ => .inl rfl
  refine (ReadOnly.ofExcept (normalizeNonEmpty teamId "team_id")).after_bind (fun teamId => ?_) fun _ => .inl rfl
  refine (ReadOnly.ofExcept (normalizeNonEmpty leadAgentId "lead_agent_id")).after_bind (fun leadAgentId => ?_)
    fun _ => .inl rfl
  rw [after_bind_iff, after_get]
  refine (ReadOnly.ofExcept _).after_bind (fun _ => ?_) fun _ => .inl rfl
  simp only [after_bind_iff, after_orThrow]
  refine ⟨fun team hteam => ?_, fun _ => .inl rfl⟩
  split
  · exact (readOnly_teamWithMembers _ c).mono fun _ _ h => h ▸ .inl rfl
  · rw [after_bind_iff, after_nowMs]
    refine saveTeam_after hteam ?_ fun c' => (after_pure _ _ _).mpr (Sets.refl _ c')
    exact ⟨rfl, rfl⟩

/-! ## delete_team, cancel_message and retry_delivery -/

/-- Events, the row of one team and rows of deliveries that meet `p`. -/
def Write.deletesTeam (teamId : String) (p : TeamDeliveryRecord → Prop) : Write → Prop
  | .team r => r.id = teamId
  | .delivery r => p r
  | .event _ => True
  | _ => False

theorem storeCancelled_after {teamId : String} {d : TeamDeliveryRecord} {p : TeamDeliveryRecord → Prop} (hp : p d) :
    After (storeCancelled teamId d) c fun r c' => Sets (Write.delivers p) c c' c.state ∧
      (c.store.faults = [] → r = .ok ()) := by
  simp only [storeCancelled, after_bind_iff]
  refine after_upsertDelivery hp fun r c' hs hf => ?_
  cases r with
  | error e => exact ⟨hs, hf⟩
  | ok _ =>
    refine after_noteTeamEvent fun c'' hq => ⟨hs.andQuiet ?_, fun _ => rfl⟩
    exact hq.mono fun _ => Write.delivers_of_isEvent

/-- What `delete_team` can do; `teamId` is the trimmed id. -/
inductive TeamDeleted (c : Comms) (argument : String) : Except RuntimeError Unit → Comms → Prop where
  | refused {e : RuntimeError} : TeamDeleted c argument (.error e) c
  | deleted {teamId : String} {team : TeamRecord} {r : Except RuntimeError Unit} {c' : Comms}
      (normal : normalizeNonEmpty argument "team_id" = .ok teamId)
      (found : c.state.teams.lookup teamId = some team)
      (sets : Sets (Write.deletesTeam team.id (· ∈ cancelledByDelete c.state teamId c.runtime.clock)) c c'
        (removeTeam teamId c.state)) :
      TeamDeleted c argument r c'

theorem deleteTeam_after (argument : String) : After (deleteTeam argument) c (TeamDeleted c argument) := by
  refine readOnly_ensureEnabled.after_bind (fun _ => ?_) fun _ => .refused
  refine after_checked (fun teamId hn => ?_) fun _ _ => .refused
  simp only [after_bind_iff, after_get, after_orThrow, after_nowMs, after_changeState]
  refine ⟨fun team hteam => ?_, fun _ => .refused⟩
  refine after_write (.team _) rfl fun r c' hs _ => ?_
  have hs : Sets (Write.deletesTeam team.id (· ∈ cancelledByDelete c.state teamId c.runtime.clock)) c c'
      (removeTeam teamId c.state) := hs.after.mono fun _ he => he ▸ rfl
  cases r with
  | error e => exact .deleted hn hteam hs
  | ok _ =>
    refine (after_forM (I := fun c' => Sets (Write.deletesTeam team.id
      (· ∈ cancelledByDelete c.state teamId c.runtime.clock)) c c' (removeTeam teamId c.state)) _ _
      (fun d hd c'' hs => ?_) hs).elim (fun _ c'' hs => ?_) (fun _ _ hs => .deleted hn hteam hs)
    · refine (storeCancelled_after (p := (· ∈ cancelledByDelete c.state teamId c.runtime.clock)) hd).mono ?_
      intro _ _ h
      exact hs.andQuiet (h.1.mono fun x hx => by cases x <;> first | exact hx | exact hx.elim)
    · refine after_noteTeamEvent fun d hq => .deleted hn hteam (hs.andQuiet ?_)
      exact hq.mono fun x hx => by cases x <;> first | exact hx | exact hx.elim

/-- What `cancel_message` can do; `messageId` is the trimmed id. -/
inductive MessageCancelled (c : Comms) (argument : String) :
    Except RuntimeError (List TeamDeliveryRecord) → Comms → Prop where
  | refused {e : RuntimeError} : MessageCancelled c argument (.error e) c
  | cancelled {messageId : String} {r : Except RuntimeError (List TeamDeliveryRecord)} {c' : Comms}
      (normal : normalizeNonEmpty argument "message_id" = .ok messageId)
      (queued : ∀ d ∈ messageDeliveries c.state messageId, isQueued d.status = true)
      (sets : Sets (Write.delivers (· ∈ (messageDeliveries c.state messageId).map (cancelDelivery c.runtime.clock)))
        c c' (((messageDeliveries c.state messageId).map (cancelDelivery c.runtime.clock)).foldl
          (fun s d => putDelivery d s) c.state)) :
      MessageCancelled c argument r c'

theorem cancelMessage_after (teamId argument : String) :
    After (cancelMessage teamId argument) c (MessageCancelled c argument) := by
  refine readOnly_ensureEnabled.after_bind (fun _ => ?_) fun _ => .refused
  refine (ReadOnly.ofExcept (normalizeNonEmpty teamId "team_id")).after_bind (fun teamId => ?_) fun _ => .refused
  refine after_checked (fun messageId hn => ?_) fun _ _ => .refused
  simp only [after_bind_iff, after_get, after_orThrow]
  refine ⟨fun message _ => ?_, fun _ => .refused⟩
  split
  · exact (after_throw _ _ _).mpr .refused
  · split
    · exact (after_throw _ _ _).mpr .refused
    · next hnone =>
      have hqueued : ∀ d ∈ messageDeliveries c.state messageId, isQueued d.status = true := fun d hd => by
        simpa using List.find?_eq_none.mp hnone d hd
      simp only [after_bind_iff, after_nowMs, after_changeState]
      refine (after_forM (I := fun c' => Sets (Write.delivers
        (· ∈ (messageDeliveries c.state messageId).map (cancelDelivery c.runtime.clock))) c c' _) _ _
        (fun d hd c' hs => ?_) (Sets.refl _ { c with state := _ }).after).elim (fun _ c' hs => ?_)
        (fun _ _ hs => .cancelled hn hqueued hs)
      · exact (storeCancelled_after hd).mono fun _ _ h => hs.andQuiet h.1
      · refine after_noteTeamEvent fun d hq => (after_pure _ _ _).mpr (.cancelled hn hqueued (hs.andQuiet ?_))
        exact hq.mono fun _ => Write.delivers_of_isEvent

/-- What `retry_delivery` can do before it injects; `deliveryId` is the trimmed id. -/
inductive DeliveryRetried (c : Comms) (teamId argument : String) : Except RuntimeError String → Comms → Prop where
  | refused {e : RuntimeError} : DeliveryRetried c teamId argument (.error e) c
  | retried {deliveryId : String} {d : TeamDeliveryRecord} {r : Except RuntimeError String} {c' : Comms}
      (normal : normalizeNonEmpty argument "delivery_id" = .ok deliveryId)
      (found : c.state.deliveries.lookup deliveryId = some d)
      (member : normalizeNonEmpty teamId "team_id" = .ok d.teamId)
      (retriable : d.status = .failed ∨ d.status = .deferred)
      (sets : Sets (Write.delivers (· = retriedRecord c.runtime.clock d)) c c' { c.state with
        deliveries := c.state.deliveries.insert deliveryId (retriedRecord c.runtime.clock d) })
      (result : r = .ok deliveryId ∨ ∃ e, r = .error e) (saved : c.store.faults = [] → r = .ok deliveryId) :
      DeliveryRetried c teamId argument r c'

theorem retryWrite_after (teamId argument : String) :
    After (retryWrite teamId argument) c (DeliveryRetried c teamId argument) := by
  refine readOnly_ensureEnabled.after_bind (fun _ => ?_) fun _ => .refused
  refine after_checked (fun normalTeam ht => ?_) fun _ _ => .refused
  refine after_checked (fun deliveryId hn => ?_) fun _ _ => .refused
  simp only [after_bind_iff, after_get, after_orThrow]
  refine ⟨fun d hd => ?_, fun _ => .refused⟩
  split
  · exact (after_throw _ _ _).mpr .refused
  · next hteam =>
    split
    · exact (after_throw _ _ _).mpr .refused
    · next hstatus =>
      have hmember : normalizeNonEmpty teamId "team_id" = .ok d.teamId := by
        rw [ht, not_not.mp hteam]
      simp only [after_bind_iff, after_nowMs, after_changeState]
      refine after_upsertDelivery (p := (· = retriedRecord c.runtime.clock d)) rfl fun r c' hs hf => ?_
      cases r with
      | error e =>
        exact .retried hn hd hmember (not_not.mp hstatus) hs.after (.inr ⟨e, rfl⟩) fun hz => by cases hf hz
      | ok _ =>
        refine after_noteTeamEvent fun c'' hq => (after_pure _ _ _).mpr ?_
        refine .retried hn hd hmember (not_not.mp hstatus) (hs.after.andQuiet ?_) (.inl rfl) fun _ => rfl
        exact hq.mono fun _ => Write.delivers_of_isEvent

/-! ## Messages -/

/-- The records `draftDeliveries` makes, with the counter it starts from and the one it leaves. -/
inductive Drafted (taken : Table String TeamDeliveryRecord) (message : TeamMessageRecord) :
    ℕ → List (String × String) → ℕ → List TeamDeliveryRecord → Prop where
  | nil {n : ℕ} : Drafted taken message n [] n []
  | cons {n k : ℕ} {recipient provider : String} {rest : List (String × String)} {ds : List TeamDeliveryRecord}
      (drafted : Drafted taken message (nextFree "dlv" taken n + 1) rest k ds) :
      Drafted taken message n ((recipient, provider) :: rest) k
        (newDelivery message (numbered "dlv" (nextFree "dlv" taken n)) recipient provider :: ds)

theorem draftDeliveries_after (message : TeamMessageRecord) (recipients : List (String × String)) :
    After (draftDeliveries message recipients) c fun r c' => ∃ k ds, r = .ok ds ∧
      c' = { c with nextDeliveryId := k } ∧
      Drafted c.state.deliveries message c.nextDeliveryId recipients k ds := by
  induction recipients generalizing c with
  | nil => exact (after_pure _ _ _).mpr ⟨_, _, rfl, rfl, .nil⟩
  | cons r rest ih =>
    obtain ⟨recipient, provider⟩ := r
    simp only [draftDeliveries, allocateDeliveryId, after_bind_iff, after_get, after_modify, after_pure]
    refine ih.elim (fun ds c' h => ?_) (fun e c' h => ?_)
    · obtain ⟨k, ds', hr, rfl, hd⟩ := h
      obtain rfl := Except.ok.inj hr
      exact ⟨k, _, rfl, rfl, .cons hd⟩
    · obtain ⟨k, ds', hr, -⟩ := h
      cases hr

def newMessageId (c : Comms) : String := numbered "msg" (nextFree "msg" c.state.messages c.nextMessageId)

def Write.creates (message : TeamMessageRecord) (ds : List TeamDeliveryRecord) : Write → Prop
  | .message r => r = message
  | .delivery r => r ∈ ds
  | .event _ => True
  | _ => False

theorem Write.creates_of_isEvent {message : TeamMessageRecord} {ds : List TeamDeliveryRecord} {x : Write}
    (h : x.isEvent) : Write.creates message ds x := by
  cases x <;> first | exact h | exact h.elim

theorem storeDeliveries_after (message : TeamMessageRecord) (ds : List TeamDeliveryRecord) :
    After (ds.forM fun delivery => onStore (Store.upsertTeamDelivery delivery)) c fun r c' =>
      Sets (Write.creates message ds) c c' c.state ∧ (c.store.faults = [] → r = .ok ()) := by
  refine after_forM_ok (I := fun c' => Sets (Write.creates message ds) c c' c.state) _ _
    (fun d hd c' hs => ?_) (Sets.refl _ c)
  refine after_write (.delivery d) rfl fun r c'' hs' hf => ⟨hs.andQuiet ?_, fun hc => hf (hs.faults hc)⟩
  exact hs'.mono fun _ he => he ▸ hd

theorem noteDeliveries_after (teamId kind : String) (ds : List TeamDeliveryRecord) :
    After (ds.forM fun delivery => noteTeamEvent teamId kind (deliveryPayload delivery)
      (some delivery.recipientAgentId)) c fun r c' => Sets Write.isEvent c c' c.state ∧ (True → r = .ok ()) := by
  refine after_forM_ok (I := fun c' => Sets Write.isEvent c c' c.state) _ _ (fun d _ c' hs => ?_) (Sets.refl _ c)
  exact after_noteTeamEvent fun c'' hq => ⟨hs.andQuiet hq, fun _ => rfl⟩

theorem storeMessage_after (m : MessageDraft) (message : TeamMessageRecord) (ds : List TeamDeliveryRecord) :
    After (storeMessage m message ds) c fun r c' => Sets (Write.creates message ds) c c' c.state ∧
      (c.store.faults = [] → r = .ok ()) := by
  simp only [storeMessage, after_bind_iff]
  refine after_write (.message message) ?_ fun r c' hs hf => ?_
  · rfl
  have hs : Sets (Write.creates message ds) c c' c.state := hs.mono fun _ he => he ▸ rfl
  cases r with
  | error e => exact ⟨hs, hf⟩
  | ok _ =>
    refine (storeDeliveries_after message ds).elim (fun _ c'' h => ?_) (fun e c'' h => ⟨hs.andQuiet h.1, fun hc => ?_⟩)
    · refine after_noteTeamEvent fun d hq => ?_
      have hs := (hs.andQuiet h.1).andQuiet (hq.mono fun _ => Write.creates_of_isEvent)
      refine (noteDeliveries_after _ _ ds).mono fun _ _ h => ⟨hs.andQuiet ?_, fun _ => h.2 trivial⟩
      exact h.1.mono fun _ => Write.creates_of_isEvent
    · exact h.2 (hs.faults hc)

/-- What `create_message_and_deliveries` can do with its recipients admitted. -/
inductive MessageCreated (c : Comms) (m : MessageDraft) : Except RuntimeError TeamMessageAck → Comms → Prop where
  | refused {e : RuntimeError} : MessageCreated c m (.error e) c
  | existing {ack : TeamMessageAck} (found : existingAck c.state m = some ack) : MessageCreated c m (.ok ack) c
  | created {k : ℕ} {ds : List TeamDeliveryRecord} {team : TeamRecord} {r : Except RuntimeError TeamMessageAck}
      {c' : Comms} (found : c.state.teams.lookup m.teamId = some team)
      (drafted : Drafted c.state.deliveries (m.message (newMessageId c) c.runtime.clock) c.nextDeliveryId
        m.recipients k ds)
      (sets : Sets (Write.creates (m.message (newMessageId c) c.runtime.clock) ds)
        { c with nextMessageId := nextFree "msg" c.state.messages c.nextMessageId + 1, nextDeliveryId := k } c'
        (addMessage m (m.message (newMessageId c) c.runtime.clock) ds c.state))
      (result : r = .ok ⟨m.message (newMessageId c) c.runtime.clock, ds, .created⟩ ∨ ∃ e, r = .error e)
      (saved : c.store.faults = [] → r = .ok ⟨m.message (newMessageId c) c.runtime.clock, ds, .created⟩) :
      MessageCreated c m r c'

theorem readOnly_checkMembers (s : TeamCommsState) (m : MessageDraft) : ReadOnly (checkMembers s m) :=
  .bind (.orThrow _ _) fun _ => .bind (.ofExcept _) fun _ => .forM _ fun _ => .ofExcept _

theorem checkMembers_after (s : TeamCommsState) (m : MessageDraft) :
    After (checkMembers s m) c fun r c' => c' = c ∧ ∀ u, r = .ok u → ∃ team, s.teams.lookup m.teamId = some team := by
  refine (readOnly_checkMembers s m).after
    (Q := fun r _ => ∀ u, r = .ok u → ∃ team, s.teams.lookup m.teamId = some team) ?_
  rw [checkMembers, after_bind_iff, after_orThrow]
  refine ⟨fun team hteam => ?_, fun _ _ h => by cases h⟩
  exact ⟨fun _ _ => ⟨team, hteam⟩⟩

theorem createMessage_after (m : MessageDraft) : After (createMessage m) c (MessageCreated c m) := by
  rw [createMessage, after_bind_iff, after_get]
  dsimp only
  refine after_bind (checkMembers_after c.state m) (fun _ c' h => ?_) (fun e c' h => ?_)
  · obtain ⟨rfl, hteam⟩ := h
    obtain ⟨team, hteam⟩ := hteam () rfl
    split
    · next ack hack => exact (after_pure _ _ _).mpr (.existing hack)
    · simp only [allocateMessageId, after_bind_iff, after_nowMs, after_get, after_modify, after_pure]
      refine (draftDeliveries_after _ _).elim (fun ds c' h => ?_) (fun e c' h => ?_)
      · obtain ⟨k, ds', hr, rfl, hd⟩ := h
        obtain rfl := Except.ok.inj hr
        dsimp only
        rw [after_changeState]
        refine (storeMessage_after m _ ds).elim (fun _ c'' h => ?_) (fun e c'' h => ?_)
        · exact .created hteam hd h.1.after (.inl rfl) fun _ => rfl
        · exact .created hteam hd h.1.after (.inr ⟨e, rfl⟩) fun hf => by cases h.2 hf
      · obtain ⟨k, ds', hr, -⟩ := h
        cases hr
  · obtain ⟨rfl, -⟩ := h
    exact .refused

theorem readOnly_draftMessage (teamId scope sender : String) (count : ℕ) (input : List Json)
    (imagePaths : List String) (priority policy : String) (correlationId replyTo key : Option String) :
    ReadOnly (draftMessage teamId scope sender count input imagePaths priority policy correlationId replyTo key) :=
  .bind (.ofExcept _) fun _ => .bind (.ofExcept _) fun _ => .bind (.ofExcept _) fun _ => .bind .get fun _ =>
    .ite (.throw _) (.pure _)

theorem readOnly_sendDirectBegin (request : TeamSendDirectRequest) : ReadOnly (sendDirectBegin request) :=
  .bind readOnly_ensureEnabled fun _ => .bind (.ofExcept _) fun _ => .bind (.ofExcept _) fun _ =>
    .bind (.ofExcept _) fun _ => .bind (.ofExcept _) fun _ =>
      .bind (readOnly_draftMessage _ _ _ _ _ _ _ _ _ _ _) fun _ => .pure _

theorem readOnly_broadcastBegin (request : TeamBroadcastRequest) : ReadOnly (broadcastBegin request) :=
  .bind readOnly_ensureEnabled fun _ => .bind (.ofExcept _) fun _ => .bind (.ofExcept _) fun _ =>
    .bind (.ofExcept _) fun _ => .bind .get fun _ => .bind (.orThrow _ _) fun _ =>
      .bind (readOnly_draftMessage _ _ _ _ _ _ _ _ _ _ _) fun _ => .pure _

theorem readOnly_admitRecipient (m : MessageDraft) (recipient : String) : ReadOnly (admitRecipient m recipient) :=
  .bind (.ofExcept _) fun _ => .ite (.pure _) (.bind (readOnly_requireSessionActive _) fun _ => .pure _)

end

end Gooselake.TeamComms
