import Gooselake.Core.EventLog
import Gooselake.TeamComms.Moves

/-!
The `team_message.completed` events in the log of the store. `transition_delivery_status` appends one when it finds no
delivery of the message open, and `cancel_message` appends one in any case; no other piece does.
-/

namespace Gooselake.TeamComms

open Gooselake.Core Data Library Library.Exec
open Gooselake.Runtime (isClosedOrFailed)

set_option autoImplicit false

def tells (kind : String) (payload : Json) (messageId : String) : Bool :=
  kind = "team_message.completed" && payload.get? "message_id" = some (.str messageId)

/-- How often the store announces the message. -/
def announcements (store : Store) (messageId : String) : ℕ :=
  store.events.countP fun e => tells e.kind e.payload messageId

def EventsCounted (c : Comms) : Prop :=
  ∀ e ∈ c.store.events, ∀ (teamId : String) (n : ℕ), e.eventId = numbered s!"evt_team_{teamId}_{c.eventIdNonce}" n →
    n < c.nextEventId

def clear (n : ℕ) (store : Store) : Bool := (store.faults.take n).all fun fault => !fault

def Silent (c c' : Comms) : Prop :=
  EventsCounted c → EventsCounted c' ∧ ∀ messageId, announcements c'.store messageId = announcements c.store messageId

theorem Silent.refl (c : Comms) : Silent c c := fun hc => ⟨hc, fun _ => rfl⟩

theorem Silent.trans {c c' c'' : Comms} (h : Silent c c') (h' : Silent c' c'') : Silent c c'' := by
  intro hc
  obtain ⟨hc', hsame⟩ := h hc
  obtain ⟨hc'', hsame'⟩ := h' hc'
  exact ⟨hc'', fun messageId => (hsame' messageId).trans (hsame messageId)⟩

instance : Std.Refl Silent := ⟨Silent.refl⟩

instance : Trans Silent Silent Silent := ⟨Silent.trans⟩

theorem Silent.of_events {c c' : Comms} (he : c'.store.events = c.store.events) (hn : c'.nextEventId = c.nextEventId)
    (hnonce : c'.eventIdNonce = c.eventIdNonce) : Silent c c' := by
  intro hc
  constructor
  · rw [EventsCounted, he, hn, hnonce]
    exact hc
  · intro messageId
    rw [announcements, he, announcements]

/-! ## One event -/

section

variable {c : Comms} {α : Type} {teamId kind : String} {payload : Json} {sessionId : Option String}

theorem append_faults (event : NewRuntimeEvent) (store : Store) :
    (Store.appendRuntimeEvent event store).2.faults = store.faults.tail := by
  unfold Store.appendRuntimeEvent Store.write
  rcases hf : store.faults with _ | ⟨_ | _, rest⟩ <;> split <;> simp [hf]

theorem append_events {event : NewRuntimeEvent} {store : Store}
    (hnew : store.events.find? (fun e => e.eventId = event.eventId) = none) :
    (Store.appendRuntimeEvent event store).2.events =
      store.events ++ if clear 1 store then [appendedRecord event store.events] else [] := by
  unfold Store.appendRuntimeEvent Store.write clear
  rw [hnew]
  rcases hf : store.faults with _ | ⟨_ | _, rest⟩ <;> simp [appendedRecord]

theorem noteTeamEvent_log (hc : EventsCounted c) :
    After (noteTeamEvent teamId kind payload sessionId) c fun _ c' => EventsCounted c' ∧
      c'.store.faults = c.store.faults.tail ∧ ∀ messageId, announcements c'.store messageId =
        announcements c.store messageId + if clear 1 c.store ∧ tells kind payload messageId then 1 else 0 := by
  simp only [noteTeamEvent, appendTeamEvent, after_bind_iff, after_attempt, after_get, after_modify, after_nowMs,
    after_onStore, after_pure]
  generalize hevent : NewRuntimeEvent.mk _ _ _ _ _ _ _ _ _ _ _ _ = event
  have hid : event.eventId = numbered s!"evt_team_{teamId}_{c.eventIdNonce}" c.nextEventId := by
    rw [← hevent]
  have hnew : c.store.events.find? (fun e => e.eventId = event.eventId) = none := by
    rw [List.find?_eq_none]
    intro e he heq
    have hlt := hc e he teamId c.nextEventId ((of_decide_eq_true heq).trans hid)
    omega
  have hevents := append_events hnew
  refine ⟨fun e he teamId' n hnumber => ?_, append_faults _ _, fun messageId => ?_⟩
  · change e ∈ (Store.appendRuntimeEvent event c.store).2.events at he
    change n < c.nextEventId + 1
    rw [hevents, List.mem_append] at he
    rcases he with he | he
    · have hlt := hc e he teamId' n hnumber
      omega
    · split at he
      · obtain rfl := List.mem_singleton.mp he
        have heq := numbered_inj (hid.symm.trans hnumber)
        omega
      · cases he
  · have hkind : event.kind = kind ∧ event.payload = payload := by
      rw [← hevent]
      exact ⟨rfl, rfl⟩
    simp only [announcements, hevents, List.countP_append]
    cases clear 1 c.store with
    | false => simp
    | true => simp [appendedRecord, List.countP_singleton, hkind]

theorem silent_note (hother : ∀ messageId, tells kind payload messageId = false) :
    Within Silent (noteTeamEvent teamId kind payload sessionId) := by
  intro c
  by_cases hc : EventsCounted c
  · refine (noteTeamEvent_log hc).mono fun _ c' h _ => ⟨h.1, fun messageId => ?_⟩
    rw [h.2.2, hother]
    simp
  · exact ⟨fun h => absurd h hc⟩

theorem tells_other (hkind : kind ≠ "team_message.completed") (messageId : String) :
    tells kind payload messageId = false := by
  rw [tells, decide_eq_false hkind, Bool.false_and]

/-! ## Pieces that announce nothing -/

theorem silent_modify {f : Comms → Comms} (he : ∀ c, (f c).store.events = c.store.events)
    (hn : ∀ c, (f c).nextEventId = c.nextEventId) (hnonce : ∀ c, (f c).eventIdNonce = c.eventIdNonce) :
    Within Silent (modify f : CommsM Unit) :=
  .modify fun c => .of_events (he c) (hn c) (hnonce c)

theorem silent_changeState (f : TeamCommsState → TeamCommsState) : Within Silent (changeState f) :=
  silent_modify (fun _ => rfl) (fun _ => rfl) fun _ => rfl

theorem silent_onStore {f : Store → Except RuntimeError α × Store} (h : ∀ st, (f st).2.events = st.events) :
    Within Silent (onStore f) := fun c =>
  (after_onStore f _).mpr (.of_events (h c.store) rfl rfl)

theorem silent_write {f : Store → Store} (h : ∀ st, (f st).events = st.events) :
    Within Silent (onStore (Store.write f)) :=
  silent_onStore (Store.write_keeps (g := Store.events) (fun _ _ => rfl) h)

theorem silent_onRuntime (m : Runtime.RuntimeM α) : Within Silent (onRuntime m) := fun _ =>
  (after_onRuntime m _).mpr ⟨.of_events rfl rfl rfl⟩

theorem silent_noteOther (hkind : kind ≠ "team_message.completed") :
    Within Silent (noteTeamEvent teamId kind payload sessionId) :=
  silent_note (tells_other hkind)

theorem silent_upsertTeam (r : TeamRecord) : Within Silent (onStore (Store.upsertTeam r)) := silent_write fun _ => rfl

theorem silent_upsertDelivery (r : TeamDeliveryRecord) : Within Silent (onStore (Store.upsertTeamDelivery r)) :=
  silent_write fun _ => rfl

theorem silent_upsertMessage (r : TeamMessageRecord) : Within Silent (onStore (Store.upsertTeamMessage r)) := by
  refine silent_write fun st => ?_
  split <;> rfl

theorem silent_createTeamWrite (d : TeamDraft) : Within Silent (createTeamWrite d) := by
  have hallocate : Within Silent allocateTeamId :=
    .bind ReadOnly.get.within fun c => .bind (silent_modify (fun _ => rfl) (fun _ => rfl) fun _ => rfl) fun _ =>
      (ReadOnly.pure _).within
  exact .bind hallocate fun _ => .bind (silent_changeState _) fun _ => .bind (silent_upsertTeam _) fun _ =>
    (ReadOnly.pure _).within

theorem silent_createTeamMembers (team : TeamRecord) : Within Silent (createTeamMembers team) := by
  refine .bind ReadOnly.get.within fun c => .bind (.forM _ fun member => silent_write fun _ => rfl) fun _ => ?_
  exact .bind (silent_noteOther (by decide)) fun _ => (readOnly_teamWithMembers _).within

theorem silent_saveTeam {team : TeamRecord} {members : Table String (Table String TeamMemberRecord)}
    {saveMember : CommsM Unit} {session : String} (hmember : Within Silent saveMember)
    (hkind : kind ≠ "team_message.completed") :
    Within Silent (saveTeam teamId team members saveMember kind payload session) :=
  .bind (silent_changeState _) fun _ => .bind (silent_upsertTeam _) fun _ => .bind hmember fun _ =>
    .bind (silent_noteOther hkind) fun _ => (readOnly_teamWithMembers _).within

theorem silent_joinTeamWrite (r : TeamJoinRequest) : Within Silent (joinTeamWrite r) := by
  refine .bind ReadOnly.get.within fun c => .bind readOnly_nowMs.within fun now =>
    .bind (ReadOnly.orThrow _ _).within fun team => .ite (ReadOnly.throw _).within ?_
  exact silent_saveTeam (silent_write fun _ => rfl) (by decide)

theorem silent_removeTeamMember (agentId : String) : Within Silent (removeTeamMember teamId agentId) := by
  refine .bind readOnly_ensureEnabled.within fun _ => .bind (ReadOnly.ofExcept _).within fun teamId =>
    .bind (ReadOnly.ofExcept _).within fun agentId => .bind ReadOnly.get.within fun c =>
    .bind (ReadOnly.orThrow _ _).within fun team => .bind (ReadOnly.orThrow _ _).within fun members =>
    .ite (ReadOnly.throw _).within (.ite (ReadOnly.throw _).within (.bind readOnly_nowMs.within fun now => ?_))
  exact silent_saveTeam (silent_write fun _ => rfl) (by decide)

theorem silent_setTeamLead (leadAgentId : String) : Within Silent (setTeamLead teamId leadAgentId) := by
  refine .bind readOnly_ensureEnabled.within fun _ => .bind (ReadOnly.ofExcept _).within fun teamId =>
    .bind (ReadOnly.ofExcept _).within fun leadAgentId => .bind ReadOnly.get.within fun c =>
    .bind (ReadOnly.ofExcept _).within fun _ => .bind (ReadOnly.orThrow _ _).within fun team =>
    .ite (readOnly_teamWithMembers _).within (.bind readOnly_nowMs.within fun now => ?_)
  exact silent_saveTeam (ReadOnly.pure ()).within (by decide)

theorem silent_storeCancelled (d : TeamDeliveryRecord) : Within Silent (storeCancelled teamId d) :=
  .bind (silent_upsertDelivery _) fun _ => silent_noteOther (by decide)

theorem silent_deleteTeam : Within Silent (deleteTeam teamId) := by
  refine .bind readOnly_ensureEnabled.within fun _ => .bind (ReadOnly.ofExcept _).within fun teamId =>
    .bind ReadOnly.get.within fun c => .bind (ReadOnly.orThrow _ _).within fun team =>
    .bind readOnly_nowMs.within fun now => .bind (silent_changeState _) fun _ => .bind (silent_upsertTeam _) fun _ => ?_
  exact .bind (.forM _ silent_storeCancelled) fun _ => silent_noteOther (by decide)

theorem silent_retryWrite (deliveryId : String) : Within Silent (retryWrite teamId deliveryId) := by
  refine .bind readOnly_ensureEnabled.within fun _ => .bind (ReadOnly.ofExcept _).within fun teamId =>
    .bind (ReadOnly.ofExcept _).within fun deliveryId => .bind ReadOnly.get.within fun c =>
    .bind (ReadOnly.orThrow _ _).within fun delivery =>
    .ite (ReadOnly.throw _).within (.ite (ReadOnly.throw _).within (.bind readOnly_nowMs.within fun now => ?_))
  exact .bind (silent_changeState _) fun _ => .bind (silent_upsertDelivery _) fun _ =>
    .bind (silent_noteOther (by decide)) fun _ => (ReadOnly.pure _).within

theorem silent_draftDeliveries (message : TeamMessageRecord) (recipients : List (String × String)) :
    Within Silent (draftDeliveries message recipients) := by
  have hallocate : Within Silent allocateDeliveryId :=
    .bind ReadOnly.get.within fun c => .bind (silent_modify (fun _ => rfl) (fun _ => rfl) fun _ => rfl) fun _ =>
      (ReadOnly.pure _).within
  induction recipients with
  | nil => exact (ReadOnly.pure _).within
  | cons r rest ih => exact .bind hallocate fun _ => .bind ih fun _ => (ReadOnly.pure _).within

theorem silent_createMessage (m : MessageDraft) : Within Silent (createMessage m) := by
  have hallocate : Within Silent allocateMessageId :=
    .bind ReadOnly.get.within fun c => .bind (silent_modify (fun _ => rfl) (fun _ => rfl) fun _ => rfl) fun _ =>
      (ReadOnly.pure _).within
  have hstore : ∀ message ds, Within Silent (storeMessage m message ds) := fun message ds =>
    .bind (silent_upsertMessage _) fun _ => .bind (.forM _ silent_upsertDelivery) fun _ =>
      .bind (silent_noteOther (by decide)) fun _ => .forM _ fun d => silent_noteOther (by decide)
  refine .bind ReadOnly.get.within fun c => .bind (readOnly_checkMembers _ _).within fun _ => ?_
  split
  · exact (ReadOnly.pure _).within
  · exact .bind readOnly_nowMs.within fun now => .bind hallocate fun messageId =>
      .bind (silent_draftDeliveries _ _) fun ds => .bind (silent_changeState _) fun _ => .bind (hstore _ _) fun _ =>
        (ReadOnly.pure _).within

theorem silent_transitionWrite (trigger : DeliveryAttemptTrigger) (x : Change) :
    Within Silent (transitionWrite trigger x) := by
  have hkind : ∀ status : DeliveryStatus, s!"team_delivery.{status.asStr}" ≠ "team_message.completed" := by
    intro status
    cases status <;> decide
  refine .ite (.bind ReadOnly.get.within fun c => .bind (ReadOnly.orThrow _ _).within fun d =>
    .ite (ReadOnly.pure _).within (.bind readOnly_nowMs.within fun now => ?_))
    (.ite (ReadOnly.pure _).within (ReadOnly.throw _).within)
  exact .bind (silent_changeState _) fun _ => .bind (silent_upsertDelivery _) fun _ =>
    .bind (silent_noteOther (hkind _)) fun _ => (ReadOnly.pure _).within

theorem silent_transitionDeliveryWithTurnId (deliveryId turnId : String) :
    Within Silent (transitionDeliveryWithTurnId deliveryId turnId) := by
  refine .bind ReadOnly.get.within fun c => ?_
  split
  · exact (ReadOnly.pure _).within
  · exact .bind readOnly_nowMs.within fun now => .bind (silent_changeState _) fun _ =>
      .bind (silent_upsertDelivery _) fun _ => silent_noteOther (by decide)

end

/-! ## Calls -/

def Inject.stage (r : Inject) : Option Stage :=
  match r.point with
  | .holding _ stage => some stage
  | _ => none

def Stage.checks : Stage → Option String
  | .completing x _ _ => some x.current.messageId
  | _ => none

def TeamCall.stage (call : TeamCall) : Option Stage := call.run.bind Inject.stage

def TeamCall.checks (call : TeamCall) : Option String := call.stage.bind Stage.checks

/-- The message is announced if no delivery of it is open and the write succeeds, and no other is. -/
def Checked (checked : Option String) (c c' : Comms) : Prop :=
  EventsCounted c → EventsCounted c' ∧ ∀ messageId, announcements c'.store messageId =
    announcements c.store messageId +
      if checked = some messageId ∧ messageTerminalState c.state messageId ∧ clear 1 c.store then 1 else 0

section

variable {c : Comms} {answer : Runtime.Answer}

theorem Silent.checked {c' : Comms} (h : Silent c c') : Checked none c c' := by
  intro hc
  obtain ⟨hc', hsame⟩ := h hc
  refine ⟨hc', fun messageId => ?_⟩
  rw [hsame, if_neg (fun hnone => by cases hnone.1), Nat.add_zero]

theorem transitionFinish_checked (x : Change) :
    After (transitionFinish x) c fun _ c' => Checked (some x.current.messageId) c c' := by
  have htells : ∀ messageId, tells "team_message.completed"
      (.obj [("message_id", .str x.current.messageId), ("team_id", .str x.current.teamId)]) messageId =
        decide (x.current.messageId = messageId) := by
    intro messageId
    simp [tells, Json.get?, Json.fieldOf]
  simp only [transitionFinish, after_bind_iff, after_get]
  by_cases hc : EventsCounted c
  · split
    · next hover =>
      refine (noteTeamEvent_log hc).mono fun _ c' h _ => ⟨h.1, fun messageId => ?_⟩
      rw [h.2.2, htells]
      congr 2
      rw [decide_eq_true_eq, Option.some.injEq]
      refine propext ⟨fun h => ⟨h.2, h.2 ▸ hover, h.1⟩, fun h => ⟨h.2.2, h.1⟩⟩
    · next hopen =>
      refine (after_pure _ _ _).mpr fun _ => ⟨hc, fun messageId => ?_⟩
      rw [if_neg, Nat.add_zero]
      rintro ⟨he, hover, -⟩
      exact hopen (Option.some.inj he ▸ hover)
  · exact ⟨fun h => absurd h hc⟩

theorem stage_checked {deliveryId : String} {trigger : DeliveryAttemptTrigger} {stage : Stage}
    {piece : CommsM (Stage ⊕ TeamDeliveryRecord)} (hp : stage.goOn deliveryId trigger answer = some piece) :
    After piece c fun _ c' => Checked stage.checks c c' := by
  have hsilent : ∀ {β : Type} {m : CommsM β}, Within Silent m → After m c fun _ c' => Checked none c c' :=
    fun h => (h c).mono fun _ _ h => h.checked
  cases stage with
  | snapshot =>
    cases answer <;> try cases hp
    refine hsilent (.bind (ReadOnly.within fun c => (injectSnapshot_after deliveryId).mono
      fun _ _ h => h.1) fun p => ?_)
    exact .ite (ReadOnly.pure _).within (ReadOnly.pure _).within
  | blocker d m =>
    cases answer <;> try cases hp
    refine hsilent (.bind ReadOnly.get.within fun c => .ite ?_ ?_)
    · exact .ite (ReadOnly.pure _).within (ReadOnly.pure _).within
    · exact .bind (ReadOnly.ofExcept _).within fun _ => (ReadOnly.pure _).within
  | lookup d m policy =>
    cases answer <;> try cases hp
    refine hsilent (.bind (silent_onRuntime _).attempt fun found => ?_)
    split <;> exact (ReadOnly.pure _).within
  | interrupting d m policy session call =>
    obtain ⟨runtime, -, rfl⟩ := Option.map_eq_some_iff.mp hp
    refine hsilent (.bind (silent_onRuntime _).attempt fun result => ?_)
    split
    · exact (ReadOnly.pure _).within
    · exact (ReadOnly.pure _).within
    · exact (ReadOnly.throw _).within
  | transition x k =>
    cases answer <;> try cases hp
    refine hsilent (.bind (silent_transitionWrite _ _) fun w => ?_)
    split <;> exact (ReadOnly.pure _).within
  | completing x d k =>
    cases answer <;> try cases hp
    exact after_bind (transitionFinish_checked x) (fun _ c' h => (after_pure _ _ _).mpr h) fun _ _ h => h
  | sending d call =>
    obtain ⟨runtime, -, rfl⟩ := Option.map_eq_some_iff.mp hp
    refine hsilent (.bind (silent_onRuntime _).attempt fun result => ?_)
    split <;> exact (ReadOnly.pure _).within
  | recordTurn d turnId =>
    cases answer <;> try cases hp
    exact hsilent (.bind (silent_transitionDeliveryWithTurnId _ _).attempt fun _ => (ReadOnly.pure _).within)

theorem inject_checked {r : Inject} {piece : CommsM (Inject ⊕ TeamDeliveryRecord)} (hp : r.goOn answer = some piece) :
    After piece c fun _ c' => Checked (r.stage.bind Stage.checks) c c' := by
  obtain ⟨deliveryId, trigger, point⟩ := r
  cases point with
  | start =>
    cases answer <;> try cases hp
    have hread : ReadOnly (injectRecipient deliveryId) := fun c => (injectRecipient_after deliveryId).mono
      fun _ _ h => h.1
    exact (ReadOnly.within (R := Silent) (.bind hread fun _ => .pure _) c).mono fun _ _ h => h.checked
  | waiting recipient =>
    cases answer <;> try cases hp
    exact (after_pure _ _ _).mpr (Silent.refl c).checked
  | holding recipient stage =>
    obtain ⟨stagePiece, hstage, rfl⟩ := Option.map_eq_some_iff.mp hp
    refine after_bind (stage_checked hstage) (fun next c' h => ?_) fun _ _ h => h
    cases next <;> exact (after_pure _ _ _).mpr h

theorem goOn_checked {call : TeamCall} {piece : CommsM (Option TeamCall)} (hp : call.goOn answer = some piece) :
    After piece c fun _ c' => Checked call.checks c c' := by
  have hsilent : ∀ {m : CommsM (Option TeamCall)}, Within Silent m → After m c fun _ c' => Checked none c c' :=
    fun h => (h c).mono fun _ _ h => h.checked
  cases call with
  | createCheck d member todo =>
    cases answer <;> try cases hp
    exact hsilent (.bind (readOnly_requireSessionActive _).within fun _ => (ReadOnly.pure _).within)
  | createWrite d =>
    cases answer <;> try cases hp
    exact hsilent (.bind (silent_createTeamWrite d) fun _ => (ReadOnly.pure _).within)
  | createMembers team =>
    cases answer <;> try cases hp
    exact hsilent (.bind (silent_createTeamMembers team) fun _ => (ReadOnly.pure _).within)
  | joinCheck r =>
    cases answer <;> try cases hp
    exact hsilent (.bind (readOnly_requireSessionActive _).within fun _ => (ReadOnly.pure _).within)
  | joinWrite r =>
    cases answer <;> try cases hp
    exact hsilent (.bind (silent_joinTeamWrite r) fun _ => (ReadOnly.pure _).within)
  | admitting m recipient todo =>
    cases answer <;> try cases hp
    exact hsilent (.bind (readOnly_admitRecipient _ _).within fun _ => (ReadOnly.pure _).within)
  | create m =>
    cases answer <;> try cases hp
    refine hsilent (.bind (silent_createMessage m) fun ack => ?_)
    split <;> exact (ReadOnly.pure _).within
  | inject r k =>
    obtain ⟨run, hrun, rfl⟩ := Option.map_eq_some_iff.mp hp
    rw [after_bind_iff, after_attempt]
    exact (inject_checked hrun).mono fun _ _ h => (after_pure _ _ _).mpr h
  | recoverSession recipient recipients retried =>
    cases answer <;> try cases hp
    refine hsilent (.bind (silent_onRuntime _).attempt fun found => ?_)
    split
    · exact .ite (ReadOnly.pure _).within (ReadOnly.pure _).within
    · exact (ReadOnly.pure _).within
  | recoverDeferred recipient recipients retried =>
    cases answer <;> try cases hp
    exact hsilent (.bind ReadOnly.get.within fun _ => (ReadOnly.pure _).within)

theorem begin_silent {op : Operation} (hop : ∀ teamId messageId, op ≠ .cancelMessage teamId messageId) :
    Within Silent op.begin := by
  cases op with
  | createTeam request => exact .bind (readOnly_createTeamBegin _).within fun _ => (ReadOnly.pure _).within
  | joinTeam request => exact .bind (readOnly_joinTeamBegin _).within fun _ => (ReadOnly.pure _).within
  | removeTeamMember teamId agentId => exact .bind (silent_removeTeamMember _) fun _ => (ReadOnly.pure _).within
  | setTeamLead teamId leadAgentId => exact .bind (silent_setTeamLead _) fun _ => (ReadOnly.pure _).within
  | deleteTeam teamId => exact .bind silent_deleteTeam fun _ => (ReadOnly.pure _).within
  | sendDirect request => exact .bind (readOnly_sendDirectBegin _).within fun _ => (ReadOnly.pure _).within
  | broadcast request => exact .bind (readOnly_broadcastBegin _).within fun _ => (ReadOnly.pure _).within
  | retryDelivery teamId deliveryId => exact .bind (silent_retryWrite _) fun _ => (ReadOnly.pure _).within
  | cancelMessage teamId messageId => exact absurd rfl (hop teamId messageId)
  | resumeDeferredForRecipient recipient => exact .bind ReadOnly.get.within fun _ => (ReadOnly.pure _).within
  | recoverStartupDeferredDeliveries =>
    exact .bind readOnly_ensureEnabled.within fun _ => .bind ReadOnly.get.within fun _ => (ReadOnly.pure _).within

end

/-! ## The last change of a message -/

def closes (c : Comms) (x : Change) : Bool :=
  match c.state.deliveries.lookup x.current.id with
  | none => false
  | some d => isValidTransition x.current.status x.next && d.status = x.current.status &&
      messageTerminalState { c.state with
        deliveries := c.state.deliveries.insert x.current.id (x.apply c.runtime.clock d) } x.current.messageId

def cancels (c : Comms) (teamId messageId : String) : Option String :=
  if c.config.enabled then
    match normalizeNonEmpty teamId "team_id", normalizeNonEmpty messageId "message_id" with
    | .ok teamId, .ok messageId =>
      match c.state.messages.lookup messageId with
      | some message =>
        if message.teamId = teamId && (messageDeliveries c.state messageId).all fun d => isQueued d.status then
          some messageId
        else none
      | none => none
    | _, _ => none
  else none

section

variable {c : Comms}

theorem clear_tail {n : ℕ} {store store' : Store} (h : clear (n + 1) store = true)
    (hf : store'.faults = store.faults.tail) : clear n store' = true := by
  unfold clear at *
  rw [hf]
  cases hfaults : store.faults with
  | nil => simp
  | cons fault rest =>
    rw [hfaults, List.take_succ_cons, List.all_cons, Bool.and_eq_true] at h
    exact h.2

theorem clear_one {n : ℕ} {store : Store} (h : clear (n + 1) store = true) : clear 1 store = true := by
  unfold clear at *
  cases hfaults : store.faults with
  | nil => simp
  | cons fault rest =>
    rw [hfaults, List.take_succ_cons, List.all_cons, Bool.and_eq_true] at h
    simp [h.1]

theorem write_clear {f : Store → Store} (h : clear 1 c.store = true) :
    After (onStore (Store.write f)) c fun r c' => r = .ok () ∧ c'.store.faults = c.store.faults.tail := by
  rw [after_onStore]
  unfold clear at h
  unfold Store.write
  rcases hf : c.store.faults with _ | ⟨_ | _, rest⟩
  · simp
  · simp
  · rw [hf] at h
    cases h

theorem upsertDelivery_clear {d : TeamDeliveryRecord} (h : clear 1 c.store = true) :
    After (onStore (Store.upsertTeamDelivery d)) c fun r c' => r = .ok () ∧ c'.store.faults = c.store.faults.tail :=
  write_clear h

theorem transitionWrite_saved {trigger : DeliveryAttemptTrigger} {x : Change} (hcloses : closes c x = true)
    (hclear : clear 1 c.store = true) : After (transitionWrite trigger x) c fun r _ => ∃ d, r = .ok (.changed d) := by
  unfold closes at hcloses
  split at hcloses
  · cases hcloses
  · next d found =>
    simp only [Bool.and_eq_true, decide_eq_true_eq] at hcloses
    obtain ⟨⟨hvalid, hsame⟩, -⟩ := hcloses
    rw [transitionWrite, if_pos hvalid]
    simp only [after_bind_iff, after_get, after_orThrow]
    refine ⟨fun d' found' => ?_, fun hnone => ?_⟩
    · obtain rfl := Option.some.inj (found.symm.trans found')
      rw [if_neg (not_not.mpr hsame)]
      simp only [after_bind_iff, after_nowMs, after_changeState]
      refine After.mono (upsertDelivery_clear hclear) fun r c' h => ?_
      obtain ⟨rfl, -⟩ := h
      exact after_noteTeamEvent fun _ _ => (after_pure _ _ _).mpr ⟨_, rfl⟩
    · rw [found] at hnone
      cases hnone

theorem goOn_closes {call : TeamCall} {answer : Runtime.Answer} {piece : CommsM (Option TeamCall)} {x : Change}
    {k : Then} (hp : call.goOn answer = some piece) (hstage : call.stage = some (.transition x k))
    (hcloses : closes c x = true) (hclear : clear 1 c.store = true) :
    After piece c fun r _ => (Service.left r).bind TeamCall.checks = some x.current.messageId := by
  cases call with
  | inject r frame =>
    obtain ⟨run, hrun, rfl⟩ := Option.map_eq_some_iff.mp hp
    obtain ⟨deliveryId, trigger, point⟩ := r
    cases point with
    | start | waiting => cases hstage
    | holding recipient stage =>
      obtain rfl := Option.some.inj hstage
      obtain ⟨stagePiece, hpiece, rfl⟩ := Option.map_eq_some_iff.mp hrun
      cases answer <;> try cases hpiece
      rw [after_bind_iff, after_attempt]
      refine after_bind (R := fun r _ => ∃ d, r = .ok (.inl (.completing x d k))) ?_ (fun next c' h => ?_)
        fun e c' h => ?_
      · refine after_bind (transitionWrite_saved hcloses hclear) (fun w c' h => ?_) fun e c' h => ?_
        · obtain ⟨d, hw⟩ := h
          obtain rfl := Except.ok.inj hw
          exact (after_pure _ _ _).mpr ⟨d, rfl⟩
        · obtain ⟨d, hw⟩ := h
          cases hw
      · obtain ⟨d, hnext⟩ := h
        obtain rfl := Except.ok.inj hnext
        exact (after_pure _ _ _).mpr ((after_pure _ _ _).mpr rfl)
      · obtain ⟨d, hnext⟩ := h
        cases hnext
  | _ => cases hstage

/-! ## A cancel -/

theorem noteTeamEvent_faults {teamId kind : String} {payload : Json} {sessionId : Option String} :
    After (noteTeamEvent teamId kind payload sessionId) c fun r c' =>
      r = .ok () ∧ c'.store.faults = c.store.faults.tail := by
  simp only [noteTeamEvent, appendTeamEvent, after_bind_iff, after_attempt, after_get, after_modify, after_nowMs,
    after_onStore, after_pure]
  exact ⟨trivial, append_faults _ _⟩

theorem storeCancelled_clear {n : ℕ} {teamId : String} {d : TeamDeliveryRecord}
    (hclear : clear (n + 2) c.store = true) :
    After (storeCancelled teamId d) c fun r c' => r = .ok () ∧ clear n c'.store = true := by
  rw [storeCancelled, after_bind_iff]
  refine (upsertDelivery_clear (clear_one hclear)).mono fun r c' h => ?_
  obtain ⟨rfl, hf⟩ := h
  exact noteTeamEvent_faults.mono fun r c'' h => ⟨h.1, clear_tail (clear_tail hclear hf) h.2⟩

theorem storeCancelleds_clear {teamId : String} (ds : List TeamDeliveryRecord)
    (hclear : clear (2 * ds.length + 1) c.store = true) :
    After (ds.forM (storeCancelled teamId)) c fun r c' => r = .ok () ∧ clear 1 c'.store = true ∧ Silent c c' := by
  induction ds generalizing c with
  | nil => exact (after_pure _ _ _).mpr ⟨rfl, hclear, .refl c⟩
  | cons d ds ih =>
    have hclear' : clear (2 * ds.length + 1 + 2) c.store = true := by
      rw [List.length_cons, show 2 * (ds.length + 1) + 1 = 2 * ds.length + 1 + 2 by omega] at hclear
      exact hclear
    refine after_bind ((storeCancelled_clear hclear').and (silent_storeCancelled d c)) (fun _ c' h => ?_)
      fun e c' h => ?_
    · obtain ⟨⟨-, hrest⟩, hsilent⟩ := h
      exact (ih hrest).mono fun _ _ h => ⟨h.1, h.2.1, hsilent.trans h.2.2⟩
    · cases h.1.1

theorem cancels_some {teamId argument messageId : String} (h : cancels c teamId argument = some messageId) :
    c.config.enabled = true ∧ normalizeNonEmpty argument "message_id" = .ok messageId ∧ ∃ message,
      normalizeNonEmpty teamId "team_id" = .ok message.teamId ∧ c.state.messages.lookup messageId = some message ∧
        ∀ d ∈ messageDeliveries c.state messageId, isQueued d.status = true := by
  unfold cancels at h
  split at h
  · next henabled =>
    split at h
    · next team id hteam hid =>
      split at h
      · next message found =>
        split at h
        · next haccepted =>
          obtain rfl := Option.some.inj h
          rw [Bool.and_eq_true, decide_eq_true_eq, List.all_eq_true] at haccepted
          exact ⟨henabled, hid, message, haccepted.1 ▸ hteam, found, haccepted.2⟩
        · cases h
      · cases h
    · cases h
  · cases h

theorem cancelMessage_refused {teamId argument : String} (h : cancels c teamId argument = none) :
    After (cancelMessage teamId argument) c fun _ c' => c' = c := by
  rw [cancelMessage, after_bind_iff, after_ensureEnabled]
  refine ⟨fun henabled => ?_, fun _ => rfl⟩
  dsimp only
  refine after_checked (fun team hteam => ?_) fun _ _ => rfl
  refine after_checked (fun messageId hid => ?_) fun _ _ => rfl
  simp only [after_bind_iff, after_get, after_orThrow]
  refine ⟨fun message found => ?_, fun _ => trivial⟩
  split
  · exact (after_throw _ _ _).mpr rfl
  · next hsame =>
    split
    · exact (after_throw _ _ _).mpr rfl
    · next hnone =>
      have hqueued : (messageDeliveries c.state messageId).all (fun d => isQueued d.status) = true := by
        rw [List.all_eq_true]
        intro d hd
        simpa using List.find?_eq_none.mp hnone d hd
      simp [cancels, henabled, hteam, hid, found, not_not.mp hsame, hqueued] at h

theorem cancelMessage_announced {teamId argument messageId : String} (h : cancels c teamId argument = some messageId)
    (hclear : clear (2 * (messageDeliveries c.state messageId).length + 1) c.store = true) :
    After (cancelMessage teamId argument) c fun _ c' => EventsCounted c → EventsCounted c' ∧
      ∀ other, announcements c'.store other = announcements c.store other + if other = messageId then 1 else 0 := by
  obtain ⟨henabled, hid, message, hteam, found, hqueued⟩ := cancels_some h
  have htells : ∀ other, tells "team_message.completed" (.obj [("message_id", .str messageId)]) other =
      decide (messageId = other) := by
    intro other
    simp [tells, Json.get?, Json.fieldOf]
  have hnone : ((messageDeliveries c.state messageId).find? fun d => !isQueued d.status) = none := by
    rw [List.find?_eq_none]
    intro d hd
    simp [hqueued d hd]
  simp only [cancelMessage, after_bind_iff, after_ensureEnabled, after_ofExcept, hteam, hid, after_get, after_orThrow]
  refine ⟨fun _ => ⟨fun message' found' => ?_, fun hmissing => ?_⟩, fun hdisabled => ?_⟩
  · obtain rfl := Option.some.inj (found.symm.trans found')
    rw [if_neg (not_not.mpr rfl), hnone]
    simp only [after_bind_iff, after_nowMs, after_changeState]
    refine After.mono (storeCancelleds_clear _ ?_) fun r c' h => ?_
    · rw [List.length_map]
      exact hclear
    · obtain ⟨rfl, hrest, hsilent⟩ := h
      have hsilent : Silent c c' := Silent.trans (.of_events rfl rfl rfl) hsilent
      by_cases hc : EventsCounted c
      · obtain ⟨hc', hsame⟩ := hsilent hc
        refine (noteTeamEvent_log hc').elim (fun _ c'' h => (after_pure _ _ _).mpr fun _ => ?_) fun _ c'' h _ => ?_
        · refine ⟨h.1, fun other => ?_⟩
          rw [h.2.2, hsame, htells, hrest]
          simp [eq_comm]
        · refine ⟨h.1, fun other => ?_⟩
          rw [h.2.2, hsame, htells, hrest]
          simp [eq_comm]
      · exact (after_noteTeamEvent fun _ _ => (after_pure _ _ _).mpr fun h => absurd h hc)
  · rw [found] at hmissing
    cases hmissing
  · rw [henabled] at hdisabled
    cases hdisabled

end

end Gooselake.TeamComms
