import Gooselake.TeamComms.Outcomes
import Gooselake.TeamComms.Sequential
import Gooselake.TeamComms.Service

/-!
What one step of the team service can do. `Begun`, `Staged`, `Ran` and `Moved` list every way a piece of a call
can go: the await it starts from, what it leaves the call at and the data it leaves. Invariants of runs are
proved by cases on them.
-/

namespace Gooselake.TeamComms

open Gooselake.Core Data Library Library.Exec

set_option autoImplicit false

/-! ## A run of inject_delivery -/

/-- What a piece of a run at a stage can do; `trigger` is what the run was started by. -/
inductive Staged (c : Comms) (deliveryId : String) (trigger : DeliveryAttemptTrigger) :
    Stage → Except RuntimeError (Stage ⊕ TeamDeliveryRecord) → Comms → Prop where
  | missing {e : RuntimeError} : Staged c deliveryId trigger .snapshot (.error e) c
  | queued {d : TeamDeliveryRecord} {m : TeamMessageRecord} (found : c.state.deliveries.lookup deliveryId = some d)
      (message : c.state.messages.lookup d.messageId = some m) (status : isQueued d.status = true) :
      Staged c deliveryId trigger .snapshot (.ok (.inl (.blocker d m))) c
  | unqueued {d : TeamDeliveryRecord} (found : c.state.deliveries.lookup deliveryId = some d)
      (status : isQueued d.status = false) : Staged c deliveryId trigger .snapshot (.ok (.inr d)) c
  | blocked {d : TeamDeliveryRecord} {m : TeamMessageRecord} (status : d.status = .pending)
      (blocker : (findRecipientQueueBlocker c.state d).isSome = true) :
      Staged c deliveryId trigger (.blocker d m) (.ok (.inl (.transition (.to d .deferred) .finish))) c
  | stillBlocked {d : TeamDeliveryRecord} {m : TeamMessageRecord} (status : d.status ≠ .pending)
      (blocker : (findRecipientQueueBlocker c.state d).isSome = true) :
      Staged c deliveryId trigger (.blocker d m) (.ok (.inr d)) c
  | unpoliced {d : TeamDeliveryRecord} {m : TeamMessageRecord} {e : RuntimeError}
      (blocker : findRecipientQueueBlocker c.state d = none) :
      Staged c deliveryId trigger (.blocker d m) (.error e) c
  | cleared {d : TeamDeliveryRecord} {m : TeamMessageRecord} {policy : DeliveryPolicy}
      (blocker : findRecipientQueueBlocker c.state d = none) (policed : deliveryPolicy d m = .ok policy) :
      Staged c deliveryId trigger (.blocker d m) (.ok (.inl (.lookup d m policy))) c
  | changes {d : TeamDeliveryRecord} {m : TeamMessageRecord} {policy : DeliveryPolicy} {x : Change}
      {found : Except RuntimeError SessionRecord} (plan : planDelivery d policy trigger found = .change x) :
      Staged c deliveryId trigger (.lookup d m policy) (.ok (.inl (.transition x .finish))) c
  | interrupts {d : TeamDeliveryRecord} {m : TeamMessageRecord} {policy : DeliveryPolicy} {session : SessionRecord}
      {turnId : String} (found : c.runtime.sessions.lookup d.recipientAgentId = some session)
      (plan : planDelivery d policy trigger (.ok session) = .interrupt session turnId) :
      Staged c deliveryId trigger (.lookup d m policy)
        (.ok (.inl (.interrupting d m policy session (.begin (.interruptTurn session.id turnId))))) c
  | injects {d : TeamDeliveryRecord} {m : TeamMessageRecord} {policy : DeliveryPolicy} {session : SessionRecord}
      (found : c.runtime.sessions.lookup d.recipientAgentId = some session)
      (plan : planDelivery d policy trigger (.ok session) = .inject session) :
      Staged c deliveryId trigger (.lookup d m policy) (.ok (.inl (.inject d m session))) c
  | interrupting {d : TeamDeliveryRecord} {m : TeamMessageRecord} {policy : DeliveryPolicy} {session : SessionRecord}
      {call : RuntimeCall} {next : Runtime.Call} {runtime : Runtime.Manager} :
      Staged c deliveryId trigger (.interrupting d m policy session call)
        (.ok (.inl (.interrupting d m policy session (.await next)))) { c with runtime := runtime }
  | interrupted {d : TeamDeliveryRecord} {m : TeamMessageRecord} {policy : DeliveryPolicy} {session : SessionRecord}
      {call : RuntimeCall} {runtime : Runtime.Manager} :
      Staged c deliveryId trigger (.interrupting d m policy session call) (.ok (.inl (.inject d m session)))
        { c with runtime := runtime }
  | uninterrupted {d : TeamDeliveryRecord} {m : TeamMessageRecord} {policy : DeliveryPolicy} {session : SessionRecord}
      {call : RuntimeCall} {e : RuntimeError} {runtime : Runtime.Manager} :
      Staged c deliveryId trigger (.interrupting d m policy session call) (.error e) { c with runtime := runtime }
  | failed {x : Change} {k : Then} {e : RuntimeError} {c' : Comms} (wrote : Transitioned c x (.error e) c') :
      Staged c deliveryId trigger (.transition x k) (.error e) c'
  | unchanged {x : Change} {k : Then} {d : TeamDeliveryRecord} {c' : Comms}
      (wrote : Transitioned c x (.ok (.unchanged d)) c') :
      Staged c deliveryId trigger (.transition x k) (.ok (k.next d)) c'
  | changed {x : Change} {k : Then} {d : TeamDeliveryRecord} {c' : Comms}
      (wrote : Transitioned c x (.ok (.changed d)) c') :
      Staged c deliveryId trigger (.transition x k) (.ok (.inl (.completing x d k))) c'
  | completed {x : Change} {k : Then} {d : TeamDeliveryRecord} {c' : Comms} (quiet : Sets Write.isEvent c c' c.state) :
      Staged c deliveryId trigger (.completing x d k) (.ok (k.next d)) c'
  | sending {d : TeamDeliveryRecord} {call : RuntimeCall} {next : Runtime.Call} {runtime : Runtime.Manager} :
      Staged c deliveryId trigger (.sending d call) (.ok (.inl (.sending d (.await next))))
        { c with runtime := runtime }
  | sent {d : TeamDeliveryRecord} {call : RuntimeCall} {runtime : Runtime.Manager} :
      Staged c deliveryId trigger (.sending d call)
        (.ok (.inl (.transition (injectedChange d) (.recordTurn ((sentTurnId call).getD "")))))
          { c with runtime := runtime }
  | rejected {d : TeamDeliveryRecord} {call : RuntimeCall} {e : RuntimeError} {runtime : Runtime.Manager} :
      Staged c deliveryId trigger (.sending d call) (.ok (.inl (.transition (rejectedChange d e) .finish)))
        { c with runtime := runtime }
  | unrecorded {d : TeamDeliveryRecord} {turnId : String} (found : c.state.deliveries.lookup d.id = none) :
      Staged c deliveryId trigger (.recordTurn d turnId) (.ok (.inr d)) c
  | recorded {d stored : TeamDeliveryRecord} {turnId : String} {c' : Comms}
      (found : c.state.deliveries.lookup d.id = some stored)
      (sets : Sets (Write.delivers (· = withTurn turnId c.runtime.clock stored)) c c' { c.state with
        deliveries := c.state.deliveries.insert d.id (withTurn turnId c.runtime.clock stored) }) :
      Staged c deliveryId trigger (.recordTurn d turnId) (.ok (.inr d)) c'

def Inject.onward (r : Inject) (recipient : String) : Stage ⊕ TeamDeliveryRecord → Inject ⊕ TeamDeliveryRecord
  | .inl stage => .inl { r with point := .holding recipient stage }
  | .inr delivery => .inr delivery

inductive Ran (c : Comms) (r : Inject) : Except RuntimeError (Inject ⊕ TeamDeliveryRecord) → Comms → Prop where
  | missing {e : RuntimeError} (point : r.point = .start) : Ran c r (.error e) c
  | waits {d : TeamDeliveryRecord} (point : r.point = .start)
      (found : c.state.deliveries.lookup r.deliveryId = some d) :
      Ran c r (.ok (.inl { r with point := .waiting d.recipientAgentId })) c
  | holds {recipient : String} (point : r.point = .waiting recipient) :
      Ran c r (.ok (.inl { r with point := .holding recipient .snapshot })) c
  | goes {recipient : String} {stage : Stage} {result : Except RuntimeError (Stage ⊕ TeamDeliveryRecord)} {c' : Comms}
      (point : r.point = .holding recipient stage) (staged : Staged c r.deliveryId r.trigger stage result c') :
      Ran c r (result.map (r.onward recipient)) c'

/-! ## The other calls -/

def SendRequest.operation : SendRequest → Operation
  | .direct request => .sendDirect request
  | .broadcast request => .broadcast request

inductive Admits (m : MessageDraft) : MessageDraft → Prop where
  | again : Admits m m
  | added {recipient provider : String} (new : recipient ∉ m.recipients.map Prod.fst) :
      Admits m { m with recipients := m.recipients ++ [(recipient, provider)] }

/-- Where a send goes with what `create_message_and_deliveries` returned. -/
def afterAck : Except RuntimeError TeamMessageAck → Option TeamCall
  | .ok ⟨_, deliveries, .created⟩ => startInject .queue .queue (deliveries.map TeamDeliveryRecord.id)
  | .ok ⟨_, _, .existing⟩ | .error _ => none

inductive Begun (c : Comms) : Operation → Option TeamCall → Comms → Prop where
  | refused {op : Operation} : Begun c op none c
  | creates {request : TeamCreateRequest} {d : TeamDraft} :
      Begun c (.createTeam request) (some (.createCheck d d.leadAgentId d.memberAgentIds)) c
  | joins {request r : TeamJoinRequest} : Begun c (.joinTeam request) (some (.joinCheck r)) c
  | reteams {op : Operation} {c' : Comms} (reteamed : Reteamed c c') : Begun c op none c'
  | deletes {argument : String} {r : Except RuntimeError Unit} {c' : Comms} (deleted : TeamDeleted c argument r c') :
      Begun c (.deleteTeam argument) none c'
  | sends {r : SendRequest} {m : MessageDraft} {todo : List String} (drafted : (r.begin.result c).1 = .ok (m, todo)) :
      Begun c r.operation (some (nextAdmit m todo)) c
  | retries {teamId argument : String} {r : Except RuntimeError String} {c' : Comms}
      (retried : DeliveryRetried c teamId argument r c') :
      Begun c (.retryDelivery teamId argument) (r.toOption.map fun id => .inject ⟨id, .retry, .start⟩ .retry) c'
  | cancels {teamId argument : String} {r : Except RuntimeError (List TeamDeliveryRecord)} {c' : Comms}
      (cancelled : MessageCancelled c argument r c') : Begun c (.cancelMessage teamId argument) none c'
  | resumes {recipient : String} : Begun c (.resumeDeferredForRecipient recipient)
      (startInject .turnCompletedBoundary .replay (deferredFor c.state recipient)) c
  | recovers : Begun c .recoverStartupDeferredDeliveries (nextRecipient 0 c.state.recipientDeliveryIds.keys) c

inductive Moved (c : Comms) : TeamCall → Option TeamCall → Comms → Prop where
  | stopped {call : TeamCall} (was : call.run = none) : Moved c call none c
  | checked {d : TeamDraft} {member : String} {todo : List String} :
      Moved c (.createCheck d member todo) (some (nextCheck d todo)) c
  | created {d : TeamDraft} {after : Option TeamCall} {c' : Comms}
      (sets : Sets (Write.changesTeam (d.team (newTeamId c)))
        { c with nextTeamId := nextFree "team" c.state.teams c.nextTeamId + 1 } c' (withTeam d (newTeamId c) c.state))
      (store : c'.store = (Store.upsertTeam (d.team (newTeamId c)) c.store).2)
      (next : after = none ∨ after = some (.createMembers (d.team (newTeamId c)))) : Moved c (.createWrite d) after c'
  | membersStored {team : TeamRecord} {c' : Comms} (sets : Sets Write.storesMembers c c' c.state) :
      Moved c (.createMembers team) none c'
  | joinChecked {r : TeamJoinRequest} : Moved c (.joinCheck r) (some (.joinWrite r)) c
  | joined {r : TeamJoinRequest} {c' : Comms} (reteamed : Reteamed c c') : Moved c (.joinWrite r) none c'
  | admitted {m m' : MessageDraft} {recipient : String} {todo : List String} (admits : Admits m m') :
      Moved c (.admitting m recipient todo) (some (nextAdmit m' todo)) c
  | sent {m : MessageDraft} {r : Except RuntimeError TeamMessageAck} {c' : Comms}
      (result : (createMessage m).result c = (r, c')) (created : MessageCreated c m r c') :
      Moved c (.create m) (afterAck r) c'
  | ran {r : Inject} {k : Frame} {result : Except RuntimeError (Inject ⊕ TeamDeliveryRecord)} {c' : Comms}
      (ran : Ran c r result c') : Moved c (.inject r k) (k.after result) c'
  | idle {recipient : String} {recipients : List String} {retried : ℕ} :
      Moved c (.recoverSession recipient recipients retried) (some (.recoverDeferred recipient recipients retried)) c
  | passedBy {recipient : String} {recipients : List String} {retried : ℕ} :
      Moved c (.recoverSession recipient recipients retried) (nextRecipient retried recipients) c
  | recovers {recipient : String} {recipients : List String} {retried : ℕ} :
      Moved c (.recoverDeferred recipient recipients retried)
        (nextDeferred recipients retried (deferredFor c.state recipient)) c

/-! ## The pieces -/

section

variable {c : Comms} {α : Type}

theorem after_then {x : CommsM α} {f : α → Option TeamCall} {Q : Except RuntimeError α → Comms → Prop}
    {R : Option TeamCall → Comms → Prop} (hx : After x c Q) (hok : ∀ a c', Q (.ok a) c' → R (f a) c')
    (herr : ∀ e c', Q (.error e) c' → R none c') :
    After (do let a ← x; return f a) c fun r c' => R (Service.left r) c' :=
  after_bind hx (fun a c' h => (after_pure _ _ _).mpr (hok a c' h)) (fun e c' h => herr e c' h)

theorem readOnly_then {x : CommsM α} (hx : ReadOnly x) {f : α → Option TeamCall} {R : Option TeamCall → Comms → Prop}
    (hok : ∀ a, (x.result c).1 = .ok a → R (f a) c) (herr : R none c) :
    After (do let a ← x; return f a) c fun r c' => R (Service.left r) c' := by
  refine after_then (hx.after (Q := fun r _ => (x.result c).1 = r) ⟨rfl⟩) (fun a c' h => ?_) fun e c' h => ?_
  · obtain ⟨rfl, hr⟩ := h
    exact hok a hr
  · obtain ⟨rfl, -⟩ := h
    exact herr

theorem begin_moved (op : Operation) : After op.begin c fun r c' => Begun c op (Service.left r) c' := by
  cases op with
  | createTeam request =>
    exact readOnly_then (readOnly_createTeamBegin request) (fun d _ => .creates) .refused
  | joinTeam request => exact readOnly_then (readOnly_joinTeamBegin request) (fun r _ => .joins) .refused
  | removeTeamMember teamId agentId =>
    exact after_then (removeTeamMember_after teamId agentId) (fun _ _ h => .reteams h) fun _ _ h => .reteams h
  | setTeamLead teamId leadAgentId =>
    exact after_then (setTeamLead_after teamId leadAgentId) (fun _ _ h => .reteams h) fun _ _ h => .reteams h
  | deleteTeam teamId => exact after_then (deleteTeam_after teamId) (fun _ _ h => .deletes h) fun _ _ h => .deletes h
  | sendDirect request =>
    exact readOnly_then (readOnly_sendDirectBegin request) (fun p h => .sends (r := .direct request) h) .refused
  | broadcast request =>
    exact readOnly_then (readOnly_broadcastBegin request) (fun p h => .sends (r := .broadcast request) h) .refused
  | retryDelivery teamId deliveryId =>
    exact after_then (retryWrite_after teamId deliveryId) (fun _ _ h => .retries h) fun _ _ h => .retries h
  | cancelMessage teamId messageId =>
    exact after_then (cancelMessage_after teamId messageId) (fun _ _ h => .cancels h) fun _ _ h => .cancels h
  | resumeDeferredForRecipient recipient => exact (after_bind_iff _ _ _ _).mpr ⟨⟨.resumes⟩⟩
  | recoverStartupDeferredDeliveries =>
    exact readOnly_ensureEnabled.after_bind (fun _ => (after_bind_iff _ _ _ _).mpr ⟨⟨.recovers⟩⟩) fun _ => .refused

theorem planDelivery_session {d : TeamDeliveryRecord} {policy : DeliveryPolicy} {trigger : DeliveryAttemptTrigger}
    {session session' : SessionRecord}
    (h : (∃ turnId, planDelivery d policy trigger (.ok session) = .interrupt session' turnId) ∨
      planDelivery d policy trigger (.ok session) = .inject session') : session' = session := by
  unfold planDelivery at h
  grind

theorem stage_staged {deliveryId : String} {trigger : DeliveryAttemptTrigger} {stage : Stage}
    {answer : Runtime.Answer} {piece : CommsM (Stage ⊕ TeamDeliveryRecord)}
    (hp : stage.goOn deliveryId trigger answer = some piece) :
    After piece c fun r c' => Staged c deliveryId trigger stage r c' := by
  cases stage with
  | snapshot =>
    cases answer <;> try cases hp
    refine after_bind (injectSnapshot_after deliveryId) (fun p c' h => ?_) fun e c' h => ?_
    · obtain ⟨rfl, hp⟩ := h
      obtain ⟨hd, hm⟩ := hp p rfl
      obtain ⟨d, m⟩ := p
      dsimp only
      split
      · next hq => exact (after_pure _ _ _).mpr (.queued hd hm hq)
      · next hq => exact (after_pure _ _ _).mpr (.unqueued hd (by simpa using hq))
    · obtain ⟨rfl, -⟩ := h
      exact .missing
  | blocker d m =>
    cases answer <;> try cases hp
    rw [after_bind_iff, after_get]
    dsimp only
    split
    · next hblocker =>
      split
      · next hpending => exact (after_pure _ _ _).mpr (.blocked hpending hblocker)
      · next hpending => exact (after_pure _ _ _).mpr (.stillBlocked hpending hblocker)
    · next hblocker =>
      have hblocker : findRecipientQueueBlocker c.state d = none := by simpa using hblocker
      rw [after_bind_iff, after_ofExcept]
      cases hpolicy : deliveryPolicy d m with
      | error e => exact .unpoliced hblocker
      | ok policy => exact (after_pure _ _ _).mpr (.cleared hblocker hpolicy)
  | lookup d m policy =>
    cases answer <;> try cases hp
    rw [after_bind_iff, after_attempt, after_onRuntime, Runtime.after_getSession]
    refine ⟨fun session hs => ?_, fun _ => ?_⟩
    · dsimp only
      cases hplan : planDelivery d policy trigger (.ok session) with
      | change x => exact (after_pure _ _ _).mpr (.changes hplan)
      | interrupt session' turnId =>
        obtain rfl := planDelivery_session (.inl ⟨turnId, hplan⟩)
        exact (after_pure _ _ _).mpr (.interrupts hs hplan)
      | inject session' =>
        obtain rfl := planDelivery_session (.inr hplan)
        exact (after_pure _ _ _).mpr (.injects hs hplan)
    · exact (after_pure _ _ _).mpr (.changes (show planDelivery d policy trigger (.error _) = _ from rfl))
  | interrupting d m policy session call =>
    obtain ⟨runtime, -, rfl⟩ := Option.map_eq_some_iff.mp hp
    rw [after_bind_iff, after_attempt, after_onRuntime]
    refine ⟨?_⟩
    rcases (runtime.result c.runtime).1 with e | (_ | next)
    · exact (after_throw _ _ _).mpr .uninterrupted
    · exact (after_pure _ _ _).mpr .interrupted
    · exact (after_pure _ _ _).mpr .interrupting
  | transition x k =>
    cases answer <;> try cases hp
    refine after_bind (transitionWrite_after trigger x) (fun w c' h => ?_) fun e c' h => .failed h
    cases w with
    | unchanged d => exact (after_pure _ _ _).mpr (.unchanged h)
    | changed d => exact (after_pure _ _ _).mpr (.changed h)
  | completing x d k =>
    cases answer <;> try cases hp
    refine after_bind (transitionFinish_after x) (fun _ c' h => (after_pure _ _ _).mpr (.completed h.2))
      fun e c' h => ?_
    cases h.1
  | sending d call =>
    obtain ⟨runtime, -, rfl⟩ := Option.map_eq_some_iff.mp hp
    rw [after_bind_iff, after_attempt, after_onRuntime]
    refine ⟨?_⟩
    rcases (runtime.result c.runtime).1 with e | (_ | next)
    · exact (after_pure _ _ _).mpr .rejected
    · exact (after_pure _ _ _).mpr .sent
    · exact (after_pure _ _ _).mpr .sending
  | recordTurn d turnId =>
    cases answer <;> try cases hp
    rw [after_bind_iff, after_attempt]
    refine (transitionDeliveryWithTurnId_after d.id turnId).mono fun r c' h => (after_pure _ _ _).mpr ?_
    rcases h with ⟨hnone, rfl, -⟩ | ⟨stored, hfound, sets⟩
    · exact .unrecorded hnone
    · exact .recorded hfound sets

theorem inject_ran {r : Inject} {answer : Runtime.Answer} {piece : CommsM (Inject ⊕ TeamDeliveryRecord)}
    (hp : r.goOn answer = some piece) : After piece c fun result c' => Ran c r result c' := by
  obtain ⟨deliveryId, trigger, point⟩ := r
  cases point with
  | start =>
    cases answer <;> try cases hp
    refine after_bind (injectRecipient_after deliveryId) (fun recipient c' h => ?_) fun e c' h => ?_
    · obtain ⟨rfl, hd⟩ := h
      obtain ⟨d, hfound, rfl⟩ := hd recipient rfl
      exact (after_pure _ _ _).mpr (.waits rfl hfound)
    · obtain ⟨rfl, -⟩ := h
      exact .missing rfl
  | waiting recipient =>
    cases answer <;> try cases hp
    exact (after_pure _ _ _).mpr (.holds rfl)
  | holding recipient stage =>
    obtain ⟨stagePiece, hstage, rfl⟩ := Option.map_eq_some_iff.mp hp
    refine after_bind (stage_staged hstage) (fun next c' h => ?_) fun e c' h => ?_
    · cases next with
      | inl stage' => exact (after_pure _ _ _).mpr (Ran.goes rfl h)
      | inr d => exact (after_pure _ _ _).mpr (Ran.goes rfl h)
    · exact Ran.goes rfl h

theorem admitRecipient_admits (m : MessageDraft) (recipient : String) :
    After (admitRecipient m recipient) c fun r _ => ∀ m', r = .ok m' → Admits m m' := by
  rw [admitRecipient, after_bind_iff, after_ofExcept]
  cases normalizeNonEmpty recipient "recipient_agent_id" with
  | error e => exact fun _ h => by cases h
  | ok recipient =>
    dsimp only
    split
    · refine (after_pure _ _ _).mpr fun m' h => ?_
      obtain rfl := Except.ok.inj h
      exact .again
    · next hnew =>
      refine after_bind (requireSessionActive_after recipient) (fun session c' _ => ?_) fun _ _ _ _ h => by cases h
      refine (after_pure _ _ _).mpr fun m' h => ?_
      obtain rfl := Except.ok.inj h
      exact .added hnew

theorem goOn_moved {call : TeamCall} {answer : Runtime.Answer} {piece : CommsM (Option TeamCall)}
    (hp : call.goOn answer = some piece) : After piece c fun r c' => Moved c call (Service.left r) c' := by
  cases call with
  | createCheck d member todo =>
    cases answer <;> try cases hp
    exact readOnly_then (readOnly_requireSessionActive member) (fun _ _ => .checked) (.stopped rfl)
  | createWrite d =>
    cases answer <;> try cases hp
    have hstore : After (createTeamWrite d) c fun _ c' =>
        c'.store = (Store.upsertTeam (d.team (newTeamId c)) c.store).2 := by
      simp only [createTeamWrite, allocateTeamId, after_bind_iff, after_get, after_modify, after_pure,
        after_changeState,
        after_onStore]
      split <;> rfl
    refine after_then ((createTeamWrite_after d).and hstore) (fun team c' h => ?_) fun e c' h => ?_
    · obtain rfl := h.1.2 team rfl
      exact .created h.1.1 h.2 (.inr rfl)
    · exact .created h.1.1 h.2 (.inl rfl)
  | createMembers team =>
    cases answer <;> try cases hp
    exact after_then (createTeamMembers_after team) (fun _ _ h => .membersStored h) fun _ _ h => .membersStored h
  | joinCheck r =>
    cases answer <;> try cases hp
    exact readOnly_then (readOnly_requireSessionActive r.agentId) (fun _ _ => .joinChecked) (.stopped rfl)
  | joinWrite r =>
    cases answer <;> try cases hp
    exact after_then (joinTeamWrite_after r) (fun _ _ h => .joined h) fun _ _ h => .joined h
  | admitting m recipient todo =>
    cases answer <;> try cases hp
    refine readOnly_then (readOnly_admitRecipient m recipient) (fun m' h => ?_) (.stopped rfl)
    exact .admitted ((admitRecipient_admits (c := c) m recipient).out m' h)
  | create m =>
    cases answer <;> try cases hp
    have hresult : After (createMessage m) c fun r c' => (createMessage m).result c = (r, c') := ⟨rfl⟩
    refine after_bind (hresult.and (createMessage_after m)) (fun ack c' h => ?_) fun e c' h => .sent h.1 h.2
    obtain ⟨message, deliveries, disposition⟩ := ack
    cases disposition with
    | created => exact (after_pure _ _ _).mpr (.sent h.1 h.2)
    | existing => exact (after_pure _ _ _).mpr (.sent h.1 h.2)
  | inject r k =>
    obtain ⟨run, hrun, rfl⟩ := Option.map_eq_some_iff.mp hp
    rw [after_bind_iff, after_attempt]
    exact (inject_ran hrun).mono fun _ _ h => (after_pure _ _ _).mpr (.ran h)
  | recoverSession recipient recipients retried =>
    cases answer <;> try cases hp
    rw [after_bind_iff, after_attempt, after_onRuntime, Runtime.after_getSession]
    refine ⟨fun session _ => ?_, fun _ => (after_pure _ _ _).mpr .passedBy⟩
    dsimp only
    split
    · exact (after_pure _ _ _).mpr .idle
    · exact (after_pure _ _ _).mpr .passedBy
  | recoverDeferred recipient recipients retried =>
    cases answer <;> try cases hp
    rw [after_bind_iff, after_get]
    exact (after_pure _ _ _).mpr .recovers

end

/-! ## Steps -/

theorem lookup_put (calls : Table ℕ TeamCall) (i j : ℕ) (after : Option TeamCall) :
    (Service.put calls i after).lookup j = if j = i then after else calls.lookup j := by
  cases after with
  | none => exact Table.lookup_erase _ _ _
  | some call => exact Table.lookup_insert _ _ _ _

inductive Stepped (s : Service) : Label → Service → Prop where
  | runtime {l : Runtime.Label} {t : Runtime.Server} (served : s.server.step l = some t) :
      Stepped s (.runtime l) { s with comms := { s.comms with runtime := t.manager }, runtimeCalls := t.calls }
  | begun {i : ℕ} {op : Operation} {after : Option TeamCall} {c' : Comms} (free : s.calls.lookup i = none)
      (begun : Begun s.comms op after c') :
      Stepped s (.start i op) { s with comms := c', calls := Service.put s.calls i after }
  | moved {i : ℕ} {answer : Runtime.Answer} {call : TeamCall} {after : Option TeamCall} {c' : Comms}
      (found : s.calls.lookup i = some call) (unblocked : call.run.any s.blocked = false)
      (moved : Moved s.comms call after c') :
      Stepped s (.goOn i answer) { s with comms := c', calls := Service.put s.calls i after }

theorem step_stepped {s s' : Service} {l : Label} (hs : Service.step l s = some s') : Stepped s l s' := by
  cases l with
  | runtime l =>
    obtain ⟨t, ht, hs⟩ := Option.bind_eq_some_iff.mp hs
    obtain rfl := Option.some.inj hs
    exact .runtime ht
  | start i op =>
    simp only [Service.step] at hs
    split at hs
    · cases hs
    · next hfree =>
      obtain rfl := Option.some.inj hs
      exact .begun (AList.lookup_eq_none.mpr hfree) (begin_moved op).out
  | goOn i answer =>
    obtain ⟨call, hcall, hs⟩ := Option.bind_eq_some_iff.mp hs
    obtain ⟨piece, hpiece, hs⟩ := Option.bind_eq_some_iff.mp hs
    simp only [Option.ite_none_left_eq_some, Bool.not_eq_true, Option.some.injEq] at hs
    obtain ⟨hfree, rfl⟩ := hs
    exact .moved hcall hfree (goOn_moved hpiece).out

end Gooselake.TeamComms
