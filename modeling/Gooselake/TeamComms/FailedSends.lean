import Gooselake.TeamComms.Outcomes
import Gooselake.TeamComms.Sequential
import Gooselake.TeamComms.Service

/-!
A send one of whose store writes fails. The message, its deliveries and its idempotency entry are put
in place before the first write and stay: a later send with the same key is answered with them.
-/

namespace Gooselake.TeamComms

open Gooselake.Core Data Library Library.Exec
open Gooselake.Runtime (Manager)

set_option autoImplicit false

/-! ## Which writes fail -/

def creates (c : Comms) (m : MessageDraft) : Bool :=
  (match ((checkMembers c.state m).result c).1 with
    | .ok _ => true
    | .error _ => false) && (existingAck c.state m).isNone

def writeFails (c : Comms) (m : MessageDraft) : Bool :=
  creates c m && decide (true ∈ c.store.faults.take (m.recipients.length + 1))

/-- A write of the message or of one of its deliveries fails. -/
def SendRequest.writeFails (r : SendRequest) (c : Comms) : Bool :=
  match (r.draft.result c).1 with
  | .ok m => TeamComms.writeFails c m
  | .error _ => false

/-- The call ends in an error and changes nothing in memory. -/
def LeavesNothing (c : Comms) (call : CommsM TeamMessageAck) : Prop :=
  (∃ e, (call.result c).1 = .error e) ∧ (call.result c).2.state = c.state

section

variable {c : Comms}

theorem write_fault (f : Store → Store) (s : Store) :
    ((Store.write f s).1 = if s.faults.headD false then .error Store.writeError else .ok ()) ∧
      (Store.write f s).2.faults = s.faults.tail := by
  unfold Store.write
  cases s.faults with
  | nil => simp
  | cons b rest => cases b <;> simp

theorem after_fault {f : Store → Store} {Q : Except RuntimeError Unit → Comms → Prop}
    (h : ∀ r c', (c.store.faults.headD false = true → ∃ e, r = .error e) → c'.store.faults = c.store.faults.tail →
      Q r c') : After (onStore (Store.write f)) c Q := by
  rw [after_onStore]
  refine h _ _ (fun hf => ?_) (write_fault f c.store).2
  rw [(write_fault f c.store).1, if_pos hf]
  exact ⟨_, rfl⟩

theorem storeDeliveries_fails (ds : List TeamDeliveryRecord) (h : true ∈ c.store.faults.take ds.length) :
    After (ds.forM fun delivery => onStore (Store.upsertTeamDelivery delivery)) c fun r _ => ∃ e, r = .error e := by
  induction ds generalizing c with
  | nil => simp at h
  | cons d ds ih =>
    have hwrite : After (onStore (Store.upsertTeamDelivery d)) c fun r c' =>
        (c.store.faults.headD false = true → ∃ e, r = .error e) ∧ c'.store.faults = c.store.faults.tail :=
      after_fault fun r c' hr hf => ⟨hr, hf⟩
    refine after_bind hwrite (fun _ c' h' => ?_) (fun e _ _ => ⟨e, rfl⟩)
    obtain ⟨hr, hf⟩ := h'
    refine ih ?_
    rw [hf]
    cases hc : c.store.faults with
    | nil => simp [hc] at h
    | cons b rest =>
      simp only [hc, List.length_cons, List.take_succ_cons, List.mem_cons] at h
      rcases h with h | h
      · obtain ⟨e, he⟩ := hr (by rw [hc]; exact h.symm)
        cases he
      · exact h

theorem storeMessage_fails (m : MessageDraft) (message : TeamMessageRecord) (ds : List TeamDeliveryRecord)
    (h : true ∈ c.store.faults.take (ds.length + 1)) :
    After (storeMessage m message ds) c fun r _ => ∃ e, r = .error e := by
  simp only [storeMessage, after_bind_iff]
  refine after_fault fun r c' hr hf => ?_
  cases r with
  | error e => exact ⟨e, rfl⟩
  | ok _ =>
    refine (storeDeliveries_fails ds ?_).elim (fun _ _ h => ?_) (fun e _ _ => ⟨e, rfl⟩)
    · rw [hf]
      cases hc : c.store.faults with
      | nil => simp [hc] at h
      | cons b rest =>
        simp only [hc, List.take_succ_cons, List.mem_cons] at h
        rcases h with h | h
        · obtain ⟨e, he⟩ := hr (by rw [hc]; exact h.symm)
          cases he
        · exact h
    · obtain ⟨e, he⟩ := h
      cases he

/-! ## What a failed write leaves -/

theorem Drafted.length {taken : Table String TeamDeliveryRecord} {message : TeamMessageRecord} {n k : ℕ}
    {rs : List (String × String)} {ds : List TeamDeliveryRecord} (h : Drafted taken message n rs k ds) :
    ds.length = rs.length := by
  induction h with
  | nil => rfl
  | cons _ ih => simp [ih]

theorem addMessage_messages (m : MessageDraft) (message : TeamMessageRecord) (ds : List TeamDeliveryRecord)
    (s : TeamCommsState) : (addMessage m message ds s).messages = s.messages.insert message.id message := by
  unfold addMessage
  generalize hs : ({ s with
    messages := s.messages.insert message.id message
    teamMessageIds := _
    idempotencyIndex := _ } : TeamCommsState) = s'
  have hm : s'.messages = s.messages.insert message.id message := by rw [← hs]
  rw [← hm]
  clear hs hm
  induction ds generalizing s' with
  | nil => rfl
  | cons d ds ih => exact ih _

theorem addMessage_idempotencyIndex (m : MessageDraft) (message : TeamMessageRecord)
    (ds : List TeamDeliveryRecord) (s : TeamCommsState) (key : String) (h : m.idempotencyKey = some key) :
    (addMessage m message ds s).idempotencyIndex =
      s.idempotencyIndex.insert (idempotencyIndexKey m.teamId m.senderAgentId m.scope key) message.id := by
  unfold addMessage
  rw [h]
  generalize hs : ({ s with
    messages := _
    teamMessageIds := _
    idempotencyIndex := s.idempotencyIndex.insert
      (idempotencyIndexKey m.teamId m.senderAgentId m.scope key) message.id } : TeamCommsState) = s'
  have hm : s'.idempotencyIndex = s.idempotencyIndex.insert
    (idempotencyIndexKey m.teamId m.senderAgentId m.scope key) message.id := by rw [← hs]
  rw [← hm]
  clear hs hm
  induction ds generalizing s' with
  | nil => rfl
  | cons d ds ih => exact ih _

/-- The idempotency key of the request leads to the message. -/
def AnswersWith (s : TeamCommsState) (m : MessageDraft) (messageId : String) : Prop :=
  ∃ ack, existingAck s m = some ack ∧ ack.message.id = messageId ∧ ack.disposition = .existing

theorem answersWith_of {s : TeamCommsState} {m : MessageDraft} {message : TeamMessageRecord} {key messageId : String}
    (hkey : m.idempotencyKey = some key) (hid : message.id = messageId)
    (hentry : s.idempotencyIndex.lookup (idempotencyIndexKey m.teamId m.senderAgentId m.scope key) = some messageId)
    (hmessage : s.messages.lookup messageId = some message) : AnswersWith s m messageId := by
  refine ⟨⟨message, ((s.messageDeliveryIds.lookup messageId).getD []).filterMap fun id => s.deliveries.lookup id,
    .existing⟩, ?_, hid, rfl⟩
  simp [existingAck, hkey, hentry, hmessage]

theorem createMessage_fails (m : MessageDraft) (h : writeFails c m = true) :
    After (createMessage m) c fun r c' => (∃ e, r = .error e) ∧
      c'.state.messages.lookup (newMessageId c) = some (m.message (newMessageId c) c.runtime.clock) ∧
      (m.idempotencyKey.isSome → AnswersWith c'.state m (newMessageId c)) := by
  simp only [writeFails, creates, Bool.and_eq_true, decide_eq_true_eq, Option.isNone_iff_eq_none] at h
  obtain ⟨⟨hchecks, hnone⟩, hfault⟩ := h
  rw [createMessage, after_bind_iff, after_get]
  dsimp only
  have hok : After (checkMembers c.state m) c fun r c' => c' = c ∧ ∃ u, r = .ok u := by
    refine (readOnly_checkMembers c.state m).after (Q := fun r _ => ∃ u, r = .ok u) ⟨?_⟩
    split at hchecks
    · next u hu => exact ⟨u, hu⟩
    · cases hchecks
  refine after_bind hok (fun _ c' h => ?_) (fun e _ h => by obtain ⟨-, u, hu⟩ := h; cases hu)
  obtain ⟨rfl, -⟩ := h
  rw [hnone]
  simp only [allocateMessageId, after_bind_iff, after_nowMs, after_get, after_modify, after_pure]
  refine (draftDeliveries_after _ _).elim (fun ds c'' h => ?_) (fun e c'' h => ?_)
  · obtain ⟨k, ds', hr, rfl, hd⟩ := h
    obtain rfl := Except.ok.inj hr
    dsimp only
    rw [after_changeState]
    have hlen := hd.length
    refine ((storeMessage_after m _ ds).and (storeMessage_fails m _ ds ?_)).elim (fun _ _ h => ?_)
      (fun e d h => ⟨⟨e, rfl⟩, ?_, fun hkey => ?_⟩)
    · rw [hlen]
      exact hfault
    · obtain ⟨-, e, he⟩ := h
      cases he
    · rw [h.1.1.state, addMessage_messages, Table.lookup_insert]
      exact if_pos rfl
    · obtain ⟨key, hkey⟩ := Option.isSome_iff_exists.mp hkey
      refine answersWith_of hkey
        (show (m.message (newMessageId c') c'.runtime.clock).id = newMessageId c' from rfl) ?_ ?_
      · rw [h.1.1.state, addMessage_idempotencyIndex _ _ _ _ _ hkey, Table.lookup_insert]
        exact if_pos rfl
      · rw [h.1.1.state, addMessage_messages, Table.lookup_insert]
        exact if_pos rfl
  · obtain ⟨k, ds', hr, -⟩ := h
    cases hr

theorem readOnly_draft (r : SendRequest) : ReadOnly r.draft := by
  refine .bind ?_ fun p => .foldlM _ _ readOnly_admitRecipient
  cases r with
  | direct request => exact readOnly_sendDirectBegin request
  | broadcast request => exact readOnly_broadcastBegin request

theorem send_of_draft {r : SendRequest} {m : MessageDraft} (answers : Answers)
    (hm : (r.draft.result c).1 = .ok m) {Q : Except RuntimeError TeamMessageAck → Comms → Prop}
    (h : After (createMessage m) c fun r c' => (∃ e, r = .error e) ∧ Q r c') : After (send r answers) c Q := by
  rw [send]
  refine after_bind ((readOnly_draft r).after (Q := fun r _ => r = .ok m) ⟨hm⟩) (fun m' c' h' => ?_)
    (fun e c' h' => by cases h'.2)
  obtain ⟨rfl, hm'⟩ := h'
  obtain rfl := Except.ok.inj hm'
  refine after_bind h (fun ack c' h => ?_) fun e c' h => h.2
  obtain ⟨⟨e, he⟩, -⟩ := h
  cases he

end

/-- A send whose message or a delivery of it cannot be written fails, and leaves its message and key in memory. -/
theorem failed_send_leaves_message (c : Comms) (r : SendRequest) (answers : Answers)
    (h : r.writeFails c = true) :
    (∃ e, ((send r answers).result c).1 = .error e) ∧
      (∃ message, ((send r answers).result c).2.state.messages.lookup (newMessageId c) = some message) ∧
      (∀ m, (r.draft.result c).1 = .ok m → m.idempotencyKey.isSome →
        AnswersWith ((send r answers).result c).2.state m (newMessageId c)) ∧
      ¬ LeavesNothing c (send r answers) := by
  unfold SendRequest.writeFails at h
  split at h
  · next m hm =>
    have hsend : After (send r answers) c fun r c' => (∃ e, r = .error e) ∧
        c'.state.messages.lookup (newMessageId c) = some (m.message (newMessageId c) c.runtime.clock) ∧
        (m.idempotencyKey.isSome → AnswersWith c'.state m (newMessageId c)) :=
      send_of_draft answers hm ((createMessage_fails m h).mono fun _ _ h => ⟨h.1, h⟩)
    obtain ⟨herror, hmessage, hanswers⟩ := hsend.out
    refine ⟨herror, ⟨_, hmessage⟩, fun m' hm' => ?_, fun hnothing => ?_⟩
    · obtain rfl := Except.ok.inj (hm.symm.trans hm')
      exact hanswers
    · rw [hnothing.2] at hmessage
      exact nextFree_notMem _ _ _ (AList.mem_keys.mpr (Table.lookup_isSome hmessage))
  · cases h

/-! ## A send that is lost -/

def newSession (sessionId : String) : List Label :=
  [.runtime (.start 0 (.createSession ⟨.codex, none, none, none, none⟩)),
    .runtime (.goOn 0 (.session (.ok ⟨sessionId, "ref", none⟩))), .runtime (.goOn 0 .lock)]

def newTeam : List Label :=
  newSession "sess_codex_0_1" ++ newSession "sess_codex_0_3" ++
    [.start 0 (.createTeam ⟨"team", "sess_codex_0_1", ["sess_codex_0_3"], none⟩)] ++
    List.replicate 4 (.goOn 0 .lock)

def directMessage (key : Option String) : TeamSendDirectRequest :=
  ⟨"team_1", "sess_codex_0_1", "sess_codex_0_3", .arr [.str "hello"], [], "", "non_interrupting", none, none, key⟩

def Service.fresh (faults : List Bool) : Service :=
  Service.start (Comms.new (Manager.empty [.codex] []) (Store.empty faults) ⟨true, 10⟩ "nonce")

def noAnswers : Answers := fun _ =>
  ⟨.ok (), fun _ => .error (.notFound "session"), fun _ => .error (.notFound "session"),
    fun _ => .error (.notFound "session")⟩

theorem failed_send_leaves_message_keyed : ∃ c : Comms, c.state.messages.keys = [] ∧
    ¬ LeavesNothing c (send (.direct (directMessage (some "key"))) noAnswers) := by
  obtain ⟨s, -, hs⟩ := exists_reaches_of_runAll Service.step (fun _ _ => true) newTeam
    (fun s => (s.comms.state.messages.keys, (SendRequest.direct (directMessage (some "key"))).writeFails s.comms))
    ([], true) (s := Service.fresh [false, false, false, false, true]) (by decide +kernel)
  obtain ⟨hkeys, hfails⟩ := Prod.mk.inj hs
  exact ⟨s.comms, hkeys, (failed_send_leaves_message s.comms _ noAnswers hfails).2.2.2⟩

theorem not_failed_send_leaves_nothing : ¬ ∀ (c : Comms) (s : Service),
    Reaches Service.step (fun _ _ => True) (Service.start c) s → ∀ (r : SendRequest) (answers : Answers),
      r.writeFails s.comms = true → LeavesNothing s.comms (send r answers) := by
  intro hall
  obtain ⟨s, hs, he⟩ := exists_reaches_of_runAll Service.step (fun _ _ => true) newTeam
    (fun s => ((SendRequest.direct (directMessage (some "key"))).writeFails s.comms, s.comms.state.messages.keys,
      ((send (.direct (directMessage (some "key"))) noAnswers).result s.comms).2.state.messages.keys))
    (true, [], ["msg_1"]) (s := Service.fresh [false, false, false, false, true]) (by decide +kernel)
  obtain ⟨hfails, he⟩ := Prod.mk.inj he
  obtain ⟨hkeys, hkeys'⟩ := Prod.mk.inj he
  have hstate := (hall _ s (hs.mono fun _ _ _ => trivial) _ noAnswers hfails).2
  rw [hstate, hkeys] at hkeys'
  cases hkeys'

end Gooselake.TeamComms
