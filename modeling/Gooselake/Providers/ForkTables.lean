import Gooselake.Providers.HardFork

/-!
What the turns of a session leave in its tables: under the id of a turn its prompts and assistant messages, as far as
the turn's loop saw them, and nothing else.
-/

namespace Gooselake.Providers.HardFork

open Gooselake.Core Data Library BridgeClient

set_option autoImplicit false

/-! ## Turns and their messages -/

namespace TurnMessage

def isPrompt (m : TurnMessage) : Bool := isSdkSessionHistoryUserPromptMessage m.toSdkSessionMessage

def isAnswer (m : TurnMessage) : Bool := m.type = .assistant

def isRecordedPrompt (m : TurnMessage) : Bool := m.seen && m.isPrompt

def isRecordedAnswer (m : TurnMessage) : Bool := m.seen && m.isAnswer

end TurnMessage

namespace StoredTurn

def prompts (t : StoredTurn) : List String := (t.messages.filter TurnMessage.isRecordedPrompt).map (·.uuid)

def answers (t : StoredTurn) : List String := (t.messages.filter TurnMessage.isRecordedAnswer).map (·.uuid)

def beforePrompt (t : StoredTurn) : List TurnMessage := t.messages.takeWhile fun m => !m.isRecordedPrompt

end StoredTurn

def uuids (messages : List SdkSessionMessage) : List String := messages.map (·.uuid)

/-- Turns and ids as the runtime and the SDK make them: no two are the same and none is empty. -/
structure WellStored (turns : List StoredTurn) : Prop where
  ids : (turns.map StoredTurn.id).Nodup
  named : ∀ t ∈ turns, t.id ≠ ""
  uuids : (uuids (historyOf turns)).Nodup
  trimmed : ∀ m ∈ historyOf turns, jsTrim m.uuid = m.uuid ∧ m.uuid ≠ ""
  apart : ∀ m ∈ historyOf turns, ∀ t ∈ turns, m.uuid ≠ t.id

/-! ## What the turns leave in the tables -/

def logOf (turns : List StoredTurn) : List (String × TurnMessage) :=
  turns.flatMap fun t => t.messages.map (Prod.mk t.id)

/-- The ids of the messages of a turn that meet `q`. -/
def recordedOf (q : TurnMessage → Bool) (log : List (String × TurnMessage)) (turnId : String) : List String :=
  (log.filter fun e => decide (e.1 = turnId) && q e.2).map (·.2.uuid)

structure Records (s : ForkSession) (log : List (String × TurnMessage)) : Prop where
  boundary : ∀ id, s.turnRollbackBoundaryIds.lookup id = (recordedOf TurnMessage.isRecordedPrompt log id).head?
  users : ∀ id, (s.turnUserMessageIds.lookup id).getD [] = recordedOf TurnMessage.isRecordedPrompt log id
  assistants : ∀ id, (s.turnAssistantMessageIds.lookup id).getD [] = recordedOf TurnMessage.isRecordedAnswer log id
  turnOf : ∀ u id, s.userMessageTurnIds.lookup u = some id ↔ u ∈ recordedOf TurnMessage.isRecordedPrompt log id

section

variable {s : ForkSession} {log : List (String × TurnMessage)} {turnId : String} {m : TurnMessage}
  {q : TurnMessage → Bool}

theorem recordedOf_concat (q : TurnMessage → Bool) (log : List (String × TurnMessage)) (turnId : String)
    (m : TurnMessage) (id : String) : recordedOf q (log ++ [(turnId, m)]) id =
      recordedOf q log id ++ if turnId = id ∧ q m = true then [m.uuid] else [] := by
  rw [recordedOf, List.filter_append, List.map_append]
  congr 1
  by_cases hid : turnId = id <;> cases hq : q m <;> simp [hid, hq]

theorem recordedOf_of_not (hq : q m = false) (id : String) :
    recordedOf q (log ++ [(turnId, m)]) id = recordedOf q log id := by
  rw [recordedOf_concat, if_neg (by simp [hq]), List.append_nil]

theorem mem_log_of_recorded {id u : String} (h : u ∈ recordedOf q log id) : u ∈ log.map (·.2.uuid) := by
  obtain ⟨e, he, rfl⟩ := List.mem_map.mp h
  exact List.mem_map.mpr ⟨e, List.mem_of_mem_filter he, rfl⟩

theorem Records.same (h : Records s log) (hprompt : m.isRecordedPrompt = false)
    (hanswer : m.isRecordedAnswer = false) : Records s (log ++ [(turnId, m)]) := by
  constructor
  · simpa only [recordedOf_of_not hprompt] using h.boundary
  · simpa only [recordedOf_of_not hprompt] using h.users
  · simpa only [recordedOf_of_not hanswer] using h.assistants
  · simpa only [recordedOf_of_not hprompt] using h.turnOf

theorem Records.answer (h : Records s log) (hfresh : m.uuid ∉ log.map (·.2.uuid)) (htrim : jsTrim m.uuid = m.uuid)
    (hne : m.uuid ≠ "") (hprompt : m.isRecordedPrompt = false) (hanswer : m.isRecordedAnswer = true) :
    Records (s.recordTurnAssistantMessageUuid turnId m.uuid) (log ++ [(turnId, m)]) := by
  have hnew : m.uuid ∉ (s.turnAssistantMessageIds.lookup turnId).getD [] := by
    rw [h.assistants]
    exact fun hmem => hfresh (mem_log_of_recorded hmem)
  have hrecord : s.recordTurnAssistantMessageUuid turnId m.uuid =
      { s with
        turnAssistantMessageIds := s.turnAssistantMessageIds.insert turnId
          ((s.turnAssistantMessageIds.lookup turnId).getD [] ++ [m.uuid]) } := by
    simp only [ForkSession.recordTurnAssistantMessageUuid, htrim, hne, hnew, if_false]
  rw [hrecord]
  constructor
  · simpa only [recordedOf_of_not hprompt] using h.boundary
  · simpa only [recordedOf_of_not hprompt] using h.users
  · intro id
    rw [recordedOf_concat, Table.lookup_insert]
    by_cases hid : turnId = id
    · subst hid
      rw [if_pos rfl, if_pos ⟨rfl, hanswer⟩, Option.getD_some, h.assistants]
    · rw [if_neg (Ne.symm hid), if_neg fun hc => hid hc.1, List.append_nil]
      exact h.assistants id
  · simpa only [recordedOf_of_not hprompt] using h.turnOf

theorem Records.prompt (h : Records s log) (hfresh : m.uuid ∉ log.map (·.2.uuid)) (htrim : jsTrim m.uuid = m.uuid)
    (hne : m.uuid ≠ "") (hprompt : m.isRecordedPrompt = true) (hanswer : m.isRecordedAnswer = false) :
    Records (s.recordTurnUserMessageUuid turnId m.uuid) (log ++ [(turnId, m)]) := by
  have hnew : m.uuid ∉ (s.turnUserMessageIds.lookup turnId).getD [] := by
    rw [h.users]
    exact fun hmem => hfresh (mem_log_of_recorded hmem)
  have hunknown : s.userMessageTurnIds.lookup m.uuid = none := by
    cases hl : s.userMessageTurnIds.lookup m.uuid with
    | none => rfl
    | some id => exact absurd (mem_log_of_recorded ((h.turnOf _ id).mp hl)) hfresh
  have hrecord : s.recordTurnUserMessageUuid turnId m.uuid =
      { s with
        turnUserMessageIds := s.turnUserMessageIds.insert turnId
          ((s.turnUserMessageIds.lookup turnId).getD [] ++ [m.uuid])
        userMessageTurnIds := s.userMessageTurnIds.insert m.uuid turnId
        turnRollbackBoundaryIds :=
          if (s.turnRollbackBoundaryIds.lookup turnId).isSome then s.turnRollbackBoundaryIds
          else s.turnRollbackBoundaryIds.insert turnId m.uuid } := by
    have hnot : ¬((truthy (s.userMessageTurnIds.lookup (jsTrim m.uuid))).any fun existing =>
        decide (existing ≠ turnId)) = true := by
      rw [htrim, hunknown]
      nofun
    simp only [ForkSession.recordTurnUserMessageUuid, htrim, hne, hnew, if_false]
    exact if_neg hnot
  have hconcat : ∀ id, recordedOf TurnMessage.isRecordedPrompt (log ++ [(turnId, m)]) id =
      recordedOf TurnMessage.isRecordedPrompt log id ++ if turnId = id then [m.uuid] else [] := by
    intro id
    rw [recordedOf_concat, hprompt]
    simp only [and_true]
  rw [hrecord]
  constructor
  · intro id
    rw [hconcat]
    show (if _ then _ else _ : Table String String).lookup id = _
    by_cases hid : turnId = id
    · subst hid
      rw [if_pos rfl, List.head?_append]
      split
      · next hsome =>
        rw [h.boundary] at hsome ⊢
        obtain ⟨u, hu⟩ := Option.isSome_iff_exists.mp hsome
        rw [hu]
        rfl
      · next hnone =>
        rw [h.boundary, Option.not_isSome_iff_eq_none] at hnone
        rw [Table.lookup_insert, if_pos rfl, hnone]
        rfl
    · rw [if_neg hid, List.append_nil]
      split
      · exact h.boundary id
      · rw [Table.lookup_insert, if_neg (Ne.symm hid)]
        exact h.boundary id
  · intro id
    rw [hconcat, Table.lookup_insert]
    by_cases hid : turnId = id
    · subst hid
      rw [if_pos rfl, if_pos rfl, Option.getD_some, h.users]
    · rw [if_neg (Ne.symm hid), if_neg hid, List.append_nil]
      exact h.users id
  · simpa only [recordedOf_of_not hanswer] using h.assistants
  · intro u id
    rw [hconcat, Table.lookup_insert, List.mem_append, ← h.turnOf]
    by_cases hu : u = m.uuid
    · subst hu
      rw [if_pos rfl, hunknown, Option.some.injEq]
      by_cases hid : turnId = id <;> simp [hid]
    · rw [if_neg hu]
      by_cases hid : turnId = id <;> simp [hid, hu]

theorem Records.step (h : Records s log) (hfresh : m.uuid ∉ log.map (·.2.uuid))
    (hid : jsTrim m.uuid = m.uuid ∧ m.uuid ≠ "") : Records (s.recordMessage turnId m) (log ++ [(turnId, m)]) := by
  rw [ForkSession.recordMessage]
  cases hseen : m.seen with
  | false =>
    rw [if_neg (by decide)]
    apply h.same <;> simp [TurnMessage.isRecordedPrompt, TurnMessage.isRecordedAnswer, hseen]
  | true =>
    rw [if_pos rfl]
    cases htype : m.type with
    | assistant =>
      refine h.answer hfresh hid.1 hid.2 ?_ ?_ <;>
        simp [TurnMessage.isRecordedPrompt, TurnMessage.isRecordedAnswer, TurnMessage.isPrompt, TurnMessage.isAnswer,
          isSdkSessionHistoryUserPromptMessage, htype, hseen]
    | user =>
      cases hcontent : isPromptContent m.message with
      | true =>
        rw [if_pos rfl]
        refine h.prompt hfresh hid.1 hid.2 ?_ ?_ <;>
          simp [TurnMessage.isRecordedPrompt, TurnMessage.isRecordedAnswer, TurnMessage.isPrompt,
            TurnMessage.isAnswer, isSdkSessionHistoryUserPromptMessage, htype, hseen, hcontent]
      | false =>
        rw [if_neg (by decide)]
        apply h.same <;> simp [TurnMessage.isRecordedPrompt, TurnMessage.isRecordedAnswer, TurnMessage.isPrompt,
          TurnMessage.isAnswer, isSdkSessionHistoryUserPromptMessage, htype, hcontent]

end

/-! ## A session after its turns -/

theorem logOf_append (ts us : List StoredTurn) : logOf (ts ++ us) = logOf ts ++ logOf us := List.flatMap_append ..

theorem logOf_singleton (t : StoredTurn) : logOf [t] = t.messages.map (Prod.mk t.id) := by
  rw [logOf, List.flatMap_singleton]

theorem historyOf_append (ts us : List StoredTurn) : historyOf (ts ++ us) = historyOf ts ++ historyOf us :=
  List.flatMap_append ..

theorem historyOf_cons (t : StoredTurn) (ts : List StoredTurn) :
    historyOf (t :: ts) = t.messages.map TurnMessage.toSdkSessionMessage ++ historyOf ts := List.flatMap_cons ..

theorem map_logOf (ts : List StoredTurn) : (logOf ts).map (·.2.uuid) = uuids (historyOf ts) := by
  induction ts with
  | nil => rfl
  | cons t ts ih =>
    rw [← List.singleton_append, logOf_append, logOf_singleton, List.map_append, ih, List.singleton_append,
      historyOf_cons, uuids, uuids, List.map_append, List.map_map, List.map_map]
    rfl

section

variable {s : ForkSession} {log : List (String × TurnMessage)} {turns : List StoredTurn}

theorem recordMessage_state (turnId : String) (s : ForkSession) (m : TurnMessage) :
    (s.recordMessage turnId m).state = s.state ∧ (s.recordMessage turnId m).turnPromptTexts = s.turnPromptTexts := by
  unfold ForkSession.recordMessage ForkSession.recordTurnAssistantMessageUuid ForkSession.recordTurnUserMessageUuid
  split
  · split
    · dsimp only
      split
      · exact ⟨rfl, rfl⟩
      · split <;> exact ⟨rfl, rfl⟩
    · split
      · dsimp only
        split
        · exact ⟨rfl, rfl⟩
        · split <;> exact ⟨rfl, rfl⟩
      · exact ⟨rfl, rfl⟩
  · exact ⟨rfl, rfl⟩

theorem Records.messages (turnId : String) (ms : List TurnMessage) (h : Records s log)
    (hnodup : ((log ++ ms.map (Prod.mk turnId)).map (·.2.uuid)).Nodup)
    (hids : ∀ m ∈ ms, jsTrim m.uuid = m.uuid ∧ m.uuid ≠ "") :
    Records (ms.foldl (ForkSession.recordMessage turnId) s) (log ++ ms.map (Prod.mk turnId)) ∧
      (ms.foldl (ForkSession.recordMessage turnId) s).state = s.state := by
  induction ms generalizing s log with
  | nil =>
    rw [List.map_nil, List.append_nil]
    exact ⟨h, rfl⟩
  | cons m ms ih =>
    have hsplit : log ++ (m :: ms).map (Prod.mk turnId) = (log ++ [(turnId, m)]) ++ ms.map (Prod.mk turnId) := by
      rw [List.append_assoc, List.map_cons, List.singleton_append]
    rw [hsplit] at hnodup ⊢
    have hfresh : m.uuid ∉ log.map (·.2.uuid) := by
      rw [List.append_assoc, List.map_append, List.singleton_append, List.map_cons] at hnodup
      exact fun hmem => (List.nodup_append.mp hnodup).2.2 _ hmem _ List.mem_cons_self rfl
    have hstep : Records (s.recordMessage turnId m) (log ++ [(turnId, m)]) :=
      h.step hfresh (hids m List.mem_cons_self)
    obtain ⟨hrecords, hstate⟩ := ih hstep hnodup fun x hx => hids x (List.mem_cons_of_mem m hx)
    exact ⟨hrecords, hstate.trans (recordMessage_state turnId s m).1⟩

structure HasRun (rest : BridgeClient.SessionState) (turns : List StoredTurn) (s : ForkSession) : Prop where
  records : Records s (logOf turns)
  state : s.state = { rest with turnOrder := turns.map StoredTurn.id }

theorem HasRun.runTurn {rest : BridgeClient.SessionState} {t : StoredTurn} (h : HasRun rest turns s)
    (hw : WellStored (turns ++ [t])) : HasRun rest (turns ++ [t]) (s.runTurn t) := by
  have hnodup := hw.uuids
  rw [← map_logOf, logOf_append, logOf_singleton] at hnodup
  have hids : ∀ m ∈ t.messages, jsTrim m.uuid = m.uuid ∧ m.uuid ≠ "" := fun m hm =>
    hw.trimmed m.toSdkSessionMessage (by
      rw [historyOf_append, historyOf_cons]
      exact List.mem_append_right _ (List.mem_append_left _ (List.mem_map_of_mem hm)))
  obtain ⟨hrecords, hstate⟩ := h.records.messages t.id t.messages hnodup hids
  have hnew : t.id ∉ turns.map StoredTurn.id := by
    have hids := hw.ids
    rw [List.map_append, List.map_singleton] at hids
    exact fun hmem => (List.nodup_append.mp hids).2.2 _ hmem _ (List.mem_singleton.mpr rfl) rfl
  constructor
  · rw [logOf_append, logOf_singleton]
    exact ⟨hrecords.boundary, hrecords.users, hrecords.assistants, hrecords.turnOf⟩
  · rw [ForkSession.runTurn, hstate, h.state, if_neg hnew, List.map_append]
    rfl

theorem WellStored.init {t : StoredTurn} (hw : WellStored (turns ++ [t])) : WellStored turns := by
  have hmem : ∀ m ∈ historyOf turns, m ∈ historyOf (turns ++ [t]) := fun m hm => by
    rw [historyOf_append]
    exact List.mem_append_left _ hm
  refine ⟨?_, fun x hx => hw.named x (List.mem_append_left _ hx), ?_, fun m hm => hw.trimmed m (hmem m hm),
    fun m hm x hx => hw.apart m (hmem m hm) x (List.mem_append_left _ hx)⟩
  · exact hw.ids.sublist ((List.sublist_append_left turns [t]).map _)
  · refine hw.uuids.sublist (List.Sublist.map _ ?_)
    rw [historyOf_append]
    exact List.sublist_append_left _ _

theorem hasRun_afterTurns (rest : BridgeClient.SessionState) (turnPromptTexts : Table String String)
    (hw : WellStored turns) :
    HasRun rest turns (ForkSession.afterTurns rest turnPromptTexts turns) := by
  induction turns using List.reverseRecOn with
  | nil =>
    have hnone : ∀ (α : Type) (k : String), (∅ : Table String α).lookup k = none := fun α k => AList.lookup_empty k
    refine ⟨⟨fun id => hnone _ id, fun id => ?_, fun id => ?_, fun u id => ?_⟩, rfl⟩
    · exact congrArg (Option.getD · []) (hnone _ id)
    · exact congrArg (Option.getD · []) (hnone _ id)
    · constructor
      · intro h
        rw [ForkSession.afterTurns, List.foldl_nil, hnone] at h
        cases h
      · intro h
        cases h
  | append_singleton turns t ih =>
    rw [ForkSession.afterTurns, List.foldl_append]
    exact (ih hw.init).runTurn hw

theorem recordedOf_logOf (hids : (turns.map StoredTurn.id).Nodup) (q : TurnMessage → Bool) {t : StoredTurn}
    (ht : t ∈ turns) : recordedOf q (logOf turns) t.id = (t.messages.filter q).map (·.uuid) := by
  have hother : ∀ us : List StoredTurn, t.id ∉ us.map StoredTurn.id → recordedOf q (logOf us) t.id = [] := by
    intro us hus
    rw [recordedOf, List.map_eq_nil_iff, List.filter_eq_nil_iff]
    intro e he hq
    obtain ⟨u, hu, hmem⟩ := List.mem_flatMap.mp he
    obtain ⟨m, -, rfl⟩ := List.mem_map.mp hmem
    rw [Bool.and_eq_true, decide_eq_true_eq] at hq
    exact hus (List.mem_map.mpr ⟨u, hu, hq.1⟩)
  have happend : ∀ us vs : List StoredTurn, recordedOf q (logOf (us ++ vs)) t.id =
      recordedOf q (logOf us) t.id ++ recordedOf q (logOf vs) t.id := by
    intro us vs
    rw [logOf_append, recordedOf, List.filter_append, List.map_append]
    rfl
  have hown : recordedOf q (logOf [t]) t.id = (t.messages.filter q).map (·.uuid) := by
    rw [logOf_singleton, recordedOf, List.filter_map, List.map_map]
    congr 1
    apply List.filter_congr
    intro m _
    simp
  obtain ⟨us, vs, rfl⟩ := List.append_of_mem ht
  rw [List.map_append, List.map_cons] at hids
  obtain ⟨-, hcons, hapart⟩ := List.nodup_append.mp hids
  have hleft : t.id ∉ us.map StoredTurn.id := fun hmem => hapart _ hmem _ List.mem_cons_self rfl
  rw [happend, ← List.singleton_append, happend, hother us hleft, hother vs (List.nodup_cons.mp hcons).1, hown,
    List.nil_append, List.append_nil]

theorem recordedOf_eq_nil (q : TurnMessage → Bool) {id : String} (h : ∀ t ∈ turns, t.id ≠ id) :
    recordedOf q (logOf turns) id = [] := by
  rw [recordedOf, List.map_eq_nil_iff, List.filter_eq_nil_iff]
  intro e he hq
  obtain ⟨t, ht, hmem⟩ := List.mem_flatMap.mp he
  obtain ⟨m, -, rfl⟩ := List.mem_map.mp hmem
  rw [Bool.and_eq_true, decide_eq_true_eq] at hq
  exact h t ht hq.1

end

end Gooselake.Providers.HardFork
