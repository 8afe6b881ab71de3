import Gooselake.Providers.ForkBoundaries

/-!
When the two ways to find the boundary of a hard fork agree, and what is left in the tables after the turns from the
boundary's turn on are pruned.
-/

namespace Gooselake.Providers.HardFork

open Gooselake.Core Data Library BridgeClient

set_option autoImplicit false

/-! ## Pruning -/

structure Unmentioned (turnId : String) (s : ForkSession) : Prop where
  turnOrder : turnId ∉ s.state.turnOrder
  interruptedTurns : turnId ∉ s.state.interruptedTurns
  turnResults : s.state.turnResults.lookup turnId = none
  turnWaiters : s.state.turnWaiters.lookup turnId = none
  turnToolItems : s.state.turnToolItems.lookup turnId = none
  turnPromptStreams : turnId ∉ s.state.turnPromptStreams
  pendingApprovals : ∀ a ∈ s.state.pendingApprovals, a.turnId ≠ turnId
  turnPromptTexts : s.turnPromptTexts.lookup turnId = none
  turnUserMessageIds : s.turnUserMessageIds.lookup turnId = none
  turnAssistantMessageIds : s.turnAssistantMessageIds.lookup turnId = none
  turnRollbackBoundaryIds : s.turnRollbackBoundaryIds.lookup turnId = none
  userMessageTurnIds : ∀ uuid, s.userMessageTurnIds.lookup uuid ≠ some turnId

structure SameEntries (turnId : String) (s s' : ForkSession) : Prop where
  turnOrder : turnId ∈ s'.state.turnOrder ↔ turnId ∈ s.state.turnOrder
  interruptedTurns : turnId ∈ s'.state.interruptedTurns ↔ turnId ∈ s.state.interruptedTurns
  turnResults : s'.state.turnResults.lookup turnId = s.state.turnResults.lookup turnId
  turnWaiters : s'.state.turnWaiters.lookup turnId = s.state.turnWaiters.lookup turnId
  turnToolItems : s'.state.turnToolItems.lookup turnId = s.state.turnToolItems.lookup turnId
  turnPromptStreams : turnId ∈ s'.state.turnPromptStreams ↔ turnId ∈ s.state.turnPromptStreams
  pendingApprovals : s'.state.pendingApprovals = s.state.pendingApprovals
  turnPromptTexts : s'.turnPromptTexts.lookup turnId = s.turnPromptTexts.lookup turnId
  turnUserMessageIds : s'.turnUserMessageIds.lookup turnId = s.turnUserMessageIds.lookup turnId
  turnAssistantMessageIds : s'.turnAssistantMessageIds.lookup turnId = s.turnAssistantMessageIds.lookup turnId
  turnRollbackBoundaryIds : s'.turnRollbackBoundaryIds.lookup turnId = s.turnRollbackBoundaryIds.lookup turnId
  userMessageTurnIds : ∀ uuid, s'.userMessageTurnIds.lookup uuid = some turnId ↔
    s.userMessageTurnIds.lookup uuid = some turnId

def Pruned (turnIds : List String) (s s' : ForkSession) : Prop :=
  (∀ id ∈ turnIds, Unmentioned id s') ∧ ∀ id, id ∉ turnIds → SameEntries id s s'

structure TakenAway (turnIds : List String) (s s' : ForkSession) : Prop where
  state : s'.state = s.state
  texts : ∀ id, s'.turnPromptTexts.lookup id = if id ∈ turnIds then none else s.turnPromptTexts.lookup id
  users : ∀ id, s'.turnUserMessageIds.lookup id = if id ∈ turnIds then none else s.turnUserMessageIds.lookup id
  assistants : ∀ id, s'.turnAssistantMessageIds.lookup id =
    if id ∈ turnIds then none else s.turnAssistantMessageIds.lookup id
  boundary : ∀ id, s'.turnRollbackBoundaryIds.lookup id =
    if id ∈ turnIds then none else s.turnRollbackBoundaryIds.lookup id
  turnOf : ∀ uuid, s'.userMessageTurnIds.lookup uuid =
    if ∃ id ∈ turnIds, uuid ∈ (s.turnUserMessageIds.lookup id).getD [] then none
    else s.userMessageTurnIds.lookup uuid

section

variable {rest : BridgeClient.SessionState} {turns : List StoredTurn} {s : ForkSession}

theorem takenAway_foldl (turnIds : List String) (s : ForkSession) :
    TakenAway turnIds s (turnIds.foldl ForkSession.pruneTurn s) := by
  induction turnIds generalizing s with
  | nil => exact ⟨rfl, fun _ => rfl, fun _ => rfl, fun _ => rfl, fun _ => rfl, fun _ => (if_neg (by simp)).symm⟩
  | cons turnId turnIds ih =>
    have h := ih (s.pruneTurn turnId)
    have herase : ∀ {α : Type} (table : Table String α) (id : String),
        (if id ∈ turnIds then none else (table.erase turnId).lookup id) =
          if id ∈ turnId :: turnIds then none else table.lookup id := by
      intro α table id
      rw [Table.lookup_erase]
      by_cases hid : id = turnId <;> by_cases hmem : id ∈ turnIds <;> simp [hid, hmem]
    refine ⟨h.state, fun id => (h.texts id).trans (herase _ id), fun id => (h.users id).trans (herase _ id),
      fun id => (h.assistants id).trans (herase _ id), fun id => (h.boundary id).trans (herase _ id), fun uuid => ?_⟩
    rw [List.foldl_cons, h.turnOf]
    show (if ∃ id ∈ turnIds, uuid ∈ ((s.turnUserMessageIds.erase turnId).lookup id).getD [] then none
      else (s.userMessageTurnIds.eraseAll ((s.turnUserMessageIds.lookup turnId).getD [])).lookup uuid) = _
    rw [Table.lookup_eraseAll]
    by_cases hown : uuid ∈ (s.turnUserMessageIds.lookup turnId).getD []
    · rw [if_pos hown, ite_self, if_pos ⟨turnId, List.mem_cons_self, hown⟩]
    · rw [if_neg hown]
      congr 1
      rw [eq_iff_iff]
      constructor
      · rintro ⟨id, hid, hmem⟩
        rw [Table.lookup_erase] at hmem
        split at hmem
        · cases hmem
        · exact ⟨id, List.mem_cons_of_mem turnId hid, hmem⟩
      · rintro ⟨id, hid, hmem⟩
        rcases List.mem_cons.mp hid with rfl | hid
        · exact absurd hmem hown
        · refine ⟨id, hid, ?_⟩
          rw [Table.lookup_erase, if_neg]
          · exact hmem
          · rintro rfl
            exact hown hmem

section

variable {turnIds : List String} {id : String} {s' : ForkSession}

theorem HasRun.turnOf_iff (h : HasRun rest turns s) (uuid id : String) :
    s.userMessageTurnIds.lookup uuid = some id ↔ uuid ∈ (s.turnUserMessageIds.lookup id).getD [] := by
  rw [h.records.turnOf, h.records.users]

theorem HasRun.interruptedTurns_forked (h : HasRun rest turns s) :
    s.forked.state.interruptedTurns = rest.interruptedTurns := by
  rw [ForkSession.forked, h.state]
  rfl

theorem takenAway_pruned (hsome : turnIds ≠ []) :
    TakenAway turnIds { s.forked with state := Client.prunedState turnIds s.forked.state }
      (s.forked.pruneTurnStateForHardFork turnIds) := by
  have hprune : s.forked.pruneTurnStateForHardFork turnIds = turnIds.foldl ForkSession.pruneTurn
      { s.forked with state := Client.prunedState turnIds s.forked.state } :=
    if_neg fun hzero => hsome (List.length_eq_zero_iff.mp hzero)
  rw [hprune]
  exact takenAway_foldl turnIds _

theorem HasRun.unmentioned (h : HasRun rest turns s)
    (htaken : TakenAway turnIds { s.forked with state := Client.prunedState turnIds s.forked.state } s')
    (hid : id ∈ turnIds) (hclear : id ∉ rest.interruptedTurns) : Unmentioned id s' := by
  obtain ⟨state⟩ := s'
  obtain rfl : state = _ := htaken.state
  have herase : ∀ {α : Type} (table : Table String α), (table.eraseAll turnIds).lookup id = none := fun table =>
    (Table.lookup_eraseAll table turnIds id).trans (if_pos hid)
  have hkept : ∀ ids : List String, id ∉ ids.filter fun id => decide (id ∉ turnIds) := fun ids hmem =>
    of_decide_eq_true (List.mem_filter.mp hmem).2 hid
  refine ⟨hkept _, ?_, herase _, herase _, herase _, hkept _, nofun, ?_, ?_, ?_, ?_, ?_⟩
  · show id ∉ s.forked.state.interruptedTurns
    rw [h.interruptedTurns_forked]
    exact hclear
  · exact (htaken.texts id).trans (if_pos hid)
  · exact (htaken.users id).trans (if_pos hid)
  · exact (htaken.assistants id).trans (if_pos hid)
  · exact (htaken.boundary id).trans (if_pos hid)
  · intro uuid hlookup
    rw [htaken.turnOf] at hlookup
    obtain ⟨hnot, hlookup⟩ := Option.ite_none_left_eq_some.mp hlookup
    exact hnot ⟨id, hid, (h.turnOf_iff uuid id).mp hlookup⟩

theorem HasRun.sameEntries (h : HasRun rest turns s)
    (htaken : TakenAway turnIds { s.forked with state := Client.prunedState turnIds s.forked.state } s')
    (hid : id ∉ turnIds) : SameEntries id s.forked s' := by
  obtain ⟨state⟩ := s'
  obtain rfl : state = _ := htaken.state
  have herase : ∀ {α : Type} (table : Table String α), (table.eraseAll turnIds).lookup id = table.lookup id :=
    fun table => (Table.lookup_eraseAll table turnIds id).trans (if_neg hid)
  have hkept : ∀ ids : List String, (id ∈ ids.filter fun id => decide (id ∉ turnIds)) ↔ id ∈ ids := fun ids =>
    List.mem_filter.trans (and_iff_left (decide_eq_true hid))
  refine ⟨hkept _, Iff.rfl, herase _, herase _, herase _, hkept _, rfl, ?_, ?_, ?_, ?_, fun uuid => ?_⟩
  · exact (htaken.texts id).trans (if_neg hid)
  · exact (htaken.users id).trans (if_neg hid)
  · exact (htaken.assistants id).trans (if_neg hid)
  · exact (htaken.boundary id).trans (if_neg hid)
  · rw [htaken.turnOf]
    constructor
    · intro hlookup
      exact (Option.ite_none_left_eq_some.mp hlookup).2
    · intro hlookup
      refine Option.ite_none_left_eq_some.mpr ⟨?_, hlookup⟩
      rintro ⟨other, hother, hmem⟩
      have hboth := (h.turnOf_iff uuid other).mpr hmem
      have hsame : id = other := Option.some.inj (hlookup.symm.trans hboth)
      exact hid (hsame ▸ hother)

end

theorem HasRun.pruned_iff (h : HasRun rest turns s) {turnIds : List String} (hsome : turnIds ≠ []) :
    Pruned turnIds s.forked (s.forked.pruneTurnStateForHardFork turnIds) ↔
      ∀ id ∈ turnIds, id ∉ rest.interruptedTurns := by
  have htaken := takenAway_pruned (s := s) hsome
  constructor
  · rintro ⟨hgone, -⟩ id hid
    have hnot := (hgone id hid).interruptedTurns
    rw [htaken.state] at hnot
    rw [← h.interruptedTurns_forked]
    exact hnot
  · intro hclear
    exact ⟨fun id hid => h.unmentioned htaken hid (hclear id hid), fun id hid => h.sameEntries htaken hid⟩

end

/-! ## Agreement -/

/-- The ids by which a fork can name the turn. -/
inductive BoundaryOf (t : StoredTurn) : String → Prop where
  | turn : BoundaryOf t t.id
  | message (m : TurnMessage) (hm : m ∈ t.messages) (huser : m.type = .user) : BoundaryOf t m.uuid

/-- The history has a boundary, the tables have none or the same, it rolls back the turns from the `k`-th on, and these
are pruned. -/
def ForksAt (s : ForkSession) (messages : List SdkSessionMessage) (k : ℕ) (rollbackBoundaryId : String) : Prop :=
  ∃ boundary, resolveHardForkBoundaryFromHistory s messages (s.resolveRollbackBoundaryIdForTurn rollbackBoundaryId) =
      .ok boundary ∧
    (∀ captured, s.resolveHardForkBoundaryFromCapturedTurns (s.resolveRollbackBoundaryIdForTurn rollbackBoundaryId) =
      some captured → captured = boundary) ∧
    boundary.rolledBackTurnIds = s.state.turnOrder.drop k ∧
    Pruned boundary.rolledBackTurnIds s.forked (s.forked.pruneTurnStateForHardFork boundary.rolledBackTurnIds)

/-- For a turn with a recorded prompt: every later turn has one, no assistant message stands before it in its turn, and
the last one of the turn before was recorded; the last two matter only where the tables have a boundary. -/
def RecordedAt (before : List StoredTurn) (t : StoredTurn) (after : List StoredTurn) : Prop :=
  (∀ a ∈ after, a.prompts ≠ []) ∧
    match before.getLast? with
    | none => NoAnswer t.beforePrompt
    | some prev => prev.answers = [] ∨ NoAnswer t.beforePrompt ∧ prev.LastSeen

/-- For a turn without: the prompt in its place, counted back from the end of the history, is there and no turn's
first recorded prompt comes after it. -/
def CountedAt (before : List StoredTurn) (t : StoredTurn) (after : List StoredTurn) : Prop :=
  ∃ pre x post, historyOf (before ++ t :: after) = pre ++ x :: post ∧
    isSdkSessionHistoryUserPromptMessage x = true ∧
    promptCount pre = promptStart (before ++ t :: after) + before.length ∧
    ∀ b ∈ before ++ t :: after, b.late (x :: post) = false

/-- For a prompt that was not recorded: the first recorded prompt of its turn comes after it and every later turn has
one; or neither does any, and its place counted back from the end is that of its turn. -/
def UnrecordedAt (before : List StoredTurn) (t : StoredTurn) (after : List StoredTurn) (uuid : String) : Prop :=
  ∃ m₁ m m₂, t.messages = m₁ ++ m :: m₂ ∧ m.uuid = uuid ∧ m.isPrompt = true ∧
    let on := (m :: m₂).map TurnMessage.toSdkSessionMessage ++ historyOf after
    let counted := promptCount (historyOf before ++ m₁.map TurnMessage.toSdkSessionMessage)
    (t.late on = true ∧ ∀ a ∈ after, a.prompts ≠ []) ∨
      (t.late on = false ∧ (∀ a ∈ after, a.prompts = []) ∧
        ((counted < promptStart (before ++ t :: after) ∧ before = []) ∨
          counted = promptStart (before ++ t :: after) + before.length))

/-- The tables of the session lead to the turn that the boundary names. -/
def BoundaryKnown (before : List StoredTurn) (t : StoredTurn) (after : List StoredTurn)
    (rollbackBoundaryId : String) : Prop :=
  if t.prompts ≠ [] ∧ (rollbackBoundaryId = t.id ∨ rollbackBoundaryId ∈ t.prompts) then RecordedAt before t after
  else if rollbackBoundaryId = t.id then CountedAt before t after
  else UnrecordedAt before t after rollbackBoundaryId

section

variable {rest : BridgeClient.SessionState} {before after : List StoredTurn} {t : StoredTurn} {s : ForkSession}
  {pre post : List SdkSessionMessage} {x : SdkSessionMessage} {rollbackBoundaryId uuid : String}

theorem HasRun.drop (h : HasRun rest (before ++ t :: after) s) :
    s.state.turnOrder.drop before.length = (t :: after).map StoredTurn.id := by
  rw [h.turnOrder, List.map_append, List.drop_left' (List.length_map _)]

theorem HasRun.forksAt_iff (h : HasRun rest (before ++ t :: after) s) (hw : WellStored (before ++ t :: after))
    (hsplit : historyOf (before ++ t :: after) = pre ++ x :: post)
    (hresolve : s.resolveRollbackBoundaryIdForTurn rollbackBoundaryId = uuid)
    (htarget : targetMessageIndex s (historyOf (before ++ t :: after)) uuid = some pre.length) :
    ForksAt s (historyOf (before ++ t :: after)) before.length rollbackBoundaryId ↔
      ((∀ captured, s.resolveHardForkBoundaryFromCapturedTurns uuid = some captured →
          captured = ⟨lastAnswer pre, (t :: after).map StoredTurn.id⟩) ∧
        resolveRolledBackTurnIdsFromHistory s (historyOf (before ++ t :: after)) pre.length =
          (t :: after).map StoredTurn.id) ∧
      ∀ x ∈ t :: after, x.id ∉ rest.interruptedTurns := by
  have htrim := hw.trimmed
  have hhistory : resolveHardForkBoundaryFromHistory s (historyOf (before ++ t :: after)) uuid =
      .ok ⟨lastAnswer pre, resolveRolledBackTurnIdsFromHistory s (historyOf (before ++ t :: after)) pre.length⟩ := by
    have htake : (historyOf (before ++ t :: after)).take pre.length = pre := by rw [hsplit, List.take_left]
    rw [resolveHardForkBoundaryFromHistory, htarget]
    dsimp only
    rw [hsplit] at htrim
    rw [htake, predecessorAssistantUuid_eq fun m hm => htrim m (List.mem_append_left _ hm)]
  have hprune := h.pruned_iff (List.cons_ne_nil t.id (after.map StoredTurn.id))
  rw [ForksAt, hresolve, hhistory, h.drop]
  constructor
  · rintro ⟨boundary, hok, hcaptured, hsuffix, hpruned⟩
    obtain rfl := Except.ok.inj hok
    dsimp only at hsuffix hpruned
    rw [hsuffix] at hcaptured hpruned
    exact ⟨⟨hcaptured, hsuffix⟩, fun x hx => hprune.mp hpruned x.id (List.mem_map_of_mem hx)⟩
  · rintro ⟨⟨hcaptured, hsuffix⟩, hclear⟩
    rw [hsuffix]
    refine ⟨_, rfl, hcaptured, rfl, hprune.mpr fun id hid => ?_⟩
    change id ∈ (t :: after).map StoredTurn.id at hid
    obtain ⟨x, hx, rfl⟩ := List.mem_map.mp hid
    exact hclear x hx

theorem exists_beforePrompt (hhead : t.prompts.head? = some uuid) : ∃ m m₂,
    t.messages = t.beforePrompt ++ m :: m₂ ∧ m.isRecordedPrompt = true ∧ m.uuid = uuid := by
  have hcut := List.takeWhile_append_dropWhile (p := fun m : TurnMessage => !m.isRecordedPrompt) (l := t.messages)
  have hnone : t.beforePrompt.filter TurnMessage.isRecordedPrompt = [] := by
    rw [List.filter_eq_nil_iff]
    intro m hm hrecorded
    have hnot := List.mem_takeWhile_imp hm
    rw [hrecorded] at hnot
    cases hnot
  cases hdrop : t.messages.dropWhile fun m => !m.isRecordedPrompt with
  | nil =>
    rw [hdrop, List.append_nil] at hcut
    rw [StoredTurn.prompts, ← hcut] at hhead
    change ((t.beforePrompt.filter TurnMessage.isRecordedPrompt).map (·.uuid)).head? = _ at hhead
    rw [hnone] at hhead
    cases hhead
  | cons m m₂ =>
    have hm : m.isRecordedPrompt = true := by
      have hnot := List.head?_dropWhile_not (fun m : TurnMessage => !m.isRecordedPrompt) t.messages
      rw [hdrop] at hnot
      simpa using hnot
    rw [hdrop] at hcut
    refine ⟨m, m₂, hcut.symm, hm, ?_⟩
    rw [StoredTurn.prompts, ← hcut] at hhead
    change ((((t.beforePrompt ++ m :: m₂).filter TurnMessage.isRecordedPrompt).map (·.uuid)).head?) = _ at hhead
    rw [List.filter_append, hnone, List.nil_append, List.filter_cons_of_pos hm] at hhead
    exact Option.some.inj hhead

theorem isPrompt_of_recorded {m : TurnMessage} (h : m.isRecordedPrompt = true) : m.isPrompt = true := by
  rw [TurnMessage.isRecordedPrompt, Bool.and_eq_true] at h
  exact h.2

theorem HasRun.forksAt_recorded (h : HasRun rest (before ++ t :: after) s) (hw : WellStored (before ++ t :: after))
    (hsome : t.prompts ≠ []) (hgiven : rollbackBoundaryId = t.id ∨ rollbackBoundaryId ∈ t.prompts) :
    ForksAt s (historyOf (before ++ t :: after)) before.length rollbackBoundaryId ↔
      RecordedAt before t after ∧ ∀ x ∈ t :: after, x.id ∉ rest.interruptedTurns := by
  have ht : t ∈ before ++ t :: after := List.mem_append_right _ List.mem_cons_self
  obtain ⟨u, hhead⟩ : ∃ u, t.prompts.head? = some u := by
    rw [← Option.isSome_iff_exists, List.isSome_head?]
    simpa using hsome
  obtain ⟨m, m₂, hmessages, hm, hu⟩ := exists_beforePrompt hhead
  have hin : TargetIn before t after _ _ _ t.beforePrompt m₂ m := targetIn hmessages
  have hprompt := isPrompt_of_recorded hm
  have htarget := hin.index (s := s) hw hprompt
  rw [hu] at htarget
  have hlate :
      t.late (m.toSdkSessionMessage :: (m₂.map TurnMessage.toSdkSessionMessage ++ historyOf after)) = true := by
    rw [StoredTurn.late, hhead, Option.any_some, decide_eq_true_eq, ← hu]
    exact List.mem_cons_self
  rw [h.forksAt_iff hw hin.split (h.resolves_recorded hw ht hhead hgiven) htarget, hin.suffix_iff hw h hprompt,
    h.captured hw (List.mem_of_head? hhead), hlate, RecordedAt]
  simp only [true_and, Bool.true_eq_false, false_and, or_false]
  refine and_congr_left' ?_
  rw [and_comm]
  refine and_congr_right fun _ => ?_
  rcases List.eq_nil_or_concat' before with rfl | ⟨init, prev, rfl⟩
  · rw [← lastAnswer_eq_none_iff]
    constructor
    · intro hall
      exact (congrArg HardForkBoundary.predecessorAssistantUuid (hall _ rfl)).symm
    · rintro hnone captured hc
      obtain rfl := Option.some.inj hc
      show _ = HardForkBoundary.mk (lastAnswer (t.beforePrompt.map TurnMessage.toSdkSessionMessage)) _
      rw [hnone]
  · rw [List.getLast?_concat]
    dsimp only
    cases hlast : prev.answers.getLast? with
    | none =>
      rw [List.getLast?_eq_none_iff] at hlast
      exact iff_of_true nofun (.inl hlast)
    | some answer =>
      have hne : prev.answers ≠ [] := fun hnil => by rw [hnil] at hlast; cases hlast
      have hhistory : historyOf (init ++ [prev]) =
          historyOf init ++ prev.messages.map TurnMessage.toSdkSessionMessage := by
        rw [historyOf_append, historyOf_cons]
        exact congrArg _ (List.append_nil _)
      have hpair : (uuids (prev.messages.map TurnMessage.toSdkSessionMessage ++
          t.beforePrompt.map TurnMessage.toSdkSessionMessage)).Nodup := by
        refine hw.uuids.sublist (List.Sublist.map _ ?_)
        rw [hin.split, hhistory, List.append_assoc (historyOf init)]
        exact (List.sublist_append_right _ _).trans (List.sublist_append_left _ _)
      rw [or_iff_right hne, ← lastAnswer_eq_iff hpair (historyOf init) hlast, ← hhistory]
      constructor
      · intro hall
        exact (congrArg HardForkBoundary.predecessorAssistantUuid (hall _ rfl)).symm
      · rintro heq captured hc
        obtain rfl := Option.some.inj hc
        rw [heq]

theorem exists_of_recorded {turns : List StoredTurn} {id : String}
    (h : uuid ∈ recordedOf TurnMessage.isRecordedPrompt (logOf turns) id) :
    ∃ m, (id, m) ∈ logOf turns ∧ m.isRecordedPrompt = true ∧ m.uuid = uuid := by
  obtain ⟨⟨id', m⟩, hfiltered, rfl⟩ := List.mem_map.mp h
  obtain ⟨hlog, hq⟩ := List.mem_filter.mp hfiltered
  rw [Bool.and_eq_true, decide_eq_true_eq] at hq
  obtain ⟨rfl, hrecorded⟩ := hq
  exact ⟨m, hlog, hrecorded, rfl⟩

theorem HasRun.suffix_iff_of_counted (h : HasRun rest (before ++ t :: after) s)
    (hw : WellStored (before ++ t :: after)) (hnil : t.prompts = [])
    (hsplit : historyOf (before ++ t :: after) = pre ++ x :: post)
    (hx : isSdkSessionHistoryUserPromptMessage x = true)
    (hcount : promptCount pre = promptStart (before ++ t :: after) + before.length) :
    resolveRolledBackTurnIdsFromHistory s (historyOf (before ++ t :: after)) pre.length =
      (t :: after).map StoredTurn.id ↔ ∀ b ∈ before ++ t :: after, b.late (x :: post) = false := by
  have ht : t ∈ before ++ t :: after := List.mem_append_right _ List.mem_cons_self
  rw [rolledBack_target h hw hsplit hx]
  have hnone : (before ++ t :: after).filter (·.late (x :: post)) = [] ↔
      ∀ b ∈ before ++ t :: after, b.late (x :: post) = false := by
    rw [List.filter_eq_nil_iff]
    simp only [Bool.not_eq_true]
  rw [← hnone]
  by_cases hl : (before ++ t :: after).filter (·.late (x :: post)) = []
  · rw [if_neg (fun hne => hne hl), if_neg (by omega), hcount, Nat.add_sub_cancel_left, List.map_append,
      List.drop_left' (List.length_map _)]
    exact iff_of_true rfl hl
  · rw [if_pos hl]
    refine iff_of_false (fun heq => ?_) hl
    have hmem : t.id ∈ ((before ++ t :: after).filter (·.late (x :: post))).map StoredTurn.id := by
      rw [heq]
      exact List.mem_cons_self
    obtain ⟨b, hb, hbid⟩ := List.mem_map.mp hmem
    obtain ⟨hb, hlate⟩ := List.mem_filter.mp hb
    have hsame : b = t := List.inj_on_of_nodup_map hw.ids hb ht hbid
    rw [hsame, StoredTurn.late, hnil] at hlate
    cases hlate

theorem HasRun.forksAt_counted (h : HasRun rest (before ++ t :: after) s) (hw : WellStored (before ++ t :: after))
    (hnil : t.prompts = []) :
    ForksAt s (historyOf (before ++ t :: after)) before.length t.id ↔
      CountedAt before t after ∧ ∀ x ∈ t :: after, x.id ∉ rest.interruptedTurns := by
  have ht : t ∈ before ++ t :: after := List.mem_append_right _ List.mem_cons_self
  have hapart : ∀ m ∈ historyOf (before ++ t :: after), m.uuid ≠ t.id := fun m hm => hw.apart m hm t ht
  have hids := hw.ids
  rw [List.map_append, List.map_cons] at hids
  have hnew : t.id ∉ before.map StoredTurn.id := fun hmem =>
    (List.nodup_append.mp hids).2.2 _ hmem _ List.mem_cons_self rfl
  obtain ⟨hresolve, hcaptured⟩ := h.resolves_other t.id
    (by rw [h.boundary hw ht, hnil]; rfl)
    (fun id hmem => by
      have hlog := mem_log_of_recorded hmem
      rw [map_logOf] at hlog
      obtain ⟨m, hm, he⟩ := List.mem_map.mp hlog
      exact hapart m hm he)
  have htarget : targetMessageIndex s (historyOf (before ++ t :: after)) t.id =
      (promptMessageIndexes (historyOf (before ++ t :: after)))[promptStart (before ++ t :: after) +
        before.length]? := by
    rw [targetMessageIndex_other _ _ fun m hm he => absurd he (hapart m hm), h.turnOrder, List.map_append,
      List.map_cons, idxOf?_split hnew, List.length_map, Option.bind_some, h.historyStart]
  constructor
  · intro hforks
    have hexists := hforks
    obtain ⟨boundary, hok, -⟩ := hexists
    rw [hresolve, resolveHardForkBoundaryFromHistory, htarget] at hok
    cases hindex : (promptMessageIndexes (historyOf (before ++ t :: after)))[promptStart (before ++ t :: after) +
        before.length]? with
    | none =>
      rw [hindex] at hok
      cases hok
    | some index =>
      obtain ⟨pre, x, post, hsplit, hx, rfl, hcount⟩ := exists_split_of_positions hindex
      rw [hindex] at htarget
      obtain ⟨⟨-, hsuffix⟩, hclear⟩ := (h.forksAt_iff hw hsplit hresolve htarget).mp hforks
      have hlate := (h.suffix_iff_of_counted hw hnil hsplit hx hcount).mp hsuffix
      exact ⟨⟨pre, x, post, hsplit, hx, hcount, hlate⟩, hclear⟩
  · rintro ⟨⟨pre, x, post, hsplit, hx, hcount, hlate⟩, hclear⟩
    have hindex := getElem?_positions pre post hx
    rw [← hsplit, ← promptCount, hcount] at hindex
    rw [promptMessageIndexes, hindex] at htarget
    refine (h.forksAt_iff hw hsplit hresolve htarget).mpr ⟨⟨fun captured hc => ?_, ?_⟩, hclear⟩
    · rw [hcaptured] at hc
      cases hc
    · exact (h.suffix_iff_of_counted hw hnil hsplit hx hcount).mpr hlate

theorem HasRun.forksAt_unrecorded (h : HasRun rest (before ++ t :: after) s) (hw : WellStored (before ++ t :: after))
    {m : TurnMessage} (hm : m ∈ t.messages) (hnot : m.uuid ∉ t.prompts) :
    ForksAt s (historyOf (before ++ t :: after)) before.length m.uuid ↔
      UnrecordedAt before t after m.uuid ∧ ∀ x ∈ t :: after, x.id ∉ rest.interruptedTurns := by
  have ht : t ∈ before ++ t :: after := List.mem_append_right _ List.mem_cons_self
  have hlog : (t.id, m) ∈ logOf (before ++ t :: after) :=
    List.mem_flatMap.mpr ⟨t, ht, List.mem_map_of_mem hm⟩
  have hnodup := hw.uuids
  obtain ⟨hresolve, hcaptured⟩ := h.resolves_other m.uuid
    (by rw [h.records.boundary, recordedOf_eq_nil _ (ne_id_of_mem hw ht hm)]; rfl)
    (fun id hmem => by
      obtain ⟨m', hlog', hrecorded, he⟩ := exists_of_recorded hmem
      have hpairs := hnodup
      rw [← map_logOf] at hpairs
      have hsame : (id, m') = (t.id, m) := List.inj_on_of_nodup_map hpairs hlog' hlog he
      obtain ⟨-, rfl⟩ := Prod.mk.inj hsame
      exact hnot (List.mem_map_of_mem (List.mem_filter.mpr ⟨hm, hrecorded⟩)))
  have hunresolved : ∀ boundary, ∀ captured,
      s.resolveHardForkBoundaryFromCapturedTurns m.uuid = some captured → captured = boundary := by
    intro boundary captured hc
    rw [hcaptured] at hc
    cases hc
  -- the fork at a prompt with this id
  have hat : ∀ m₁ m₂, ∀ x : TurnMessage, t.messages = m₁ ++ x :: m₂ → x.uuid = m.uuid → x.isPrompt = true →
      (ForksAt s (historyOf (before ++ t :: after)) before.length m.uuid ↔
        (resolveRolledBackTurnIdsFromHistory s (historyOf (before ++ t :: after))
            (historyOf before ++ m₁.map TurnMessage.toSdkSessionMessage).length = (t :: after).map StoredTurn.id) ∧
          ∀ x ∈ t :: after, x.id ∉ rest.interruptedTurns) := by
    intro m₁ m₂ x hmessages hxm hx
    have hin : TargetIn before t after _ _ _ m₁ m₂ x := targetIn hmessages
    have htarget := hin.index (s := s) hw hx
    rw [hxm] at htarget
    rw [h.forksAt_iff hw hin.split hresolve htarget, and_iff_right (hunresolved _)]
  constructor
  · intro hforks
    cases hx : m.isPrompt with
    | true =>
      obtain ⟨m₁, m₂, hmessages⟩ := List.append_of_mem hm
      obtain ⟨hsuffix, hclear⟩ := (hat m₁ m₂ m hmessages rfl hx).mp hforks
      have hin : TargetIn before t after _ _ _ m₁ m₂ m := targetIn hmessages
      exact ⟨⟨m₁, m, m₂, hmessages, rfl, hx, (hin.suffix_iff hw h hx).mp hsuffix⟩, hclear⟩
    | false =>
      obtain ⟨boundary, hok, -⟩ := hforks
      have hother := targetMessageIndex_other (s := s)
        (historyOf (before ++ t :: after)) m.uuid fun y hy he => by
          have hsame : y = m.toSdkSessionMessage := List.inj_on_of_nodup_map hnodup hy (mem_historyOf ht hm) he
          rw [hsame]
          exact hx
      have hnone : s.state.turnOrder.idxOf? m.uuid = none := by
        rw [List.idxOf?_eq_none_iff, h.turnOrder]
        intro hmem
        obtain ⟨t', ht', he⟩ := List.mem_map.mp hmem
        exact ne_id_of_mem hw ht hm t' ht' he
      rw [hresolve, resolveHardForkBoundaryFromHistory, hother, hnone] at hok
      cases hok
  · rintro ⟨⟨m₁, x, m₂, hmessages, hxm, hx, hcount⟩, hclear⟩
    have hin : TargetIn before t after _ _ _ m₁ m₂ x := targetIn hmessages
    exact (hat m₁ m₂ x hmessages hxm hx).mpr ⟨(hin.suffix_iff hw h hx).mpr hcount, hclear⟩

/-- For which boundaries the two ways agree and roll back the turns from the boundary's turn on, with nothing of these
left. -/
theorem hard_fork_agrees_iff (rest : BridgeClient.SessionState) (turnPromptTexts : Table String String)
    (hw : WellStored (before ++ t :: after)) (hboundary : BoundaryOf t rollbackBoundaryId) :
    ForksAt (ForkSession.afterTurns rest turnPromptTexts (before ++ t :: after)) (historyOf (before ++ t :: after))
        before.length rollbackBoundaryId ↔
      BoundaryKnown before t after rollbackBoundaryId ∧ ∀ x ∈ t :: after, x.id ∉ rest.interruptedTurns := by
  have h := hasRun_afterTurns rest turnPromptTexts hw
  have ht : t ∈ before ++ t :: after := List.mem_append_right _ List.mem_cons_self
  unfold BoundaryKnown
  by_cases hrecorded : t.prompts ≠ [] ∧ (rollbackBoundaryId = t.id ∨ rollbackBoundaryId ∈ t.prompts)
  · rw [if_pos hrecorded]
    exact h.forksAt_recorded hw hrecorded.1 hrecorded.2
  · rw [if_neg hrecorded]
    cases hboundary with
    | turn =>
      rw [if_pos rfl]
      have hnil : t.prompts = [] := by
        by_contra hsome
        exact hrecorded ⟨hsome, .inl rfl⟩
      exact h.forksAt_counted hw hnil
    | message m hm huser =>
      rw [if_neg fun he => ne_id_of_mem hw ht hm t ht he.symm]
      exact h.forksAt_unrecorded hw hm fun hmem => hrecorded ⟨List.ne_nil_of_mem hmem, .inr hmem⟩

end

/-! ## Sessions of two and three turns -/

def promptMessage (uuid : String) (seen : Bool) : TurnMessage := ⟨⟨.user, uuid, .obj [("content", .str "go")]⟩, seen⟩

def answerMessage (uuid : String) : TurnMessage := ⟨⟨.assistant, uuid, .null⟩, true⟩

def storedOne : StoredTurn := ⟨"turn_1", [promptMessage "p1" true, answerMessage "a1"]⟩

def storedTwo : StoredTurn := ⟨"turn_2", [promptMessage "p2" true, answerMessage "a2"]⟩

def storedThree : StoredTurn := ⟨"turn_3", [promptMessage "p3" false, answerMessage "a3"]⟩

theorem wellStored_three : WellStored [storedOne, storedTwo, storedThree] where
  ids := by decide +kernel
  named := by decide +kernel
  uuids := by decide +kernel
  trimmed := by decide +kernel
  apart := by decide +kernel

/-- With all of it recorded, the second turn is where the fork begins, by either way. -/
theorem hard_fork_agrees_two :
    ForksAt (ForkSession.afterTurns (createSessionState "claude_sess_1") ∅ ([storedOne] ++ [storedTwo]))
      (historyOf ([storedOne] ++ [storedTwo])) 1 "turn_2" := by
  have hw : WellStored ([storedOne] ++ storedTwo :: []) :=
    @WellStored.init [storedOne, storedTwo] storedThree wellStored_three
  refine (hard_fork_agrees_iff (createSessionState "claude_sess_1") ∅ hw .turn).mpr ⟨?_, fun x _ => List.not_mem_nil⟩
  rw [BoundaryKnown, if_pos ⟨by decide +kernel, .inl rfl⟩]
  refine ⟨fun a ha => absurd ha List.not_mem_nil, .inr ⟨?_, ?_⟩⟩
  · have hnone : storedTwo.beforePrompt = [] := by decide +kernel
    rw [hnone]
    exact fun m hm => absurd hm List.not_mem_nil
  · intro m hm
    have hlast : (storedOne.messages.filter TurnMessage.isAnswer).getLast? = some (answerMessage "a1") := by
      decide +kernel
    have hm' : (storedOne.messages.filter TurnMessage.isAnswer).getLast? = some m := hm
    rw [hlast] at hm'
    obtain rfl := Option.some.inj hm'
    rfl

/-- The third turn, whose prompt was not recorded, is left out of what the history rolls back. -/
theorem not_hard_fork_agrees : ¬ ∀ (rest : BridgeClient.SessionState) (turnPromptTexts : Table String String)
    (before : List StoredTurn) (t : StoredTurn) (after : List StoredTurn) (rollbackBoundaryId : String),
      WellStored (before ++ t :: after) → BoundaryOf t rollbackBoundaryId →
        ForksAt (ForkSession.afterTurns rest turnPromptTexts (before ++ t :: after))
          (historyOf (before ++ t :: after)) before.length rollbackBoundaryId := by
  intro hall
  have hforks := hall (createSessionState "claude_sess_1") ∅ [storedOne] storedTwo [storedThree] "turn_2"
    wellStored_three .turn
  have hw : WellStored ([storedOne] ++ storedTwo :: [storedThree]) := wellStored_three
  have hrun := hasRun_afterTurns (createSessionState "claude_sess_1") ∅ hw
  obtain ⟨⟨hlater, -⟩, -⟩ := (hrun.forksAt_recorded hw (by decide +kernel) (.inl rfl)).mp hforks
  exact hlater storedThree (List.mem_singleton.mpr rfl) (by decide +kernel)

end Gooselake.Providers.HardFork
