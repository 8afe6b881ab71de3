import Gooselake.Providers.ForkTables

/-!
The two ways to find the boundary of a hard fork, for a session whose stored history is that of its turns: what the
history says of a target in it, what the tables say of a recorded prompt, and when the two agree on the turns from the
boundary's turn on.
-/

namespace Gooselake.Providers.HardFork

open Gooselake.Core Data Library BridgeClient

set_option autoImplicit false

/-! ## A target in the history -/

def StoredTurn.late (messages : List SdkSessionMessage) (t : StoredTurn) : Bool :=
  t.prompts.head?.any fun uuid => uuid ∈ uuids messages

def lastAnswer (messages : List SdkSessionMessage) : Option String :=
  ((messages.filter fun m => m.type = .assistant).getLast?).map (·.uuid)

def promptCount (messages : List SdkSessionMessage) : ℕ := messages.countP isSdkSessionHistoryUserPromptMessage

def promptStart (turns : List StoredTurn) : ℕ := promptCount (historyOf turns) - turns.length

theorem truthy_some {text : String} (h : text ≠ "") : truthy (some text) = some text := by
  simp [truthy, h]

theorem pushNew_of_nodup (p : String → Bool) {ids : List String} (h : ids.Nodup) : pushNew p ids = ids.filter p := by
  have hfrom : ∀ (ids acc : List String), ids.Nodup → (∀ id ∈ ids, id ∉ acc) →
      ids.foldl (fun acc id => if p id ∧ id ∉ acc then acc ++ [id] else acc) acc = acc ++ ids.filter p := by
    intro ids
    induction ids with
    | nil =>
      intro acc _ _
      exact (List.append_nil acc).symm
    | cons id ids ih =>
      intro acc hnodup hapart
      obtain ⟨hnew, hnodup⟩ := List.nodup_cons.mp hnodup
      have hid := hapart id List.mem_cons_self
      rw [List.foldl_cons, List.filter_cons]
      cases hp : p id with
      | false =>
        rw [if_neg (fun h => by cases h.1), if_neg (by decide)]
        exact ih acc hnodup fun x hx => hapart x (List.mem_cons_of_mem id hx)
      | true =>
        rw [if_pos ⟨rfl, hid⟩, if_pos rfl, ih (acc ++ [id]) hnodup, List.append_assoc, List.singleton_append]
        intro x hx hmem
        rcases List.mem_append.mp hmem with hmem | hmem
        · exact hapart x (List.mem_cons_of_mem id hx) hmem
        · exact hnew (List.mem_singleton.mp hmem ▸ hx)
  exact hfrom ids [] h fun _ _ => List.not_mem_nil

section

variable {pre post : List SdkSessionMessage} {x : SdkSessionMessage}

theorem messageIndexByUuid_split (hnodup : (uuids (pre ++ x :: post)).Nodup)
    (htrim : ∀ m ∈ pre ++ x :: post, jsTrim m.uuid = m.uuid ∧ m.uuid ≠ "") :
    messageIndexByUuid (pre ++ x :: post) x.uuid = some pre.length := by
  have hx := htrim x (List.mem_append_right _ List.mem_cons_self)
  rw [uuids, List.map_append, List.map_cons] at hnodup
  rw [messageIndexByUuid]
  apply findIdx?_split
  · rw [decide_eq_true_eq, hx.1]
    exact ⟨hx.2, rfl⟩
  · intro y hy
    rw [decide_eq_false_iff_not, (htrim y (List.mem_append_left _ hy)).1]
    rintro ⟨-, he⟩
    exact (List.nodup_append.mp hnodup).2.2 _ (List.mem_map_of_mem hy) _ List.mem_cons_self he

theorem messageIndexByUuid_late (hnodup : (uuids (pre ++ x :: post)).Nodup)
    (htrim : ∀ m ∈ pre ++ x :: post, jsTrim m.uuid = m.uuid ∧ m.uuid ≠ "") (uuid : String) :
    (messageIndexByUuid (pre ++ x :: post) uuid).any (fun i => decide (pre.length ≤ i)) =
      decide (uuid ∈ uuids (x :: post)) := by
  by_cases hlate : uuid ∈ uuids (x :: post)
  · obtain ⟨y, hy, rfl⟩ := List.mem_map.mp hlate
    obtain ⟨between, after, hsplit⟩ := List.append_of_mem hy
    rw [hsplit, ← List.append_assoc] at hnodup htrim ⊢
    rw [messageIndexByUuid_split hnodup htrim, Option.any_some, List.length_append]
    have hmem : y.uuid ∈ uuids (between ++ y :: after) := by
      rw [← hsplit]
      exact hlate
    rw [decide_eq_true hmem, decide_eq_true (Nat.le_add_right _ _)]
  · rw [decide_eq_false hlate]
    by_cases hearly : uuid ∈ uuids pre
    · obtain ⟨y, hy, rfl⟩ := List.mem_map.mp hearly
      obtain ⟨before, between, hsplit⟩ := List.append_of_mem hy
      have hlt : before.length < pre.length := by
        rw [hsplit, List.length_append, List.length_cons]
        omega
      have hfound := @messageIndexByUuid_split before (between ++ x :: post) y
      rw [← List.cons_append, ← List.append_assoc, ← hsplit] at hfound
      rw [hfound hnodup htrim, Option.any_some, decide_eq_false (Nat.not_le.mpr hlt)]
    · have hnone : messageIndexByUuid (pre ++ x :: post) uuid = none := by
        rw [messageIndexByUuid, List.findIdx?_eq_none_iff]
        intro y hy
        rw [decide_eq_false_iff_not, (htrim y hy).1]
        rintro ⟨-, rfl⟩
        rcases List.mem_append.mp hy with hy | hy
        · exact hearly (List.mem_map_of_mem hy)
        · exact hlate (List.mem_map_of_mem hy)
      rw [hnone]
      rfl

theorem predecessorAssistantUuid_eq {messages : List SdkSessionMessage}
    (htrim : ∀ m ∈ messages, jsTrim m.uuid = m.uuid ∧ m.uuid ≠ "") :
    predecessorAssistantUuid messages = lastAnswer messages := by
  induction messages using List.reverseRecOn with
  | nil => rfl
  | append_singleton messages m ih =>
    have hm := htrim m (List.mem_append_right _ (List.mem_singleton.mpr rfl))
    rw [predecessorAssistantUuid, List.reverse_append, List.reverse_singleton, List.singleton_append,
      List.findSome?_cons, lastAnswer, List.filter_append]
    by_cases hassistant : m.type = .assistant
    · rw [if_pos hassistant, hm.1, truthy_some hm.2]
      simp [hassistant]
    · rw [if_neg hassistant]
      have hrest := ih fun y hy => htrim y (List.mem_append_left _ hy)
      rw [predecessorAssistantUuid, lastAnswer] at hrest
      simpa [hassistant] using hrest

end

/-! ## The turns that are rolled back -/

section

variable {rest : BridgeClient.SessionState} {turns before after : List StoredTurn} {t : StoredTurn} {s : ForkSession}
  {pre post : List SdkSessionMessage} {x : SdkSessionMessage}

theorem HasRun.boundary (h : HasRun rest turns s) (hw : WellStored turns) (ht : t ∈ turns) :
    s.turnRollbackBoundaryIds.lookup t.id = t.prompts.head? := by
  rw [h.records.boundary, recordedOf_logOf hw.ids _ ht]
  rfl

theorem HasRun.turnOrder (h : HasRun rest turns s) : s.state.turnOrder = turns.map StoredTurn.id := by
  rw [h.state]

theorem mem_historyOf (ht : t ∈ turns) {m : TurnMessage} (hm : m ∈ t.messages) :
    m.toSdkSessionMessage ∈ historyOf turns :=
  List.mem_flatMap.mpr ⟨t, ht, List.mem_map_of_mem hm⟩

theorem exists_of_prompts {uuid : String} (h : uuid ∈ t.prompts) :
    ∃ m ∈ t.messages, m.isRecordedPrompt = true ∧ m.uuid = uuid := by
  obtain ⟨m, hm, rfl⟩ := List.mem_map.mp h
  obtain ⟨hm, hrecorded⟩ := List.mem_filter.mp hm
  exact ⟨m, hm, hrecorded, rfl⟩

theorem ne_empty_of_prompts (hw : WellStored turns) (ht : t ∈ turns) {uuid : String} (h : uuid ∈ t.prompts) :
    uuid ≠ "" := by
  obtain ⟨m, hm, -, rfl⟩ := exists_of_prompts h
  exact (hw.trimmed m.toSdkSessionMessage (mem_historyOf ht hm)).2

theorem truthy_head (hw : WellStored turns) (ht : t ∈ turns) : truthy t.prompts.head? = t.prompts.head? := by
  cases hp : t.prompts with
  | nil => rfl
  | cons uuid uuids => exact truthy_some (ne_empty_of_prompts hw ht (hp ▸ List.mem_cons_self))

theorem isRolledBack_eq (h : HasRun rest turns s) (hw : WellStored turns) (hsplit : historyOf turns = pre ++ x :: post)
    (ht : t ∈ turns) : isRolledBack s (historyOf turns) pre.length t.id = t.late (x :: post) := by
  have hnodup := hw.uuids
  have htrim := hw.trimmed
  rw [hsplit] at hnodup htrim
  rw [isRolledBack, h.boundary hw ht, truthy_head hw ht, StoredTurn.late]
  cases t.prompts.head? with
  | none => rfl
  | some uuid =>
    rw [Option.any_some, hsplit]
    exact messageIndexByUuid_late hnodup htrim uuid

theorem HasRun.historyStart (h : HasRun rest turns s) :
    currentTurnHistoryStart s (historyOf turns) = promptStart turns := by
  rw [currentTurnHistoryStart, h.turnOrder, List.length_map, promptMessageIndexes, length_positions]
  rfl

theorem rolledBack_target (h : HasRun rest turns s) (hw : WellStored turns)
    (hsplit : historyOf turns = pre ++ x :: post) (hx : isSdkSessionHistoryUserPromptMessage x = true) :
    resolveRolledBackTurnIdsFromHistory s (historyOf turns) pre.length =
      if turns.filter (·.late (x :: post)) ≠ [] then (turns.filter (·.late (x :: post))).map StoredTurn.id
      else if promptCount pre < promptStart turns then turns.map StoredTurn.id
      else (turns.map StoredTurn.id).drop (promptCount pre - promptStart turns) := by
  have hlate : pushNew (isRolledBack s (historyOf turns) pre.length) (turns.map StoredTurn.id) =
      (turns.filter (·.late (x :: post))).map StoredTurn.id := by
    rw [pushNew_of_nodup _ hw.ids, List.filter_map]
    congr 1
    apply List.filter_congr
    intro t ht
    exact isRolledBack_eq h hw hsplit ht
  have hsome : turns.length ≠ 0 := by
    intro hzero
    rw [List.length_eq_zero_iff.mp hzero] at hsplit
    cases pre <;> cases hsplit
  rw [resolveRolledBackTurnIdsFromHistory, h.turnOrder, hlate, h.historyStart]
  rw [promptMessageIndexes, hsplit, idxOf?_positions hx]
  dsimp only
  rw [List.length_map, List.length_map, ← promptCount]
  by_cases hl : turns.filter (·.late (x :: post)) = []
  · have hnil : ¬(([] : List StoredTurn) ≠ []) := fun hne => hne rfl
    rw [hl, List.length_nil, if_neg (Nat.lt_irrefl 0), if_neg hsome, if_neg hnil]
    by_cases hlt : promptCount pre < promptStart turns
    · rw [if_pos hlt, if_pos hlt]
    · rw [if_neg hlt, if_neg hlt]
      split
      · next hle => rw [List.drop_eq_nil_of_le (by rwa [List.length_map])]
      · rfl
  · rw [if_pos (List.length_pos_iff.mpr hl), if_pos hl]

/-- A target in the turn `t`. -/
structure TargetIn (before : List StoredTurn) (t : StoredTurn) (after : List StoredTurn)
    (pre : List SdkSessionMessage) (x : SdkSessionMessage) (post : List SdkSessionMessage)
    (m₁ m₂ : List TurnMessage) (m : TurnMessage) : Prop where
  messages : t.messages = m₁ ++ m :: m₂
  target : m.toSdkSessionMessage = x
  pre : pre = historyOf before ++ m₁.map TurnMessage.toSdkSessionMessage
  post : post = m₂.map TurnMessage.toSdkSessionMessage ++ historyOf after

variable {m₁ m₂ : List TurnMessage} {m : TurnMessage}

theorem targetIn (hmessages : t.messages = m₁ ++ m :: m₂) :
    TargetIn before t after (historyOf before ++ m₁.map TurnMessage.toSdkSessionMessage) m.toSdkSessionMessage
      (m₂.map TurnMessage.toSdkSessionMessage ++ historyOf after) m₁ m₂ m :=
  ⟨hmessages, rfl, rfl, rfl⟩

theorem TargetIn.split (h : TargetIn before t after pre x post m₁ m₂ m) :
    historyOf (before ++ t :: after) = pre ++ x :: post := by
  rw [historyOf_append, historyOf_cons, h.messages, h.pre, h.post, ← h.target, List.map_append, List.map_cons,
    List.append_assoc, List.append_assoc, List.cons_append]

theorem TargetIn.late (h : TargetIn before t after pre x post m₁ m₂ m) (hw : WellStored (before ++ t :: after)) :
    (before ++ t :: after).filter (·.late (x :: post)) =
      (if t.late (x :: post) = true then [t] else []) ++ after.filter fun a => decide (a.prompts ≠ []) := by
  have hnodup := hw.uuids
  rw [h.split, uuids, List.map_append] at hnodup
  have hearly : ∀ b ∈ before, b.late (x :: post) = false := by
    intro b hb
    rw [StoredTurn.late]
    cases hp : b.prompts.head? with
    | none => rfl
    | some uuid =>
      obtain ⟨m', hm', -, rfl⟩ := exists_of_prompts (List.mem_of_head? hp)
      have hpre : m'.uuid ∈ uuids pre := by
        rw [h.pre, uuids, List.map_append]
        exact List.mem_append_left _ (List.mem_map_of_mem (f := fun m => m.uuid) (mem_historyOf hb hm'))
      rw [Option.any_some, decide_eq_false]
      exact fun hlate => (List.nodup_append.mp hnodup).2.2 _ hpre _ hlate rfl
  have hlater : ∀ a ∈ after, a.late (x :: post) = decide (a.prompts ≠ []) := by
    intro a ha
    rw [StoredTurn.late]
    cases hp : a.prompts with
    | nil => rfl
    | cons uuid uuids' =>
      obtain ⟨m', hm', -, rfl⟩ := exists_of_prompts (hp ▸ List.mem_cons_self : uuid ∈ a.prompts)
      have hpost : m'.uuid ∈ uuids (x :: post) := by
        rw [h.post, uuids, List.map_cons, List.map_append]
        exact List.mem_cons_of_mem _ (List.mem_append_right _
          (List.mem_map_of_mem (f := fun m => m.uuid) (mem_historyOf ha hm')))
      rw [List.head?_cons, Option.any_some, decide_eq_true hpost]
      rfl
  rw [List.filter_append, List.filter_cons, List.filter_eq_nil_iff.mpr fun b hb => by rw [hearly b hb]; decide,
    List.nil_append, List.filter_congr hlater]
  split <;> rfl

theorem TargetIn.suffix_iff (h : TargetIn before t after pre x post m₁ m₂ m)
    (hw : WellStored (before ++ t :: after)) (hs : HasRun rest (before ++ t :: after) s) (hx : m.isPrompt = true) :
    resolveRolledBackTurnIdsFromHistory s (historyOf (before ++ t :: after)) pre.length =
        (t :: after).map StoredTurn.id ↔
      (t.late (x :: post) = true ∧ ∀ a ∈ after, a.prompts ≠ []) ∨
        (t.late (x :: post) = false ∧ (∀ a ∈ after, a.prompts = []) ∧
          ((promptCount pre < promptStart (before ++ t :: after) ∧ before = []) ∨
            promptCount pre = promptStart (before ++ t :: after) + before.length)) := by
  have hprompt : isSdkSessionHistoryUserPromptMessage x = true := by rw [← h.target]; exact hx
  have hfilter : ∀ l : List StoredTurn, (l.filter fun a => decide (a.prompts ≠ [])).length = l.length ↔
      ∀ a ∈ l, a.prompts ≠ [] := by
    intro l
    rw [List.length_filter_eq_length_iff]
    simp only [decide_eq_true_eq]
  rw [rolledBack_target hs hw h.split hprompt, h.late hw]
  cases hlate : t.late (x :: post) with
  | true =>
    rw [if_pos rfl, if_pos (by simp)]
    simp only [List.singleton_append, List.map_cons, List.cons.injEq, true_and, Bool.true_eq_false, false_and, or_false]
    rw [← hfilter]
    constructor
    · intro heq
      have hlength := congrArg List.length heq
      rwa [List.length_map, List.length_map] at hlength
    · intro hlength
      rw [List.filter_eq_self.mpr (fun a ha => decide_eq_true ((hfilter after).mp hlength a ha))]
  | false =>
    simp only [Bool.false_eq_true, if_false, List.nil_append, false_and, false_or, true_and]
    by_cases hnone : after.filter (fun a => decide (a.prompts ≠ [])) = []
    · have hall : ∀ a ∈ after, a.prompts = [] := fun a ha => by
        by_contra hne
        exact List.filter_eq_nil_iff.mp hnone a ha (decide_eq_true hne)
      rw [if_neg (fun hne => hne hnone), and_iff_right hall]
      split
      · next hlt =>
        constructor
        · intro heq
          have hlength := congrArg List.length heq
          simp only [List.length_map, List.length_append, List.length_cons] at hlength
          exact .inl ⟨hlt, List.length_eq_zero_iff.mp (by omega)⟩
        · rintro (⟨-, rfl⟩ | heq)
          · rfl
          · omega
      · next hge =>
        constructor
        · intro heq
          have hlength := congrArg List.length heq
          simp only [List.length_map, List.length_append, List.length_cons, List.length_drop] at hlength
          exact .inr (by omega)
        · rintro (⟨hlt, -⟩ | heq)
          · exact absurd hlt hge
          · rw [heq, Nat.add_sub_cancel_left, List.map_append, List.drop_left' (List.length_map _)]
    · rw [if_pos hnone]
      constructor
      · intro heq
        have hlength := congrArg List.length heq
        have hle := List.length_filter_le (fun a : StoredTurn => decide (a.prompts ≠ [])) after
        simp only [List.length_map, List.length_cons] at hlength
        omega
      · rintro ⟨hall, -⟩
        refine absurd (List.filter_eq_nil_iff.mpr fun a ha => ?_) hnone
        rw [decide_eq_true_eq]
        exact fun hne => hne (hall a ha)

end

/-! ## The assistant message before -/

namespace StoredTurn

def LastSeen (t : StoredTurn) : Prop :=
  ∀ m, (t.messages.filter TurnMessage.isAnswer).getLast? = some m → m.seen = true

end StoredTurn

def NoAnswer (messages : List TurnMessage) : Prop := ∀ m ∈ messages, m.isAnswer = false

theorem lastAnswer_append (xs ys : List SdkSessionMessage) :
    lastAnswer (xs ++ ys) = (lastAnswer ys).or (lastAnswer xs) := by
  rw [lastAnswer, lastAnswer, lastAnswer, List.filter_append, List.getLast?_append]
  cases (ys.filter fun m => m.type = .assistant).getLast? <;> rfl

theorem lastAnswer_map (ms : List TurnMessage) : lastAnswer (ms.map TurnMessage.toSdkSessionMessage) =
    ((ms.filter TurnMessage.isAnswer).getLast?).map (·.uuid) := by
  rw [lastAnswer, List.filter_map, List.getLast?_map, Option.map_map]
  rfl

theorem lastAnswer_eq_none_iff (ms : List TurnMessage) :
    lastAnswer (ms.map TurnMessage.toSdkSessionMessage) = none ↔ NoAnswer ms := by
  rw [lastAnswer_map, Option.map_eq_none_iff, List.getLast?_eq_none_iff, List.filter_eq_nil_iff]
  simp only [Bool.not_eq_true]
  rfl

theorem getLast?_filter {α : Type} {p : α → Bool} {l : List α} {a : α} (h : l.getLast? = some a)
    (ha : p a = true) : (l.filter p).getLast? = some a := by
  obtain ⟨init, rfl⟩ := List.getLast?_eq_some_iff.mp h
  rw [List.filter_append, List.filter_cons_of_pos ha, List.filter_nil, List.getLast?_concat]

section

variable {turns before after : List StoredTurn} {t prev : StoredTurn} {m₁ : List TurnMessage} {uuid : String}

theorem answers_eq (t : StoredTurn) :
    t.answers = ((t.messages.filter TurnMessage.isAnswer).filter (·.seen)).map (·.uuid) := by
  rw [StoredTurn.answers, List.filter_filter]
  rfl

theorem lastAnswer_eq_iff (hnodup : (uuids (prev.messages.map TurnMessage.toSdkSessionMessage ++
      m₁.map TurnMessage.toSdkSessionMessage)).Nodup)
    (earlier : List SdkSessionMessage) (hlast : prev.answers.getLast? = some uuid) :
    lastAnswer (earlier ++ prev.messages.map TurnMessage.toSdkSessionMessage ++
        m₁.map TurnMessage.toSdkSessionMessage) = some uuid ↔ NoAnswer m₁ ∧ prev.LastSeen := by
  rw [uuids, List.map_append] at hnodup
  obtain ⟨hprev, -, hapart⟩ := List.nodup_append.mp hnodup
  have hrecorded : uuid ∈ prev.answers := List.mem_of_getLast? hlast
  rw [answers_eq] at hlast hrecorded
  obtain ⟨seen, hseen, rfl⟩ := List.mem_map.mp hrecorded
  obtain ⟨hanswer, hsaw⟩ := List.mem_filter.mp hseen
  have hin : seen ∈ prev.messages := List.mem_of_mem_filter hanswer
  obtain ⟨last, hlastAnswer⟩ : ∃ last, (prev.messages.filter TurnMessage.isAnswer).getLast? = some last := by
    rw [← Option.isSome_iff_exists, List.getLast?_isSome]
    exact List.ne_nil_of_mem hanswer
  have hlastIn : last ∈ prev.messages := List.mem_of_mem_filter (List.mem_of_getLast? hlastAnswer)
  rw [List.append_assoc, lastAnswer_append, lastAnswer_append, lastAnswer_map prev.messages, hlastAnswer]
  cases hm₁ : lastAnswer (m₁.map TurnMessage.toSdkSessionMessage) with
  | none =>
    rw [and_iff_right ((lastAnswer_eq_none_iff m₁).mp hm₁)]
    show some last.uuid = some seen.uuid ↔ _
    rw [Option.some.injEq]
    constructor
    · intro he m hm
      rw [hlastAnswer] at hm
      obtain rfl := Option.some.inj hm
      rw [List.map_map] at hprev
      rw [List.inj_on_of_nodup_map hprev hlastIn hin he]
      exact hsaw
    · intro hseenLast
      rw [List.getLast?_map, getLast?_filter hlastAnswer (hseenLast last hlastAnswer)] at hlast
      exact Option.some.inj hlast
  | some other =>
    have hother : other ∈ uuids (m₁.map TurnMessage.toSdkSessionMessage) := by
      rw [lastAnswer, Option.map_eq_some_iff] at hm₁
      obtain ⟨m, hm, rfl⟩ := hm₁
      exact List.mem_map_of_mem (List.mem_of_mem_filter (List.mem_of_getLast? hm))
    constructor
    · intro he
      obtain rfl := Option.some.inj he
      have hown : seen.uuid ∈ (prev.messages.map TurnMessage.toSdkSessionMessage).map (·.uuid) := by
        rw [List.map_map]
        exact List.mem_map.mpr ⟨seen, hin, rfl⟩
      exact absurd rfl (hapart _ hown _ hother)
    · rintro ⟨hno, -⟩
      rw [(lastAnswer_eq_none_iff m₁).mpr hno] at hm₁
      cases hm₁

end

/-! ## A recorded prompt -/

section

variable {rest : BridgeClient.SessionState} {turns before after : List StoredTurn} {t : StoredTurn} {s : ForkSession}
  {uuid rollbackBoundaryId : String}

theorem HasRun.turnOf (h : HasRun rest turns s) (hw : WellStored turns) (ht : t ∈ turns) (hu : uuid ∈ t.prompts) :
    truthy (s.userMessageTurnIds.lookup uuid) = some t.id := by
  have hlookup : s.userMessageTurnIds.lookup uuid = some t.id := by
    rw [h.records.turnOf, recordedOf_logOf hw.ids _ ht]
    exact hu
  rw [hlookup, truthy_some (hw.named t ht)]

theorem HasRun.captured (h : HasRun rest (before ++ t :: after) s) (hw : WellStored (before ++ t :: after))
    (hu : uuid ∈ t.prompts) : s.resolveHardForkBoundaryFromCapturedTurns uuid =
      match before.getLast? with
      | none => some ⟨none, (t :: after).map StoredTurn.id⟩
      | some prev => prev.answers.getLast?.map fun answer => ⟨some answer, (t :: after).map StoredTurn.id⟩ := by
  have ht : t ∈ before ++ t :: after := List.mem_append_right _ List.mem_cons_self
  have hids := hw.ids
  rw [List.map_append, List.map_cons] at hids
  have hnew : t.id ∉ before.map StoredTurn.id := fun hmem =>
    (List.nodup_append.mp hids).2.2 _ hmem _ List.mem_cons_self rfl
  have horder : s.state.turnOrder = before.map StoredTurn.id ++ t.id :: after.map StoredTurn.id := by
    rw [h.turnOrder, List.map_append, List.map_cons]
  rw [ForkSession.resolveHardForkBoundaryFromCapturedTurns, h.turnOf hw ht hu]
  dsimp only
  rw [horder, idxOf?_split hnew, List.length_map]
  rcases List.eq_nil_or_concat' before with rfl | ⟨init, prev, rfl⟩
  · rfl
  · have hprev : prev ∈ init ++ [prev] ++ t :: after :=
      List.mem_append_left _ (List.mem_append_right _ (List.mem_singleton.mpr rfl))
    have hanswers : (s.turnAssistantMessageIds.lookup prev.id).getD [] = prev.answers := by
      rw [h.records.assistants, recordedOf_logOf hw.ids _ hprev]
      rfl
    have hat : ((init ++ [prev]).map StoredTurn.id ++ t.id :: after.map StoredTurn.id)[init.length]? =
        some prev.id := by
      rw [List.map_append, List.append_assoc, List.getElem?_append_right (by rw [List.length_map]), List.length_map,
        Nat.sub_self]
      rfl
    have hdrop : ((init ++ [prev]).map StoredTurn.id ++ t.id :: after.map StoredTurn.id).drop (init.length + 1) =
        (t :: after).map StoredTurn.id :=
      List.drop_left' (by rw [List.length_map, List.length_append, List.length_singleton])
    rw [List.length_append, List.length_singleton, List.getLast?_concat]
    dsimp only
    rw [hat, truthy_some (hw.named prev hprev)]
    dsimp only
    rw [hanswers, hdrop]
    cases hlast : prev.answers.getLast? with
    | none => rfl
    | some answer =>
      have hne : answer ≠ "" := by
        obtain ⟨m, hm, rfl⟩ := List.mem_map.mp (List.mem_of_getLast? hlast)
        exact (hw.trimmed m.toSdkSessionMessage (mem_historyOf hprev (List.mem_of_mem_filter hm))).2
      rw [truthy_some hne]
      rfl

theorem ne_id_of_mem (hw : WellStored turns) (ht : t ∈ turns) {m : TurnMessage} (hm : m ∈ t.messages) :
    ∀ t' ∈ turns, t'.id ≠ m.uuid := fun t' ht' he =>
  hw.apart m.toSdkSessionMessage (mem_historyOf ht hm) t' ht' he.symm

theorem HasRun.resolves_recorded (h : HasRun rest turns s) (hw : WellStored turns) (ht : t ∈ turns)
    (hhead : t.prompts.head? = some uuid) (hgiven : rollbackBoundaryId = t.id ∨ rollbackBoundaryId ∈ t.prompts) :
    s.resolveRollbackBoundaryIdForTurn rollbackBoundaryId = uuid := by
  have hne := ne_empty_of_prompts hw ht (List.mem_of_head? hhead)
  have hturn : s.turnRollbackBoundaryIds.lookup t.id = some uuid := (h.boundary hw ht).trans hhead
  rw [ForkSession.resolveRollbackBoundaryIdForTurn]
  rcases hgiven with rfl | hmem
  · rw [hturn, truthy_some hne]
  · obtain ⟨m, hm, -, rfl⟩ := exists_of_prompts hmem
    have hnone : s.turnRollbackBoundaryIds.lookup m.uuid = none := by
      rw [h.records.boundary, recordedOf_eq_nil _ (ne_id_of_mem hw ht hm)]
      rfl
    have hempty : truthy none = none := rfl
    simp only [hnone, hempty, h.turnOf hw ht hmem, hturn, Option.getD_some]

theorem HasRun.resolves_other (rollbackBoundaryId : String) (h : HasRun rest turns s)
    (hboundary : truthy (s.turnRollbackBoundaryIds.lookup rollbackBoundaryId) = none)
    (hnot : ∀ id, rollbackBoundaryId ∉ recordedOf TurnMessage.isRecordedPrompt (logOf turns) id) :
    s.resolveRollbackBoundaryIdForTurn rollbackBoundaryId = rollbackBoundaryId ∧
      s.resolveHardForkBoundaryFromCapturedTurns rollbackBoundaryId = none := by
  have hnone : s.userMessageTurnIds.lookup rollbackBoundaryId = none := by
    cases hl : s.userMessageTurnIds.lookup rollbackBoundaryId with
    | none => rfl
    | some id => exact absurd ((h.records.turnOf _ id).mp hl) (hnot id)
  constructor
  · rw [ForkSession.resolveRollbackBoundaryIdForTurn, hboundary, hnone]
    rfl
  · rw [ForkSession.resolveHardForkBoundaryFromCapturedTurns, hnone]
    rfl

/-! ## The target of a boundary -/

theorem targetMessageIndex_prompt {pre post : List SdkSessionMessage} {x : SdkSessionMessage}
    (hnodup : (uuids (pre ++ x :: post)).Nodup) (hx : isSdkSessionHistoryUserPromptMessage x = true) :
    targetMessageIndex s (pre ++ x :: post) x.uuid = some pre.length := by
  have huser : x.type = .user := by
    rw [isSdkSessionHistoryUserPromptMessage, Bool.and_eq_true, decide_eq_true_eq] at hx
    exact hx.1
  rw [uuids, List.map_append, List.map_cons] at hnodup
  rw [targetMessageIndex, findIdx?_split]
  · simp [huser, hx]
  · intro y hy
    have hne : y.uuid ≠ x.uuid := fun he =>
      (List.nodup_append.mp hnodup).2.2 _ (List.mem_map_of_mem hy) _ List.mem_cons_self he
    simp [hne]

theorem targetMessageIndex_other (messages : List SdkSessionMessage) (rollbackBoundaryId : String)
    (hnot : ∀ m ∈ messages, m.uuid = rollbackBoundaryId → isSdkSessionHistoryUserPromptMessage m = false) :
    targetMessageIndex s messages rollbackBoundaryId =
      (s.state.turnOrder.idxOf? rollbackBoundaryId).bind fun targetTurnIndex =>
        (promptMessageIndexes messages)[currentTurnHistoryStart s messages + targetTurnIndex]? := by
  have hnone : messages.findIdx? (fun m => m.type = .user && m.uuid = rollbackBoundaryId &&
      isSdkSessionHistoryUserPromptMessage m) = none := by
    rw [List.findIdx?_eq_none_iff]
    intro m hm
    by_cases he : m.uuid = rollbackBoundaryId
    · rw [hnot m hm he, Bool.and_false]
    · simp [he]
  rw [targetMessageIndex, hnone]
  cases s.state.turnOrder.idxOf? rollbackBoundaryId <;> rfl

theorem TargetIn.index {pre post : List SdkSessionMessage} {x : SdkSessionMessage} {m₁ m₂ : List TurnMessage}
    {m : TurnMessage} (h : TargetIn before t after pre x post m₁ m₂ m) (hw : WellStored (before ++ t :: after))
    (hx : m.isPrompt = true) :
    targetMessageIndex s (historyOf (before ++ t :: after)) m.uuid = some pre.length := by
  have hprompt : isSdkSessionHistoryUserPromptMessage x = true := by rw [← h.target]; exact hx
  have hnodup := hw.uuids
  rw [h.split] at hnodup
  have hindex := targetMessageIndex_prompt (s := s) hnodup hprompt
  rw [← h.split, ← h.target] at hindex
  exact hindex

end

end Gooselake.Providers.HardFork
