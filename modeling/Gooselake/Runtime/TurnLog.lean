import Gooselake.Core.EventLog
import Gooselake.Runtime.Agreement
import Gooselake.Runtime.Pieces

/-!
The events of a turn in the event log. Most pieces of the session manager append none; inserting the
session of a send, applying a decision and applying a result append at most one.
-/

namespace Gooselake.Runtime

open Gooselake.Core Data Library Library.Exec

set_option autoImplicit false

def ofTurn (sid turnId : String) (e : RuntimeEventRecord) : Bool :=
  e.scope = .session && e.scopeId = sid && e.turnId = some turnId && e.kind ∈ turnKinds

/-- The kinds of the events stored for the turn, in their order. -/
def Manager.turnLog (m : Manager) (sid turnId : String) : List String :=
  (m.store.events.filter (ofTurn sid turnId)).map fun e => e.kind

def EventsNumbered (m : Manager) : Prop := ∀ e ∈ m.store.events, ∃ stem n, n < m.nextId ∧ e.eventId = numbered stem n

def Silent (m m' : Manager) : Prop :=
  EventsNumbered m → EventsNumbered m' ∧ ∀ sid turnId, m'.turnLog sid turnId = m.turnLog sid turnId

def Records (sid turnId kind : String) (m m' : Manager) : Prop :=
  EventsNumbered m → EventsNumbered m' ∧ ∀ s t, m'.turnLog s t =
    m.turnLog s t ++ if s = sid ∧ t = turnId then [kind] else []

theorem Silent.refl (m : Manager) : Silent m m := fun hn => ⟨hn, fun _ _ => rfl⟩

theorem Silent.trans {m m' m'' : Manager} (h : Silent m m') (h' : Silent m' m'') : Silent m m'' := by
  intro hn
  obtain ⟨hn', hlog⟩ := h hn
  obtain ⟨hn'', hlog'⟩ := h' hn'
  exact ⟨hn'', fun sid turnId => (hlog' sid turnId).trans (hlog sid turnId)⟩

theorem Silent.records {m m' m'' : Manager} {sid turnId kind : String} (h : Silent m m')
    (h' : Records sid turnId kind m' m'') : Records sid turnId kind m m'' := by
  intro hn
  obtain ⟨hn', hlog⟩ := h hn
  obtain ⟨hn'', hlog'⟩ := h' hn'
  exact ⟨hn'', fun s t => by rw [hlog', hlog]⟩

theorem Records.silent {m m' m'' : Manager} {sid turnId kind : String} (h : Records sid turnId kind m m')
    (h' : Silent m' m'') : Records sid turnId kind m m'' := by
  intro hn
  obtain ⟨hn', hlog⟩ := h hn
  obtain ⟨hn'', hlog'⟩ := h' hn'
  exact ⟨hn'', fun s t => by rw [hlog', hlog]⟩

instance : Std.Refl Silent := ⟨Silent.refl⟩

instance : Trans Silent Silent Silent := ⟨Silent.trans⟩

theorem Silent.of_events {m m' : Manager} (he : m'.store.events = m.store.events) (hn : m.nextId ≤ m'.nextId) :
    Silent m m' := by
  intro hnumbered
  constructor
  · intro e hmem
    rw [he] at hmem
    obtain ⟨stem, n, hlt, hid⟩ := hnumbered e hmem
    exact ⟨stem, n, by omega, hid⟩
  · intro sid turnId
    rw [Manager.turnLog, he, Manager.turnLog]

/-! ## Appending an event -/

section

variable {m : Manager} {sessionId kind : String} {turnId : Option String} {payload : Json}

theorem appendSessionEvent_log (hn : EventsNumbered m) :
    After (appendSessionEvent sessionId turnId kind payload) m fun r m' => EventsNumbered m' ∧
      ∀ s t, m'.turnLog s t = m.turnLog s t ++
        if r.isOk = true ∧ s = sessionId ∧ some t = turnId ∧ kind ∈ turnKinds then [kind] else [] := by
  unfold appendSessionEvent appendEvent
  simp only [after_bind_iff, after_allocateId, after_nowMs, after_onStore]
  generalize hevent : NewRuntimeEvent.mk _ _ _ _ _ _ _ _ _ _ _ _ = event
  obtain ⟨stem, hid⟩ : ∃ stem, event.eventId = numbered stem m.nextId := by
    rw [← hevent]
    exact ⟨_, rfl⟩
  -- the id is new, so no stored event has it
  have hnew : m.store.events.find? (fun e => e.eventId = event.eventId) = none := by
    rw [List.find?_eq_none]
    intro e he
    obtain ⟨stem', n, hlt, hold⟩ := hn e he
    rw [decide_eq_true_eq, hold, hid]
    intro heq
    have := numbered_inj heq
    omega
  rcases appendRuntimeEvent_cases event m.store with ⟨hsame, hexisting⟩ | ⟨-, hok, hevents⟩
  · cases hr : (Store.appendRuntimeEvent event m.store).1 with
    | ok record =>
      rw [hexisting record hr] at hnew
      cases hnew
    | error e =>
      have hsilent : Silent m { m with nextId := m.nextId + 1, store := (Store.appendRuntimeEvent event m.store).2 } :=
        .of_events hsame (Nat.le_succ _)
      obtain ⟨hn', hlog⟩ := hsilent hn
      refine ⟨hn', fun s t => ?_⟩
      rw [hlog, if_neg (fun h => by cases h.1), List.append_nil]
  · rw [hok]
    simp only [after_modify, after_pure]
    constructor
    · intro e he
      change e ∈ (Store.appendRuntimeEvent event m.store).2.events at he
      rw [hevents, List.mem_append, List.mem_singleton] at he
      rcases he with he | rfl
      · obtain ⟨stem', n, hlt, hold⟩ := hn e he
        exact ⟨stem', n, Nat.lt_succ_of_lt hlt, hold⟩
      · exact ⟨stem, m.nextId, Nat.lt_succ_self _, hid⟩
    · intro s t
      simp only [Manager.turnLog]
      rw [hevents, List.filter_append, List.map_append]
      congr 1
      subst hevent
      by_cases hmatch : s = sessionId ∧ some t = turnId ∧ kind ∈ turnKinds
      · obtain ⟨rfl, rfl, hkind⟩ := hmatch
        simp [ofTurn, appendedRecord, hkind, Except.isOk, Except.toBool]
      · rw [if_neg (fun h => hmatch h.2), List.map_eq_nil_iff, List.filter_eq_nil_iff]
        intro e he
        obtain rfl := List.mem_singleton.mp he
        simp only [ofTurn, appendedRecord, decide_true, Bool.true_and, Bool.and_eq_true]
        rintro ⟨⟨hs, ht⟩, hk⟩
        exact hmatch ⟨(of_decide_eq_true hs).symm, (of_decide_eq_true ht).symm, of_decide_eq_true hk⟩

theorem silent_event (hother : turnId = none ∨ kind ∉ turnKinds) :
    Within Silent (appendSessionEvent sessionId turnId kind payload) := by
  intro m
  by_cases hn : EventsNumbered m
  · refine (appendSessionEvent_log hn).mono fun r m' h _ => ⟨h.1, fun s t => ?_⟩
    rw [h.2, if_neg, List.append_nil]
    rintro ⟨-, -, ht, hk⟩
    rcases hother with rfl | hkind
    · cases ht
    · exact hkind hk
  · exact ⟨fun h => absurd h hn⟩

theorem records_event {turn : String} (hkind : kind ∈ turnKinds) :
    After (appendSessionEvent sessionId (some turn) kind payload) m fun r m' =>
      if r.isOk = true then Records sessionId turn kind m m' else Silent m m' := by
  by_cases hn : EventsNumbered m
  · refine (appendSessionEvent_log hn).mono fun r m' h => ?_
    cases hr : r.isOk with
    | true =>
      rw [if_pos rfl]
      refine fun _ => ⟨h.1, fun s t => ?_⟩
      rw [h.2]
      simp only [hr, hkind, Option.some.injEq, true_and, and_true]
    | false =>
      rw [if_neg Bool.false_ne_true]
      refine fun _ => ⟨h.1, fun s t => ?_⟩
      rw [h.2, hr, if_neg (fun h => by cases h.1), List.append_nil]
  · refine ⟨?_⟩
    split
    · exact fun h => absurd h hn
    · exact fun h => absurd h hn

end

/-! ## Pieces that append no event of a turn -/

section

variable {α : Type}

theorem silent_modify {f : Manager → Manager} (he : ∀ m, (f m).store.events = m.store.events)
    (hn : ∀ m, m.nextId ≤ (f m).nextId) : Within Silent (modify f : RuntimeM Unit) :=
  .modify fun m => .of_events (he m) (hn m)

theorem silent_allocateId (stem suffix : String) : Within Silent (allocateId stem suffix) :=
  .bind ReadOnly.get.within fun _ => .bind (silent_modify (fun _ => rfl) fun m => Nat.le_succ m.nextId) fun _ =>
    within_pure _

theorem silent_onStore {f : Store → Except RuntimeError α × Store} (h : ∀ st, (f st).2.events = st.events) :
    Within Silent (onStore f) := fun m => (after_onStore f _).mpr (.of_events (h m.store) le_rfl)

theorem silent_upsertTurn (r : TurnRecord) : Within Silent (onStore (Store.upsertTurn r)) :=
  silent_onStore (Store.write_keeps (g := Store.events) (fun _ _ => rfl) fun _ => rfl)

theorem allows_silent : Allows Silent where
  allocates := silent_allocateId
  upsertsSession _ := silent_onStore (Store.write_keeps (g := Store.events) (fun _ _ => rfl) fun _ => rfl)
  upsertsApproval _ := silent_onStore (Store.write_keeps (g := Store.events) (fun _ _ => rfl) fun _ => rfl)
  insertsSession _ _ := silent_modify (fun _ => rfl) fun _ => le_rfl
  insertsTurn _ _ := silent_modify (fun _ => rfl) fun _ => le_rfl
  insertsApproval _ _ := silent_modify (fun _ => rfl) fun _ => le_rfl
  appends _ _ _ _ hother := silent_event hother

theorem silent_spawnWaitForTurn (provider : ProviderKind) (sessionId turnId : String) :
    Within Silent (spawnWaitForTurn provider sessionId turnId) := by
  refine silent_modify (fun m => ?_) fun m => ?_
  · split <;> rfl
  · split <;> exact le_rfl

theorem silent_changeTurn (key : String) (f : TurnRecord → TurnRecord) : Within Silent (changeTurn key f) := by
  refine .bind ReadOnly.get.within fun m => ?_
  split
  · exact .bind (allows_silent.insertsTurn _ _) fun _ => silent_upsertTurn _
  · exact within_pure _

theorem silent_sendTurnStore (c : SendCall) (ack : Except RuntimeError ProviderTurnAck) :
    Within Silent (sendTurnStore c ack) :=
  .bind within_nowMs fun _ => .bind (ReadOnly.ofExcept _).within fun _ => .bind (silent_upsertTurn _) fun _ =>
    .bind (allows_silent.upsertsSession _) fun _ => within_pure _

theorem silent_applyTerminalFailureTurn (turnId : String) (error : RuntimeError) :
    Within Silent (applyTerminalFailureTurn turnId error) := by
  refine .bind within_nowMs fun _ => .bind ReadOnly.get.within fun _ => ?_
  split
  · exact .ite (within_pure _) (silent_changeTurn _ _)
  · exact within_pure _

def Call.recordsTurn : Call → Bool
  | .sendInsertSession w => w.failure.isSome || w.call.approvalId.isNone
  | .respondApply _ _ => true
  | _ => false

theorem silent_goOn {c : Call} {piece : RuntimeM (Option Call)} (hp : Piece c piece) (hc : c.recordsTurn = false) :
    Within Silent piece := by
  refine allows_silent.goOn hp (fun c _ => silent_sendTurnStore c) (fun w hw => ?_) fun d resolved hd => ?_
  · subst hw
    refine .bind (allows_silent.insertsSession _ _) fun _ => ?_
    -- only an approval is stored here
    split
    · next hfailure => simp [Call.recordsTurn, hfailure] at hc
    · exact within_then (allows_silent.upsertsApproval _)
    · next happroval => simp [Call.recordsTurn, happroval] at hc
  · subst hd
    cases hc

end

/-! ## The pieces that may append one -/

section

variable {m : Manager}

/-- An event that opens the log of a turn: it starts a turn that runs, or ends one that never ran. -/
def Opens (runs : Prop) (kind : String) : Prop := (kind = "turn.started" ∧ runs) ∨ kind ∈ endKinds

theorem records_event_then {α : Type} {sessionId turnId : String} {payload : Json} {rest : RuntimeM α} (kind : String)
    {p : Except RuntimeError α → Prop} (hkind : kind ∈ turnKinds)
    (hrest : ∀ m', After rest m' fun r m'' => Silent m' m'' ∧ p r) :
    After (do
      let _ ← appendSessionEvent sessionId (some turnId) kind payload
      rest) m fun r m' => Silent m m' ∨ (p r ∧ Records sessionId turnId kind m m') := by
  refine after_bind (records_event hkind) (fun record m₁ h₁ => ?_) fun e m₁ h₁ => ?_
  · exact (hrest m₁).mono fun r m₂ h₂ => .inr ⟨h₂.2, Records.silent h₁ h₂.1⟩
  · exact .inl h₁

theorem sendTurnInsertSession_log (w : SendWrite) :
    After (sendTurnInsertSession w) m fun r m' => Silent m m' ∨
      ((∀ a, r ≠ .ok (some a)) ∧
        ∃ kind, Opens (w.failure = none) kind ∧ Records w.call.sessionId w.call.turnId kind m m') := by
  rw [sendTurnInsertSession, after_bind_iff, after_insertSession]
  have hinsert : Silent m { m with sessions := m.sessions.insert w.call.sessionId w.session } := .of_events rfl le_rfl
  -- the event opens the log of the turn, and no approval follows
  have hopens : ∀ {kind : String} {r : Except RuntimeError (Option ApprovalRecord)} {m' : Manager},
      Opens (w.failure = none) kind →
      (Silent { m with sessions := m.sessions.insert w.call.sessionId w.session } m' ∨
        ((∀ a, r ≠ .ok (some a)) ∧ Records w.call.sessionId w.call.turnId kind
          { m with sessions := m.sessions.insert w.call.sessionId w.session } m')) →
      Silent m m' ∨ ((∀ a, r ≠ .ok (some a)) ∧
        ∃ kind, Opens (w.failure = none) kind ∧ Records w.call.sessionId w.call.turnId kind m m') := by
    intro kind r m' hkind h
    rcases h with h | ⟨hr, h⟩
    · exact .inl (hinsert.trans h)
    · exact .inr ⟨hr, kind, hkind, hinsert.records h⟩
  dsimp only
  split
  · refine (records_event_then "turn.failed" (by decide) fun m' => ?_).mono fun r m' h => hopens (.inr (by decide)) h
    exact (after_throw _ _ _).mpr ⟨Silent.refl m', fun _ h => by cases h⟩
  · refine after_bind (allows_silent.upsertsApproval _ _) (fun _ m' h => ?_) fun e m' h => .inl (hinsert.trans h)
    exact (after_pure _ _ _).mpr (.inl (hinsert.trans h))
  · next hfailure _ =>
    refine (records_event_then "turn.started" (by decide) fun m' => ?_).mono
      fun r m' h => hopens (.inl ⟨rfl, hfailure⟩) h
    refine after_bind (silent_spawnWaitForTurn _ _ _ m') (fun _ m'' h => ?_) fun e m'' h => ⟨h, fun _ h => by cases h⟩
    exact (after_pure _ _ _).mpr ⟨h, fun _ h => by cases h⟩

theorem changes_log {α : Type} (kind : String) {turnId sessionId : String} {turn : TurnRecord → TurnRecord}
    {session : SessionRecord → SessionRecord} {rest : RuntimeM α}
    (hrest : ∀ m₂, After rest m₂ fun _ m' => Silent m₂ m' ∨ Records sessionId turnId kind m₂ m') :
    After (do
      changeTurn turnId turn
      changeSession sessionId session
      rest) m fun _ m' => Silent m m' ∨ Records sessionId turnId kind m m' := by
  refine after_bind (silent_changeTurn _ _ m) (fun _ m₁ h₁ => ?_) fun e m₁ h₁ => .inl h₁
  refine after_bind (allows_silent.changeSession _ _ m₁) (fun _ m₂ h₂ => ?_) fun e m₂ h₂ => .inl (h₁.trans h₂)
  refine (hrest m₂).mono fun r m' h => ?_
  rcases h with h | h
  · exact .inl ((h₁.trans h₂).trans h)
  · exact .inr ((h₁.trans h₂).records h)

theorem respondApprovalApply_log (c : RespondCall) (resolved : ApprovalRecord) :
    After (respondApprovalApply c resolved) m fun _ m' => Silent m m' ∨
      ∃ kind, Opens (c.decision = .accept) kind ∧ Records c.sessionId resolved.turnId kind m m' := by
  rw [respondApprovalApply, after_bind_iff, after_nowMs]
  cases hdecision : c.decision with
  | accept =>
    refine (changes_log "turn.started" fun m₂ => ?_).mono fun r m' h => ?_
    · refine (records_event_then "turn.started" (p := fun _ => True) (by decide) fun m' => ?_).mono
        fun r m' h => h.imp_right And.right
      refine after_bind (silent_spawnWaitForTurn _ _ _ m') (fun _ m'' h => ?_) fun e m'' h => ⟨h, trivial⟩
      exact (after_pure _ _ _).mpr ⟨h, trivial⟩
    · exact h.imp_right fun h => ⟨_, .inl ⟨rfl, rfl⟩, h⟩
  | decline =>
    refine (changes_log "turn.interrupted" fun m₂ => ?_).mono fun r m' h => ?_
    · refine (records_event_then "turn.interrupted" (p := fun _ => True) (by decide) fun m' => ?_).mono
        fun r m' h => h.imp_right And.right
      exact (after_pure _ _ _).mpr ⟨Silent.refl m', trivial⟩
    · exact h.imp_right fun h => ⟨_, .inr (by decide), h⟩

theorem after_written {α : Type} {f : Store → Store} {rest : RuntimeM α} {Q : Except RuntimeError α → Manager → Prop}
    (hf : ∀ st, (f st).events = st.events) (hok : m.fails 0 = false)
    (h : ∀ m', Silent m m' → m'.sessions = m.sessions → (∀ n, m'.fails n = m.fails (n + 1)) → After rest m' Q) :
    After (do
      onStore (Store.write f)
      rest) m Q := by
  rw [after_bind_iff]
  refine after_store (fun hfail => ?_) fun _ => ?_
  · rw [hok] at hfail
    cases hfail
  · exact h (m.stored f) (.of_events (hf m.store) le_rfl) rfl (fails_stored f)

/-- A result that ends its turn reaches the event: its session is there and no write fails before it. -/
def Manager.announces (m : Manager) (result : ProviderTurnResult) : Bool :=
  (m.sessions.lookup result.runtimeSessionId).isSome && !m.fails 0 && !m.fails 1 && !m.fails 2

theorem applyTerminalResult_log (result : ProviderTurnResult)
    (hcond : ∀ turn, Ends m result turn → result.status ≠ .inProgress → m.announces result = true) :
    After (applyTerminalResult result) m fun _ m' =>
      (Silent m m' ∧ ∀ turn, Ends m result turn → result.status = .inProgress) ∨
        ((∃ turn, Ends m result turn) ∧ result.status ≠ .inProgress ∧
          Records result.runtimeSessionId result.turnId (resultEventKind result.status) m m') := by
  simp only [applyTerminalResult, after_bind_iff, after_nowMs, after_get, after_orThrow]
  refine ⟨fun turn hl => ?_, fun hl => .inl ⟨Silent.refl m, fun turn he => by simp [he.found] at hl⟩⟩
  -- the turn found is the one that may end
  have hquiet : ∀ {m' : Manager}, Silent m m' → ¬ Ends m result turn →
      (Silent m m' ∧ ∀ turn, Ends m result turn → result.status = .inProgress) ∨
        ((∃ turn, Ends m result turn) ∧ result.status ≠ .inProgress ∧
            Records result.runtimeSessionId result.turnId (resultEventKind result.status) m m') := by
    intro m' hs hnot
    refine .inl ⟨hs, fun turn' he => ?_⟩
    obtain rfl := Option.some.inj (hl.symm.trans he.found)
    exact absurd he hnot
  by_cases howner : turn.sessionId = result.runtimeSessionId
  swap
  · simp only [howner, ne_eq, not_false_eq_true, if_true, after_bind_iff, after_throw]
    exact hquiet (Silent.refl m) fun he => howner he.owner
  simp only [howner, ne_eq, not_true_eq_false, if_false]
  cases hterminal : isTerminalTurnStatus turn.status with
  | true =>
    have hnot : ¬ Ends m result turn := fun he => by simp [he.running] at hterminal
    simp only [if_true]
    split
    · exact (after_pure _ _ _).mpr (hquiet (Silent.refl m) hnot)
    · refine after_bind (allows_silent.changeSession _ _ m) (fun _ m' h => ?_) fun e m' h => hquiet h hnot
      exact (after_throw _ _ _).mpr (hquiet h hnot)
  | false =>
    have hends : Ends m result turn := ⟨hl, howner, hterminal⟩
    have hinsert : ∀ r, Silent m { m with turns := m.turns.insert result.turnId r } := fun r => .of_events rfl le_rfl
    simp only [Bool.false_eq_true, if_false]
    rw [after_bind_iff, after_insertTurn]
    dsimp only
    by_cases hstatus : result.status = .inProgress
    · -- the turn stays unfinished, and its event is of another kind
      have hrest : Within Silent (do
          onStore (Store.upsertTurn (finishedTurn result m.clock turn))
          let session ← getSession result.runtimeSessionId
          insertSession result.runtimeSessionId (finishedSession result turn m.clock session)
          onStore (Store.upsertSession (finishedSession result turn m.clock session))
          let _ ← appendSessionEvent result.runtimeSessionId (some result.turnId) (resultEventKind result.status)
            (resultPayload result)) := by
        refine .bind (silent_upsertTurn _) fun _ => .bind (within_getSession _) fun session =>
          .bind (allows_silent.insertsSession _ _) fun _ => .bind (allows_silent.upsertsSession _)
              fun _ => .bind (silent_event ?_) fun _ =>
            within_pure _
        rw [hstatus]
        exact .inr (by decide)
      exact (hrest _).mono fun r m' h => .inl ⟨(hinsert _).trans h, fun _ _ => hstatus⟩
    · have hann := hcond turn hends hstatus
      simp only [Manager.announces, Bool.and_eq_true, Bool.not_eq_true'] at hann
      obtain ⟨⟨⟨hsession, hfail₀⟩, hfail₁⟩, hfail₂⟩ := hann
      obtain ⟨session, hstored⟩ := Option.isSome_iff_exists.mp hsession
      refine after_written (fun _ => rfl) hfail₀ fun m₁ h₁ hs₁ hf₁ => ?_
      rw [after_bind_iff, after_getSession, hs₁]
      refine ⟨fun session' _ => ?_, fun hnone => ?_⟩
      swap
      · have hmissing : m.sessions.lookup result.runtimeSessionId = none := hnone
        rw [hstored] at hmissing
        cases hmissing
      dsimp only
      rw [after_bind_iff, after_insertSession]
      refine after_written (fun _ => rfl) ((hf₁ 0).trans hfail₁) fun m₂ h₂ _ hf₂ => ?_
      have hsilent : Silent m m₂ := ((hinsert _).trans h₁).trans (Silent.trans (.of_events rfl le_rfl) h₂)
      have hfail : m₂.fails 0 = false := (hf₂ 0).trans ((hf₁ 1).trans hfail₂)
      have hkind : resultEventKind result.status ∈ turnKinds := by
        cases h : result.status with
        | inProgress => exact absurd h hstatus
        | _ => decide
      refine after_bind ((records_event hkind).and (after_announce fun r m' _ _ _ _ hok => hok))
        (fun _ m₃ h₃ => (after_pure _ _ _).mpr (.inr ⟨⟨turn, hends⟩, hstatus, hsilent.records h₃.1⟩)) fun e m₃ h₃ => ?_
      have hok := h₃.2
      rw [hfail] at hok
      cases hok

def Decided (m m' : Manager) (c : RespondCall) (resolved : ApprovalRecord) : Prop :=
  ∃ turn session, Applied m m' c resolved.turnId turn session ∧ (∀ r, (turn r).sessionId = r.sessionId) ∧
    (c.decision = .accept → ∀ r, isTerminalTurnStatus (turn r).status = false)

theorem respondApprovalApply_decided (c : RespondCall) (resolved : ApprovalRecord) :
    After (respondApprovalApply c resolved) m fun _ m' => Decided m m' c resolved := by
  cases hd : c.decision with
  | accept =>
    exact (respondApprovalApply_accept_after c resolved hd).mono fun _ _ h => ⟨_, _, h, fun _ => rfl, fun _ _ => rfl⟩
  | decline =>
    refine (respondApprovalApply_decline_after c resolved hd).mono fun _ _ h => ⟨_, _, h, fun _ => rfl, fun ha => ?_⟩
    rw [hd] at ha
    cases ha

inductive Logs (m : Manager) (before after : Option Call) (m' : Manager) : Prop where
  | none (silent : Silent m m')
  | sent (w : SendWrite) (kind : String) (was : before = some (.sendInsertSession w)) (gone : after = none)
      (opens : Opens (w.failure = none) kind) (records : Records w.call.sessionId w.call.turnId kind m m')
  | answered (d : RespondCall) (resolved : ApprovalRecord) (kind : String)
      (was : before = some (.respondApply d resolved))
      (gone : after = none) (decided : Decided m m' d resolved) (opens : Opens (d.decision = .accept) kind)
      (records : Records d.sessionId resolved.turnId kind m m')

theorem goOn_logs {c : Call} {answer : Answer} {piece : RuntimeM (Option Call)} (hgo : c.goOn answer = some piece) :
    After piece m fun r m' => Logs m (some c) (Server.left r) m' := by
  have hp := Call.piece_of_goOn hgo
  cases hc : c.recordsTurn with
  | false => exact (silent_goOn hp hc m).mono fun r m' h => .none h
  | true =>
    cases c with
    | sendInsertSession w =>
      cases hp
      refine after_bind (sendTurnInsertSession_log w) (fun a m' h => (after_pure _ _ _).mpr ?_) fun e m' h => ?_
      · rcases h with h | ⟨hr, kind, hopens, h⟩
        · exact .none h
        · cases a with
          | none => exact .sent w kind rfl rfl hopens h
          | some a => exact absurd rfl (hr a)
      · rcases h with h | ⟨hr, kind, hopens, h⟩
        · exact .none h
        · exact .sent w kind rfl rfl hopens h
    | respondApply d resolved =>
      cases hp
      have hlogs : ∀ {m'}, ((Silent m m' ∨ ∃ kind, Opens (d.decision = .accept) kind ∧
          Records d.sessionId resolved.turnId kind m m') ∧ Decided m m' d resolved) →
          Logs m (some (.respondApply d resolved)) none m' := by
        intro m' h
        obtain ⟨h | ⟨kind, hopens, h⟩, hdecided⟩ := h
        · exact .none h
        · exact .answered d resolved kind rfl rfl hdecided hopens h
      exact after_bind ((respondApprovalApply_log d resolved).and (respondApprovalApply_decided d resolved))
        (fun a m' h => (after_pure _ _ _).mpr (hlogs h)) fun e m' h => hlogs h
    | _ => cases hc

end

end Gooselake.Runtime
