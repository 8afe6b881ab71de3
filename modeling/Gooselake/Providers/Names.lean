import Gooselake.Providers.AdapterSteps
import Gooselake.Runtime.Repairs

/-!
The conversations the runtime's own records name. What the sessions, the calls in flight and the answers
they get name for an awaited session is the conversation awaited for it, and every step keeps this.
-/

namespace Gooselake.Providers

open Gooselake.Core Gooselake.Runtime Data Library Library.Exec

set_option autoImplicit false

def conversationOf (provider : String) (ref canonical : Option String) : Option Conversation :=
  ((ProviderKind.fromStr provider).bind Agent.ofKind).bind fun agent => conversationFor agent ref canonical

/-- The references name the conversation awaited for session `k`, if there is one. -/
def Named (awaited : Table String Conversation) (k provider : String) (ref canonical : Option String) : Prop :=
  ∀ v, awaited.lookup k = some v → conversationOf provider ref canonical = some v

abbrev Names (awaited : Table String Conversation) (k : String) (r : SessionRecord) : Prop :=
  Named awaited k r.provider r.providerSessionRef r.canonicalProviderSessionRef

def CallNames (awaited : Table String Conversation) : Call → Prop
  | .createInsert record => Names awaited record.id record
  | .closeInsert sessionId record _ | .resumeInsert sessionId record => Names awaited sessionId record
  | .resume c => Names awaited c.sessionId c.session ∧
      Named awaited c.sessionId c.session.provider (some c.providerSessionRef) c.canonicalProviderSessionRef
  | .send c => Names awaited c.sessionId c.session ∧ ProviderKind.fromStr c.session.provider = some c.providerKind
  | .sendInsertTurn w | .sendInsertSession w => Names awaited w.call.sessionId w.session
  | _ => True

def AnswerNames (awaited : Table String Conversation) : Call → Answer → Prop
  | .create c, _ => awaited.lookup c.sessionId = none
  | .resume c, .session (.ok resumed) =>
    Named awaited c.sessionId c.session.provider (some resumed.providerSessionRef) resumed.canonicalProviderSessionRef
  | _, _ => True

structure Served (awaited : Table String Conversation) (s : Server) : Prop where
  table : ∀ k r, s.manager.sessions.lookup k = some r → Names awaited k r
  calls : ∀ i c, s.calls.lookup i = some c → CallNames awaited c

section

variable {awaited : Table String Conversation} {m m' : Manager} {k : String}

theorem Named.fewer {provider : String} {ref canonical : Option String} {awaited' : Table String Conversation}
    (h : Named awaited k provider ref canonical) (hf : Fewer awaited' awaited) :
    Named awaited' k provider ref canonical :=
  fun v hv => h v (hf k v hv)

theorem CallNames.fewer {c : Call} {awaited' : Table String Conversation} (h : CallNames awaited c)
    (hf : Fewer awaited' awaited) : CallNames awaited' c := by
  cases c with
  | createInsert record => exact Named.fewer h hf
  | closeInsert sessionId record reason => exact Named.fewer h hf
  | resumeInsert sessionId record => exact Named.fewer h hf
  | resume c => exact ⟨Named.fewer h.1 hf, Named.fewer h.2 hf⟩
  | send c => exact ⟨Named.fewer h.1 hf, h.2⟩
  | sendInsertTurn w => exact Named.fewer h hf
  | sendInsertSession w => exact Named.fewer h hf
  | create | close | sendInsertApproval | interrupt | respondLock | respond | respondApply | failSession => trivial

theorem Served.fewer {s : Server} {awaited' : Table String Conversation} (h : Served awaited s)
    (hf : Fewer awaited' awaited) : Served awaited' s :=
  ⟨fun k r hr => (h.table k r hr).fewer hf, fun i c hc => (h.calls i c hc).fewer hf⟩

/-! ## Records that are changed keep their references -/

theorem names_insert {sessions : Table String SessionRecord} (h : ∀ k r, sessions.lookup k = some r → Names awaited k r)
    {r : SessionRecord} (hr : Names awaited k r) :
    ∀ k' r', (sessions.insert k r).lookup k' = some r' → Names awaited k' r' := by
  intro k' r' hk
  rw [Table.lookup_insert] at hk
  split at hk
  · next he =>
    subst he
    obtain rfl := Option.some.inj hk
    exact hr
  · exact h k' r' hk

theorem names_update {sessions : Table String SessionRecord} (h : ∀ k r, sessions.lookup k = some r → Names awaited k r)
    (f : SessionRecord → SessionRecord) (hf : ∀ r, Names awaited k r → Names awaited k (f r)) :
    ∀ k' r', (sessions.update k f).lookup k' = some r' → Names awaited k' r' := by
  intro k' r' hk
  rw [Table.lookup_update] at hk
  split at hk
  · next he =>
    subst he
    obtain ⟨r, hr, rfl⟩ := Option.map_eq_some_iff.mp hk
    exact hf r (h _ r hr)
  · exact h k' r' hk

theorem SendWrite.names {w : SendWrite} (h : Names awaited w.call.sessionId w.call.session) :
    Names awaited w.call.sessionId w.session := by
  obtain ⟨c, _ | ⟨error, now⟩⟩ := w
  · exact h
  · exact h

/-! ## Pieces -/

/-- A call that asks for a resume or a send, which only the first piece of an operation leaves. -/
def Opens : Call → Prop
  | .resume _ | .send _ => True
  | _ => False

theorem Moves.named {before after : Option Call} (hm : Moves m before after m')
    (h : ∀ k r, m.sessions.lookup k = some r → Names awaited k r) (hb : ∀ c, before = some c → CallNames awaited c)
    (hcreate : ∀ c, before ≠ some (.create c)) (hresume : ∀ c, before ≠ some (.resume c)) :
    (∀ k r, m'.sessions.lookup k = some r → Names awaited k r) ∧
      ∀ c, after = some c → ¬ Opens c → CallNames awaited c := by
  cases hm with
  | stopped quiet was => exact ⟨quiet.sessions ▸ h, fun c hc => by cases hc⟩
  | createBegun quiet fresh next =>
    refine ⟨quiet.sessions ▸ h, fun c hc _ => ?_⟩
    cases hc
    trivial
  | createStored quiet => exact absurd rfl (hcreate _)
  | createInserted sets =>
    exact ⟨sets.sessions ▸ names_insert h (hb _ rfl), fun c hc => by cases hc⟩
  | closeBegun quiet found =>
    refine ⟨quiet.sessions ▸ h, fun c hc _ => ?_⟩
    cases hc
    trivial
  | closeStored quiet found was =>
    refine ⟨quiet.sessions ▸ h, fun c hc _ => ?_⟩
    cases hc
    have hr := h _ _ found
    exact hr
  | closeInserted sets =>
    exact ⟨sets.sessions ▸ names_insert h (hb _ rfl), fun c hc => by cases hc⟩
  | resumeBegun quiet found =>
    refine ⟨quiet.sessions ▸ h, fun c hc ho => ?_⟩
    cases hc
    exact absurd trivial ho
  | resumeStored quiet => exact absurd rfl (hresume _)
  | resumeInserted sets =>
    exact ⟨sets.sessions ▸ names_insert h (hb _ rfl), fun c hc => by cases hc⟩
  | worktreeSet sets =>
    exact ⟨sets.sessions ▸ names_update h _ fun _ hr => hr, fun c hc => by cases hc⟩
  | sendBegun quiet began next =>
    refine ⟨quiet.sessions ▸ h, fun c hc ho => ?_⟩
    cases hc
    exact absurd trivial ho
  | sendSettled quiet =>
    refine ⟨quiet.sessions ▸ h, fun c hc _ => ?_⟩
    cases hc
    exact SendWrite.names (hb _ rfl).1
  | @turnInserted w _ sets =>
    refine ⟨sets.sessions ▸ h, fun c hc _ => ?_⟩
    cases hc
    have hw := hb (.sendInsertTurn w) rfl
    exact hw
  | @sessionInserted w r _ _ sets inserted =>
    refine ⟨sets.sessions ▸ names_insert h (hb _ rfl), fun c hc _ => ?_⟩
    rcases r with e | (_ | a) <;> simp only [Except.map, Server.left, Option.map] at hc <;> cases hc
    trivial
  | approvalInserted sets => exact ⟨sets.sessions ▸ h, fun c hc => by cases hc⟩
  | interruptBegun quiet =>
    refine ⟨quiet.sessions ▸ h, fun c hc _ => ?_⟩
    cases hc
    trivial
  | respondBegun quiet found =>
    refine ⟨quiet.sessions ▸ h, fun c hc _ => ?_⟩
    cases hc
    trivial
  | respondChecked quiet checked =>
    refine ⟨quiet.sessions ▸ h, fun c hc _ => ?_⟩
    cases hc
    trivial
  | respondResolved sets next =>
    refine ⟨sets.sessions ▸ h, fun c hc _ => ?_⟩
    rcases next with rfl | rfl <;> cases hc
    trivial
  | acceptApplied decision applied =>
    obtain ⟨⟨sessions, waits, sets, hs, -⟩, -⟩ := applied
    refine ⟨sets.sessions ▸ ?_, fun c hc => by cases hc⟩
    rcases hs with rfl | rfl
    · exact h
    · exact names_update h _ fun _ hr => hr
  | declineApplied decision applied =>
    obtain ⟨⟨sessions, waits, sets, hs, -⟩, -⟩ := applied
    refine ⟨sets.sessions ▸ ?_, fun c hc => by cases hc⟩
    rcases hs with rfl | rfl
    · exact h
    · exact names_update h _ fun _ hr => hr
  | sessionFailed sets =>
    exact ⟨sets.sessions ▸ names_update h _ fun _ hr => hr, fun c hc => by cases hc⟩

/-- A `resume_session` call on an awaited session names no other conversation than its record. -/
def OpNames (awaited : Table String Conversation) (m : Manager) : Operation → Prop
  | .resumeSession sessionId input => ∀ r, m.sessions.lookup sessionId = some r →
      Named awaited sessionId r.provider (input.providerSessionRef.or r.providerSessionRef)
        (input.canonicalProviderSessionRef.or r.canonicalProviderSessionRef)
  | _ => True

theorem sendTurnBegin_kind (sessionId : String) (input : SendTurnInput) :
    After (sendTurnBegin sessionId input) m fun r _ => ∀ c, r = .ok c →
      ProviderKind.fromStr c.session.provider = some c.providerKind := by
  have hstop : ∀ {e : RuntimeError} {m : Manager}, After (throw e : RuntimeM SendCall) m fun r _ => ∀ c, r = .ok c →
      ProviderKind.fromStr c.session.provider = some c.providerKind :=
    (after_throw _ _ _).mpr fun _ he => by cases he
  simp only [sendTurnBegin, providerKindOf, after_bind_iff, after_getSession]
  refine ⟨fun session _ => ?_, fun _ _ he => by cases he⟩
  split
  · exact hstop
  · split
    · exact hstop
    · rw [after_bind_iff, after_orThrow]
      refine ⟨fun kind hkind => ?_, fun _ _ he => by cases he⟩
      simp only [after_bind_iff, after_allocateId, after_nowMs]
      split
      · simp only [after_bind_iff, after_allocateId, after_pure]
        intro c hc
        obtain rfl := Except.ok.inj hc
        exact hkind
      · refine (after_pure _ _ _).mpr fun c hc => ?_
        obtain rfl := Except.ok.inj hc
        exact hkind

theorem begin_opens (h : ∀ k r, m.sessions.lookup k = some r → Names awaited k r) {op : Operation}
    (hop : OpNames awaited m op) :
    After op.begin m fun r _ => ∀ c, Server.left r = some c → Opens c → CallNames awaited c := by
  -- an operation that opens no such call
  have hother : ∀ {α : Type} {x : RuntimeM α} {f : α → Option Call}, (∀ a c, f a = some c → ¬ Opens c) →
      After (do let a ← x; return f a) m fun r _ => ∀ c, Server.left r = some c → Opens c → CallNames awaited c := by
    intro α x f hf
    refine after_then (R := fun after _ => ∀ c, after = some c → Opens c → CallNames awaited c)
      (Q := fun _ _ => True) ⟨trivial⟩ (fun a _ _ c hc ho => absurd ho (hf a c hc)) fun _ _ _ c hc => by cases hc
  cases op with
  | resumeSession sessionId input =>
    refine after_then (R := fun after _ => ∀ c, after = some c → Opens c → CallNames awaited c)
      (resumeSessionBegin_after sessionId input) (fun c m' hr => ?_) fun _ _ _ c hc => by cases hc
    have hc := hr.2 c rfl
    intro c' hc' _
    obtain rfl := Option.some.inj hc'
    have hs := hc.session
    rw [← hc.sessionId] at hs
    refine ⟨h _ _ hs, ?_⟩
    have hnamed := hop _ hc.session
    rw [hc.ref, ← hc.canonical, ← hc.sessionId] at hnamed
    exact hnamed
  | sendTurn sessionId input =>
    refine after_then (R := fun after _ => ∀ c, after = some c → Opens c → CallNames awaited c)
      ((sendTurnBegin_after sessionId input).and (sendTurnBegin_kind sessionId input)) (fun c m' hr => ?_)
      fun _ _ _ c hc => by cases hc
    intro c' hc' _
    obtain rfl := Option.some.inj hc'
    have hbegan := (hr.1.2 c rfl).1
    have hs := hbegan.session
    rw [← hbegan.sessionId] at hs
    exact ⟨h _ _ hs, hr.2 c rfl⟩
  | createSession input =>
    refine hother fun a c hc ho => ?_
    obtain rfl := Option.some.inj hc
    exact ho
  | closeSession sessionId reason =>
    refine hother fun a c hc ho => ?_
    obtain rfl := Option.some.inj hc
    exact ho
  | forceCloseSession sessionId reason =>
    refine hother fun a c hc ho => ?_
    obtain rfl := Option.some.inj hc
    exact ho
  | setSessionWorktreeId sessionId worktreeId =>
    refine hother fun a c hc => ?_
    cases hc
  | interruptTurn sessionId turnId =>
    refine hother fun a c hc ho => ?_
    obtain rfl := Option.some.inj hc
    exact ho
  | respondApproval sessionId approvalId input =>
    refine hother fun a c hc ho => ?_
    obtain rfl := Option.some.inj hc
    exact ho

theorem Moves.opens {c : Call} {after : Option Call} (hm : Moves m (some c) after m') :
    ∀ c', after = some c' → ¬ Opens c' := by
  intro c' hc' ho
  cases hm with
  | stopped | createInserted | closeInserted | resumeInserted | approvalInserted | acceptApplied | declineApplied
  | sessionFailed => cases hc'
  | createStored | closeStored | resumeStored | sendSettled | turnInserted | respondChecked =>
    cases hc'
    exact ho
  | @sessionInserted w r =>
    rcases r with e | (_ | a) <;> simp only [Except.map, Server.left, Option.map] at hc' <;> cases hc'
    exact ho
  | respondResolved sets next =>
    rcases next with rfl | rfl <;> cases hc'
    exact ho

theorem created_names {c : CreateCall} (created : ProviderSession) (h : awaited.lookup c.sessionId = none) :
    Names awaited (c.record created).id (c.record created) := by
  intro v hv
  change awaited.lookup c.sessionId = some v at hv
  rw [h] at hv
  cases hv

theorem goOn_named {c : Call} {answer : Answer} {piece : RuntimeM (Option Call)} (hp : c.goOn answer = some piece)
    (h : ∀ k r, m.sessions.lookup k = some r → Names awaited k r) (hc : CallNames awaited c)
    (ha : AnswerNames awaited c answer) :
    After piece m fun r m' => (∀ k r, m'.sessions.lookup k = some r → Names awaited k r) ∧
      ∀ c', Server.left r = some c' → CallNames awaited c' := by
  have hmoves : (∀ c', some c ≠ some (.create c')) → (∀ c', some c ≠ some (.resume c')) →
      After piece m fun r m' => (∀ k r, m'.sessions.lookup k = some r → Names awaited k r) ∧
        ∀ c', Server.left r = some c' → CallNames awaited c' := by
    intro hcreate hresume
    refine (goOn_moves hp).mono fun r m' hm => ?_
    have hn := Moves.named hm h (fun c' hc' => (Option.some.inj hc') ▸ hc) hcreate hresume
    exact ⟨hn.1, fun c' hc' => hn.2 c' hc' (Moves.opens hm c' hc')⟩
  cases c with
  | create c =>
    cases answer <;> simp only [Call.goOn, reduceCtorEq, Option.some.injEq] at hp
    subst hp
    refine after_then (R := fun after m' => (∀ k r, m'.sessions.lookup k = some r → Names awaited k r) ∧
      ∀ c', after = some c' → CallNames awaited c') (createSessionStore_after c _) (fun record m' hr => ?_)
      fun e m' hr => ⟨hr.1.sessions ▸ h, fun _ he => by cases he⟩
    obtain ⟨hq, hrecord⟩ := hr
    obtain ⟨created, -, -, rfl⟩ := hrecord record rfl
    refine ⟨hq.sessions ▸ h, fun c' hc' => ?_⟩
    obtain rfl := Option.some.inj hc'
    exact created_names created ha
  | resume c =>
    cases answer <;> simp only [Call.goOn, reduceCtorEq, Option.some.injEq] at hp
    subst hp
    refine after_then (R := fun after m' => (∀ k r, m'.sessions.lookup k = some r → Names awaited k r) ∧
      ∀ c', after = some c' → CallNames awaited c') (resumeSessionStore_after c _) (fun record m' hr => ?_)
      fun e m' hr => ⟨hr.1.sessions ▸ h, fun _ he => by cases he⟩
    obtain ⟨hq, hrecord⟩ := hr
    obtain ⟨resumed, rfl, -, rfl⟩ := hrecord record rfl
    refine ⟨hq.sessions ▸ h, fun c' hc' => ?_⟩
    obtain rfl := Option.some.inj hc'
    exact ha
  | createInsert | close | closeInsert | resumeInsert | send | sendInsertTurn | sendInsertSession | sendInsertApproval
  | interrupt | respondLock | respond | respondApply | failSession =>
    exact hmoves (fun _ he => by cases he) fun _ he => by cases he

/-! ## Steps -/

theorem put_calls {calls : Table ℕ Call} {i : ℕ} {after : Option Call}
    (h : ∀ j c, calls.lookup j = some c → CallNames awaited c) (ha : ∀ c, after = some c → CallNames awaited c) :
    ∀ j c, (Server.put calls i after).lookup j = some c → CallNames awaited c := by
  intro j c hj
  rw [Server.lookup_put] at hj
  split at hj
  · exact ha c hj
  · exact h j c hj

theorem resultApplied_names {result : ProviderTurnResult} (h : ∀ k r, m.sessions.lookup k = some r → Names awaited k r)
    (hr : ResultApplied m result m') : ∀ k r, m'.sessions.lookup k = some r → Names awaited k r := by
  cases hr with
  | nothing quiet why => exact quiet.sessions ▸ h
  | conflict turn conflict found owner ended differs sets =>
    exact sets.sessions ▸ names_update h _ fun _ hn => hn
  | ended turn sessions ends sets session complete =>
    rw [sets.sessions]
    rcases session with rfl | rfl
    · exact h
    · exact names_update h _ fun _ hn => hn

theorem served_step {s s' : Server} {l : Label} (h : Served awaited s) (hs : Server.step l s = some s')
    (hop : ∀ i op, l = .start i op → OpNames awaited s.manager op)
    (hanswer : ∀ i a c, l = .goOn i a → s.calls.lookup i = some c → AnswerNames awaited c a) : Served awaited s' := by
  cases l with
  | start i op =>
    simp only [Server.step] at hs
    split at hs
    · cases hs
    · obtain rfl := Option.some.inj hs
      have hm := (begin_moves (m := s.manager) op).out
      have hn := Moves.named hm h.table (fun c hc => by cases hc) (fun _ he => by cases he) fun _ he => by cases he
      have hopens := (begin_opens h.table (hop i op rfl)).out
      refine ⟨hn.1, put_calls h.calls fun c hc => ?_⟩
      by_cases ho : Opens c
      · exact hopens c hc ho
      · exact hn.2 c hc ho
  | goOn i answer =>
    simp only [Server.step, Option.bind_eq_bind, Option.bind_eq_some_iff] at hs
    obtain ⟨c, hc, piece, hp, hs⟩ := hs
    split at hs
    · cases hs
    · obtain rfl := Option.some.inj hs
      have hn := (goOn_named hp h.table (h.calls i c hc) (hanswer i answer c rfl hc)).out
      exact ⟨hn.1, put_calls h.calls hn.2⟩
  | waited w result =>
    obtain ⟨m', hr, rfl⟩ := Server.step_waited hs
    exact ⟨resultApplied_names (m := (s.dropWait w).manager) h.table hr, h.calls⟩
  | waitFailed w i error =>
    obtain ⟨task, after, m', -, -, hf, rfl⟩ := Server.step_waitFailed hs
    cases hf with
    | wasOver quiet ended =>
      refine ⟨quiet.sessions ▸ h.table, put_calls h.calls fun c hc => ?_⟩
      cases hc
      trivial
    | failed sets next =>
      refine ⟨sets.sessions ▸ h.table, put_calls h.calls fun c hc => ?_⟩
      rcases next with rfl | rfl <;> cases hc
      trivial
  | tick now =>
    rw [Server.step_tick hs]
    exact ⟨h.table, h.calls⟩

/-! ## Recovery -/

/-- What recovery makes of a session's references: they stay, or are those its provider answered. -/
structure Referred (answers : RecoveryAnswers) (m : Manager) (r r' : SessionRecord) : Prop where
  id : r'.id = r.id
  provider : r'.provider = r.provider
  refs : (r'.providerSessionRef = r.providerSessionRef ∧
    r'.canonicalProviderSessionRef = r.canonicalProviderSessionRef) ∨
    ∃ resumed, isClosedOrFailed r.status = false ∧ resumeAnswer answers m.providers r = some (.ok resumed) ∧
      r'.providerSessionRef = some resumed.providerSessionRef ∧
      r'.canonicalProviderSessionRef = resumed.canonicalProviderSessionRef

structure SameRefs (r r' : SessionRecord) : Prop where
  id : r'.id = r.id
  provider : r'.provider = r.provider
  ref : r'.providerSessionRef = r.providerSessionRef
  canonical : r'.canonicalProviderSessionRef = r.canonicalProviderSessionRef

theorem SameRefs.refl (r : SessionRecord) : SameRefs r r := ⟨rfl, rfl, rfl, rfl⟩

theorem SameRefs.referred {answers : RecoveryAnswers} {r r' : SessionRecord} (h : SameRefs r r') :
    Referred answers m r r' :=
  ⟨h.id, h.provider, .inl ⟨h.ref, h.canonical⟩⟩

theorem Referred.same {answers : RecoveryAnswers} {r r' r'' : SessionRecord} (h : Referred answers m r r')
    (h' : SameRefs r' r'') : Referred answers m r r'' := by
  refine ⟨h'.id.trans h.id, h'.provider.trans h.provider, ?_⟩
  rw [h'.ref, h'.canonical]
  exact h.refs

theorem repairProviderRef_referred (answers : RecoveryAnswers) (session : SessionRecord)
    (summary : StartupRecoverySummary) :
    After (repairProviderRef answers session summary) m fun r m' => m' = m ∧ ∀ repair, r = .ok repair →
      Referred answers m session repair.session := by
  have hpure : ∀ {repair : Repair}, Referred answers m session repair.session →
      After (pure repair : RuntimeM Repair) m fun r m' => m' = m ∧ ∀ repair, r = .ok repair →
        Referred answers m session repair.session := by
    intro repair h
    refine (after_pure _ _ _).mpr ⟨rfl, fun repair' he => ?_⟩
    obtain rfl := Except.ok.inj he
    exact h
  have hsame : ∀ {r' : SessionRecord}, SameRefs session r' → Referred answers m session r' := SameRefs.referred
  unfold repairProviderRef
  split
  · exact hpure (hsame (.refl _))
  · next hopen =>
    split
    · exact hpure (hsame ⟨rfl, rfl, rfl, rfl⟩)
    · next ref href =>
      rw [after_bind_iff]
      simp only [providerKindOf, after_orThrow]
      refine ⟨fun kind hkind => ?_, fun _ => ⟨trivial, fun _ h => by cases h⟩⟩
      simp only [after_bind_iff, after_get]
      split
      · exact hpure (hsame (.refl _))
      · next hregistered =>
        split
        · next resumed hresumed =>
          refine hpure ⟨rfl, rfl, .inr ⟨resumed, by simpa using hopen, ?_, rfl, rfl⟩⟩
          simp only [resumeAnswer, href, hkind, Option.bind_eq_bind, Option.bind_some]
          rw [if_pos (by simpa using hregistered), hresumed]
        · exact hpure (hsame ⟨rfl, rfl, rfl, rfl⟩)

theorem repairActiveTurn_sameRefs (turns : Table String TurnRecord) (approvals : Table String ApprovalRecord)
    (session : SessionRecord) (r : Repair) :
    After (repairActiveTurn turns approvals session r) m fun res m' => m'.sessions = m.sessions ∧
      m'.providers = m.providers ∧ ∀ repair, res = .ok repair → SameRefs r.session repair.session := by
  have hpure : ∀ {m' : Manager} {repair : Repair}, m'.sessions = m.sessions → m'.providers = m.providers →
      SameRefs r.session repair.session →
      After (pure repair : RuntimeM Repair) m' fun res m' => m'.sessions = m.sessions ∧
        m'.providers = m.providers ∧ ∀ repair, res = .ok repair → SameRefs r.session repair.session := by
    intro m' repair hs hp h
    refine (after_pure _ _ _).mpr ⟨hs, hp, fun repair' he => ?_⟩
    obtain rfl := Except.ok.inj he
    exact h
  simp only [repairActiveTurn]
  rw [after_bind_iff, after_nowMs]
  dsimp only
  split
  · split
    · exact hpure rfl rfl ⟨rfl, rfl, rfl, rfl⟩
    · exact hpure rfl rfl (.refl _)
  · split
    · exact hpure rfl rfl ⟨rfl, rfl, rfl, rfl⟩
    · split
      · exact hpure rfl rfl ⟨rfl, rfl, rfl, rfl⟩
      split
      · exact hpure rfl rfl ⟨rfl, rfl, rfl, rfl⟩
      split
      · split
        · exact hpure rfl rfl ⟨rfl, rfl, rfl, rfl⟩
        · simp only [after_bind_iff, after_insertTurn, after_onStore]
          split
          · exact hpure rfl rfl ⟨rfl, rfl, rfl, rfl⟩
          · exact ⟨trivial, trivial, fun _ he => by cases he⟩
      · rw [after_bind_iff]
        simp only [providerKindOf, after_orThrow]
        refine ⟨fun kind _ => ?_, fun _ => ⟨trivial, trivial, fun _ he => by cases he⟩⟩
        simp only [after_bind_iff, after_spawnWaitForTurn]
        refine hpure ?_ ?_ ⟨rfl, rfl, rfl, rfl⟩
        · split <;> rfl
        · split <;> rfl

/-- Every session is one of `m`, with the references it had or its provider answered. -/
def AllReferred (answers : RecoveryAnswers) (m cur : Manager) : Prop :=
  ∀ k r', cur.sessions.lookup k = some r' → ∃ r, m.sessions.lookup k = some r ∧ Referred answers m r r'

/-- Recovery has been through the sessions of `done`. -/
structure Referring (answers : RecoveryAnswers) (m : Manager) (done : List String) (cur : Manager) : Prop where
  providers : cur.providers = m.providers
  todo : ∀ k, k ∉ done → cur.sessions.lookup k = m.sessions.lookup k
  all : AllReferred answers m cur

theorem recoverSession_referring {answers : RecoveryAnswers} {cur : Manager} {done : List String}
    (hids : ∀ k r, m.sessions.lookup k = some r → r.id = k) (h : Referring answers m done cur) (hk : k ∉ done)
    (turns : Table String TurnRecord) (approvals : Table String ApprovalRecord) (summary : StartupRecoverySummary) :
    After (recoverSession answers turns approvals summary k) cur fun r cur' =>
      (∀ s, r = .ok s → Referring answers m (done ++ [k]) cur') ∧ ∀ e, r = .error e → AllReferred answers m cur' := by
  have hgo : ∀ {cur' : Manager}, cur'.sessions = cur.sessions → cur'.providers = m.providers →
      Referring answers m (done ++ [k]) cur' := by
    intro cur' hs hp
    refine ⟨hp, fun k' hk' => ?_, ?_⟩
    · rw [hs]
      exact h.todo k' fun hd => hk' (by simp [hd])
    · rw [AllReferred, hs]
      exact h.all
  simp only [recoverSession, after_bind_iff, after_get]
  cases hs : cur.sessions.lookup k with
  | none => exact (after_pure _ _ _).mpr ⟨fun _ _ => hgo rfl h.providers, fun _ he => by cases he⟩
  | some session =>
    have hsm : m.sessions.lookup k = some session := (h.todo k hk).symm.trans hs
    simp only [after_bind_iff]
    refine (repairProviderRef_referred (m := cur) answers session summary).elim (fun r cur₁ h₁ => ?_)
      fun e cur₁ h₁ => ⟨fun _ he => (by cases he), fun _ _ => h₁.1 ▸ h.all⟩
    obtain ⟨rfl, h₁⟩ := h₁
    have href := h₁ r rfl
    -- the providers are those recovery started with
    have href : Referred answers m session r.session := by
      refine ⟨href.id, href.provider, ?_⟩
      have hrefs := href.refs
      rw [h.providers] at hrefs
      exact hrefs
    refine (repairActiveTurn_sameRefs turns approvals session r).elim (fun r' cur₂ h₂ => ?_)
      fun e cur₂ h₂ => ⟨fun _ he => (by cases he), fun _ _ => ?_⟩
    · obtain ⟨hs₂, hp₂, h₂⟩ := h₂
      have href' := href.same (h₂ r' rfl)
      dsimp only
      split
      · simp only [after_bind_iff, after_nowMs, after_onStore, after_insertSession, after_pure]
        have hid : r'.session.id = k := href'.id.trans (hids k session hsm)
        split
        · refine ⟨fun _ _ => ⟨hp₂.trans h.providers, fun k' hk' => ?_, fun k' r'' hr'' => ?_⟩, fun _ he => by cases he⟩
          · have hne : k' ≠ k := fun he => hk' (by simp [he])
            rw [Table.lookup_insert, hid, if_neg hne, hs₂]
            exact h.todo k' fun hd => hk' (by simp [hd])
          · rw [Table.lookup_insert, hid] at hr''
            split at hr''
            · next he =>
              obtain rfl := Option.some.inj hr''
              exact ⟨session, he ▸ hsm, href'.same ⟨hid.symm, rfl, rfl, rfl⟩⟩
            · rw [hs₂] at hr''
              exact h.all k' r'' hr''
        · refine ⟨fun _ he => (by cases he), fun _ _ k' r'' hr'' => ?_⟩
          have hr'' : cur₂.sessions.lookup k' = some r'' := hr''
          rw [hs₂] at hr''
          exact h.all k' r'' hr''
      · exact (after_pure _ _ _).mpr ⟨fun _ _ => hgo hs₂ (hp₂.trans h.providers), fun _ he => by cases he⟩
    · intro k' r'' hr''
      rw [h₂.1] at hr''
      exact h.all k' r'' hr''

theorem recoverStartup_referred (answers : RecoveryAnswers) (hids : ∀ k r, m.sessions.lookup k = some r → r.id = k) :
    After (recoverStartup answers) m fun _ m' => AllReferred answers m m' := by
  simp only [recoverStartup, after_bind_iff, after_nowMs, after_get, after_pure]
  refine (after_foldlM_done (I := Referring answers m) (J := AllReferred answers m) _ _
    (fun done k rest hl summary cur h => ?_)
      ⟨rfl, fun _ _ => rfl, fun k r hr => ⟨r, hr, (SameRefs.refl r).referred⟩⟩).elim
    (fun summary cur h => ?_) fun e cur h => h.2 e rfl
  · have hnodup : (done ++ k :: rest).Nodup := hl ▸ m.sessions.keys_nodup
    have hk : k ∉ done := fun hk => (List.nodup_append.mp hnodup).2.2 k hk k (by simp) rfl
    exact recoverSession_referring hids h hk _ _ summary
  · have hall := (h.1 summary rfl).all
    refine (recoverApprovals_same m.approvals.values m.turns summary).elim (fun _ m' h' => ?_) fun _ m' h' => ?_
    · rw [AllReferred, h'.1]
      exact hall
    · rw [AllReferred, h'.1]
      exact hall

end

end Gooselake.Providers
