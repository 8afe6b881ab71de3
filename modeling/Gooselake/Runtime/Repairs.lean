import Gooselake.Runtime.Agreement
import Gooselake.Runtime.Process

/-!
What the startup recovery writes, record by record. The repair of a session depends on its own record and on the turns
and approvals of the moment recovery starts; the run of recovery makes these repairs one store write at a time, and
a write that fails is its end.
-/

namespace Gooselake.Runtime

open Gooselake.Core Data Library Library.Exec

set_option autoImplicit false

/-! ## Repaired records -/

def resumeAnswer (answers : RecoveryAnswers) (providers : List ProviderKind) (session : SessionRecord) :
    Option (Except RuntimeError ProviderSession) := do
  let ref ← session.providerSessionRef
  let kind ← ProviderKind.fromStr session.provider
  if kind ∈ providers then
    some (answers.resume ⟨session.id, ref, session.canonicalProviderSessionRef, session.cwd, some session.metadata⟩)
  else none

def refused (answers : RecoveryAnswers) (providers : List ProviderKind) (session : SessionRecord) : Bool :=
  !isClosedOrFailed session.status &&
    (session.providerSessionRef.isNone || (resumeAnswer answers providers session).any fun r => !r.isOk)

def unapprovedTurn (now : ℤ) (turn : TurnRecord) : TurnRecord :=
  { turn with
    status := .failed
    completedAt := some now
    error := some (errorJson "startup recovery: missing pending approval") }

def givenUpSession (code message : String) (session : SessionRecord) : SessionRecord :=
  { session with
    status := .failed
    failureCode := some code
    failureMessage := some message
    activeTurnId := none }

def clearedSession (session : SessionRecord) : SessionRecord :=
  { session with
    activeTurnId := none
    status := readyUnlessEnded session.status }

def resumedSession (answers : RecoveryAnswers) (providers : List ProviderKind) (session : SessionRecord) :
    SessionRecord :=
  if isClosedOrFailed session.status then session
  else
    match session.providerSessionRef, resumeAnswer answers providers session with
    | none, _ => givenUpSession "startup_missing_provider_ref" "missing provider_session_ref" session
    | some _, none => session
    | some _, some (.ok resumed) =>
      { session with
        providerSessionRef := some resumed.providerSessionRef
        canonicalProviderSessionRef := resumed.canonicalProviderSessionRef }
    | some _, some (.error error) => givenUpSession "startup_provider_resume_failed" error.display session

def unapprovedTurnOf (m : Manager) (resumed : SessionRecord) : Option TurnRecord :=
  (resumed.activeTurnId.bind fun t => m.turns.lookup t).filter fun turn =>
    turn.sessionId = resumed.id ∧ turn.status = .waitingForApproval ∧
      pendingApprovalForTurn m.approvals resumed.id turn.id = false

def namesRunningTurn (m : Manager) (resumed : SessionRecord) : Bool :=
  (resumed.activeTurnId.bind fun t => m.turns.lookup t).any fun turn =>
    turn.sessionId = resumed.id ∧ turn.status = .inProgress

/-- The resumed session reconciled with its active turn; `session` is the record before the resume. -/
def reconciledSession (m : Manager) (session resumed : SessionRecord) : SessionRecord :=
  match resumed.activeTurnId with
  | none =>
    if resumed.status = .turnRunning ∨ resumed.status = .waitingForApproval then { resumed with status := .ready }
    else resumed
  | some activeTurnId =>
    match m.turns.lookup activeTurnId with
    | none => clearedSession resumed
    | some turn =>
      if turn.sessionId ≠ resumed.id then
        givenUpSession "startup_turn_ownership_mismatch" s!"turn {turn.id} belongs to {turn.sessionId}" resumed
      else if isTerminalTurnStatus turn.status then clearedSession resumed
      else if turn.status = .waitingForApproval then
        if pendingApprovalForTurn m.approvals resumed.id turn.id then { resumed with status := .waitingForApproval }
        else clearedSession resumed
      else if resumed = session then session
      else
        { resumed with
          status := if isClosedOrFailed resumed.status then resumed.status else .turnRunning }

section

variable (answers : RecoveryAnswers) (m : Manager) (session : SessionRecord)

def turnToFail : Option TurnRecord := unapprovedTurnOf m (resumedSession answers m.providers session)

def providerMissing : Bool :=
  (ProviderKind.fromStr session.provider).isNone ∧
    ((isClosedOrFailed session.status = false ∧ session.providerSessionRef.isSome) ∨
      namesRunningTurn m (resumedSession answers m.providers session) = true)

def repairedSession : SessionRecord := reconciledSession m session (resumedSession answers m.providers session)

def sessionAfter : SessionRecord :=
  if repairedSession answers m session = session then session
  else { repairedSession answers m session with updatedAt := m.clock }

end

def turnAfter (answers : RecoveryAnswers) (m : Manager) (turn : TurnRecord) : TurnRecord :=
  if (m.sessions.lookup turn.sessionId).bind (turnToFail answers m) = some turn then unapprovedTurn m.clock turn
  else turn

def declinedApproval (now : ℤ) (approval : ApprovalRecord) : ApprovalRecord :=
  { approval with
    status := .decline
    resolvedAt := some now
    response := some (.obj [("reason", .str "startup_recovery_orphaned_approval")]) }

def approvalAfter (m : Manager) (approval : ApprovalRecord) : ApprovalRecord :=
  if approval.status = .pending ∧ orphaned m.turns approval = true then declinedApproval m.clock approval else approval

/-! ## Records under their ids -/

structure Keyed (m : Manager) : Prop where
  sessions : ∀ k r, m.sessions.lookup k = some r → r.id = k
  turns : ∀ k r, m.turns.lookup k = some r → r.id = k

theorem Manager.new_turns {store : Store} {providers : List ProviderKind} {clock : ℤ} {k : String}
    {r : TurnRecord} (h : (Manager.new store providers clock).turns.lookup k = some r) :
    r ∈ store.turns ∧ r.id = k := by
  rcases Table.lookup_foldl_insert TurnRecord.id store.turns ∅ h with h | h
  · exact h
  · simp at h

theorem Manager.new_turns_isSome {store : Store} (providers : List ProviderKind) (clock : ℤ) {r : TurnRecord}
    (h : r ∈ store.turns) : ((Manager.new store providers clock).turns.lookup r.id).isSome :=
  Table.isSome_foldl_insert TurnRecord.id store.turns ∅ (.inl h)

/-! ## Records that are stored and then inserted -/

namespace Manager

def putSession (r : SessionRecord) (m : Manager) : Manager :=
  { m.stored fun s => { s with
      sessions := upsert SessionRecord.id (fun old new => { new with createdAt := old.createdAt }) r s.sessions } with
    sessions := m.sessions.insert r.id r }

def putTurn (r : TurnRecord) (m : Manager) : Manager :=
  { m.stored fun s => { s with turns := upsert TurnRecord.id (fun _ new => new) r s.turns } with
    turns := m.turns.insert r.id r }

end Manager

def turnWritten (answers : RecoveryAnswers) (m : Manager) (session : SessionRecord) (cur : Manager) : Manager :=
  match turnToFail answers m session with
  | some turn => cur.putTurn (unapprovedTurn m.clock turn)
  | none => cur

def sessionWritten (answers : RecoveryAnswers) (m : Manager) (session : SessionRecord) (cur : Manager) : Manager :=
  if repairedSession answers m session = session then turnWritten answers m session cur
  else (turnWritten answers m session cur).putSession (sessionAfter answers m session)

/-! ## The repair of a session -/

section

variable {answers : RecoveryAnswers} {m cur : Manager} {session : SessionRecord}

theorem resumeAnswer_of_ref (answers : RecoveryAnswers) (m : Manager) {ref : String} {kind : ProviderKind}
    (href : session.providerSessionRef = some ref) (hkind : ProviderKind.fromStr session.provider = some kind) :
    resumeAnswer answers m.providers session = if kind ∈ m.providers then some (answers.resume
      ⟨session.id, ref, session.canonicalProviderSessionRef, session.cwd, some session.metadata⟩) else none := by
  simp [resumeAnswer, href, hkind]

theorem renewed_eq_iff {ref canonical : Option String} :
    { session with providerSessionRef := ref, canonicalProviderSessionRef := canonical } = session ↔
      session.providerSessionRef = ref ∧ session.canonicalProviderSessionRef = canonical := by
  constructor
  · intro h
    exact ⟨(congrArg SessionRecord.providerSessionRef h).symm,
      (congrArg SessionRecord.canonicalProviderSessionRef h).symm⟩
  · rintro ⟨rfl, rfl⟩
    rfl

theorem after_repairProviderRef {summary : StartupRecoverySummary} {Q : Except RuntimeError Repair → Manager → Prop}
    (hproviders : cur.providers = m.providers)
    (hmissing : providerMissing answers m session = true → ∀ e, Q (.error e) cur)
    (hok : (isClosedOrFailed session.status = false → session.providerSessionRef.isSome →
        ProviderKind.fromStr session.provider ≠ none) → ∀ summary', Q (.ok ⟨resumedSession answers m.providers session,
      decide (resumedSession answers m.providers session ≠ session), summary'⟩) cur) :
    After (repairProviderRef answers session summary) cur Q := by
  have hpure : ∀ {repair : Repair} {record : SessionRecord}, resumedSession answers m.providers session = record →
      (isClosedOrFailed session.status = false → session.providerSessionRef.isSome →
        ProviderKind.fromStr session.provider ≠ none) →
      record = repair.session → decide (record ≠ session) = repair.changed →
      After (pure repair : RuntimeM Repair) cur Q := by
    rintro ⟨record, changed, summary'⟩ _ hrecord hknown rfl rfl
    refine (after_pure _ _ _).mpr ?_
    have hq := hok hknown summary'
    rwa [hrecord] at hq
  have hgivenUp : ∀ code message, isClosedOrFailed session.status = false →
      givenUpSession code message session ≠ session := by
    intro code message hopen he
    have hstatus : SessionStatus.failed = session.status := congrArg SessionRecord.status he
    rw [← hstatus] at hopen
    cases hopen
  unfold repairProviderRef
  split
  · next hended => exact hpure (by simp [resumedSession, hended]) (by simp [hended]) rfl (by simp)
  · next hopen =>
    have hopen : isClosedOrFailed session.status = false := by simpa using hopen
    split
    · next hnone =>
      have hrecord : resumedSession answers m.providers session =
          givenUpSession "startup_missing_provider_ref" "missing provider_session_ref" session := by
        simp [resumedSession, hopen, hnone]
      exact hpure hrecord (by simp [hnone]) rfl (decide_eq_true (hgivenUp _ _ hopen))
    · next ref href =>
      rw [after_bind_iff, providerKindOf, after_orThrow]
      refine ⟨fun kind hkind => ?_, fun hnone => hmissing ?_ _⟩
      · have hknown : isClosedOrFailed session.status = false → session.providerSessionRef.isSome →
            ProviderKind.fromStr session.provider ≠ none := fun _ _ => by simp [hkind]
        have hanswer := resumeAnswer_of_ref answers m href hkind
        simp only [after_bind_iff, after_get, hproviders]
        split
        · next hreg =>
          rw [if_neg hreg] at hanswer
          exact hpure (by simp [resumedSession, hopen, href, hanswer]) hknown rfl (by simp)
        · next hreg =>
          rw [if_pos (by simpa using hreg)] at hanswer
          split
          · next resumed hresumed =>
            rw [hresumed] at hanswer
            have hrecord : resumedSession answers m.providers session = { session with
                providerSessionRef := some resumed.providerSessionRef
                canonicalProviderSessionRef := resumed.canonicalProviderSessionRef } := by
              simp [resumedSession, hopen, href, hanswer]
            refine hpure hrecord hknown rfl ?_
            simp only [resumedRepair, Bool.false_or, ne_eq, renewed_eq_iff]
            by_cases h₁ : session.providerSessionRef = some resumed.providerSessionRef <;> simp [h₁]
          · next error herror =>
            rw [herror] at hanswer
            have hrecord : resumedSession answers m.providers session =
                givenUpSession "startup_provider_resume_failed" error.display session := by
              simp [resumedSession, hopen, href, hanswer]
            exact hpure hrecord hknown rfl (decide_eq_true (hgivenUp _ _ hopen))
      · simp [providerMissing, hnone, hopen, href]

theorem withStatus_eq_iff {status : SessionStatus} :
    { session with status := status } = session ↔ session.status = status := by
  constructor
  · intro h
    exact (congrArg SessionRecord.status h).symm
  · rintro rfl
    rfl

inductive Resumed (session : SessionRecord) : SessionRecord → Prop where
  | same : Resumed session session
  | renewed (ref canonical : Option String)
      (hne : session.providerSessionRef ≠ ref ∨ session.canonicalProviderSessionRef ≠ canonical) :
      Resumed session { session with providerSessionRef := ref, canonicalProviderSessionRef := canonical }
  | givenUp (code message : String) : Resumed session (givenUpSession code message session)

theorem resumed (answers : RecoveryAnswers) (providers : List ProviderKind) (session : SessionRecord) :
    Resumed session (resumedSession answers providers session) := by
  unfold resumedSession
  split
  · exact .same
  · split
    · exact .givenUp _ _
    · exact .same
    · next ref resumed href hanswer =>
      by_cases hsame : session.providerSessionRef = some resumed.providerSessionRef ∧
          session.canonicalProviderSessionRef = resumed.canonicalProviderSessionRef
      · rw [renewed_eq_iff.mpr hsame]
        exact .same
      · exact .renewed _ _ (not_and_or.mp hsame)
    · exact .givenUp _ _

structure SameOrigin (session session' : SessionRecord) : Prop where
  id : session'.id = session.id
  provider : session'.provider = session.provider
  cwd : session'.cwd = session.cwd
  metadata : session'.metadata = session.metadata
  createdAt : session'.createdAt = session.createdAt

theorem SameOrigin.refl (session : SessionRecord) : SameOrigin session session := ⟨rfl, rfl, rfl, rfl, rfl⟩

section

variable {resumed : SessionRecord}

theorem Resumed.origin (h : Resumed session resumed) : SameOrigin session resumed := by
  cases h <;> exact ⟨rfl, rfl, rfl, rfl, rfl⟩

theorem reconciledSession_sets (m : Manager) (session resumed : SessionRecord) :
    ∃ status active code message, reconciledSession m session resumed =
      { resumed with status := status, activeTurnId := active, failureCode := code, failureMessage := message } := by
  unfold reconciledSession
  split
  · split <;> exact ⟨_, _, _, _, rfl⟩
  · split
    · exact ⟨_, _, _, _, rfl⟩
    · split
      · exact ⟨_, _, _, _, rfl⟩
      split
      · exact ⟨_, _, _, _, rfl⟩
      split
      · split <;> exact ⟨_, _, _, _, rfl⟩
      split
      · next hsame => exact ⟨_, _, _, _, hsame.symm⟩
      · exact ⟨_, _, _, _, rfl⟩

theorem Resumed.reconciled_origin (h : Resumed session resumed) :
    SameOrigin session (reconciledSession m session resumed) := by
  obtain ⟨status, active, code, message, hsets⟩ := reconciledSession_sets m session resumed
  rw [hsets]
  exact ⟨h.origin.id, h.origin.provider, h.origin.cwd, h.origin.metadata, h.origin.createdAt⟩

theorem Resumed.status (h : Resumed session resumed) :
    resumed.status = session.status ∨ (resumed.status = .failed ∧ resumed.activeTurnId = none) := by
  cases h with
  | same | renewed => exact .inl rfl
  | givenUp => exact .inr ⟨rfl, rfl⟩

theorem Resumed.named (h : Resumed session resumed) {t : String} (ht : resumed.activeTurnId = some t) :
    session.activeTurnId = some t ∧ resumed.status = session.status := by
  cases h with
  | same | renewed => exact ⟨ht, rfl⟩
  | givenUp => cases ht

theorem Resumed.withStatus_ne (h : Resumed session resumed) (hne : resumed ≠ session) {t : String}
    (ht : resumed.activeTurnId = some t) (status : SessionStatus) : { resumed with status := status } ≠ session := by
  intro he
  cases h with
  | same => exact hne rfl
  | renewed ref canonical hother =>
    obtain hother | hother := hother
    · exact hother (congrArg SessionRecord.providerSessionRef he).symm
    · exact hother (congrArg SessionRecord.canonicalProviderSessionRef he).symm
  | givenUp => cases ht

/-- The repair of the active turn, after the resume: a turn is failed before the session is written, and the session is
marked as changed if its record is to be another one. -/
theorem after_repairActiveTurn {summary : StartupRecoverySummary} {Q : Except RuntimeError Repair → Manager → Prop}
    (hres : Resumed session resumed)
    (hmissing : ProviderKind.fromStr session.provider = none → namesRunningTurn m resumed = true →
      ∀ e, Q (.error e) cur)
    (hfail : ∀ turn, unapprovedTurnOf m resumed = some turn →
      After (onStore (Store.upsertTurn (unapprovedTurn cur.clock turn))) cur fun res cur' =>
        match res with
        | .ok _ => ∀ repair : Repair, repair.changed = decide (reconciledSession m session resumed ≠ session) →
            repair.session = reconciledSession m session resumed →
            Q (.ok repair) { cur' with turns := cur'.turns.insert turn.id (unapprovedTurn cur.clock turn) }
        | .error e => Q (.error e) cur')
    (hok : unapprovedTurnOf m resumed = none →
      (namesRunningTurn m resumed = true → ProviderKind.fromStr session.provider ≠ none) →
      ∀ (repair : Repair) (waits : List WaitTask),
        repair.changed = decide (reconciledSession m session resumed ≠ session) →
      (repair.changed = true → repair.session = reconciledSession m session resumed) →
      Q (.ok repair) { cur with waits := waits }) :
    After (repairActiveTurn m.turns m.approvals session ⟨resumed, decide (resumed ≠ session), summary⟩) cur Q := by
  have hid := hres.origin.id
  have hpure : ∀ {repair : Repair} {record : SessionRecord}, reconciledSession m session resumed = record →
      unapprovedTurnOf m resumed = none → namesRunningTurn m resumed = false →
      decide (record ≠ session) = repair.changed → record = repair.session →
      After (pure repair : RuntimeM Repair) cur Q := by
    rintro repair _ rfl hnone hrunning hc hs
    refine (after_pure _ _ _).mpr (hok hnone (fun h => ?_) repair cur.waits hc.symm fun _ => hs.symm)
    rw [hrunning] at h
    cases h
  unfold repairActiveTurn
  rw [after_bind_iff, after_nowMs]
  dsimp only
  split
  · next hactive =>
    have hturn : unapprovedTurnOf m resumed = none := by simp [unapprovedTurnOf, hactive]
    have hrunning : namesRunningTurn m resumed = false := by simp [namesRunningTurn, hactive]
    have hrep : reconciledSession m session resumed =
        if resumed.status = .turnRunning ∨ resumed.status = .waitingForApproval then { resumed with status := .ready }
        else resumed := by
      simp only [reconciledSession]
      rw [hactive]
    split
    · next hst =>
      rw [if_pos hst] at hrep
      refine hpure hrep hturn hrunning (decide_eq_true fun he => ?_) rfl
      have hready : SessionStatus.ready = session.status := congrArg SessionRecord.status he
      obtain hsame | ⟨hfailed, -⟩ := hres.status
      · rw [hsame, ← hready] at hst
        exact absurd hst (by decide)
      · rw [hfailed] at hst
        exact absurd hst (by decide)
    · next hst =>
      rw [if_neg hst] at hrep
      exact hpure hrep hturn hrunning rfl rfl
  · next t hactive =>
    obtain ⟨hnamed, hstatus⟩ := hres.named hactive
    -- a session that lets go of its turn is another record
    have hreleased : ∀ {s : SessionRecord}, s.activeTurnId = none → s ≠ session := by
      rintro s hnone rfl
      rw [hnamed] at hnone
      cases hnone
    split
    · next hnone =>
      have hrep : reconciledSession m session resumed = clearedSession resumed := by
        simp only [reconciledSession]
        rw [hactive]
        simp only [hnone]
      exact hpure hrep (by simp [unapprovedTurnOf, hactive, hnone]) (by simp [namesRunningTurn, hactive, hnone])
        (decide_eq_true (hreleased rfl)) rfl
    · next turn hturn =>
      have hrep : reconciledSession m session resumed =
          if turn.sessionId ≠ resumed.id then
            givenUpSession "startup_turn_ownership_mismatch" s!"turn {turn.id} belongs to {turn.sessionId}" resumed
          else if isTerminalTurnStatus turn.status then clearedSession resumed
          else if turn.status = .waitingForApproval then
            if pendingApprovalForTurn m.approvals resumed.id turn.id then { resumed with status := .waitingForApproval }
            else clearedSession resumed
          else if resumed = session then session
          else
            { resumed with
              status := if isClosedOrFailed resumed.status then resumed.status else .turnRunning } := by
        simp only [reconciledSession]
        rw [hactive]
        simp only [hturn]
      have hfails : unapprovedTurnOf m resumed = if turn.sessionId = resumed.id ∧ turn.status = .waitingForApproval ∧
          pendingApprovalForTurn m.approvals resumed.id turn.id = false then some turn else none := by
        simp [unapprovedTurnOf, hactive, hturn, Option.filter]
      have hruns : namesRunningTurn m resumed = decide (turn.sessionId = resumed.id ∧ turn.status = .inProgress) := by
        simp [namesRunningTurn, hactive, hturn]
      rw [← hid]
      split
      · next howner =>
        rw [if_pos howner] at hrep
        exact hpure hrep (hfails.trans (if_neg fun h => howner h.1)) (hruns.trans (decide_eq_false fun h => howner h.1))
          (decide_eq_true (hreleased rfl)) rfl
      next howner =>
      rw [if_neg howner] at hrep
      split
      · next hended =>
        rw [if_pos hended] at hrep
        refine hpure hrep (hfails.trans (if_neg fun h => ?_)) (hruns.trans (decide_eq_false fun h => ?_))
          (decide_eq_true (hreleased rfl)) rfl
        · rw [h.2.1] at hended
          cases hended
        · rw [h.2] at hended
          cases hended
      next hopen =>
      rw [if_neg hopen] at hrep
      split
      · next hwaiting =>
        rw [if_pos hwaiting] at hrep
        split
        · next hpending =>
          rw [if_pos hpending] at hrep
          refine hpure hrep (hfails.trans (if_neg fun h => ?_)) (hruns.trans (decide_eq_false fun h => ?_)) ?_ rfl
          · rw [hpending] at h
            cases h.2.2
          · rw [hwaiting] at h
            cases h.2
          · by_cases hsame : resumed = session
            · subst hsame
              simp [withStatus_eq_iff]
            · rw [decide_eq_true (hres.withStatus_ne hsame hactive _), decide_eq_true hsame, Bool.true_or]
        · next hpending =>
          rw [if_neg hpending] at hrep
          have hfails := hfails.trans (if_pos ⟨by simpa using howner, hwaiting, by simpa using hpending⟩)
          simp only [after_bind_iff, after_insertTurn, after_pure]
          refine (hfail turn hfails).mono fun res cur' h => ?_
          cases res with
          | error e => exact h
          | ok _ =>
            refine h _ (decide_eq_true ?_).symm hrep.symm
            rw [hrep]
            exact hreleased rfl
      · next hwaiting =>
        rw [if_neg hwaiting] at hrep
        have hfails := hfails.trans (if_neg fun h => hwaiting h.2.1)
        have hrunning : turn.status = .inProgress := by
          cases hst : turn.status <;> simp_all [isTerminalTurnStatus]
        rw [after_bind_iff, providerKindOf, after_orThrow]
        refine ⟨fun kind hkind => ?_, fun hunknown => hmissing hunknown ?_ _⟩
        · simp only [after_bind_iff, after_spawnWaitForTurn, after_pure]
          -- the record counts as changed only if the resume changed it
          have hchanged : decide (reconciledSession m session resumed ≠ session) = decide (resumed ≠ session) := by
            rw [hrep]
            by_cases hsame : resumed = session
            · simp [hsame]
            · rw [if_neg hsame, decide_eq_true (hres.withStatus_ne hsame hactive _), decide_eq_true hsame]
          have hwait : ∀ waits, Q (.ok ⟨{ resumed with
              status := if isClosedOrFailed resumed.status then resumed.status else .turnRunning },
              decide (resumed ≠ session), { summary with resumedWaits := summary.resumedWaits + 1 }⟩)
              { cur with waits := waits } :=
            fun waits => hok hfails (fun _ => by simp [hkind]) _ waits hchanged.symm
              fun hc => (by rw [hrep, if_neg (of_decide_eq_true hc)])
          by_cases hreg : kind ∈ cur.providers
          · rw [if_pos hreg]
            exact hwait _
          · rw [if_neg hreg]
            exact hwait cur.waits
        · have howner : turn.sessionId = resumed.id := by simpa using howner
          simp [hruns, howner, hrunning]

end

theorem namesRunningTurn_of_unapproved {resumed : SessionRecord} {turn : TurnRecord}
    (h : unapprovedTurnOf m resumed = some turn) : namesRunningTurn m resumed = false := by
  obtain ⟨hbind, hturn⟩ := Option.filter_eq_some_iff.mp h
  have hwaiting : turn.status = .waitingForApproval := by
    rw [decide_eq_true_eq] at hturn
    exact hturn.2.1
  simp [namesRunningTurn, hbind, hwaiting]

theorem sessionAfter_origin (answers : RecoveryAnswers) (m : Manager) (session : SessionRecord) :
    SameOrigin session (sessionAfter answers m session) := by
  have horigin : SameOrigin session (repairedSession answers m session) :=
    (resumed answers m.providers session).reconciled_origin
  unfold sessionAfter
  split
  · exact .refl session
  · exact ⟨horigin.id, horigin.provider, horigin.cwd, horigin.metadata, horigin.createdAt⟩

theorem after_recoverSession {k : String} {summary : StartupRecoverySummary}
    {Q : Except RuntimeError StartupRecoverySummary → Manager → Prop} (hs : cur.sessions.lookup k = some session)
    (hproviders : cur.providers = m.providers) (hclock : cur.clock = m.clock)
    (hmissing : providerMissing answers m session = true → ∀ e, Q (.error e) cur)
    (hturnFails : ∀ turn, turnToFail answers m session = some turn → cur.fails 0 = true →
      Q (.error Store.writeError) (cur.stored id))
    (hsessionFails : ∀ waits, (turnWritten answers m session cur).fails 0 = true →
      Q (.error Store.writeError) ({ turnWritten answers m session cur with waits := waits }.stored id))
    (hdone : providerMissing answers m session = false → ∀ summary' waits,
      Q (.ok summary') { sessionWritten answers m session cur with waits := waits }) :
    After (recoverSession answers m.turns m.approvals summary k) cur Q := by
  unfold recoverSession
  simp only [after_bind_iff, after_get, hs]
  refine after_repairProviderRef hproviders hmissing fun hknown summary' => ?_
  -- what is left when the active turn is repaired
  have hrest : ∀ (repair : Repair) (waits : List WaitTask),
      (namesRunningTurn m (resumedSession answers m.providers session) = true →
        ProviderKind.fromStr session.provider ≠ none) →
      repair.changed = decide (repairedSession answers m session ≠ session) →
      (repair.changed = true → repair.session = repairedSession answers m session) →
      After (if repair.changed = true then do
        let now ← nowMs
        onStore (Store.upsertSession { repair.session with updatedAt := now })
        insertSession repair.session.id { repair.session with updatedAt := now }
        pure { repair.summary with sessionsReconciled := repair.summary.sessionsReconciled + 1 }
        else pure repair.summary) { turnWritten answers m session cur with waits := waits } Q := by
    intro repair waits hruns hchanged hsession
    have hpresent : providerMissing answers m session = false := by
      refine decide_eq_false fun h => ?_
      obtain ⟨hnone, ⟨hopen, href⟩ | hruns'⟩ := h
      · exact hknown hopen href (Option.isNone_iff_eq_none.mp hnone)
      · exact hruns hruns' (Option.isNone_iff_eq_none.mp hnone)
    have hclock' : (turnWritten answers m session cur).clock = m.clock := by
      unfold turnWritten
      split <;> exact hclock
    have hdone := hdone hpresent
    by_cases hsame : repairedSession answers m session = session
    · rw [if_neg (by simp [hchanged, hsame]), after_pure]
      unfold sessionWritten at hdone
      rw [if_pos hsame] at hdone
      exact hdone _ waits
    · have htrue : repair.changed = true := hchanged.trans (decide_eq_true hsame)
      obtain ⟨record, changed, summary''⟩ := repair
      obtain rfl : record = repairedSession answers m session := hsession htrue
      have hrecord : { repairedSession answers m session with updatedAt := (turnWritten answers m session cur).clock } =
          sessionAfter answers m session := by
        rw [sessionAfter, if_neg hsame, hclock']
      unfold sessionWritten at hdone
      rw [if_neg hsame] at hdone
      rw [if_pos htrue]
      simp only [after_bind_iff, after_nowMs, hrecord]
      refine after_store (fun hf => hsessionFails waits hf) fun _ => ?_
      simp only [after_insertSession, after_pure]
      have hid : (repairedSession answers m session).id = (sessionAfter answers m session).id :=
        (resumed answers m.providers session).reconciled_origin.id.trans (sessionAfter_origin answers m session).id.symm
      rw [hid]
      exact hdone _ waits
  refine after_repairActiveTurn (resumed answers m.providers session) (fun hnone hruns => ?_) (fun turn hturn => ?_)
    fun hnone hruns repair waits hc hr => ?_
  · exact hmissing (decide_eq_true ⟨by rw [hnone]; rfl, .inr hruns⟩)
  · have hwritten : turnWritten answers m session cur = cur.putTurn (unapprovedTurn m.clock turn) := by
      simp only [turnWritten, turnToFail, hturn]
    rw [hclock]
    refine after_store (fun hf => hturnFails turn hturn hf) fun _ repair hc hr => ?_
    have hruns := namesRunningTurn_of_unapproved hturn
    have hrest := hrest repair cur.waits (by simp [hruns]) hc fun _ => hr
    rw [hwritten] at hrest
    exact hrest
  · have hwritten : turnWritten answers m session cur = cur := by simp only [turnWritten, turnToFail, hnone]
    have hrest := hrest repair waits hruns hc hr
    rw [hwritten] at hrest
    exact hrest

end

/-! ## How far recovery has come -/

/-- The records of `m` with those repaired that are said to be: the sessions `ds`, the turns of the sessions `dt` and
the approvals `da`. Memory holds what the store does. -/
structure Stage (answers : RecoveryAnswers) (m : Manager) (ds dt da : String → Bool) (cur : Manager) : Prop where
  providers : cur.providers = m.providers
  clock : cur.clock = m.clock
  settled : Settled m → Settled cur
  sessions : ∀ k, cur.sessions.lookup k = (m.sessions.lookup k).map fun session =>
    if ds k then sessionAfter answers m session else session
  turns : ∀ t, cur.turns.lookup t = (m.turns.lookup t).map fun turn =>
    if dt turn.sessionId then turnAfter answers m turn else turn
  approvals : ∀ a, cur.approvals.lookup a = (m.approvals.lookup a).map fun approval =>
    if da a then approvalAfter m approval else approval

def also (k : String) (d : String → Bool) (k' : String) : Bool := d k' || k' = k

section

variable {answers : RecoveryAnswers} {m cur : Manager} {ds dt da : String → Bool}

theorem Settled.keyed (h : Settled m) : Keyed m :=
  ⟨fun _ _ hs => h.mirrored.sessions.key_eq hs, fun _ _ ht => h.mirrored.turns.key_eq ht⟩

theorem settled_new {store : Store} (h : PrimaryKeys store) (providers : List ProviderKind) (clock : ℤ) :
    Settled (Manager.new store providers clock) :=
  ⟨h, (agrees_iff h).mp ⟨fun _ => rfl, fun _ => rfl, fun _ => rfl⟩⟩

theorem Stage.start (answers : RecoveryAnswers) (m : Manager) :
    Stage answers m (fun _ => false) (fun _ => false) (fun _ => false) m where
  providers := rfl
  clock := rfl
  settled := id
  sessions := by simp
  turns := by simp
  approvals := by simp

theorem Stage.same {cur' : Manager} (h : Stage answers m ds dt da cur) (hs : SameRecords cur cur')
    (hproviders : cur'.providers = cur.providers) (hclock : cur'.clock = cur.clock) :
    Stage answers m ds dt da cur' where
  providers := hproviders.trans h.providers
  clock := hclock.trans h.clock
  settled := fun hm => (h.settled hm).same hs
  sessions := hs.sessions ▸ h.sessions
  turns := hs.turns ▸ h.turns
  approvals := hs.approvals ▸ h.approvals

theorem turnToFail_spec (hm : Keyed m) {session : SessionRecord} {turn : TurnRecord}
    (h : turnToFail answers m session = some turn) :
    m.turns.lookup turn.id = some turn ∧ turn.sessionId = session.id ∧ turn.status = .waitingForApproval ∧
      pendingApprovalForTurn m.approvals session.id turn.id = false := by
  obtain ⟨hbind, hturn⟩ := Option.filter_eq_some_iff.mp h
  obtain ⟨t, -, hl⟩ := Option.bind_eq_some_iff.mp hbind
  rw [decide_eq_true_eq, (resumed answers m.providers session).origin.id] at hturn
  exact ⟨(hm.turns t turn hl).symm ▸ hl, hturn⟩

theorem Stage.turnWritten (h : Stage answers m ds dt da cur) (hm : Keyed m) {k : String} {session : SessionRecord}
    (hs : m.sessions.lookup k = some session) :
    Stage answers m ds (also k dt) da (turnWritten answers m session cur) := by
  have hid := hm.sessions k session hs
  -- the turns of the session but the one that fails stay
  have hother : ∀ turn, turn.sessionId = k → turnToFail answers m session ≠ some turn →
      turnAfter answers m turn = turn := by
    rintro turn rfl hne
    rw [turnAfter, hs]
    exact if_neg hne
  have hkeeps : ∀ turn, turnToFail answers m session ≠ some turn →
      (if also k dt turn.sessionId then turnAfter answers m turn else turn) =
        if dt turn.sessionId then turnAfter answers m turn else turn := by
    intro turn hne
    by_cases hk : turn.sessionId = k
    · rw [hother turn hk hne, ite_self, ite_self]
    · simp [also, hk]
  unfold Runtime.turnWritten
  split
  · next turn hturn =>
    obtain ⟨hl, howner, -, -⟩ := turnToFail_spec hm hturn
    refine ⟨h.providers, h.clock, fun hm => (h.settled hm).turn _, h.sessions, fun t => ?_, h.approvals⟩
    change (cur.turns.insert turn.id (unapprovedTurn m.clock turn)).lookup t = _
    rw [Table.lookup_insert]
    split
    · next he =>
      have hafter : turnAfter answers m turn = unapprovedTurn m.clock turn := by
        rw [turnAfter, howner, hid, hs]
        exact if_pos hturn
      rw [he, hl, Option.map_some, howner, hid, also, decide_eq_true rfl, Bool.or_true, if_pos rfl, hafter]
    · next hne =>
      rw [h.turns t]
      cases hl' : m.turns.lookup t with
      | none => rfl
      | some turn' =>
        refine congrArg some (hkeeps turn' fun he => hne ?_).symm
        obtain rfl := Option.some.inj (hturn.symm.trans he)
        exact (hm.turns t turn hl').symm
  · next hnone =>
    refine ⟨h.providers, h.clock, h.settled, h.sessions, fun t => ?_, h.approvals⟩
    rw [h.turns t]
    cases m.turns.lookup t with
    | none => rfl
    | some turn => exact congrArg some (hkeeps turn (by rw [hnone]; simp)).symm

theorem Stage.sessionWritten (h : Stage answers m ds dt da cur) (hm : Keyed m) {k : String} {session : SessionRecord}
    (hs : m.sessions.lookup k = some session) (hk : ds k = false) :
    Stage answers m (also k ds) (also k dt) da (sessionWritten answers m session cur) := by
  have hid := hm.sessions k session hs
  have hw := h.turnWritten hm hs
  have hcur : (Runtime.turnWritten answers m session cur).sessions.lookup k = some session := by
    rw [hw.sessions k, hs, Option.map_some, hk, if_neg Bool.false_ne_true]
  have hlookup : ∀ k', k' ≠ k → (Runtime.turnWritten answers m session cur).sessions.lookup k' =
      (m.sessions.lookup k').map fun session =>
        if also k ds k' then sessionAfter answers m session else session := by
    intro k' hne
    rw [hw.sessions k', also, decide_eq_false hne, Bool.or_false]
  have hself : (m.sessions.lookup k).map (fun session =>
      if also k ds k then sessionAfter answers m session else session) = some (sessionAfter answers m session) := by
    simp [hs, also]
  unfold Runtime.sessionWritten
  split
  · next hsame =>
    refine ⟨hw.providers, hw.clock, hw.settled, fun k' => ?_, hw.turns, hw.approvals⟩
    by_cases he : k' = k
    · rw [he, hself, hcur, sessionAfter, if_pos hsame]
    · exact hlookup k' he
  · have hsettled := fun hm => ((hw.settled hm).session (sessionAfter answers m session)).settled fun old hold => by
      rw [(sessionAfter_origin answers m session).id, hid, hcur] at hold
      rw [← Option.some.inj hold, (sessionAfter_origin answers m session).createdAt]
    refine ⟨hw.providers, hw.clock, hsettled, fun k' => ?_, hw.turns, hw.approvals⟩
    change ((Runtime.turnWritten answers m session cur).sessions.insert (sessionAfter answers m session).id
      (sessionAfter answers m session)).lookup k' = _
    rw [Table.lookup_insert, (sessionAfter_origin answers m session).id, hid]
    split
    · next he => rw [he, hself]
    · next hne => exact hlookup k' hne

/-! ## The loops -/

theorem fails_of_faults {m' : Manager} (h : m.store.faults = [] → m'.store.faults = []) (hf : m'.fails 0 = true) :
    m.store.faults ≠ [] := by
  intro hnone
  rw [Manager.fails, h hnone] at hf
  cases hf

theorem turnWritten_faults (answers : RecoveryAnswers) (m : Manager) (session : SessionRecord)
    (h : cur.store.faults = []) :
    (turnWritten answers m session cur).store.faults = [] := by
  unfold turnWritten
  split
  · change cur.store.faults.tail = []
    rw [h]
    rfl
  · exact h

theorem sessionWritten_faults {session : SessionRecord} (h : cur.store.faults = []) :
    (sessionWritten answers m session cur).store.faults = [] := by
  have hw := turnWritten_faults answers m session h
  unfold sessionWritten
  split
  · exact hw
  · change (turnWritten answers m session cur).store.faults.tail = []
    rw [hw]
    rfl

/-- Recovery stopped at some stage: at a write that failed, or at a session whose provider it does not know. -/
structure Stopped (answers : RecoveryAnswers) (m cur : Manager) : Prop where
  stage : ∃ ds dt da, (∀ k, ds k = true → dt k = true) ∧ Stage answers m ds dt da cur
  cause : m.store.faults = [] → ∃ k session, m.sessions.lookup k = some session ∧
    providerMissing answers m session = true

/-- The sessions `done` are repaired. -/
structure SessionsDone (answers : RecoveryAnswers) (m : Manager) (done : List String) (cur : Manager) : Prop where
  stage : Stage answers m (fun k => k ∈ done) (fun k => k ∈ done) (fun _ => false) cur
  known : ∀ k ∈ done, ∀ session, m.sessions.lookup k = some session → providerMissing answers m session = false
  faults : m.store.faults = [] → cur.store.faults = []

theorem also_mem (k : String) (done : List String) :
    also k (fun k => decide (k ∈ done)) = fun k' => decide (k' ∈ done ++ [k]) := by
  funext k'
  simp [also, Bool.decide_or]

theorem recoverSession_done (hm : Keyed m) {done : List String} {k : String} (h : SessionsDone answers m done cur)
    (hk : k ∉ done) (hmem : k ∈ m.sessions.keys) (summary : StartupRecoverySummary) :
    After (recoverSession answers m.turns m.approvals summary k) cur fun r cur' =>
      (∀ s, r = .ok s → SessionsDone answers m (done ++ [k]) cur') ∧ ∀ e, r = .error e → Stopped answers m cur' := by
  obtain ⟨session, hs⟩ := Option.isSome_iff_exists.mp (AList.lookup_isSome.mpr (AList.mem_keys.mpr hmem))
  have hcur : cur.sessions.lookup k = some session := by
    rw [h.stage.sessions k, hs]
    simp [hk]
  have hwritten := h.stage.turnWritten hm hs
  refine after_recoverSession hcur h.stage.providers h.stage.clock (fun hmissing e => ?_) (fun turn _ hf => ?_)
    (fun waits hf => ?_) fun hpresent summary' waits => ?_
  · exact ⟨fun _ he => (by cases he), fun _ _ =>
      ⟨⟨_, _, _, fun _ hd => hd, h.stage⟩, fun _ => ⟨k, session, hs, hmissing⟩⟩⟩
  · refine ⟨fun _ he => (by cases he), fun _ _ => ⟨⟨_, _, _, fun _ hd => hd,
      h.stage.same ⟨rfl, rfl, rfl, rfl, rfl, rfl⟩ rfl rfl⟩, fun hnone => ?_⟩⟩
    exact absurd hnone (fails_of_faults h.faults hf)
  · refine ⟨fun _ he => (by cases he), fun _ _ => ⟨⟨_, _, _, fun k' hd => ?_,
      hwritten.same ⟨rfl, rfl, rfl, rfl, rfl, rfl⟩ rfl rfl⟩, fun hnone => ?_⟩⟩
    · rw [also, hd, Bool.true_or]
    · exact absurd hnone (fails_of_faults (fun hn => turnWritten_faults answers m session (h.faults hn)) hf)
  · refine ⟨fun _ _ => ⟨?_, fun k' hk' session' hs' => ?_, fun hnone => sessionWritten_faults (h.faults hnone)⟩,
      fun _ he => (by cases he)⟩
    · have hdone := h.stage.sessionWritten hm hs (by simp [hk])
      rw [also_mem] at hdone
      exact hdone.same ⟨rfl, rfl, rfl, rfl, rfl, rfl⟩ rfl rfl
    · rcases List.mem_append.mp hk' with hold | hnew
      · exact h.known k' hold session' hs'
      · obtain rfl := List.mem_singleton.mp hnew
        obtain rfl := Option.some.inj (hs.symm.trans hs')
        exact hpresent

theorem recoverSessions_done (hm : Keyed m) (summary : StartupRecoverySummary) :
    After (m.sessions.keys.foldlM (recoverSession answers m.turns m.approvals) summary) m fun r cur =>
      (∀ s, r = .ok s → SessionsDone answers m m.sessions.keys cur) ∧ ∀ e, r = .error e → Stopped answers m cur := by
  refine after_foldlM_done (I := SessionsDone answers m) _ _ (fun done k rest hl summary cur hcur => ?_)
    ⟨by simpa using Stage.start answers m, fun _ hk => absurd hk (by simp), id⟩
  have hnodup : (done ++ k :: rest).Nodup := hl ▸ m.sessions.keys_nodup
  have hk : k ∉ done := fun hk => (List.nodup_append.mp hnodup).2.2 k hk k (by simp) rfl
  exact recoverSession_done hm hcur hk (by simp [hl]) summary

/-- The approvals `done` are repaired after all the sessions. -/
structure ApprovalsDone (answers : RecoveryAnswers) (m : Manager) (done : List ApprovalRecord)
    (cur : Manager) : Prop where
  stage : Stage answers m (fun _ => true) (fun _ => true) (fun a => a ∈ done.map ApprovalRecord.id) cur
  faults : m.store.faults = [] → cur.store.faults = []

theorem recoverApproval_done {done : List ApprovalRecord} {x : ApprovalRecord} (h : ApprovalsDone answers m done cur)
    (hx : m.approvals.lookup x.id = some x)
    (hnew : x.id ∉ done.map ApprovalRecord.id) (summary : StartupRecoverySummary) :
    After (recoverApproval m.turns summary x) cur fun r cur' =>
      (∀ s, r = .ok s → ApprovalsDone answers m (done ++ [x]) cur') ∧ ∀ e, r = .error e → Stopped answers m cur' := by
  have hcur : cur.approvals.lookup x.id = some x := by
    rw [h.stage.approvals, hx, Option.map_some, decide_eq_false hnew, if_neg Bool.false_ne_true]
  have hlookup : ∀ a, a ≠ x.id → cur.approvals.lookup a = (m.approvals.lookup a).map fun approval =>
      if a ∈ (done ++ [x]).map ApprovalRecord.id then approvalAfter m approval else approval := by
    intro a hne
    rw [h.stage.approvals a]
    simp [hne]
  have hself : (m.approvals.lookup x.id).map (fun approval =>
      if x.id ∈ (done ++ [x]).map ApprovalRecord.id then approvalAfter m approval else approval) =
        some (approvalAfter m x) := by
    simp [hx]
  unfold recoverApproval
  simp only [after_bind_iff, after_nowMs, h.stage.clock]
  split
  · next horphan =>
    have hafter : approvalAfter m x = declinedApproval m.clock x := by rw [approvalAfter, if_pos horphan]
    simp only [after_bind_iff]
    refine after_store (fun hf => ?_) fun _ => ?_
    · refine ⟨fun _ he => (by cases he), fun _ _ => ⟨⟨_, _, _, fun _ hd => hd,
        h.stage.same ⟨rfl, rfl, rfl, rfl, rfl, rfl⟩ rfl rfl⟩, fun hnone => ?_⟩⟩
      exact absurd hnone (fails_of_faults h.faults hf)
    · simp only [after_insertApproval, after_pure]
      refine ⟨fun _ _ => ⟨⟨h.stage.providers, h.stage.clock, ?_, h.stage.sessions, h.stage.turns, fun a => ?_⟩,
        fun hnone => ?_⟩, fun _ he => by cases he⟩
      · exact fun hm => ((h.stage.settled hm).approval (declinedApproval m.clock x)).settled fun old hold => by
          obtain rfl := Option.some.inj (hcur.symm.trans hold)
          rfl
      · change (cur.approvals.insert x.id (declinedApproval m.clock x)).lookup a = _
        rw [Table.lookup_insert]
        simp only [decide_eq_true_eq]
        split
        · next he => rw [he, hself, hafter]
        · next hne => exact hlookup a hne
      · change cur.store.faults.tail = []
        rw [h.faults hnone]
        rfl
  · next hfine =>
    have hafter : approvalAfter m x = x := by rw [approvalAfter, if_neg hfine]
    refine (after_pure _ _ _).mpr ⟨fun _ _ => ⟨⟨h.stage.providers, h.stage.clock, h.stage.settled, h.stage.sessions,
      h.stage.turns, fun a => ?_⟩, h.faults⟩, fun _ he => by cases he⟩
    simp only [decide_eq_true_eq]
    by_cases he : a = x.id
    · rw [he, hself, hcur, hafter]
    · exact hlookup a he

theorem SessionsDone.approvals (h : SessionsDone answers m m.sessions.keys cur) : ApprovalsDone answers m [] cur := by
  have hall : ∀ k session, m.sessions.lookup k = some session → k ∈ m.sessions.keys := fun k session hs =>
    AList.mem_keys.mp (Table.lookup_isSome hs)
  refine ⟨⟨h.stage.providers, h.stage.clock, h.stage.settled, fun k => ?_, fun t => ?_,
    by simpa using h.stage.approvals⟩,
    h.faults⟩
  · rw [h.stage.sessions k]
    cases hs : m.sessions.lookup k with
    | none => rfl
    | some session => simp [hall k session hs]
  · rw [h.stage.turns t]
    cases ht : m.turns.lookup t with
    | none => rfl
    | some turn =>
      -- the turn of a session that is not there stays
      by_cases hk : turn.sessionId ∈ m.sessions.keys
      · simp [hk]
      · have hnone : m.sessions.lookup turn.sessionId = none := by
          rw [AList.lookup_eq_none, AList.mem_keys]
          exact hk
        simp [hk, turnAfter, hnone]

abbrev Recovered (answers : RecoveryAnswers) (m m' : Manager) : Prop :=
  Stage answers m (fun _ => true) (fun _ => true) (fun _ => true) m'

def ProvidersKnown (answers : RecoveryAnswers) (m : Manager) : Prop :=
  ∀ k session, m.sessions.lookup k = some session → providerMissing answers m session = false

theorem recoverStartup_stage (answers : RecoveryAnswers) (h : Settled m) : After (recoverStartup answers) m fun r m' =>
    (∀ s, r = .ok s → Recovered answers m m' ∧ ProvidersKnown answers m ∧
      (m.store.faults = [] → m'.store.faults = [])) ∧ ∀ e, r = .error e → Stopped answers m m' := by
  simp only [recoverStartup, after_bind_iff, after_nowMs, after_get, after_pure]
  refine (recoverSessions_done h.keyed _).elim (fun summary cur hcur => ?_) fun e cur hcur =>
    ⟨fun _ he => (by cases he), fun e' _ => hcur.2 e rfl⟩
  have hcur := hcur.1 summary rfl
  refine (after_foldlM_done (I := ApprovalsDone answers m) (J := Stopped answers m) _ _
    (fun done x rest hl summary cur' h' => ?_) hcur.approvals).elim (fun summary' m' hm' => ?_) fun e m' hm' =>
      ⟨fun _ he => (by cases he), fun _ _ => hm'.2 e rfl⟩
  · obtain ⟨a, ha⟩ := Table.mem_values.mp (show x ∈ m.approvals.values by simp [hl])
    have hkey := h.mirrored.approvals.key_eq ha
    refine recoverApproval_done h' (hkey.symm ▸ ha) ?_ summary
    have hnodup := m.approvals.keys_nodup
    rw [← Table.map_values fun a r hr => h.mirrored.approvals.key_eq hr, hl, List.map_append, List.map_cons] at hnodup
    exact fun hmem => (List.nodup_append.mp hnodup).2.2 _ hmem _ (by simp) rfl
  · have hdone := hm'.1 summary' rfl
    refine ⟨fun _ _ => ⟨⟨hdone.stage.providers, hdone.stage.clock, hdone.stage.settled, hdone.stage.sessions,
      hdone.stage.turns, fun a => ?_⟩, fun k session hs => ?_, hdone.faults⟩, fun _ he => by cases he⟩
    · rw [hdone.stage.approvals a]
      cases ha : m.approvals.lookup a with
      | none => rfl
      | some r =>
        have hmem : a ∈ m.approvals.values.map ApprovalRecord.id :=
          List.mem_map.mpr ⟨r, Table.mem_values.mpr ⟨a, ha⟩, h.mirrored.approvals.key_eq ha⟩
        simp only [hmem, decide_true, if_true]
    · exact hcur.known k (AList.mem_keys.mp (Table.lookup_isSome hs)) session hs

/-! ## What a recovery keeps -/

theorem recoverApproval_same (turns : Table String TurnRecord) (x : ApprovalRecord) (summary : StartupRecoverySummary) :
    After (recoverApproval turns summary x) cur fun _ cur' =>
      cur'.sessions = cur.sessions ∧ cur'.turns = cur.turns ∧ cur'.waits = cur.waits := by
  simp only [recoverApproval, after_bind_iff, after_nowMs]
  split
  · simp only [after_bind_iff]
    refine after_quiet fun res cur₁ hq _ => ?_
    cases res with
    | error e => exact ⟨hq.sessions, hq.turns, hq.waits⟩
    | ok _ =>
      simp only [after_insertApproval, after_pure]
      exact ⟨hq.sessions, hq.turns, hq.waits⟩
  · exact (after_pure _ _ _).mpr ⟨rfl, rfl, rfl⟩

theorem recoverApprovals_same (l : List ApprovalRecord) (turns : Table String TurnRecord)
    (summary : StartupRecoverySummary) :
    After (l.foldlM (recoverApproval turns) summary) cur fun _ m' =>
      m'.sessions = cur.sessions ∧ m'.turns = cur.turns ∧ m'.waits = cur.waits := by
  refine after_foldlM (I := fun m' : Manager => m'.sessions = cur.sessions ∧ m'.turns = cur.turns ∧
    m'.waits = cur.waits)
    _ _ (fun summary x _ cur' h => ?_) ⟨rfl, rfl, rfl⟩
  exact (recoverApproval_same turns x summary).mono fun _ _ h' =>
    ⟨h'.1.trans h.1, h'.2.1.trans h.2.1, h'.2.2.trans h.2.2⟩

/-- Recovery has repaired some sessions, and the turns of these and maybe of one more. -/
def Kept (answers : RecoveryAnswers) (m m' : Manager) : Prop :=
  ∃ ds dt da cur, (∀ k, ds k = true → dt k = true) ∧ Stage answers m ds dt da cur ∧ m'.sessions = cur.sessions ∧
    m'.turns = cur.turns

theorem recoverStartup_kept (hm : Keyed m) : After (recoverStartup answers) m fun _ m' => Kept answers m m' := by
  simp only [recoverStartup, after_bind_iff, after_nowMs, after_get, after_pure]
  refine (recoverSessions_done hm _).elim (fun summary cur hcur => ?_) fun e cur hcur => ?_
  · have hcur := hcur.1 summary rfl
    have hkept : ∀ m', (m'.sessions = cur.sessions ∧ m'.turns = cur.turns ∧ m'.waits = cur.waits) → Kept answers m m' :=
      fun m' h => ⟨_, _, _, cur, fun _ hd => hd, hcur.stage, h.1, h.2.1⟩
    exact (recoverApprovals_same _ m.turns summary).elim (fun _ m' h => hkept m' h) fun _ m' h => hkept m' h
  · obtain ⟨ds, dt, da, horder, hstage⟩ := (hcur.2 e rfl).stage
    exact ⟨ds, dt, da, cur, horder, hstage, rfl, rfl⟩

end

end Gooselake.Runtime
