import Gooselake.Runtime.Repairs

/-!
Recovery that is run again. A process may stop at any store write of the startup recovery; the next one starts from the
rows it left and recovers them to the end. That comes to the same records unless recovery has taken a session back
from its end, or has failed a turn that another approval is still pending for.
-/

namespace Gooselake.Runtime

open Gooselake.Core Data Library Library.Exec

set_option autoImplicit false

/-! ## Records up to their times -/

def withoutUpdateTime (r : SessionRecord) : SessionRecord := { r with updatedAt := 0 }

def withoutCompletionTime (r : TurnRecord) : TurnRecord := { r with completedAt := r.completedAt.map fun _ => 0 }

def withoutResolutionTime (r : ApprovalRecord) : ApprovalRecord := { r with resolvedAt := r.resolvedAt.map fun _ => 0 }

structure SameButTimes (m m' : Manager) : Prop where
  sessions : ∀ k, (m'.sessions.lookup k).map withoutUpdateTime = (m.sessions.lookup k).map withoutUpdateTime
  turns : ∀ t, (m'.turns.lookup t).map withoutCompletionTime = (m.turns.lookup t).map withoutCompletionTime
  approvals : ∀ a, (m'.approvals.lookup a).map withoutResolutionTime =
    (m.approvals.lookup a).map withoutResolutionTime

structure SameTables (m m' : Manager) : Prop where
  sessions : ∀ k, m'.sessions.lookup k = m.sessions.lookup k
  turns : ∀ t, m'.turns.lookup t = m.turns.lookup t
  approvals : ∀ a, m'.approvals.lookup a = m.approvals.lookup a

/-! ## Recovery that stops and is run again -/

namespace Manager

/-- The next `n` writes take place and the one after them does not, which is the end of recovery. -/
def stopping (n : ℕ) (m : Manager) : Manager :=
  { m with store := { m.store with faults := List.replicate n false ++ [true] } }

/-- The next process, when recovery stopped after `n` writes. -/
def restartedAfter (answers : RecoveryAnswers) (n : ℕ) (clock : ℤ) (m : Manager) : Manager :=
  Manager.new { ((recoverStartup answers).result (m.stopping n)).2.store with faults := [] } m.providers clock

end Manager

/-- Where recovery comes to its end, it does so after a stop at any write and a restart, with the same records up to
the times, in memory and in the store; and when it is run once more, no record changes. -/
def Repeatable (answers : RecoveryAnswers) (m : Manager) : Prop :=
  ∀ summary m', (recoverStartup answers).result m = (.ok summary, m') →
    (∀ (n : ℕ) (clock : ℤ), ∃ summary' m'',
      (recoverStartup answers).result (m.restartedAfter answers n clock) = (.ok summary', m'') ∧
        SameButTimes m' m'' ∧ SameButTimes m'.hydrated m''.hydrated) ∧
    ∀ clock : ℤ, ∃ summary' m'', (recoverStartup answers).result { m' with clock := clock } = (.ok summary', m'') ∧
      SameTables m' m'' ∧ SameTables m'.hydrated m''.hydrated

/-- Every resume succeeds with the references it is given; where no canonical one is given, the answer may have one. -/
def ResumesAsGiven (answers : RecoveryAnswers) : Prop :=
  ∀ request, ∃ resumed, answers.resume request = .ok resumed ∧
    resumed.providerSessionRef = request.providerSessionRef ∧
    (request.canonicalProviderSessionRef.isSome →
      resumed.canonicalProviderSessionRef = request.canonicalProviderSessionRef)

/-! ## When it can be run again -/

section

variable (answers : RecoveryAnswers) (m : Manager)

def ownTurn (session : SessionRecord) : Option TurnRecord :=
  (session.activeTurnId.bind fun t => m.turns.lookup t).filter fun turn => turn.sessionId = session.id

def unknownProvider (session : SessionRecord) : Bool :=
  (ProviderKind.fromStr session.provider).isNone &&
    if isClosedOrFailed session.status then (ownTurn m session).any fun turn => turn.status = .inProgress
    else session.providerSessionRef.isSome

def comesBack (session : SessionRecord) : Bool :=
  isClosedOrFailed session.status && (ownTurn m session).any fun turn =>
    turn.status = .waitingForApproval && pendingApprovalForTurn m.approvals session.id turn.id

def keepsReferences (session : SessionRecord) : Bool :=
  session.providerSessionRef.isSome && (ProviderKind.fromStr session.provider).isSome &&
    (resumeAnswer answers m.providers session).all fun
      | .ok resumed => resumed.canonicalProviderSessionRef = session.canonicalProviderSessionRef
      | .error _ => false

/-- The session that has the turn names it, the turn waits for an approval, and none of the session is pending. -/
def waitsInVain (turn : TurnRecord) : Bool :=
  (m.sessions.lookup turn.sessionId).any fun session =>
    session.activeTurnId = some turn.id && (isClosedOrFailed session.status || session.providerSessionRef.isSome) &&
      turn.status = .waitingForApproval && !pendingApprovalForTurn m.approvals session.id turn.id

/-- Recovery stops at an unknown provider; or a session that comes back keeps its references when it is resumed the
next time, and no approval is pending for a turn that waits in vain. -/
def repeats : Bool :=
  m.sessions.values.any (unknownProvider m) ||
    ((m.sessions.values.all fun session => !comesBack m session || keepsReferences answers m session) &&
      m.approvals.values.all fun approval =>
        approval.status ≠ .pending || !(m.turns.lookup approval.turnId).any (waitsInVain m))

end

/-! ## A manager that starts in the middle -/

/-- `n` starts from what recovery of `m` had written at some stage: the sessions `ds`, the turns of the sessions `dt`
and the approvals `da`. -/
structure Midway (answers : RecoveryAnswers) (m : Manager) (ds dt da : String → Bool) (n : Manager) : Prop where
  keyed : Keyed m
  providers : n.providers = m.providers
  order : ∀ k, ds k = true → dt k = true
  sessions : ∀ k, n.sessions.lookup k = (m.sessions.lookup k).map fun session =>
    if ds k then sessionAfter answers m session else session
  turns : ∀ t, n.turns.lookup t = (m.turns.lookup t).map fun turn =>
    if dt turn.sessionId then turnAfter answers m turn else turn
  approvals : ∀ a, n.approvals.lookup a = (m.approvals.lookup a).map fun approval =>
    if da a then approvalAfter m approval else approval

section

variable {answers : RecoveryAnswers} {m n : Manager} {ds dt da : String → Bool} {t : String} {turn : TurnRecord}
  {session : SessionRecord}

def Fails (answers : RecoveryAnswers) (m : Manager) (turn : TurnRecord) : Prop :=
  (m.sessions.lookup turn.sessionId).bind (turnToFail answers m) = some turn

theorem readyUnlessEnded_of_ended {status : SessionStatus} (h : isClosedOrFailed status = true) :
    readyUnlessEnded status = status := by
  cases status <;> simp_all [isClosedOrFailed, readyUnlessEnded]

theorem pendingApproval_iff {sid : String} : pendingApprovalForTurn m.approvals sid t = true ↔
    ∃ a r, m.approvals.lookup a = some r ∧ r.turnId = t ∧ r.sessionId = sid ∧ r.status = .pending := by
  simp only [pendingApprovalForTurn, List.any_eq_true, Table.mem_values, Bool.and_eq_true, decide_eq_true_eq]
  constructor
  · rintro ⟨r, ⟨a, hr⟩, ⟨ht, hs⟩, hp⟩
    exact ⟨a, r, hr, ht, hs, hp⟩
  · rintro ⟨a, r, hr, ht, hs, hp⟩
    exact ⟨r, ⟨a, hr⟩, ⟨ht, hs⟩, hp⟩

theorem turnAfter_of_fails (h : Fails answers m turn) :
    turnAfter answers m turn = unapprovedTurn m.clock turn := if_pos h

theorem turnAfter_of_not_fails (h : ¬ Fails answers m turn) : turnAfter answers m turn = turn := if_neg h

theorem Fails.spec (hm : Keyed m) (h : Fails answers m turn) :
    ∃ session, m.sessions.lookup turn.sessionId = some session ∧ turnToFail answers m session = some turn ∧
      turn.status = .waitingForApproval ∧ pendingApprovalForTurn m.approvals turn.sessionId turn.id = false := by
  obtain ⟨session, hs, hturn⟩ := Option.bind_eq_some_iff.mp h
  obtain ⟨-, howner, hwaiting, hpending⟩ := turnToFail_spec hm hturn
  exact ⟨session, hs, hturn, hwaiting, howner ▸ hpending⟩

theorem Midway.turn_cases (h : Midway answers m ds dt da n) (ht : m.turns.lookup t = some turn) :
    n.turns.lookup t = some turn ∨
      n.turns.lookup t = some (unapprovedTurn m.clock turn) ∧ Fails answers m turn ∧ dt turn.sessionId = true := by
  rw [h.turns t, ht, Option.map_some]
  by_cases hd : dt turn.sessionId = true
  · by_cases hf : Fails answers m turn
    · exact .inr ⟨by rw [if_pos hd, turnAfter_of_fails hf], hf, hd⟩
    · exact .inl (by rw [if_pos hd, turnAfter_of_not_fails hf])
  · exact .inl (by rw [if_neg hd])

theorem Midway.turn_none (h : Midway answers m ds dt da n) (ht : m.turns.lookup t = none) :
    n.turns.lookup t = none := by
  rw [h.turns t, ht]
  rfl

theorem Midway.turn_stays (h : Midway answers m ds dt da n) (ht : m.turns.lookup t = some turn)
    (hf : ¬ Fails answers m turn) : n.turns.lookup t = some turn := by
  obtain hsame | ⟨-, hfails, -⟩ := h.turn_cases ht
  · exact hsame
  · exact absurd hfails hf

theorem not_fails_of_status (hm : Keyed m) (h : turn.status ≠ .waitingForApproval) : ¬ Fails answers m turn := by
  intro hf
  obtain ⟨session, -, -, hwaiting, -⟩ := hf.spec hm
  exact h hwaiting

theorem not_fails_of_pending (hm : Keyed m)
    (h : pendingApprovalForTurn m.approvals turn.sessionId turn.id = true) : ¬ Fails answers m turn := by
  intro hf
  obtain ⟨session, -, -, -, hnone⟩ := hf.spec hm
  rw [h] at hnone
  cases hnone

theorem Midway.pending (h : Midway answers m ds dt da n) (ht : m.turns.lookup turn.id = some turn)
    (hopen : isTerminalTurnStatus turn.status = false) (sessionId : String) :
    pendingApprovalForTurn n.approvals sessionId turn.id = pendingApprovalForTurn m.approvals sessionId turn.id := by
  have hstays : ∀ a r, m.approvals.lookup a = some r → r.turnId = turn.id → approvalAfter m r = r := by
    intro a r _ hr
    rw [approvalAfter, if_neg fun h => ?_]
    have horphan := h.2
    rw [orphaned, hr, ht] at horphan
    simp [hopen] at horphan
  rw [Bool.eq_iff_iff, pendingApproval_iff, pendingApproval_iff]
  constructor
  · rintro ⟨a, r', hr', htid, hsid, hp⟩
    rw [h.approvals a] at hr'
    obtain ⟨r, hr, he⟩ := Option.map_eq_some_iff.mp hr'
    have hr₀ : r.turnId = turn.id := by
      rw [← htid, ← he]
      split
      · rw [approvalAfter]
        split <;> rfl
      · rfl
    rw [hstays a r hr hr₀, ite_self] at he
    subst he
    exact ⟨a, r, hr, htid, hsid, hp⟩
  · rintro ⟨a, r, hr, htid, hsid, hp⟩
    refine ⟨a, r, ?_, htid, hsid, hp⟩
    rw [h.approvals a, hr, Option.map_some, hstays a r hr htid, ite_self]

/-! ## Sessions that are not repaired yet -/

theorem Midway.reconciled (h : Midway answers m ds dt da n) (session resumed : SessionRecord) :
    reconciledSession n session resumed = reconciledSession m session resumed := by
  unfold reconciledSession
  split
  · rfl
  · next t hactive =>
    cases ht : m.turns.lookup t with
    | none => simp only [h.turn_none ht]
    | some turn =>
      have hid := h.keyed.turns t turn ht
      obtain hsame | ⟨hfailed, hfails, -⟩ := h.turn_cases ht
      · simp only [hsame]
        by_cases hopen : isTerminalTurnStatus turn.status = true
        · simp only [hopen, if_true]
        · have hopen : isTerminalTurnStatus turn.status = false := by simpa using hopen
          rw [h.pending (hid.symm ▸ ht) hopen]
      · -- the turn was failed already, and the session lets go of it
        obtain ⟨session', hs', hturn, hwaiting, hnone⟩ := hfails.spec h.keyed
        simp only [hfailed]
        by_cases howner : turn.sessionId = resumed.id
        · rw [howner] at hnone
          simp [unapprovedTurn, howner, hwaiting, hnone, isTerminalTurnStatus]
        · simp [unapprovedTurn, howner]

theorem Midway.namesRunning (h : Midway answers m ds dt da n) (resumed : SessionRecord) :
    namesRunningTurn n resumed = namesRunningTurn m resumed := by
  unfold namesRunningTurn
  cases hactive : resumed.activeTurnId with
  | none => rfl
  | some t =>
    rw [Option.bind_some, Option.bind_some]
    cases ht : m.turns.lookup t with
    | none => rw [h.turn_none ht]
    | some turn =>
      obtain hsame | ⟨hfailed, hfails, -⟩ := h.turn_cases ht
      · rw [hsame]
      · obtain ⟨-, -, -, hwaiting, -⟩ := hfails.spec h.keyed
        rw [hfailed]
        simp [unapprovedTurn, hwaiting]

theorem Midway.unapproved (h : Midway answers m ds dt da n) (resumed : SessionRecord) :
    unapprovedTurnOf n resumed = some turn ↔
      unapprovedTurnOf m resumed = some turn ∧ n.turns.lookup turn.id = some turn := by
  simp only [unapprovedTurnOf, Option.filter_eq_some_iff, Option.bind_eq_some_iff, decide_eq_true_eq]
  constructor
  · rintro ⟨⟨t, hactive, hn⟩, howner, hwaiting, hnone⟩
    rw [h.turns t] at hn
    obtain ⟨turn₀, ht, he⟩ := Option.map_eq_some_iff.mp hn
    have hsame : turn₀ = turn := by
      obtain hsame | ⟨hfailed, -⟩ := h.turn_cases ht
      · rw [h.turns t, ht] at hsame
        exact (Option.some.inj hsame).symm.trans he
      · rw [h.turns t, ht] at hfailed
        rw [← (Option.some.inj hfailed).symm.trans he] at hwaiting
        cases hwaiting
    subst hsame
    have hid := h.keyed.turns t turn₀ ht
    have hpending := h.pending (hid.symm ▸ ht) (by rw [hwaiting]; rfl) resumed.id
    refine ⟨⟨⟨t, hactive, ht⟩, howner, hwaiting, hpending ▸ hnone⟩, ?_⟩
    rw [hid, h.turns t, ht, Option.map_some, he]
  · rintro ⟨⟨⟨t, hactive, ht⟩, howner, hwaiting, hnone⟩, hn⟩
    have hid := h.keyed.turns t turn ht
    have hpending := h.pending (hid.symm ▸ ht) (by rw [hwaiting]; rfl) resumed.id
    exact ⟨⟨t, hactive, hid ▸ hn⟩, howner, hwaiting, hpending.trans hnone⟩

/-! ## Sessions that are repaired -/

/-- A session that reconciling leaves as it is: it names no turn, or a waiting turn of its own with an approval, or a
running one. -/
inductive Rested (m : Manager) (f : SessionRecord) : Prop where
  | idle (active : f.activeTurnId = none) (status : f.status ≠ .turnRunning ∧ f.status ≠ .waitingForApproval)
  | asked {t : String} {turn : TurnRecord} (active : f.activeTurnId = some t) (found : m.turns.lookup t = some turn)
      (owner : turn.sessionId = f.id) (waiting : turn.status = .waitingForApproval)
      (pending : pendingApprovalForTurn m.approvals f.id turn.id = true) (status : f.status = .waitingForApproval)
  | running {t : String} {turn : TurnRecord} (active : f.activeTurnId = some t) (found : m.turns.lookup t = some turn)
      (owner : turn.sessionId = f.id) (status : turn.status = .inProgress)

theorem readyUnlessEnded_idle (status : SessionStatus) :
    readyUnlessEnded status ≠ .turnRunning ∧ readyUnlessEnded status ≠ .waitingForApproval := by
  cases status <;> simp [readyUnlessEnded]

theorem Resumed.rested {resumed : SessionRecord} (h : Resumed session resumed) :
    Rested m (reconciledSession m session resumed) := by
  have hid := h.origin.id
  unfold reconciledSession
  split
  · next hactive =>
    split
    · exact .idle hactive ⟨by simp, by simp⟩
    · next hst =>
      push Not at hst
      exact .idle hactive hst
  · next t hactive =>
    split
    · exact .idle rfl (readyUnlessEnded_idle _)
    · next turn ht =>
      split
      · exact .idle rfl ⟨by simp [givenUpSession], by simp [givenUpSession]⟩
      next howner =>
      have howner : turn.sessionId = resumed.id := by simpa using howner
      split
      · exact .idle rfl (readyUnlessEnded_idle _)
      next hopen =>
      split
      · next hwaiting =>
        split
        · next hpending => exact .asked hactive ht howner hwaiting hpending rfl
        · exact .idle rfl (readyUnlessEnded_idle _)
      · next hwaiting =>
        have hrunning : turn.status = .inProgress := by
          cases hst : turn.status <;> simp_all [isTerminalTurnStatus]
        split
        · next hsame => exact .running (hsame ▸ hactive) ht (hsame ▸ howner) hrunning
        · exact .running hactive ht howner hrunning

theorem Rested.withUpdateTime {f : SessionRecord} (h : Rested m f) (now : ℤ) :
    Rested m { f with updatedAt := now } := by
  cases h with
  | idle active status => exact .idle active status
  | asked active found owner waiting pending status => exact .asked active found owner waiting pending status
  | running active found owner status => exact .running active found owner status

theorem rested_sessionAfter : Rested m (sessionAfter answers m session) := by
  have hrested : Rested m (repairedSession answers m session) := (resumed answers m.providers session).rested
  unfold sessionAfter
  split
  · next hsame => exact hsame ▸ hrested
  · exact hrested.withUpdateTime _

theorem Midway.rested (h : Midway answers m ds dt da n) {f : SessionRecord} (hf : Rested m f) : Rested n f := by
  cases hf with
  | idle active status => exact .idle active status
  | asked active found owner waiting pending status =>
    have hid := h.keyed.turns _ _ found
    refine .asked active (h.turn_stays found (not_fails_of_pending h.keyed (owner ▸ pending))) owner waiting ?_ status
    rw [h.pending (hid.symm ▸ found) (by rw [waiting]; rfl)]
    exact pending
  | running active found owner status =>
    exact .running active (h.turn_stays found (not_fails_of_status h.keyed (by rw [status]; decide))) owner status

theorem Rested.reconciled {f : SessionRecord} (h : Rested n f) : reconciledSession n f f = f := by
  unfold reconciledSession
  cases h with
  | idle active status => simp [active, status]
  | asked active found owner waiting pending status =>
    cases f
    dsimp only at active owner pending status
    subst active status
    simp [found, owner, waiting, pending, isTerminalTurnStatus]
  | running active found owner status =>
    simp only [active, found, owner, status]
    simp [isTerminalTurnStatus]

theorem Rested.unapproved {f : SessionRecord} (h : Rested n f) : unapprovedTurnOf n f = none := by
  unfold unapprovedTurnOf
  cases h with
  | idle active status => simp [active]
  | asked active found owner waiting pending status => simp [active, found, pending]
  | running active found owner status => simp [active, found, status]

/-! ## References that stay -/

theorem SameOrigin.resumeAnswer {session' : SessionRecord} (h : SameOrigin session session')
    (href : session'.providerSessionRef = session.providerSessionRef) :
    resumeAnswer answers m.providers session' = (resumeAnswer answers m.providers session).bind fun _ =>
      session.providerSessionRef.map fun ref => answers.resume
        ⟨session.id, ref, session'.canonicalProviderSessionRef, session.cwd, some session.metadata⟩ := by
  unfold Runtime.resumeAnswer
  rw [h.id, h.provider, h.cwd, h.metadata, href]
  cases session.providerSessionRef with
  | none => rfl
  | some ref =>
    cases ProviderKind.fromStr session.provider with
    | none => rfl
    | some kind => by_cases hreg : kind ∈ m.providers <;> simp [hreg]

theorem resumeAnswer_request {answer : Except RuntimeError ProviderSession}
    (h : resumeAnswer answers m.providers session = some answer) :
    ∃ ref, session.providerSessionRef = some ref ∧ answer = answers.resume
      ⟨session.id, ref, session.canonicalProviderSessionRef, session.cwd, some session.metadata⟩ := by
  obtain ⟨ref, href, h⟩ := Option.bind_eq_some_iff.mp h
  obtain ⟨kind, -, h⟩ := Option.bind_eq_some_iff.mp h
  rw [Option.ite_none_right_eq_some] at h
  exact ⟨ref, href, (Option.some.inj h.2).symm⟩

theorem sessionAfter_refs (answers : RecoveryAnswers) (m : Manager) (session : SessionRecord) :
    (sessionAfter answers m session).providerSessionRef =
        (resumedSession answers m.providers session).providerSessionRef ∧
      (sessionAfter answers m session).canonicalProviderSessionRef =
        (resumedSession answers m.providers session).canonicalProviderSessionRef := by
  have hrefs : (repairedSession answers m session).providerSessionRef =
        (resumedSession answers m.providers session).providerSessionRef ∧
      (repairedSession answers m session).canonicalProviderSessionRef =
        (resumedSession answers m.providers session).canonicalProviderSessionRef := by
    obtain ⟨status, active, code, message, hsets⟩ :=
      reconciledSession_sets m session (resumedSession answers m.providers session)
    rw [repairedSession, hsets]
    exact ⟨rfl, rfl⟩
  unfold sessionAfter
  split
  · next hsame => rwa [hsame] at hrefs
  · exact hrefs

theorem sessionAfter_status : (sessionAfter answers m session).status = (repairedSession answers m session).status := by
  unfold sessionAfter
  split
  · next hsame => rw [hsame]
  · rfl

theorem reconciledSession_givenUp (m : Manager) (session : SessionRecord) (code message : String) :
    reconciledSession m session (givenUpSession code message session) = givenUpSession code message session := by
  simp [reconciledSession, givenUpSession]

theorem reconciledSession_ended (hended : isClosedOrFailed session.status = true) :
    isClosedOrFailed (reconciledSession m session session).status = true ∨
      (comesBack m session = true ∧ (reconciledSession m session session).status = .waitingForApproval) := by
  have hready : isClosedOrFailed (clearedSession session).status = true := by
    change isClosedOrFailed (readyUnlessEnded session.status) = true
    rw [readyUnlessEnded_of_ended hended]
    exact hended
  unfold reconciledSession
  split
  · next hactive =>
    split
    · next hst =>
      obtain hst | hst := hst <;>
      · rw [hst] at hended
        cases hended
    · exact .inl hended
  · next t hactive =>
    split
    · exact .inl hready
    · next turn ht =>
      split
      · exact .inl rfl
      next howner =>
      split
      · exact .inl hready
      split
      · next hwaiting =>
        split
        · next hpending =>
          have howner : turn.sessionId = session.id := by simpa using howner
          exact .inr ⟨by simp [comesBack, ownTurn, hended, hactive, ht, howner, hwaiting, hpending], rfl⟩
        · exact .inl hready
      · rw [if_pos rfl]
        exact .inl hended

theorem open_sessionAfter (hopen : isClosedOrFailed (sessionAfter answers m session).status = false) :
    (isClosedOrFailed session.status = false ∧ ∃ ref, session.providerSessionRef = some ref) ∨
    (isClosedOrFailed session.status = true ∧ resumedSession answers m.providers session = session ∧
      comesBack m session = true) := by
  rw [sessionAfter_status] at hopen
  cases hended : isClosedOrFailed session.status with
  | false =>
    refine .inl ⟨rfl, Option.ne_none_iff_exists'.mp fun hnone => ?_⟩
    have hgivenUp : resumedSession answers m.providers session =
        givenUpSession "startup_missing_provider_ref" "missing provider_session_ref" session := by
      simp [resumedSession, hended, hnone]
    rw [repairedSession, hgivenUp, reconciledSession_givenUp] at hopen
    cases hopen
  | true =>
    have hsame : resumedSession answers m.providers session = session := by simp [resumedSession, hended]
    rw [repairedSession, hsame] at hopen
    obtain hstill | ⟨hback, -⟩ := reconciledSession_ended (m := m) hended
    · rw [hopen] at hstill
      cases hstill
    · exact .inr ⟨rfl, hsame, hback⟩

theorem resumedSession_same (hopen : isClosedOrFailed session.status = false) {ref : String}
    (href : session.providerSessionRef = some ref)
    (hanswer : ∀ answer, resumeAnswer answers m.providers session = some answer → ∃ resumed, answer = .ok resumed ∧
      resumed.providerSessionRef = ref ∧
        resumed.canonicalProviderSessionRef = session.canonicalProviderSessionRef) :
    resumedSession answers m.providers session = session := by
  unfold resumedSession
  rw [if_neg (by simp [hopen]), href]
  cases ha : resumeAnswer answers m.providers session with
  | none => rfl
  | some answer =>
    obtain ⟨resumed, rfl, hr, hc⟩ := hanswer answer ha
    exact renewed_eq_iff.mpr ⟨by rw [href, hr], hc.symm⟩

theorem ResumesAsGiven.again (hanswers : ResumesAsGiven answers) {ref : String} {resumed : ProviderSession}
    (hanswer : answers.resume
      ⟨session.id, ref, session.canonicalProviderSessionRef, session.cwd, some session.metadata⟩ = .ok resumed) :
    ∃ resumed', answers.resume
        ⟨session.id, ref, resumed.canonicalProviderSessionRef, session.cwd, some session.metadata⟩ = .ok resumed' ∧
      resumed'.providerSessionRef = ref ∧
        resumed'.canonicalProviderSessionRef = resumed.canonicalProviderSessionRef := by
  cases hcanonical : resumed.canonicalProviderSessionRef with
  | some c =>
    obtain ⟨resumed', hanswer', href, hgiven⟩ :=
      hanswers ⟨session.id, ref, some c, session.cwd, some session.metadata⟩
    exact ⟨resumed', hanswer', href, hgiven rfl⟩
  | none =>
    -- none was given before either, and the request is the same
    obtain ⟨resumed', hanswer', href, hgiven⟩ :=
      hanswers ⟨session.id, ref, session.canonicalProviderSessionRef, session.cwd, some session.metadata⟩
    obtain rfl := Except.ok.inj (hanswer.symm.trans hanswer')
    have hnone : session.canonicalProviderSessionRef = none := by
      rw [Option.eq_none_iff_forall_not_mem]
      intro c hc
      have hsome := hgiven (Option.isSome_of_mem hc)
      rw [hcanonical] at hsome
      exact absurd (hsome.trans hc) nofun
    exact ⟨resumed, hnone ▸ hanswer, href, hcanonical⟩

theorem resumedSession_sessionAfter (hanswers : ResumesAsGiven answers)
    (hback : comesBack m session = true → keepsReferences answers m session = true) :
    resumedSession answers m.providers (sessionAfter answers m session) = sessionAfter answers m session := by
  have horigin := sessionAfter_origin answers m session
  obtain ⟨href, hcanonical⟩ := sessionAfter_refs answers m session
  generalize hf : sessionAfter answers m session = f at horigin href hcanonical
  cases hopen : isClosedOrFailed f.status with
  | true => simp [resumedSession, hopen]
  | false =>
    obtain ⟨hopen', ref, hsref⟩ | ⟨hended, hsame, hback'⟩ := open_sessionAfter (hf ▸ hopen)
    · unfold resumedSession at href hcanonical
      rw [if_neg (by simp [hopen']), hsref] at href hcanonical
      cases ha : resumeAnswer answers m.providers session with
      | none =>
        rw [ha] at href hcanonical
        refine resumedSession_same hopen (href.trans hsref) fun answer ha' => ?_
        rw [horigin.resumeAnswer href, ha] at ha'
        cases ha'
      | some answer =>
        obtain ⟨ref', href', rfl⟩ := resumeAnswer_request ha
        obtain rfl : ref = ref' := Option.some.inj (hsref.symm.trans href')
        obtain ⟨resumed, hresumed, hr, -⟩ := hanswers
          ⟨session.id, ref, session.canonicalProviderSessionRef, session.cwd, some session.metadata⟩
        rw [ha, hresumed] at href hcanonical
        dsimp only at href hcanonical hr
        have hkept : f.providerSessionRef = session.providerSessionRef := by rw [href, hsref, hr]
        refine resumedSession_same hopen (by rw [href, hr]) fun answer ha' => ?_
        rw [horigin.resumeAnswer hkept, ha, hsref, hcanonical] at ha'
        obtain rfl := (Option.some.inj ha').symm
        rw [hcanonical]
        exact hanswers.again hresumed
    · have hkeeps := hback hback'
      unfold keepsReferences at hkeeps
      rw [Bool.and_eq_true, Bool.and_eq_true] at hkeeps
      obtain ⟨⟨hsome, -⟩, hall⟩ := hkeeps
      obtain ⟨ref, hsref⟩ := Option.isSome_iff_exists.mp hsome
      rw [hsame] at href hcanonical
      refine resumedSession_same hopen (href.trans hsref) fun answer ha => ?_
      have ha' : resumeAnswer answers m.providers session = some answer := by
        rw [horigin.resumeAnswer href, hcanonical] at ha
        obtain ⟨answer', ha', hans⟩ := Option.bind_eq_some_iff.mp ha
        obtain ⟨ref', href', hans'⟩ := resumeAnswer_request ha'
        rw [href', Option.map_some] at hans
        rw [ha', hans', ← Option.some.inj hans]
      obtain ⟨ref', href', rfl⟩ := resumeAnswer_request ha'
      obtain rfl : ref = ref' := Option.some.inj (hsref.symm.trans href')
      obtain ⟨resumed, hres, hr, -⟩ := hanswers
        ⟨session.id, ref, session.canonicalProviderSessionRef, session.cwd, some session.metadata⟩
      rw [ha', hres] at hall
      exact ⟨resumed, hres, hr, by rw [hcanonical]; simpa using hall⟩

/-! ## The same records from the middle -/

theorem Midway.repaired (h : Midway answers m ds dt da n) (hanswers : ResumesAsGiven answers)
    (hback : comesBack m session = true → keepsReferences answers m session = true) :
    resumedSession answers n.providers (sessionAfter answers m session) = sessionAfter answers m session ∧
      repairedSession answers n (sessionAfter answers m session) = sessionAfter answers m session := by
  have hresumed := resumedSession_sessionAfter hanswers hback
  rw [← h.providers] at hresumed
  refine ⟨hresumed, ?_⟩
  rw [repairedSession, hresumed]
  exact (h.rested rested_sessionAfter).reconciled

theorem Midway.session_same (h : Midway answers m ds dt da n) (hanswers : ResumesAsGiven answers)
    (hback : comesBack m session = true → keepsReferences answers m session = true) (d : Bool) :
    withoutUpdateTime (sessionAfter answers n (if d = true then sessionAfter answers m session else session)) =
      withoutUpdateTime (sessionAfter answers m session) := by
  cases d with
  | true =>
    rw [if_pos rfl, sessionAfter, if_pos (h.repaired hanswers hback).2]
  | false =>
    have hsame : repairedSession answers n session = repairedSession answers m session := by
      rw [repairedSession, h.providers]
      exact h.reconciled session _
    rw [if_neg Bool.false_ne_true, sessionAfter, hsame, sessionAfter]
    split <;> rfl

theorem reconciledSession_active (m : Manager) (session resumed : SessionRecord) {t : String}
    (h : (reconciledSession m session resumed).activeTurnId = some t) : resumed.activeTurnId = some t := by
  unfold reconciledSession at h
  split at h
  · split at h <;> exact h
  · split at h
    · cases h
    · split at h
      · cases h
      split at h
      · cases h
      split at h
      · split at h
        · exact h
        · cases h
      split at h
      · next hsame => exact hsame ▸ h
      · exact h

theorem sessionAfter_active {t : String} (h : (sessionAfter answers m session).activeTurnId = some t) :
    (resumedSession answers m.providers session).activeTurnId = some t := by
  refine reconciledSession_active m session _ (?_ : (repairedSession answers m session).activeTurnId = some t)
  unfold sessionAfter at h
  split at h
  · next hsame => rwa [hsame]
  · exact h

theorem Midway.providerKnown (h : Midway answers m ds dt da n) (hanswers : ResumesAsGiven answers)
    (hback : comesBack m session = true → keepsReferences answers m session = true)
    (hknown : providerMissing answers m session = false) (d : Bool) :
    providerMissing answers n (if d = true then sessionAfter answers m session else session) = false := by
  cases d with
  | false =>
    rw [if_neg Bool.false_ne_true, providerMissing, h.providers, h.namesRunning]
    exact hknown
  | true =>
    have horigin := sessionAfter_origin answers m session
    rw [if_pos rfl, providerMissing, (h.repaired hanswers hback).1, h.namesRunning, horigin.provider]
    refine decide_eq_false fun hmissing => ?_
    obtain ⟨hnone, ⟨hopen, href⟩ | hruns⟩ := hmissing
    · obtain ⟨hopen', ref, href⟩ | ⟨-, -, hback'⟩ := open_sessionAfter hopen
      · exact of_decide_eq_false hknown ⟨hnone, .inl ⟨hopen', by rw [href]; rfl⟩⟩
      · have hkeeps := hback hback'
        rw [keepsReferences, Option.isNone_iff_eq_none.mp hnone] at hkeeps
        simp at hkeeps
    · refine of_decide_eq_false hknown ⟨hnone, .inr ?_⟩
      obtain ⟨turn, hturn, hown⟩ := (Option.any_eq_true _ _).mp hruns
      obtain ⟨t, hactive, ht⟩ := Option.bind_eq_some_iff.mp hturn
      rw [horigin.id, ← (resumed answers m.providers session).origin.id] at hown
      rw [namesRunningTurn, sessionAfter_active hactive, Option.bind_some, ht]
      exact hown

/-! ## Turns and approvals from the middle -/

def BackAsBefore (answers : RecoveryAnswers) (m : Manager) : Prop :=
  ∀ k session, m.sessions.lookup k = some session → comesBack m session = true →
    keepsReferences answers m session = true

def NoneAsked (answers : RecoveryAnswers) (m : Manager) : Prop :=
  ∀ a approval turn, m.approvals.lookup a = some approval → approval.status = .pending →
    m.turns.lookup approval.turnId = some turn → ¬ Fails answers m turn

theorem Midway.fails_iff (h : Midway answers m ds dt da n) (hanswers : ResumesAsGiven answers)
    (hback : BackAsBefore answers m) (hn : n.turns.lookup turn.id = some turn) :
    Fails answers n turn ↔ ds turn.sessionId = false ∧ Fails answers m turn := by
  unfold Fails
  rw [h.sessions turn.sessionId]
  cases hs : m.sessions.lookup turn.sessionId with
  | none => simp
  | some session =>
    rw [Option.map_some, Option.bind_some, Option.bind_some]
    cases hd : ds turn.sessionId with
    | true =>
      have hnone : turnToFail answers n (sessionAfter answers m session) = none := by
        rw [turnToFail, (h.repaired hanswers (hback _ _ hs)).1]
        exact (h.rested rested_sessionAfter).unapproved
      simp [hnone]
    | false =>
      rw [if_neg Bool.false_ne_true, turnToFail, h.providers, h.unapproved]
      simp [hn, turnToFail]

theorem Midway.failed_again (h : Midway answers m ds dt da n) (hanswers : ResumesAsGiven answers)
    (hback : BackAsBefore answers m) (ht : m.turns.lookup t = some turn)
    (hn : n.turns.lookup t = some (unapprovedTurn m.clock turn)) :
    turnAfter answers n (unapprovedTurn m.clock turn) = unapprovedTurn m.clock turn := by
  refine turnAfter_of_not_fails fun hfails => ?_
  have hid := h.keyed.turns t turn ht
  obtain ⟨-, hfails⟩ := (h.fails_iff hanswers hback (hid.symm ▸ hn)).mp hfails
  obtain ⟨-, -, -, hwaiting, -⟩ := hfails.spec h.keyed
  cases hwaiting

theorem Midway.turn_same (h : Midway answers m ds dt da n) (hanswers : ResumesAsGiven answers)
    (hback : BackAsBefore answers m) (ht : m.turns.lookup t = some turn) :
    withoutCompletionTime (turnAfter answers n (if dt turn.sessionId = true then turnAfter answers m turn else turn)) =
      withoutCompletionTime (turnAfter answers m turn) := by
  have hid := h.keyed.turns t turn ht
  have hn := h.turns t
  rw [ht, Option.map_some] at hn
  by_cases hf : Fails answers m turn
  · rw [turnAfter_of_fails hf] at hn ⊢
    cases hd : dt turn.sessionId with
    | true =>
      rw [hd, if_pos rfl] at hn
      rw [if_pos rfl, h.failed_again hanswers hback ht hn]
    | false =>
      -- its session was not written either
      have hsession : ds turn.sessionId = false := by
        rw [Bool.eq_false_iff]
        exact fun hds => Bool.false_ne_true (hd.symm.trans (h.order _ hds))
      rw [hd, if_neg Bool.false_ne_true] at hn
      rw [if_neg Bool.false_ne_true,
        turnAfter_of_fails ((h.fails_iff hanswers hback (hid.symm ▸ hn)).mpr ⟨hsession, hf⟩)]
      rfl
  · rw [turnAfter_of_not_fails hf, ite_self] at hn ⊢
    rw [turnAfter_of_not_fails fun hfails => hf ((h.fails_iff hanswers hback (hid.symm ▸ hn)).mp hfails).2]

theorem Midway.turn_again (h : Midway answers m ds dt da n) (hanswers : ResumesAsGiven answers)
    (hback : BackAsBefore answers m) (ht : m.turns.lookup t = some turn) (hd : ds turn.sessionId = true) :
    turnAfter answers n (turnAfter answers m turn) = turnAfter answers m turn := by
  have hid := h.keyed.turns t turn ht
  have hn := h.turns t
  rw [ht, Option.map_some, h.order _ hd, if_pos rfl] at hn
  by_cases hf : Fails answers m turn
  · rw [turnAfter_of_fails hf] at hn ⊢
    exact h.failed_again hanswers hback ht hn
  · rw [turnAfter_of_not_fails hf] at hn ⊢
    refine turnAfter_of_not_fails fun hfails => ?_
    rw [((h.fails_iff hanswers hback (hid.symm ▸ hn)).mp hfails).1] at hd
    cases hd

theorem Midway.orphaned (h : Midway answers m ds dt da n) {approval : ApprovalRecord}
    (hturn : ∀ turn, m.turns.lookup approval.turnId = some turn → ¬ Fails answers m turn) :
    orphaned n.turns approval = orphaned m.turns approval := by
  unfold Runtime.orphaned
  cases ht : m.turns.lookup approval.turnId with
  | none => rw [h.turn_none ht]
  | some turn => rw [h.turn_stays ht (hturn turn ht)]

theorem approvalAfter_declined (n : Manager) (now : ℤ) (approval : ApprovalRecord) :
    approvalAfter n (declinedApproval now approval) = declinedApproval now approval :=
  if_neg fun h => by cases h.1

theorem Midway.approval_stays (h : Midway answers m ds dt da n) (hasked : NoneAsked answers m) {a : String}
    {approval : ApprovalRecord} (ha : m.approvals.lookup a = some approval)
    (hfine : ¬ (approval.status = .pending ∧ Runtime.orphaned m.turns approval = true)) :
    approvalAfter n approval = approval := by
  refine if_neg fun horphan => hfine ⟨horphan.1, ?_⟩
  rw [← h.orphaned fun turn => hasked a approval turn ha horphan.1]
  exact horphan.2

theorem Midway.approval_same (h : Midway answers m ds dt da n) (hasked : NoneAsked answers m) {a : String}
    {approval : ApprovalRecord} (ha : m.approvals.lookup a = some approval) (d : Bool) :
    withoutResolutionTime (approvalAfter n (if d = true then approvalAfter m approval else approval)) =
      withoutResolutionTime (approvalAfter m approval) := by
  by_cases horphan : approval.status = .pending ∧ Runtime.orphaned m.turns approval = true
  · have hafter : approvalAfter m approval = declinedApproval m.clock approval := if_pos horphan
    rw [hafter]
    cases d with
    | true => rw [if_pos rfl, approvalAfter_declined]
    | false =>
      have hafter' : approvalAfter n approval = declinedApproval n.clock approval := by
        refine if_pos ⟨horphan.1, ?_⟩
        rw [h.orphaned fun turn => hasked a approval turn ha horphan.1]
        exact horphan.2
      rw [if_neg Bool.false_ne_true, hafter']
      rfl
  · have hafter : approvalAfter m approval = approval := if_neg horphan
    rw [hafter, ite_self, h.approval_stays hasked ha horphan]

theorem Midway.approval_again (h : Midway answers m ds dt da n) (hasked : NoneAsked answers m) {a : String}
    {approval : ApprovalRecord} (ha : m.approvals.lookup a = some approval) :
    approvalAfter n (approvalAfter m approval) = approvalAfter m approval := by
  by_cases horphan : approval.status = .pending ∧ Runtime.orphaned m.turns approval = true
  · have hafter : approvalAfter m approval = declinedApproval m.clock approval := if_pos horphan
    rw [hafter, approvalAfter_declined]
  · have hafter : approvalAfter m approval = approval := if_neg horphan
    rw [hafter, h.approval_stays hasked ha horphan]

/-! ## The next recovery to its end -/

theorem recovered_of_known (hm : Settled m) (hfaults : m.store.faults = []) (hknown : ProvidersKnown answers m) :
    ∃ summary m', (recoverStartup answers).result m = (.ok summary, m') ∧ Recovered answers m m' := by
  have hafter := (recoverStartup_stage answers hm).out
  generalize (recoverStartup answers).result m = r at hafter
  obtain ⟨e | summary, m'⟩ := r
  · obtain ⟨k, session, hs, hmissing⟩ := (hafter.2 e rfl).cause hfaults
    rw [hknown k session hs] at hmissing
    cases hmissing
  · exact ⟨summary, m', rfl, (hafter.1 summary rfl).1⟩

theorem Midway.providersKnown (h : Midway answers m ds dt da n) (hanswers : ResumesAsGiven answers)
    (hback : BackAsBefore answers m) (hknown : ProvidersKnown answers m) : ProvidersKnown answers n := by
  intro k session' hs'
  rw [h.sessions k] at hs'
  obtain ⟨session, hs, rfl⟩ := Option.map_eq_some_iff.mp hs'
  exact h.providerKnown hanswers (hback k session hs) (hknown k session hs) (ds k)

theorem Midway.sameButTimes {m' n' : Manager} (h : Midway answers m ds dt da n) (hanswers : ResumesAsGiven answers)
    (hback : BackAsBefore answers m) (hasked : NoneAsked answers m) (hm' : Recovered answers m m')
    (hn' : Recovered answers n n') : SameButTimes m' n' where
  sessions k := by
    rw [hn'.sessions k, hm'.sessions k, h.sessions k]
    cases hs : m.sessions.lookup k with
    | none => simp only [Option.map_none]
    | some session =>
      simp only [Option.map_some, if_true]
      rw [h.session_same hanswers (hback k session hs) (ds k)]
  turns t := by
    rw [hn'.turns t, hm'.turns t, h.turns t]
    cases ht : m.turns.lookup t with
    | none => simp only [Option.map_none]
    | some turn =>
      simp only [Option.map_some, if_true]
      rw [h.turn_same hanswers hback ht]
  approvals a := by
    rw [hn'.approvals a, hm'.approvals a, h.approvals a]
    cases ha : m.approvals.lookup a with
    | none => simp only [Option.map_none]
    | some approval =>
      simp only [Option.map_some, if_true]
      rw [h.approval_same hasked ha (da a)]

theorem Midway.sameTables {n' : Manager} (h : Midway answers m (fun _ => true) (fun _ => true) (fun _ => true) n)
    (hanswers : ResumesAsGiven answers) (hback : BackAsBefore answers m) (hasked : NoneAsked answers m)
    (hn' : Recovered answers n n') : SameTables n n' where
  sessions k := by
    rw [hn'.sessions k, h.sessions k]
    cases hs : m.sessions.lookup k with
    | none => simp only [Option.map_none]
    | some session =>
      have hafter : sessionAfter answers n (sessionAfter answers m session) = sessionAfter answers m session :=
        if_pos (h.repaired hanswers (hback k session hs)).2
      simp only [Option.map_some, if_true, hafter]
  turns t := by
    rw [hn'.turns t, h.turns t]
    cases ht : m.turns.lookup t with
    | none => simp only [Option.map_none]
    | some turn => simp only [Option.map_some, if_true, h.turn_again hanswers hback ht rfl]
  approvals a := by
    rw [hn'.approvals a, h.approvals a]
    cases ha : m.approvals.lookup a with
    | none => simp only [Option.map_none]
    | some approval => simp only [Option.map_some, if_true, h.approval_again hasked ha]

/-! ## What the store holds -/

theorem Stage.agrees (h : Stage answers m ds dt da n) (hm : Settled m) : Agrees n :=
  (agrees_iff (h.settled hm).keys).mpr (h.settled hm).mirrored

theorem SameButTimes.hydrated {m' : Manager} (h : SameButTimes m m') (hm : Agrees m) (hm' : Agrees m') :
    SameButTimes m.hydrated m'.hydrated where
  sessions k := by rw [← hm.sessions k, ← hm'.sessions k, h.sessions k]
  turns t := by rw [← hm.turns t, ← hm'.turns t, h.turns t]
  approvals a := by rw [← hm.approvals a, ← hm'.approvals a, h.approvals a]

theorem SameTables.hydrated {m' : Manager} (h : SameTables m m') (hm : Agrees m) (hm' : Agrees m') :
    SameTables m.hydrated m'.hydrated where
  sessions k := by rw [← hm.sessions k, ← hm'.sessions k, h.sessions k]
  turns t := by rw [← hm.turns t, ← hm'.turns t, h.turns t]
  approvals a := by rw [← hm.approvals a, ← hm'.approvals a, h.approvals a]

theorem settled_stopping (hm : Settled m) (k : ℕ) : Settled (m.stopping k) := hm.same ⟨rfl, rfl, rfl, rfl, rfl, rfl⟩

theorem midway_restarted (answers : RecoveryAnswers) (hm : Settled m) (k : ℕ) (clock : ℤ) :
    Settled (m.restartedAfter answers k clock) ∧
      ∃ ds dt da, Midway answers m ds dt da (m.restartedAfter answers k clock) := by
  have hrestart : ∀ {ds dt da : String → Bool} {cur : Manager}, (∀ k, ds k = true → dt k = true) →
      Stage answers (m.stopping k) ds dt da cur →
      Settled (Manager.new { cur.store with faults := [] } m.providers clock) ∧
        Midway answers m ds dt da (Manager.new { cur.store with faults := [] } m.providers clock) := by
    intro ds dt da cur horder hstage
    have hagrees := hstage.agrees (settled_stopping hm k)
    have hkeys := (hstage.settled (settled_stopping hm k)).keys
    have hkeys : PrimaryKeys { cur.store with faults := [] } := ⟨hkeys.sessions, hkeys.turns, hkeys.approvals⟩
    refine ⟨settled_new hkeys _ _, hm.keyed, rfl, horder, fun k => ?_, fun t => ?_, fun a => ?_⟩
    · exact (hagrees.sessions k).symm.trans (hstage.sessions k)
    · exact (hagrees.turns t).symm.trans (hstage.turns t)
    · exact (hagrees.approvals a).symm.trans (hstage.approvals a)
  have hafter := (recoverStartup_stage answers (settled_stopping hm k)).out
  unfold Manager.restartedAfter
  generalize (recoverStartup answers).result (m.stopping k) = r at hafter
  obtain ⟨e | summary, cur⟩ := r
  · obtain ⟨ds, dt, da, horder, hstage⟩ := (hafter.2 e rfl).stage
    obtain ⟨hsettled, hmidway⟩ := hrestart horder hstage
    exact ⟨hsettled, ds, dt, da, hmidway⟩
  · obtain ⟨hsettled, hmidway⟩ := hrestart (fun _ hd => hd) (hafter.1 summary rfl).1
    exact ⟨hsettled, _, _, _, hmidway⟩

theorem Recovered.midway {m' : Manager} (hm : Settled m) (h : Recovered answers m m') (clock : ℤ) :
    Settled { m' with clock := clock } ∧
      Midway answers m (fun _ => true) (fun _ => true) (fun _ => true) { m' with clock := clock } :=
  ⟨(h.settled hm).same ⟨rfl, rfl, rfl, rfl, rfl, rfl⟩, hm.keyed, h.providers, fun _ hd => hd, h.sessions, h.turns,
    h.approvals⟩

/-! ## The conditions of a repetition -/

theorem providerMissing_iff (answers : RecoveryAnswers) :
    providerMissing answers m session = true ↔ unknownProvider m session = true := by
  unfold providerMissing unknownProvider
  rw [decide_eq_true_eq, Bool.and_eq_true]
  refine and_congr_right fun _ => ?_
  cases hended : isClosedOrFailed session.status with
  | true =>
    have hsame : resumedSession answers m.providers session = session := by simp [resumedSession, hended]
    rw [hsame, if_pos rfl]
    simp [namesRunningTurn, ownTurn, Option.any_filter]
  | false =>
    rw [if_neg Bool.false_ne_true]
    constructor
    · rintro (⟨-, href⟩ | hruns)
      · exact href
      · -- without a reference the session is given up, and names no turn
        cases href : session.providerSessionRef with
        | some ref => rfl
        | none =>
          rw [resumedSession, if_neg (by simp [hended]), href] at hruns
          simp [namesRunningTurn, givenUpSession] at hruns
    · intro href
      exact .inl ⟨rfl, href⟩

theorem providersKnown_iff : ProvidersKnown answers m ↔ m.sessions.values.any (unknownProvider m) = false := by
  rw [List.any_eq_false]
  constructor
  · intro hknown session hmem
    obtain ⟨k, hs⟩ := Table.mem_values.mp hmem
    rw [← providerMissing_iff answers, hknown k session hs]
    exact Bool.false_ne_true
  · intro hnone k session hs
    have hunknown := hnone session (Table.mem_values.mpr ⟨k, hs⟩)
    rwa [← providerMissing_iff answers, Bool.not_eq_true] at hunknown

theorem resumedSession_activeTurnId (hanswers : ResumesAsGiven answers) :
    (resumedSession answers m.providers session).activeTurnId =
      if isClosedOrFailed session.status || session.providerSessionRef.isSome then session.activeTurnId else none := by
  unfold resumedSession
  cases hended : isClosedOrFailed session.status with
  | true => rfl
  | false =>
    rw [if_neg Bool.false_ne_true, Bool.false_or]
    cases href : session.providerSessionRef with
    | none => rfl
    | some ref =>
      cases ha : resumeAnswer answers m.providers session with
      | none => rfl
      | some answer =>
        obtain ⟨ref', -, rfl⟩ := resumeAnswer_request ha
        obtain ⟨resumed, hresumed, -⟩ := hanswers
          ⟨session.id, ref', session.canonicalProviderSessionRef, session.cwd, some session.metadata⟩
        rw [hresumed]
        rfl

theorem fails_iff_waitsInVain (hm : Keyed m) (hanswers : ResumesAsGiven answers)
    (ht : m.turns.lookup t = some turn) : Fails answers m turn ↔ waitsInVain m turn = true := by
  have hid := hm.turns t turn ht
  unfold Fails waitsInVain
  cases hs : m.sessions.lookup turn.sessionId with
  | none => simp
  | some session =>
    have hkey := hm.sessions _ session hs
    rw [Option.bind_some, Option.any_some, turnToFail, unapprovedTurnOf,
      (resumed answers m.providers session).origin.id, resumedSession_activeTurnId hanswers]
    simp only [Option.filter_eq_some_iff, Option.bind_eq_some_iff, Bool.and_eq_true, Bool.or_eq_true,
      decide_eq_true_eq, Bool.not_eq_true']
    constructor
    · rintro ⟨⟨t', hactive, ht'⟩, -, hwaiting, hnone⟩
      obtain ⟨hnamed, hactive⟩ := Option.ite_none_right_eq_some.mp hactive
      rw [hm.turns t' turn ht']
      exact ⟨⟨⟨hactive, by simpa using hnamed⟩, hwaiting⟩, hm.turns t' turn ht' ▸ hnone⟩
    · rintro ⟨⟨⟨hactive, hnamed⟩, hwaiting⟩, hnone⟩
      exact ⟨⟨turn.id, by rw [if_pos (by simpa using hnamed), hactive], hid.symm ▸ ht⟩, hkey.symm, hwaiting, hnone⟩

theorem repeats_iff (hm : Keyed m) (hanswers : ResumesAsGiven answers) (hknown : ProvidersKnown answers m) :
    repeats answers m = true ↔ BackAsBefore answers m ∧ NoneAsked answers m := by
  unfold repeats
  rw [providersKnown_iff.mp hknown, Bool.false_or, Bool.and_eq_true, List.all_eq_true, List.all_eq_true]
  refine and_congr ⟨fun hall k session hs hback => ?_, fun hback session hmem => ?_⟩
    ⟨fun hall a approval turn ha hpending ht hf => ?_, fun hasked approval hmem => ?_⟩
  · have hkeeps := hall session (Table.mem_values.mpr ⟨k, hs⟩)
    rwa [hback, Bool.not_true, Bool.false_or] at hkeeps
  · obtain ⟨k, hs⟩ := Table.mem_values.mp hmem
    cases hb : comesBack m session with
    | false => rfl
    | true => exact hback k session hs hb
  · have hnone := hall approval (Table.mem_values.mpr ⟨a, ha⟩)
    rw [ht, Option.any_some, (fails_iff_waitsInVain hm hanswers ht).mp hf] at hnone
    simp [hpending] at hnone
  · obtain ⟨a, ha⟩ := Table.mem_values.mp hmem
    by_cases hpending : approval.status = .pending
    · cases ht : m.turns.lookup approval.turnId with
      | none => simp
      | some turn =>
        have hvain := (fails_iff_waitsInVain hm hanswers ht).not.mp (hasked a approval turn ha hpending ht)
        simp [hvain]
    · simp [hpending]

theorem sessionAfter_of_comesBack (answers : RecoveryAnswers) (h : comesBack m session = true) :
    resumedSession answers m.providers session = session ∧
      (sessionAfter answers m session).status = .waitingForApproval := by
  unfold comesBack at h
  rw [Bool.and_eq_true, Option.any_eq_true] at h
  obtain ⟨hended, turn, hturn, hwaits⟩ := h
  rw [Bool.and_eq_true, decide_eq_true_eq] at hwaits
  obtain ⟨hbind, howner⟩ := Option.filter_eq_some_iff.mp hturn
  obtain ⟨t, hactive, ht⟩ := Option.bind_eq_some_iff.mp hbind
  have hsame : resumedSession answers m.providers session = session := by simp [resumedSession, hended]
  refine ⟨hsame, ?_⟩
  rw [sessionAfter_status, repairedSession, hsame]
  simp only [reconciledSession, hactive, ht]
  rw [decide_eq_true_eq] at howner
  simp [howner, hwaits, isTerminalTurnStatus]

theorem Midway.keepsReferences (h : Midway answers m (fun _ => true) (fun _ => true) (fun _ => true) n)
    (hback : comesBack m session = true) (hknown : providerMissing answers n (sessionAfter answers m session) = false)
    (hsame : sessionAfter answers n (sessionAfter answers m session) = sessionAfter answers m session) :
    keepsReferences answers m session = true := by
  obtain ⟨hresumed, hstatus⟩ := sessionAfter_of_comesBack answers hback
  have horigin := sessionAfter_origin answers m session
  obtain ⟨href, hcanonical⟩ := sessionAfter_refs answers m session
  obtain ⟨-, hagain⟩ := sessionAfter_refs answers n (sessionAfter answers m session)
  rw [hresumed] at href hcanonical
  have hopen : isClosedOrFailed (sessionAfter answers n (sessionAfter answers m session)).status = false := by
    rw [hsame, hstatus]
    rfl
  obtain ⟨hopen, ref, hsome⟩ | ⟨hended, -⟩ := open_sessionAfter hopen
  · rw [← Bool.not_eq_true, providerMissing_iff answers, unknownProvider, hopen, hsome, horigin.provider] at hknown
    rw [hsame] at hagain
    have hprovider : (ProviderKind.fromStr session.provider).isSome = true :=
      Option.isSome_iff_ne_none.mpr (by simpa using hknown)
    unfold Runtime.keepsReferences
    rw [← href, hsome, hprovider]
    simp only [Option.isSome_some, Bool.true_and, Option.all_eq_true]
    intro answer ha
    have hanswer : resumeAnswer answers n.providers (sessionAfter answers m session) = some answer := by
      obtain ⟨ref', href', hrequest⟩ := resumeAnswer_request ha
      rw [h.providers, horigin.resumeAnswer href, ha, href', hcanonical, hrequest]
      rfl
    unfold resumedSession at hagain
    rw [if_neg (by simp [hopen]), hsome, hanswer] at hagain
    cases answer with
    | ok resumed => exact decide_eq_true (hagain.symm.trans hcanonical)
    | error e =>
      -- the session would be given up
      have hfailed : (sessionAfter answers n (sessionAfter answers m session)).status = .failed := by
        rw [sessionAfter_status, repairedSession, resumedSession, if_neg (by simp [hopen]), hsome, hanswer]
        simp only [reconciledSession_givenUp]
        rfl
      rw [hsame, hstatus] at hfailed
      cases hfailed
  · rw [hstatus] at hended
    cases hended

theorem Midway.noneAsked (h : Midway answers m (fun _ => true) (fun _ => true) (fun _ => true) n)
    (hsame : ∀ a approval, n.approvals.lookup a = some approval → approvalAfter n approval = approval) :
    NoneAsked answers m := by
  intro a approval turn ha hpending ht hf
  obtain ⟨session, -, -, hwaiting, -⟩ := hf.spec h.keyed
  have hopen : Runtime.orphaned m.turns approval = false := by
    rw [Runtime.orphaned, ht]
    simp [hwaiting, isTerminalTurnStatus]
  have hafter : approvalAfter m approval = approval := if_neg fun horphan => by simp [hopen] at horphan
  have hturn := h.turns approval.turnId
  rw [ht, Option.map_some, if_pos rfl, turnAfter_of_fails hf] at hturn
  have horphan : Runtime.orphaned n.turns approval = true := by
    rw [Runtime.orphaned, hturn]
    rfl
  have hn := h.approvals a
  rw [ha, Option.map_some, if_pos rfl, hafter] at hn
  have hstays := hsame a approval hn
  rw [approvalAfter, if_pos ⟨hpending, horphan⟩] at hstays
  rw [← hstays] at hpending
  cases hpending

/-! ## Recovery is repeatable -/

theorem repeats_of_repeatable (hm : Settled m) (hfaults : m.store.faults = []) (hresume : ResumesAsGiven answers)
    (h : Repeatable answers m) : repeats answers m = true := by
  by_cases hknown : ProvidersKnown answers m
  · obtain ⟨summary, m', hrun, hm'⟩ := recovered_of_known hm hfaults hknown
    obtain ⟨-, hagain⟩ := h summary m' hrun
    obtain ⟨summary', n', hrun', hsame, -⟩ := hagain 0
    obtain ⟨hn, hmidway⟩ := hm'.midway hm 0
    have hafter := (recoverStartup_stage answers hn).out
    rw [hrun'] at hafter
    obtain ⟨hn', hknown', -⟩ := hafter.1 summary' rfl
    rw [repeats_iff hm.keyed hresume hknown]
    refine ⟨fun k session hs hback => ?_, hmidway.noneAsked fun a approval ha => ?_⟩
    · have hk := hmidway.sessions k
      rw [hs, Option.map_some, if_pos rfl] at hk
      have hstays := (hn'.sessions k).symm.trans ((hsame.sessions k).trans hk)
      rw [hk, Option.map_some, if_pos rfl] at hstays
      exact hmidway.keepsReferences hback (hknown' k _ hk) (Option.some.inj hstays)
    · have hstays := (hn'.approvals a).symm.trans ((hsame.approvals a).trans ha)
      rw [ha, Option.map_some, if_pos rfl] at hstays
      exact Option.some.inj hstays
  · have hunknown := mt providersKnown_iff.mpr hknown
    rw [Bool.not_eq_false] at hunknown
    rw [repeats, hunknown, Bool.true_or]

theorem repeatable_of_repeats (hm : Settled m) (hfaults : m.store.faults = []) (hresume : ResumesAsGiven answers)
    (h : repeats answers m = true) : Repeatable answers m := by
  intro summary m' hrun
  have hafter := (recoverStartup_stage answers hm).out
  rw [hrun] at hafter
  obtain ⟨hm', hknown, hfaults'⟩ := hafter.1 summary rfl
  obtain ⟨hback, hasked⟩ := (repeats_iff hm.keyed hresume hknown).mp h
  constructor
  · intro k clock
    obtain ⟨hn, ds, dt, da, hmidway⟩ := midway_restarted answers hm k clock
    obtain ⟨summary', n', hrun', hn'⟩ := recovered_of_known hn rfl (hmidway.providersKnown hresume hback hknown)
    have hsame := hmidway.sameButTimes hresume hback hasked hm' hn'
    exact ⟨summary', n', hrun', hsame, hsame.hydrated (hm'.agrees hm) (hn'.agrees hn)⟩
  · intro clock
    obtain ⟨hn, hmidway⟩ := hm'.midway hm clock
    obtain ⟨summary', n', hrun', hn'⟩ :=
      recovered_of_known hn (hfaults' hfaults) (hmidway.providersKnown hresume hback hknown)
    have htables := hmidway.sameTables hresume hback hasked hn'
    have hsame : SameTables m' n' := ⟨htables.sessions, htables.turns, htables.approvals⟩
    exact ⟨summary', n', hrun', hsame, hsame.hydrated (hm'.agrees hm) (hn'.agrees hn)⟩

end

/-- Recovery can be repeated, also after a stop at any of its writes, exactly when the hydrated records repeat. -/
theorem recovery_repeats (store : Store) (providers : List ProviderKind) (clock : ℤ) (answers : RecoveryAnswers)
    (hkeys : PrimaryKeys store) (hfaults : store.faults = []) (hresume : ResumesAsGiven answers) :
    Repeatable answers (Manager.new store providers clock) ↔
      repeats answers (Manager.new store providers clock) = true := by
  have hm := settled_new hkeys providers clock
  constructor
  · exact repeats_of_repeatable hm hfaults hresume
  · exact repeatable_of_repeats hm hfaults hresume

/-- A stored codex session in the middle of turn `t`. -/
def sessionInTurn (id : String) (status : SessionStatus) (t : String) : SessionRecord where
  id := id
  provider := "codex"
  status := status
  cwd := none
  model := none
  permissionMode := none
  systemPrompt := none
  metadata := .obj []
  providerSessionRef := some "ref"
  canonicalProviderSessionRef := none
  activeTurnId := some t
  worktreeId := none
  createdAt := 0
  updatedAt := 0
  closedAt := none
  failureCode := none
  failureMessage := none

def turnOf (sessionId id : String) (status : TurnStatus) : TurnRecord where
  id := id
  sessionId := sessionId
  providerTurnRef := none
  status := status
  input := .arr []
  source := some "user"
  startedAt := some 0
  completedAt := none
  usage := none
  error := none

def crashedStore : Store :=
  { Store.empty [] with
    sessions := [sessionInTurn "s1" .turnRunning "t1", sessionInTurn "s2" .waitingForApproval "t2"]
    turns := [turnOf "s1" "t1" .inProgress, turnOf "s2" "t2" .waitingForApproval] }

def resumingAnswers : RecoveryAnswers :=
  ⟨fun _ => .ok (), fun r => .ok ⟨r.runtimeSessionId, r.providerSessionRef, r.canonicalProviderSessionRef⟩⟩

theorem resumesAsGiven_resumingAnswers : ResumesAsGiven resumingAnswers := fun _ => ⟨_, rfl, rfl, fun _ => rfl⟩

theorem recovery_repeats_crashedStore :
    ((recoverStartup resumingAnswers).result (Manager.new crashedStore [.codex] 0)).1.isOk = true ∧
      Repeatable resumingAnswers (Manager.new crashedStore [.codex] 0) :=
  ⟨by decide +kernel, (recovery_repeats crashedStore [.codex] 0 resumingAnswers ⟨by decide, by decide, by decide⟩ rfl
    resumesAsGiven_resumingAnswers).mpr (by decide +kernel)⟩

def failedWaitingStore : Store :=
  { Store.empty [] with
    sessions := [{ sessionInTurn "s1" .failed "t1" with providerSessionRef := none }]
    turns := [turnOf "s1" "t1" .waitingForApproval]
    approvals := [⟨"a1", "s1", "t1", none, none, .pending, .obj [], none, 0, none⟩] }

theorem not_recovery_repeats : ¬ ∀ (store : Store) (providers : List ProviderKind) (clock : ℤ)
    (answers : RecoveryAnswers), PrimaryKeys store → store.faults = [] → ResumesAsGiven answers →
      Repeatable answers (Manager.new store providers clock) := by
  intro hall
  have hrepeatable := hall failedWaitingStore [.codex] 0 resumingAnswers ⟨by decide, by decide, by decide⟩ rfl
    resumesAsGiven_resumingAnswers
  -- the session comes back waiting, and the next recovery gives it up
  have hcomputed : (match (recoverStartup resumingAnswers).result (Manager.new failedWaitingStore [.codex] 0) with
      | (.ok _, m') => some ((m'.sessions.lookup "s1").map SessionRecord.status,
          (((recoverStartup resumingAnswers).result { m' with clock := 0 }).2.sessions.lookup "s1").map
            SessionRecord.status)
      | (.error _, _) => none) = some (some .waitingForApproval, some .failed) := by
    decide +kernel
  unfold Repeatable at hrepeatable
  generalize (recoverStartup resumingAnswers).result (Manager.new failedWaitingStore [.codex] 0) = r
    at hrepeatable hcomputed
  obtain ⟨e | summary, m'⟩ := r
  · cases hcomputed
  · obtain ⟨hwaiting, hfailed⟩ := Prod.mk.inj (Option.some.inj hcomputed)
    obtain ⟨-, hagain⟩ := hrepeatable summary m' rfl
    obtain ⟨summary', m'', hrun, hsame, -⟩ := hagain 0
    rw [hrun, hsame.sessions "s1", hwaiting] at hfailed
    cases hfailed

end Gooselake.Runtime
