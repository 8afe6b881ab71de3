import Gooselake.Providers.TurnsApart

/-!
The session table of the ACP provider with the waiters that its sessions hold: what a call that is run alone makes of
it, and how many sessions there can be.
-/

namespace Gooselake.Providers.Acp

open Gooselake.Core Data Library

set_option autoImplicit false

/-! ## Sessions with their waiters -/

structure Waited where
  provider : AcpProvider
  waiters : Table String (Table String (List ℕ))

namespace Waited

def entry (s : Waited) (runtimeSessionId : String) : Option (AcpSessionState × Table String (List ℕ)) :=
  (s.provider.sessions.lookup runtimeSessionId).map fun session => (session, (s.waiters.lookup runtimeSessionId).getD ∅)

/-- Every session has the entry it had. -/
def SameTable (s s' : Waited) : Prop := ∀ runtimeSessionId, s'.entry runtimeSessionId = s.entry runtimeSessionId

/-- `release_session_slot` drops the waiters of the session. -/
def dropAll (runtimeSessionId : String) (s : Waited) : Table String (Table String (List ℕ)) :=
  s.waiters.erase runtimeSessionId

/-- `complete_turn` takes the waiters of a turn that has no result yet. -/
def takeTurn (runtimeSessionId turnId : String) (s : Waited) : Table String (Table String (List ℕ)) :=
  if (s.provider.sessions.lookup runtimeSessionId).any fun session => (session.completedTurns.lookup turnId).isNone then
    s.waiters.update runtimeSessionId fun waiters => waiters.erase turnId
  else s.waiters

def begin (request : Request) (s : Waited) : Except RuntimeError (Waited × Call) :=
  (s.provider.begin request).map fun (p, call) =>
    match request with
    | .createSession runtimeSessionId | .resumeSession runtimeSessionId _ =>
      if (s.provider.sessions.lookup runtimeSessionId).isSome then (⟨p, s.waiters⟩, call)
      else (⟨p, s.dropAll runtimeSessionId⟩, call)
    | _ => (⟨p, s.waiters⟩, call)

def waitersAfter (call : Call) (s : Waited) : Table String (Table String (List ℕ)) :=
  match call with
  | .releasing runtimeSessionId _ | .removing runtimeSessionId => s.dropAll runtimeSessionId
  | .declining runtimeSessionId turnId | .ending runtimeSessionId turnId _ => s.takeTurn runtimeSessionId turnId
  | _ => s.waiters

def goOn (call : Call) (world : AcpProvider.World) (answer : Except RuntimeError String) (s : Waited) : Waited × Call :=
  (⟨(s.provider.goOn call world answer).1, s.waitersAfter call⟩, (s.provider.goOn call world answer).2)

def finish (call : Call) : List (AcpProvider.World × Except RuntimeError String) → Waited → Waited × Call
  | [], s => (s, call)
  | (world, answer) :: rest, s => (s.goOn call world answer).1.finish (s.goOn call world answer).2 rest

def run (request : Request) (answers : List (AcpProvider.World × Except RuntimeError String)) (s : Waited) :
    Waited × Call :=
  match s.begin request with
  | .error error => (s, .answered (.error error))
  | .ok (s', call) => s'.finish call answers

end Waited

def Request.opens : Request → Option String
  | .createSession runtimeSessionId | .resumeSession runtimeSessionId _ => some runtimeSessionId
  | _ => none

/-! ## A call that fails -/

def Call.holds (runtimeSessionId : String) : Call → Bool
  | .reserved id _ | .connected id _ | .resuming id | .releasing id _ => id == runtimeSessionId
  | _ => false

namespace Waited

variable {s s' : Waited} {id : String}

/-- Other sessions than `id` are as they were. -/
def Others (id : String) (s s' : Waited) : Prop := ∀ other, other ≠ id → s'.entry other = s.entry other

theorem Others.trans {t : Waited} (h : Others id s s') (h' : Others id s' t) : Others id s t :=
  fun other hne => (h' other hne).trans (h other hne)

theorem others_of_sessions {p : AcpProvider} (h : p.sessions = s.provider.sessions) : Others id s ⟨p, s.waiters⟩ :=
  fun _ _ => by simp only [entry, h]

theorem others_of_lookup {p : AcpProvider} {waiters : Table String (Table String (List ℕ))}
    (hp : ∀ k, k ≠ id → p.sessions.lookup k = s.provider.sessions.lookup k)
    (hw : ∀ k, k ≠ id → waiters.lookup k = s.waiters.lookup k) : Others id s ⟨p, waiters⟩ :=
  fun k hne => by simp only [entry, hp k hne, hw k hne]

theorem ensureConnection_sessions (p : AcpProvider) (world : AcpProvider.World) :
    (p.ensureConnection world).2.sessions = p.sessions := by
  unfold AcpProvider.ensureConnection
  split <;> rfl

theorem release_others (id : String) (s : Waited) :
    Others id s ⟨s.provider.releaseSessionSlot id, s.dropAll id⟩ :=
  others_of_lookup (fun _ hne => (Table.lookup_erase _ _ _).trans (if_neg hne))
    fun _ hne => (Table.lookup_erase _ _ _).trans (if_neg hne)

theorem entry_release (id : String) (s : Waited) :
    entry ⟨s.provider.releaseSessionSlot id, s.dropAll id⟩ id = none := by
  simp [entry, AcpProvider.releaseSessionSlot]

theorem goOn_holds {call : Call} (hc : call.holds id = true) (world : AcpProvider.World)
    (answer : Except RuntimeError String) (s : Waited) : Others id s (s.goOn call world answer).1 ∧
      ((s.goOn call world answer).2.holds id = true ∨ (s.goOn call world answer).2 = .answered (.ok ()) ∨
        (s.goOn call world answer).1.entry id = none ∧ ∃ e, (s.goOn call world answer).2 = .answered (.error e)) := by
  cases call with
  | reserved id' resumes =>
    have hsessions := ensureConnection_sessions s.provider world
    simp only [goOn, waitersAfter, AcpProvider.goOn]
    split
    · next he =>
      rw [he] at hsessions
      exact ⟨others_of_sessions hsessions, .inl hc⟩
    · next he =>
      rw [he] at hsessions
      exact ⟨others_of_sessions hsessions, .inl hc⟩
  | connected id' resumes =>
    obtain rfl : id' = id := by simpa [Call.holds] using hc
    simp only [goOn, waitersAfter, AcpProvider.goOn]
    cases answer with
    | error e => exact ⟨others_of_sessions rfl, .inl hc⟩
    | ok ref =>
      simp only [AcpProvider.activateReservedSession]
      cases hs : s.provider.sessions.lookup id' with
      | none => exact ⟨others_of_sessions rfl, .inl hc⟩
      | some session =>
        refine ⟨others_of_lookup (fun _ hne => ?_) fun _ _ => rfl, ?_⟩
        · exact (Table.lookup_insert _ _ _ _).trans (if_neg hne)
        · cases resumes with
          | none => exact .inr (.inl rfl)
          | some r => exact .inl hc
  | resuming id' =>
    simp only [goOn, waitersAfter, AcpProvider.goOn]
    cases answer with
    | error e => exact ⟨others_of_sessions rfl, .inl hc⟩
    | ok _ => exact ⟨others_of_sessions rfl, .inr (.inl rfl)⟩
  | releasing id' e =>
    obtain rfl : id' = id := by simpa [Call.holds] using hc
    exact ⟨release_others id' s, .inr (.inr ⟨entry_release id' s, e, rfl⟩)⟩
  | _ => cases hc

theorem finish_answered (outcome : Except RuntimeError Unit)
    (answers : List (AcpProvider.World × Except RuntimeError String)) (s : Waited) :
    s.finish (.answered outcome) answers = (s, .answered outcome) := by
  induction answers generalizing s with
  | nil => rfl
  | cons head rest ih => exact ih s

theorem finish_holds (id : String) {call : Call} (hc : call.holds id = true)
    (answers : List (AcpProvider.World × Except RuntimeError String)) {e : RuntimeError}
    (h : s.finish call answers = (s', .answered (.error e))) : Others id s s' ∧ s'.entry id = none := by
  induction answers generalizing s call with
  | nil =>
    obtain ⟨-, rfl⟩ := Prod.mk.inj h
    cases hc
  | cons head rest ih =>
    obtain ⟨world, answer⟩ := head
    change (s.goOn call world answer).1.finish (s.goOn call world answer).2 rest = _ at h
    obtain ⟨hothers, hgoes | hok | ⟨hnone, e', herror⟩⟩ := goOn_holds hc world answer s
    · obtain ⟨hrest, hnone⟩ := ih hgoes h
      exact ⟨hothers.trans hrest, hnone⟩
    · rw [hok, finish_answered] at h
      cases (Prod.mk.inj h).2
    · rw [herror, finish_answered] at h
      obtain ⟨rfl, -⟩ := Prod.mk.inj h
      exact ⟨hothers, hnone⟩

theorem begin_opens {request : Request} (hr : request.opens = some id) (s : Waited) : ∃ resumes,
    s.begin request = (s.provider.reserveSessionSlot id).map fun p =>
      if (s.provider.sessions.lookup id).isSome then (⟨p, s.waiters⟩, .reserved id resumes)
      else (⟨p, s.dropAll id⟩, .reserved id resumes) := by
  cases request with
  | createSession id' =>
    obtain rfl : id' = id := Option.some.inj hr
    refine ⟨none, ?_⟩
    rw [begin, AcpProvider.begin]
    cases s.provider.reserveSessionSlot id' <;> rfl
  | resumeSession id' ref =>
    obtain rfl : id' = id := Option.some.inj hr
    refine ⟨some ref, ?_⟩
    rw [begin, AcpProvider.begin]
    cases s.provider.reserveSessionSlot id' <;> rfl
  | _ => cases hr

theorem reserve_others {p : AcpProvider} (hp : s.provider.reserveSessionSlot id = .ok p) :
    Others id s (if (s.provider.sessions.lookup id).isSome then ⟨p, s.waiters⟩ else ⟨p, s.dropAll id⟩) := by
  unfold AcpProvider.reserveSessionSlot at hp
  split at hp
  · next hsome =>
    obtain rfl := Except.ok.inj hp
    rw [if_pos hsome]
    exact others_of_sessions rfl
  · next hnone =>
    split at hp
    · cases hp
    · obtain rfl := Except.ok.inj hp
      rw [if_neg hnone]
      exact others_of_lookup (fun _ hne => (Table.lookup_insert _ _ _ _).trans (if_neg hne))
        fun _ hne => (Table.lookup_erase _ _ _).trans (if_neg hne)

theorem run_fails {request : Request} (hr : request.opens = some id)
    (answers : List (AcpProvider.World × Except RuntimeError String)) {e : RuntimeError}
    (h : s.run request answers = (s', .answered (.error e))) : Others id s s' ∧ s'.entry id = none := by
  obtain ⟨resumes, hbegin⟩ := begin_opens hr s
  unfold run at h
  rw [hbegin] at h
  cases hp : s.provider.reserveSessionSlot id with
  | error e' =>
    rw [hp] at h
    obtain ⟨rfl, -⟩ := Prod.mk.inj h
    refine ⟨fun _ _ => rfl, ?_⟩
    -- only a session that is not there can be refused
    unfold AcpProvider.reserveSessionSlot at hp
    split at hp
    · cases hp
    · next hnone => simpa [entry] using hnone
  | ok p =>
    have hothers := reserve_others hp
    rw [hp] at h
    simp only [Except.map] at h
    split at h
    · next hsome =>
      rw [if_pos hsome] at hothers
      obtain ⟨hrest, hnone⟩ := finish_holds id (by simp [Call.holds]) answers h
      exact ⟨hothers.trans hrest, hnone⟩
    · next habsent =>
      rw [if_neg habsent] at hothers
      obtain ⟨hrest, hnone⟩ := finish_holds id (by simp [Call.holds]) answers h
      exact ⟨hothers.trans hrest, hnone⟩

theorem sameTable_iff {request : Request} (hr : request.opens = some id)
    (answers : List (AcpProvider.World × Except RuntimeError String)) {e : RuntimeError}
    (h : s.run request answers = (s', .answered (.error e))) :
    SameTable s s' ↔ s.provider.sessions.lookup id = none := by
  obtain ⟨hothers, hnone⟩ := run_fails hr answers h
  have hentry : s.entry id = none ↔ s.provider.sessions.lookup id = none := by simp [entry]
  constructor
  · intro hsame
    exact hentry.mp ((hsame id).symm.trans hnone)
  · intro habsent k
    by_cases hk : k = id
    · subst hk
      exact hnone.trans (hentry.mpr habsent).symm
    · exact hothers k hk

end Waited

/-! ## How many sessions there can be -/

structure Fewer (p p' : AcpProvider) : Prop where
  maxInstances : p'.maxInstances = p.maxInstances
  maxSessionsPerInstance : p'.maxSessionsPerInstance = p.maxSessionsPerInstance
  sessions : p'.sessions.keys.length ≤ p.sessions.keys.length

namespace Fewer

variable {p p' : AcpProvider}

theorem refl (p : AcpProvider) : Fewer p p := ⟨rfl, rfl, le_rfl⟩

theorem trans {q : AcpProvider} (h : Fewer p p') (h' : Fewer p' q) : Fewer p q :=
  ⟨h'.maxInstances.trans h.maxInstances, h'.maxSessionsPerInstance.trans h.maxSessionsPerInstance,
    h'.sessions.trans h.sessions⟩

theorem keys_insert {t : Table String AcpSessionState} {id : String} {old new : AcpSessionState}
    (h : t.lookup id = some old) : (t.insert id new).keys.length = t.keys.length := by
  have hmem : id ∈ t.keys := AList.mem_keys.mp (Table.lookup_isSome h)
  rw [AList.keys_insert, List.length_cons, List.length_erase_of_mem hmem]
  have hpos := List.length_pos_of_mem hmem
  omega

theorem put {id : String} {old new : AcpSessionState} (h : p.sessions.lookup id = some old) :
    Fewer p (p.putSession id new) :=
  ⟨rfl, rfl, (keys_insert h).le⟩

theorem release (id : String) (p : AcpProvider) : Fewer p (p.releaseSessionSlot id) := by
  refine ⟨rfl, rfl, ?_⟩
  change (p.sessions.erase id).keys.length ≤ _
  rw [AList.keys_erase]
  exact List.length_erase_le

theorem ensure (p : AcpProvider) (world : AcpProvider.World) : Fewer p (p.ensureConnection world).2 := by
  unfold AcpProvider.ensureConnection
  split <;> exact ⟨rfl, rfl, le_rfl⟩

theorem complete (p : AcpProvider) (id turnId : String) (r : ProviderTurnResult) :
    Fewer p (p.completeTurn id turnId r) := by
  unfold AcpProvider.completeTurn
  split
  · exact refl p
  · next session hs =>
    split
    · exact refl p
    · exact put hs

theorem drain (p : AcpProvider) (c : ℕ) (e : RuntimeError) : Fewer p (p.drain c e) := by
  unfold AcpProvider.drain
  split <;> exact ⟨rfl, rfl, le_rfl⟩

theorem markClosed (p : AcpProvider) (c : ℕ) (e : RuntimeError) : Fewer p (p.markClosed c e) := by
  unfold AcpProvider.markClosed
  split
  · exact refl p
  · exact drain p c e

theorem shutdown (p : AcpProvider) : Fewer p p.shutdownConnection := by
  unfold AcpProvider.shutdownConnection
  split
  · exact refl p
  · next c _ => exact (drain p c _).trans ⟨rfl, rfl, le_rfl⟩

theorem activate {id ref : String} (hp : p.activateReservedSession id ref = .ok p') : Fewer p p' := by
  unfold AcpProvider.activateReservedSession at hp
  split at hp
  · cases hp
  · next hs =>
    obtain rfl := Except.ok.inj hp
    exact put hs

theorem execute {id turnId : String} (hp : p.executeTurn id turnId = .ok p') : Fewer p p' := by
  unfold AcpProvider.executeTurn at hp
  obtain ⟨session, hs, hp⟩ := Exec.bind_eq_ok hp
  cases hp
  exact (put (idleSession_ok hs)).trans ⟨rfl, rfl, le_rfl⟩

theorem cancel {id turnId : String} (hp : p.cancelActive id turnId = .ok p') : Fewer p p' := by
  unfold AcpProvider.cancelActive at hp
  obtain ⟨session, -, hp⟩ := Exec.bind_eq_ok hp
  split at hp
  · cases hp
  · split at hp
    · cases hp
    · cases hp
      exact ⟨rfl, rfl, le_rfl⟩

theorem goOn (p : AcpProvider) (call : Call) (world : AcpProvider.World) (answer : Except RuntimeError String) :
    Fewer p (p.goOn call world answer).1 := by
  cases call with
  | reserved id resumes =>
    have hensure := ensure p world
    simp only [AcpProvider.goOn]
    split
    · next he => rw [he] at hensure; exact hensure
    · next he => rw [he] at hensure; exact hensure
  | connected id resumes =>
    simp only [AcpProvider.goOn]
    split
    · exact refl p
    · split
      · exact refl p
      · next hp => exact activate hp
  | resuming id => cases answer <;> exact refl p
  | releasing id e => exact release id p
  | executing id turnId =>
    simp only [AcpProvider.goOn]
    split
    · exact refl p
    · next hp => exact execute hp
  | declining id turnId => exact complete p id turnId _
  | cancelling id turnId closes => cases closes <;> exact ensure p world
  | closing id turnId reason =>
    simp only [AcpProvider.goOn]
    split
    · exact refl p
    · next hp => exact cancel hp
  | ending id turnId reason => exact complete p id turnId _
  | removing id => exact release id p
  | leaving => exact refl p
  | shutting => exact shutdown p
  | answered outcome => exact refl p

theorem advance {i : ℕ} {turn : Turn} {world : AcpProvider.World} (hp : p.advance i turn world = some p') :
    Fewer p p' := by
  have hpoint : ∀ (q : AcpProvider) point, Fewer q (q.atPoint i point) := fun _ _ => ⟨rfl, rfl, le_rfl⟩
  unfold AcpProvider.advance at hp
  split at hp
  · have hensure := ensure p world
    split at hp <;> next he =>
      rw [he] at hensure
      obtain rfl := Option.some.inj hp
      exact hensure.trans (hpoint _ _)
  · obtain ⟨connection, -, rfl⟩ := Option.map_eq_some_iff.mp hp
    split <;> exact hpoint p _
  · obtain ⟨connection, -, rfl⟩ := Option.map_eq_some_iff.mp hp
    exact ⟨rfl, rfl, le_rfl⟩
  · split at hp <;> obtain rfl := Option.some.inj hp <;> exact ⟨rfl, rfl, le_rfl⟩
  · obtain ⟨reply, -, rfl⟩ := Option.map_eq_some_iff.mp hp
    cases reply <;> exact hpoint p _
  · obtain rfl := Option.some.inj hp
    exact hpoint p _
  · obtain rfl := Option.some.inj hp
    exact hpoint p _
  · obtain rfl := Option.some.inj hp
    exact hpoint p _
  · obtain rfl := Option.some.inj hp
    exact (complete p _ _ _).trans (hpoint _ _)
  · cases hp

theorem readLine {c : ℕ} {connection : AcpConnection} {line : Line} {found : Option String}
    (hp : p.readLine c connection line found = some p') : Fewer p p' := by
  have hrest : Fewer p (p.onConnection c AcpProvider.rest) := ⟨rfl, rfl, le_rfl⟩
  cases line with
  | update u =>
    simp only [AcpProvider.readLine] at hp
    split at hp
    · split at hp <;> obtain rfl := Option.some.inj hp
      · exact hrest
      · exact hrest.trans ⟨rfl, rfl, le_rfl⟩
    · cases hp
  | requestPermission ref =>
    cases ref with
    | none =>
      obtain rfl := Option.some.inj hp
      exact hrest
    | some ref =>
      simp only [AcpProvider.readLine] at hp
      split at hp
      · split at hp <;> obtain rfl := Option.some.inj hp
        · exact hrest
        · exact hrest.trans ⟨rfl, rfl, le_rfl⟩
      · cases hp
  | response request reply =>
    simp only [AcpProvider.readLine] at hp
    split at hp <;> obtain rfl := Option.some.inj hp
    · exact hrest
    · exact hrest.trans ⟨rfl, rfl, le_rfl⟩
  | other =>
    obtain rfl := Option.some.inj hp
    exact hrest
  | broken e =>
    obtain rfl := Option.some.inj hp
    exact (hrest.trans (markClosed _ c e)).trans ⟨rfl, rfl, le_rfl⟩

theorem read {c : ℕ} {found : Option String} (hp : p.read c found = some p') : Fewer p p' := by
  obtain ⟨connection, -, hp⟩ := Option.bind_eq_some_iff.mp hp
  split at hp
  · split at hp
    · cases hp
    · exact readLine hp
  · obtain rfl := Option.some.inj hp
    exact ⟨rfl, rfl, le_rfl⟩
  · obtain rfl := Option.some.inj hp
    exact (complete p _ _ _).trans ⟨rfl, rfl, le_rfl⟩
  · obtain rfl := Option.some.inj hp
    exact ⟨rfl, rfl, le_rfl⟩
  · obtain rfl := Option.some.inj hp
    exact (shutdown p).trans ⟨rfl, rfl, le_rfl⟩
  · cases hp

end Fewer

structure WithinCapacity (instances perInstance : ℕ) (p : AcpProvider) : Prop where
  maxInstances : p.maxInstances = instances
  maxSessionsPerInstance : p.maxSessionsPerInstance = perInstance
  sessions : p.sessions.keys.length ≤ instances * perInstance

section

variable {p p' : AcpProvider} {maxInstances maxSessionsPerInstance : ℕ}

theorem WithinCapacity.fewer (h : WithinCapacity maxInstances maxSessionsPerInstance p) (hf : Fewer p p') :
    WithinCapacity maxInstances maxSessionsPerInstance p' :=
  ⟨hf.maxInstances.trans h.maxInstances, hf.maxSessionsPerInstance.trans h.maxSessionsPerInstance,
    hf.sessions.trans h.sessions⟩

theorem WithinCapacity.reserve (h : WithinCapacity maxInstances maxSessionsPerInstance p) {id : String}
    (hp : p.reserveSessionSlot id = .ok p') : WithinCapacity maxInstances maxSessionsPerInstance p' := by
  unfold AcpProvider.reserveSessionSlot at hp
  split at hp
  · obtain rfl := Except.ok.inj hp
    exact h
  · next hnone =>
    split at hp
    · cases hp
    · next hroom =>
      obtain rfl := Except.ok.inj hp
      have habsent : id ∉ p.sessions.keys := fun hmem => by
        rw [← AList.mem_keys, ← AList.lookup_isSome] at hmem
        exact hnone hmem
      refine ⟨h.maxInstances, h.maxSessionsPerInstance, ?_⟩
      change (p.sessions.insert id .default).keys.length ≤ _
      rw [AList.keys_insert, List.length_cons, List.erase_of_not_mem habsent, ← h.maxInstances,
        ← h.maxSessionsPerInstance]
      omega

theorem WithinCapacity.begin (h : WithinCapacity maxInstances maxSessionsPerInstance p)
    {request : Request} {call : Call}
    (hp : p.begin request = .ok (p', call)) : WithinCapacity maxInstances maxSessionsPerInstance p' := by
  cases begun_of_begin hp with
  | same => exact h
  | reserved reserves => exact h.reserve reserves
  | cancelled cancels => exact h.fewer (.cancel cancels)
  | approvals found pending => exact h.fewer (.put found)

theorem WithinCapacity.step (h : WithinCapacity maxInstances maxSessionsPerInstance p) {event : AcpProvider.Event}
    (hp : AcpProvider.step event p = some p') : WithinCapacity maxInstances maxSessionsPerInstance p' := by
  cases event with
  | call request =>
    simp only [AcpProvider.step] at hp
    split at hp
    · obtain rfl := Option.some.inj hp
      exact h.fewer ⟨rfl, rfl, le_rfl⟩
    · next hbegin =>
      obtain rfl := Option.some.inj hp
      exact (h.begin hbegin).fewer ⟨rfl, rfl, le_rfl⟩
  | goOn i world answer =>
    obtain ⟨call, -, rfl⟩ := Option.map_eq_some_iff.mp hp
    exact h.fewer ((Fewer.goOn p call world answer).trans ⟨rfl, rfl, le_rfl⟩)
  | task i world =>
    obtain ⟨turn, -, hp⟩ := Option.bind_eq_some_iff.mp hp
    exact h.fewer (.advance hp)
  | read c found => exact h.fewer (.read hp)
  | agent c output =>
    simp only [AcpProvider.step] at hp
    split at hp
    · obtain rfl := Option.some.inj hp
      exact h.fewer ⟨rfl, rfl, le_rfl⟩
    · cases hp

/-- In every reachable state, whatever the calls and the agents do in turns. -/
theorem withinCapacity_of_reaches {P : AcpProvider.Event → AcpProvider → Prop}
    (h : Reaches AcpProvider.step P (.new maxInstances maxSessionsPerInstance) p) :
    WithinCapacity maxInstances maxSessionsPerInstance p :=
  h.invariant ⟨rfl, rfl, Nat.zero_le _⟩ fun _ _ _ hI _ hp => hI.step hp

end

/-! ## The session table after a failed call -/

/-- A `create_session` or `resume_session` that fails leaves the table as it was just when the session was not there
before, and the table never holds more sessions than there may be. -/
theorem failed_call_restores_table {s s' : Waited} {request : Request} {id : String} {e : RuntimeError}
    (answers : List (AcpProvider.World × Except RuntimeError String)) (hr : request.opens = some id)
    (h : s.run request answers = (s', .answered (.error e))) {maxInstances maxSessionsPerInstance : ℕ} {p : AcpProvider}
    (hp : Reaches AcpProvider.step (fun _ _ => True) (.new maxInstances maxSessionsPerInstance) p) :
    (s.SameTable s' ↔ s.provider.sessions.lookup id = none) ∧
      p.sessions.keys.length ≤ maxInstances * maxSessionsPerInstance :=
  ⟨Waited.sameTable_iff hr answers h, (withinCapacity_of_reaches hp).sessions⟩

def busyProvider : Waited :=
  ⟨{ AcpProvider.new 1 2 with sessions := (∅ : Table String AcpSessionState).insert "a" ⟨"ref", some ⟨"turn", 0⟩, ∅, ∅⟩ },
    (∅ : Table String (Table String (List ℕ))).insert "a" ((∅ : Table String (List ℕ)).insert "turn" [0])⟩

def noAgent : List (AcpProvider.World × Except RuntimeError String) :=
  [(.failed (.io "no agent"), .ok ""), (.fine, .ok "")]

/-- Another session that cannot be created, and a provider that has room for one session. -/
theorem failed_call_restores_table_new :
    busyProvider.SameTable (busyProvider.run (.createSession "b") noAgent).1 ∧
      ∃ p, Reaches AcpProvider.step (fun _ _ => True) (.new 1 1) p ∧ p.sessions.keys = ["a"] ∧
        p.sessions.keys.length ≤ 1 * 1 := by
  obtain ⟨p, hp, hkeys⟩ := exists_reaches_of_runAll (s := .new 1 1) AcpProvider.step (fun _ _ => true)
    [.call (.createSession "a"), .call (.createSession "b")] (fun p : AcpProvider => p.sessions.keys) ["a"]
    (by decide +kernel)
  have hreaches := hp.mono (Q := fun _ _ => True) fun _ _ _ => trivial
  have hfails : busyProvider.run (.createSession "b") noAgent =
      ((busyProvider.run (.createSession "b") noAgent).1, .answered (.error (.io "no agent"))) := rfl
  have h := failed_call_restores_table noAgent rfl hfails hreaches
  exact ⟨h.1.mpr rfl, p, hreaches, hkeys, h.2⟩

/-- The session is resumed and the agent cannot be started. -/
theorem not_failed_call_restores_table :
    ¬ ∀ (s s' : Waited) (request : Request) (id : String)
      (answers : List (AcpProvider.World × Except RuntimeError String)) (e : RuntimeError),
      request.opens = some id → s.run request answers = (s', .answered (.error e)) → s.SameTable s' := by
  intro h
  have hsame := h busyProvider (busyProvider.run (.resumeSession "a" "ref") noAgent).1
    (.resumeSession "a" "ref") "a" noAgent
    (.io "no agent") rfl rfl
  have hbefore : (busyProvider.entry "a").isSome = true := by decide +kernel
  have hafter : ((busyProvider.run (.resumeSession "a" "ref") noAgent).1.entry "a").isSome = false := by decide +kernel
  rw [hsame "a", hbefore] at hafter
  cases hafter

end Gooselake.Providers.Acp
