import Gooselake.Library.Runs
import Gooselake.Providers.AdapterSteps

/-!
Waits for Codex turns. A wait looks the turn up in one lock section and registers its channel in another; whoever ends
the turn or drops the session takes the waiters out under the lock and answers or drops them after it. A close that has
dropped a session first kills the child of each running turn, which the turn's task holds while it awaits its end.
-/

namespace Gooselake.Providers

open Gooselake.Core Data Library Library.Exec

set_option autoImplicit false

structure ProviderWaitTurnRequest where
  runtimeSessionId : String
  turnId : String
  timeoutMs : Option ℕ
  deriving DecidableEq, Repr

/-! ## Sessions and their waiters -/

namespace CodexSessionState

def waitersOf (session : CodexSessionState) (turnId : String) : List ℕ := (session.waiters.lookup turnId).getD []

def allWaiters (session : CodexSessionState) : List ℕ := session.waiters.values.flatten

def hasTurn (session : CodexSessionState) (turnId : String) : Bool :=
  session.activeTurns.contains turnId || session.pendingApprovals.values.any fun approval => approval.turnId == turnId

theorem mem_allWaiters {session : CodexSessionState} {turnId : String} {i : ℕ} (h : i ∈ session.waitersOf turnId) :
    i ∈ session.allWaiters := by
  unfold waitersOf at h
  cases hw : session.waiters.lookup turnId with
  | none => simp [hw] at h
  | some waiters =>
    rw [hw] at h
    exact List.mem_flatten.mpr ⟨waiters, Table.mem_values.mpr ⟨turnId, hw⟩, h⟩

theorem hasTurn_iff {session : CodexSessionState} {turnId : String} : session.hasTurn turnId = true ↔
    turnId ∈ session.activeTurns ∨ ∃ approvalId pending, session.pendingApprovals.lookup approvalId = some pending ∧
      pending.turnId = turnId := by
  simp only [hasTurn, Bool.or_eq_true, List.contains_iff_mem, List.any_eq_true, beq_iff_eq, Table.mem_values]
  constructor
  · rintro (h | ⟨pending, ⟨approvalId, h⟩, he⟩)
    · exact .inl h
    · exact .inr ⟨approvalId, pending, h, he⟩
  · rintro (h | ⟨approvalId, pending, h, he⟩)
    · exact .inl h
    · exact .inr ⟨pending, ⟨approvalId, h⟩, he⟩

end CodexSessionState

namespace Codex

def interruptTurn (req : ProviderInterruptTurnRequest) : CodexM Unit := do
  let session ← getSession req.runtimeSessionId
  if req.turnId ∉ session.activeTurns then
    throw (.invalidState s!"turn {req.turnId} is not active for session {req.runtimeSessionId}")

/-- The first section of `wait_for_turn`: the result, if there is one already. -/
def waitLooks (req : ProviderWaitTurnRequest) : CodexM (Option ProviderTurnResult) := do
  let session ← getSession req.runtimeSessionId
  match session.completedTurns.lookup req.turnId with
  | some result => return some result
  | none =>
    if session.hasTurn req.turnId then return none
    else throw (.notFound s!"turn {req.turnId} in session {req.runtimeSessionId}")

/-- The child of a running turn: the process that was started last for it. -/
def childOf (c : Codex) (runtimeSessionId turnId : String) : Option ℕ :=
  (List.range c.processes.length).reverse.find? fun n =>
    c.processes[n]?.any fun process => process.runtimeSessionId = runtimeSessionId && process.turnId = turnId

/-- The children that `close_session` kills. -/
def childrenOf (c : Codex) (runtimeSessionId : String) : List ℕ :=
  (((c.sessions.lookup runtimeSessionId).map CodexSessionState.activeTurns).getD []).filterMap
    (c.childOf runtimeSessionId)

def addWaiter (turnId : String) (i : ℕ) (session : CodexSessionState) : CodexSessionState :=
  { session with waiters := session.waiters.insert turnId (session.waitersOf turnId ++ [i]) }

/-- The second section of `wait_for_turn`, which registers receiver `i`. -/
def waitRegisters (req : ProviderWaitTurnRequest) (i : ℕ) : CodexM (Option ProviderTurnResult) := do
  let session ← getSession req.runtimeSessionId
  match session.completedTurns.lookup req.turnId with
  | some result => return some result
  | none =>
    putSession req.runtimeSessionId (addWaiter req.turnId i session)
    return none

end Codex

/-! ## Waits -/

inductive CodexWaitPoint where
  | looking
  | registering
  | waiting
  | returned (result : Except RuntimeError ProviderTurnResult)
  deriving DecidableEq

structure CodexWait where
  req : ProviderWaitTurnRequest
  point : CodexWaitPoint
  deriving DecidableEq

def CodexWait.receive (result : Option ProviderTurnResult) (w : CodexWait) : CodexWait :=
  match w.point, result with
  | .waiting, some result => { w with point := .returned (.ok result) }
  | .waiting, none =>
    { w with point := .returned (.error (.invalidState s!"turn result channel closed for {w.req.turnId}")) }
  | _, _ => w

/-- Senders that a task has taken out of a session: they get a result, or are dropped. Before that the task kills
`children`, one after the other. -/
structure TakenWaiters where
  waiters : List ℕ
  result : Option ProviderTurnResult
  children : List ℕ
  deriving DecidableEq

/-- How far the task of a turn is with its child. -/
inductive ChildPoint where
  /-- It reads the output. -/
  | reading
  /-- The output is at its end: it holds the child and awaits its end. -/
  | held
  /-- The child has ended, by itself or killed, and nobody holds it. -/
  | ended
  deriving DecidableEq

def receiveAll (waiters : List ℕ) (result : Option ProviderTurnResult) (waits : Table ℕ CodexWait) :
    Table ℕ CodexWait :=
  waiters.foldl (fun waits i => waits.update i (CodexWait.receive result)) waits

/-! ## Steps -/

structure CodexWaits where
  codex : Codex
  waits : Table ℕ CodexWait
  taken : List TakenWaiters
  children : Table ℕ ChildPoint

inductive CodexWaitLabel where
  | create (req : ProviderCreateSessionRequest)
  | resume (req : ProviderResumeSessionRequest)
  /-- `spawned` is the outcome of starting the process, if one is started. -/
  | send (req : ProviderSendTurnRequest) (spawned : Except RuntimeError Unit)
  | interrupt (req : ProviderInterruptTurnRequest)
  | respond (req : ProviderApprovalResponseRequest) (spawned : Except RuntimeError Unit)
  | close (req : ProviderCloseSessionRequest)
  /-- Process `n` closes its output and runs on. -/
  | outputEnds (n : ℕ)
  /-- Process `n` ends, by itself or killed by an interrupt. -/
  | childEnds (n : ℕ)
  /-- The task of process `n`, which has ended, completes its turn. -/
  | ends (n : ℕ) (threadId : Option String) (result : ProviderTurnResult)
  /-- A task goes on with the waiters that it has taken: it kills the next child, or is done with them. -/
  | release (t : TakenWaiters)
  | wait (i : ℕ) (req : ProviderWaitTurnRequest)
  | goOn (i : ℕ)
  | timeout (i : ℕ)

namespace CodexWaits

def new : CodexWaits := ⟨Codex.new, ∅, [], ∅⟩

def childPoint (s : CodexWaits) (n : ℕ) : ChildPoint := (s.children.lookup n).getD .reading

def waitersOf (s : CodexWaits) (runtimeSessionId turnId : String) : List ℕ :=
  ((s.codex.sessions.lookup runtimeSessionId).map fun session => session.waitersOf turnId).getD []

def allWaiters (s : CodexWaits) (runtimeSessionId : String) : List ℕ :=
  ((s.codex.sessions.lookup runtimeSessionId).map CodexSessionState.allWaiters).getD []

def run {α : Type} (m : CodexM α) (s : CodexWaits) : CodexWaits := { s with codex := (m.result s.codex).2 }

def take (waiters : List ℕ) (result : Option ProviderTurnResult) (children : List ℕ) (s : CodexWaits) : CodexWaits :=
  { s with taken := ⟨waiters, result, children⟩ :: s.taken }

def after (next : CodexWaitPoint) : Except RuntimeError (Option ProviderTurnResult) → CodexWaitPoint
  | .ok (some result) => .returned (.ok result)
  | .ok none => next
  | .error error => .returned (.error error)

def goOn (i : ℕ) (w : CodexWait) (next : CodexWaitPoint) (m : CodexM (Option ProviderTurnResult)) (s : CodexWaits) :
    CodexWaits :=
  { s.run m with waits := s.waits.insert i { w with point := after next (m.result s.codex).1 } }

def step : CodexWaitLabel → CodexWaits → Option CodexWaits
  | .create req, s =>
    -- the session that is replaced is dropped with its senders
    some { s.run (Codex.createSession req) with waits := receiveAll (s.allWaiters req.runtimeSessionId) none s.waits }
  | .resume req, s => some (s.run (Codex.resumeSession req))
  | .send req spawned, s => some (s.run (Codex.sendTurn req spawned))
  | .interrupt req, s => some (s.run (Codex.interruptTurn req))
  | .respond req spawned, s =>
    match ApprovalDecision.parse req.decision with
    | .ok .decline =>
      some ((s.run (Codex.respondApproval req spawned)).take (s.waitersOf req.runtimeSessionId req.turnId)
        (some (Codex.declinedResult req)) [])
    | _ => some (s.run (Codex.respondApproval req spawned))
  | .close req, s =>
    some ((s.run (Codex.closeSession req)).take (s.allWaiters req.runtimeSessionId) none
      (s.codex.childrenOf req.runtimeSessionId))
  | .outputEnds n, s =>
    if n < s.codex.processes.length ∧ s.childPoint n = .reading then
      some { s with children := s.children.insert n .held }
    else none
  | .childEnds n, s =>
    if n < s.codex.processes.length ∧ s.childPoint n ≠ .ended then
      some { s with children := s.children.insert n .ended }
    else none
  | .ends n threadId result, s => do
    let process ← s.codex.processes[n]?
    if process.exited ∨ s.childPoint n ≠ .ended then none
    else some ((s.run (Codex.processEnds n process threadId result)).take
      (s.waitersOf process.runtimeSessionId process.turnId) (some result) [])
  | .release t, s =>
    if t ∈ s.taken then
      match t.children with
      | [] => some { s with waits := receiveAll t.waiters t.result s.waits, taken := s.taken.erase t }
      | n :: children =>
        if s.childPoint n = .held then none
        else some
          { s with
            children := s.children.insert n .ended
            taken := { t with children := children } :: s.taken.erase t }
    else none
  | .wait i req, s => if i ∈ s.waits then none else some { s with waits := s.waits.insert i ⟨req, .looking⟩ }
  | .goOn i, s => do
    let w ← s.waits.lookup i
    match w.point with
    | .looking => some (s.goOn i w .registering (Codex.waitLooks w.req))
    | .registering => some (s.goOn i w .waiting (Codex.waitRegisters w.req i))
    | _ => none
  | .timeout i, s => do
    let w ← s.waits.lookup i
    if w.point = .waiting ∧ w.req.timeoutMs.isSome then
      let error := RuntimeError.invalidState s!"timed out waiting for turn {w.req.turnId}"
      some { s with waits := s.waits.insert i { w with point := .returned (.error error) } }
    else none

end CodexWaits

/-! ## No orphaned waiter -/

/-- What the task that has taken the waiters does until it is done with them. -/
def TakenWaiters.steps (t : TakenWaiters) : List CodexWaitLabel :=
  t.children.tails.map fun children => .release { t with children := children }

/-- Every waiter that is registered waits for a turn of its session that is active or pending approval, and every wait
that awaits its receiver is registered, or is held by a task whose own steps resolve it. -/
structure CodexWaits.Attended (s : CodexWaits) : Prop where
  registered : ∀ runtimeSessionId session turnId i, s.codex.sessions.lookup runtimeSessionId = some session →
    i ∈ session.waitersOf turnId → session.hasTurn turnId = true
  awaited : ∀ i w, s.waits.lookup i = some w → w.point = .waiting →
    i ∈ s.waitersOf w.req.runtimeSessionId w.req.turnId ∨ ∃ t ∈ s.taken, i ∈ t.waiters
  resolved : ∀ t ∈ s.taken, ∃ s', runAll step t.steps s = some s' ∧
    ∀ i ∈ t.waiters, ∀ w, s'.waits.lookup i = some w → w.point ≠ .waiting

/-- A wait that registers would pass the check of its first section again, unless the session is gone; and no process
of a session that is closed runs on with its output at an end, before the close has killed it. -/
def CodexWaits.unhindered : CodexWaitLabel → CodexWaits → Bool
  | .goOn i, s =>
    match s.waits.lookup i with
    | some ⟨req, .registering⟩ =>
      (s.codex.sessions.lookup req.runtimeSessionId).all fun session =>
        (session.completedTurns.lookup req.turnId).isSome || session.hasTurn req.turnId
    | _ => true
  | .close req, s => (s.codex.childrenOf req.runtimeSessionId).all fun n => s.childPoint n ≠ .held
  | .outputEnds n, s => s.taken.all fun t => n ∉ t.children
  | _, _ => true

/-! ## Receiving -/

theorem receive_point (r : Option ProviderTurnResult) (w : CodexWait) : (w.receive r).point ≠ .waiting := by
  rcases w with ⟨req, _ | _ | _ | _⟩ <;> cases r <;> nofun

theorem lookup_receiveAll (waiters : List ℕ) (result : Option ProviderTurnResult) (waits : Table ℕ CodexWait) {i : ℕ}
    {w : CodexWait} (h : (receiveAll waiters result waits).lookup i = some w) (hw : w.point = .waiting) :
    waits.lookup i = some w ∧ i ∉ waiters := by
  induction waiters generalizing waits with
  | nil => exact ⟨h, List.not_mem_nil⟩
  | cons j waiters ih =>
    obtain ⟨hold, hnot⟩ := ih _ h
    rw [Table.lookup_update] at hold
    split at hold
    · obtain ⟨w₀, -, rfl⟩ := Option.map_eq_some_iff.mp hold
      exact absurd hw (receive_point result w₀)
    · next hne => exact ⟨hold, by simp [hne, hnot]⟩

namespace CodexWaits

variable {s s' : CodexWaits} {i : ℕ} {w : CodexWait}

theorem childPoint_insert {n : ℕ} {p : ChildPoint} (h : s'.children = s.children.insert n p) (m : ℕ) :
    s'.childPoint m = if m = n then p else s.childPoint m := by
  rw [childPoint, h, Table.lookup_insert]
  split <;> rfl

/-- A task whose children nobody holds gets to the end of its waiters. -/
theorem release_resolves (waiters : List ℕ) (result : Option ProviderTurnResult) (children : List ℕ) :
    ∀ s : CodexWaits, ⟨waiters, result, children⟩ ∈ s.taken → (∀ n ∈ children, s.childPoint n ≠ .held) →
      ∃ s', runAll step (TakenWaiters.steps ⟨waiters, result, children⟩) s = some s' ∧
        ∀ i ∈ waiters, ∀ w, s'.waits.lookup i = some w → w.point ≠ .waiting := by
  induction children with
  | nil =>
    intro s ht _
    have hstep : step (.release ⟨waiters, result, []⟩) s = some { s with
        waits := receiveAll waiters result s.waits, taken := s.taken.erase ⟨waiters, result, []⟩ } := if_pos ht
    refine ⟨_, (congrArg (Option.bind · (runAll step [])) hstep).trans rfl, fun i hi w hw hwaiting => ?_⟩
    exact (lookup_receiveAll waiters result s.waits hw hwaiting).2 hi
  | cons n children ih =>
    intro s ht hfree
    have hstep : step (.release ⟨waiters, result, n :: children⟩) s = some { s with
        children := s.children.insert n .ended
        taken := ⟨waiters, result, children⟩ :: s.taken.erase ⟨waiters, result, n :: children⟩ } := by
      rw [step, if_pos ht]
      exact if_neg (hfree n List.mem_cons_self)
    generalize hkilled : ({ s with
        children := s.children.insert n .ended
        taken := ⟨waiters, result, children⟩ :: s.taken.erase ⟨waiters, result, n :: children⟩ } : CodexWaits) = s₁
      at hstep
    have ht₁ : ⟨waiters, result, children⟩ ∈ s₁.taken := hkilled ▸ List.mem_cons_self
    have hfree₁ : ∀ m ∈ children, s₁.childPoint m ≠ .held := by
      intro m hm
      rw [childPoint_insert (hkilled ▸ rfl : s₁.children = s.children.insert n .ended)]
      split
      · nofun
      · exact hfree m (List.mem_cons_of_mem n hm)
    obtain ⟨s', hs', hresolved⟩ := ih s₁ ht₁ hfree₁
    refine ⟨s', ?_, hresolved⟩
    exact (congrArg (Option.bind · (runAll step (TakenWaiters.steps ⟨waiters, result, children⟩))) hstep).trans hs'

/-- What a run keeps. -/
structure Tended (s : CodexWaits) : Prop where
  registered : ∀ runtimeSessionId session turnId i, s.codex.sessions.lookup runtimeSessionId = some session →
    i ∈ session.waitersOf turnId → session.hasTurn turnId = true
  awaited : ∀ i w, s.waits.lookup i = some w → w.point = .waiting →
    i ∈ s.waitersOf w.req.runtimeSessionId w.req.turnId ∨ ∃ t ∈ s.taken, i ∈ t.waiters
  free : ∀ t ∈ s.taken, ∀ n ∈ t.children, s.childPoint n ≠ .held

theorem Tended.attended (h : Tended s) : Attended s :=
  ⟨h.registered, h.awaited, fun t ht => release_resolves t.waiters t.result t.children s ht (h.free t ht)⟩

theorem mem_waitersOf {runtimeSessionId turnId : String} : i ∈ s.waitersOf runtimeSessionId turnId ↔
    ∃ session, s.codex.sessions.lookup runtimeSessionId = some session ∧ i ∈ session.waitersOf turnId := by
  unfold waitersOf
  cases hl : s.codex.sessions.lookup runtimeSessionId with
  | none => simp
  | some session => simp

theorem mem_allWaiters {runtimeSessionId turnId : String} (h : i ∈ s.waitersOf runtimeSessionId turnId) :
    i ∈ s.allWaiters runtimeSessionId := by
  obtain ⟨session, hl, hi⟩ := mem_waitersOf.mp h
  simpa [allWaiters, hl] using CodexSessionState.mem_allWaiters hi

/-! ## Sections that take no waiters -/

/-- Sessions keep their waiters and the turns that they have; new sessions have no waiters. -/
structure Grows (c c' : Codex) : Prop where
  forth : ∀ id session, c.sessions.lookup id = some session →
    ∃ session', c'.sessions.lookup id = some session' ∧ session'.waiters = session.waiters
  back : ∀ id session', c'.sessions.lookup id = some session' → session'.waiters = ∅ ∨
    ∃ session, c.sessions.lookup id = some session ∧ session'.waiters = session.waiters ∧
      ∀ turnId, session.hasTurn turnId = true → session'.hasTurn turnId = true

theorem Grows.of_sessions {c c' : Codex} (h : c'.sessions = c.sessions) : Grows c c' where
  forth := fun id session hs => ⟨session, by rw [h]; exact hs, rfl⟩
  back := fun id session hs => .inr ⟨session, by rw [← h]; exact hs, rfl, fun _ ht => ht⟩

theorem Grows.put {c c' : Codex} {id : String} {session session' : CodexSessionState}
    (hc : c'.sessions = c.sessions.insert id session') (hs : c.sessions.lookup id = some session)
    (hw : session'.waiters = session.waiters)
    (ht : ∀ turnId, session.hasTurn turnId = true → session'.hasTurn turnId = true) : Grows c c' where
  forth := fun id' old hold => by
    rw [hc, Table.lookup_insert]
    split
    · next he =>
      subst he
      obtain rfl := Option.some.inj (hs.symm.trans hold)
      exact ⟨session', rfl, hw⟩
    · exact ⟨old, hold, rfl⟩
  back := fun id' new hnew => by
    rw [hc, Table.lookup_insert] at hnew
    split at hnew
    · next he =>
      subst he
      obtain rfl := Option.some.inj hnew
      exact .inr ⟨session, hs, hw, ht⟩
    · exact .inr ⟨new, hnew, rfl, fun _ h => h⟩

theorem Grows.fresh {c c' : Codex} {id : String} {session' : CodexSessionState}
    (hc : c'.sessions = c.sessions.insert id session') (hs : c.sessions.lookup id = none) (hw : session'.waiters = ∅) :
    Grows c c' where
  forth := fun id' old hold => by
    rw [hc, Table.lookup_insert, if_neg]
    · exact ⟨old, hold, rfl⟩
    · rintro rfl
      cases hs.symm.trans hold
  back := fun id' new hnew => by
    rw [hc, Table.lookup_insert] at hnew
    split at hnew
    · obtain rfl := Option.some.inj hnew
      exact .inl hw
    · exact .inr ⟨new, hnew, rfl, fun _ h => h⟩

theorem Tended.grows (h : Tended s) {c' : Codex} (hc : Grows s.codex c') : Tended { s with codex := c' } := by
  refine ⟨fun id session' turnId i hs hi => ?_, fun i w hw hwaiting => (h.awaited i w hw hwaiting).imp_left
    fun hreg => ?_, h.free⟩
  · rcases hc.back id session' hs with hnone | ⟨session, hold, hwaiters, hturns⟩
    · simp [CodexSessionState.waitersOf, hnone] at hi
    · unfold CodexSessionState.waitersOf at hi
      rw [hwaiters] at hi
      exact hturns turnId (h.registered id session turnId i hold hi)
  · obtain ⟨session, hold, hi⟩ := mem_waitersOf.mp hreg
    obtain ⟨session', hnew, hwaiters⟩ := hc.forth _ session hold
    refine mem_waitersOf.mpr ⟨session', hnew, ?_⟩
    unfold CodexSessionState.waitersOf at hi ⊢
    rw [hwaiters]
    exact hi

section

variable {c : Codex}

theorem spawn_grows {id : String} {session : CodexSessionState} (hs : c.sessions.lookup id = some session)
    (session' : CodexSessionState) (turnId : String) (input : List Json) (spawned : Except RuntimeError Unit)
    (hw : session'.waiters = session.waiters)
    (ht : ∀ turnId, session.hasTurn turnId = true → session'.hasTurn turnId = true) :
    After (do
      Codex.spawnTurn id turnId input session spawned
      Codex.putSession id session') c fun _ c' => Grows c c' := by
  simp only [Codex.spawnTurn, Codex.putSession, after_bind_iff, after_ofExcept]
  cases spawned with
  | error e => exact .of_sessions rfl
  | ok _ =>
    simp only [after_modify]
    exact .put rfl hs hw ht

theorem resumeSession_grows (req : ProviderResumeSessionRequest) :
    After (Codex.resumeSession req) c fun _ c' => Grows c c' := by
  simp only [Codex.resumeSession, Codex.putSession, after_bind_iff, after_get, after_modify, after_pure]
  cases hs : c.sessions.lookup req.runtimeSessionId with
  | none => exact .fresh rfl hs rfl
  | some session => exact .put rfl hs rfl fun _ h => h

theorem sendTurn_grows (req : ProviderSendTurnRequest) (spawned : Except RuntimeError Unit) :
    After (Codex.sendTurn req spawned) c fun _ c' => Grows c c' := by
  simp only [Codex.sendTurn]
  rw [after_bind_iff]
  refine after_codex_getSession _ (fun session hs => ?_) (.of_sessions rfl)
  dsimp only
  split
  · exact (after_throw _ _ _).mpr (.of_sessions rfl)
  · next hidle =>
    -- a session that takes a turn has none
    have hnone : ∀ turnId, session.hasTurn turnId = true → False := by
      intro turnId ht
      rcases CodexSessionState.hasTurn_iff.mp ht with ht | ⟨approvalId, pending, hp, -⟩
      · exact hidle (.inl (List.ne_nil_of_mem ht))
      · exact hidle (.inr (List.ne_nil_of_mem (AList.mem_keys.mp (Table.lookup_isSome hp))))
    cases req.approvalId with
    | some approvalId =>
      simp only [Codex.putSession, after_bind_iff, after_modify, after_pure]
      exact .put rfl hs rfl fun turnId ht => (hnone turnId ht).elim
    | none =>
      have hspawn := spawn_grows hs (Codex.activate req.turnId session) req.turnId req.input spawned rfl
        fun turnId ht => (hnone turnId ht).elim
      simp only [after_bind_iff, after_pure] at hspawn ⊢
      exact hspawn.elim (fun _ _ h₁ => h₁.elim (fun _ _ h₂ => h₂) fun _ _ h₂ => h₂) fun _ _ h₁ => h₁

theorem interruptTurn_grows (req : ProviderInterruptTurnRequest) :
    After (Codex.interruptTurn req) c fun _ c' => Grows c c' := by
  simp only [Codex.interruptTurn]
  rw [after_bind_iff]
  refine after_codex_getSession _ (fun session hs => ?_) (.of_sessions rfl)
  dsimp only
  split
  · exact (after_throw _ _ _).mpr (.of_sessions rfl)
  · exact (after_pure _ _ _).mpr (.of_sessions rfl)

theorem respondApproval_grows (req : ProviderApprovalResponseRequest) (spawned : Except RuntimeError Unit)
    (hd : ApprovalDecision.parse req.decision ≠ .ok .decline) :
    After (Codex.respondApproval req spawned) c fun _ c' => Grows c c' := by
  simp only [Codex.respondApproval]
  refine after_checked (fun decision hparse => ?_) fun _ _ => .of_sessions rfl
  cases decision with
  | decline => exact absurd hparse hd
  | accept =>
    dsimp only
    rw [after_bind_iff]
    refine after_codex_getSession _ (fun session hs => ?_) (.of_sessions rfl)
    dsimp only
    rw [after_bind_iff, after_orThrow]
    refine ⟨fun pending hp => ?_, fun _ => .of_sessions rfl⟩
    dsimp only
    split
    · exact (after_throw _ _ _).mpr (.of_sessions rfl)
    · refine spawn_grows hs _ _ pending.input spawned rfl fun turnId ht => CodexSessionState.hasTurn_iff.mpr ?_
      -- the turn whose approval goes becomes active
      rcases CodexSessionState.hasTurn_iff.mp ht with ht | ⟨approvalId, other, hother, rfl⟩
      · exact .inl (List.mem_cons_of_mem _ ht)
      · by_cases he : approvalId = req.approvalId
        · subst he
          obtain rfl := Option.some.inj (hp.symm.trans hother)
          exact .inl List.mem_cons_self
        · refine .inr ⟨approvalId, other, ?_, rfl⟩
          change (session.pendingApprovals.erase req.approvalId).lookup approvalId = some other
          rw [Table.lookup_erase, if_neg he]
          exact hother

end

/-! ## Sections that take waiters -/

def Completes (id turnId : String) (c c' : Codex) : Prop :=
  (c.sessions.lookup id = none ∧ c'.sessions = c.sessions) ∨
    ∃ session r ref, c.sessions.lookup id = some session ∧
      c'.sessions = c.sessions.insert id (Codex.completedState turnId r ref session)

theorem completeTurn_completes (c : Codex) (id turnId : String) (r : ProviderTurnResult) (ref : Option String) :
    After (Codex.completeTurn id turnId r ref) c fun _ c' => Completes id turnId c c' := by
  simp only [Codex.completeTurn, Codex.putSession, after_bind_iff, after_get]
  cases hs : c.sessions.lookup id with
  | none => exact (after_pure _ _ _).mpr (.inl ⟨hs, rfl⟩)
  | some session =>
    simp only [after_bind_iff, after_modify, after_pure]
    exact .inr ⟨session, r, ref, hs, rfl⟩

theorem respondApproval_completes (c : Codex) {req : ProviderApprovalResponseRequest}
    (spawned : Except RuntimeError Unit)
    (hd : ApprovalDecision.parse req.decision = .ok .decline) :
    After (Codex.respondApproval req spawned) c fun _ c' => Completes req.runtimeSessionId req.turnId c c' := by
  simp only [Codex.respondApproval, after_bind_iff, after_ofExcept, hd, after_pure]
  exact (completeTurn_completes c _ _ _ _).elim (fun _ _ h => h) fun _ _ h => h

theorem processEnds_completes (c : Codex) (n : ℕ) (process : CodexProcess) (threadId : Option String)
    (r : ProviderTurnResult) :
    After (Codex.processEnds n process threadId r) c fun _ c' =>
      Completes process.runtimeSessionId process.turnId c c' := by
  simp only [Codex.processEnds, after_bind_iff, after_modify, after_pure]
  exact (completeTurn_completes _ _ _ _ _).elim (fun _ _ h => h) fun _ _ h => h

theorem waitersOf_completedState (turnId turnId' : String) (r : ProviderTurnResult) (ref : Option String)
    (session : CodexSessionState) : (Codex.completedState turnId r ref session).waitersOf turnId' =
      if turnId' = turnId then [] else session.waitersOf turnId' := by
  change ((session.waiters.erase turnId).lookup turnId').getD [] = _
  rw [Table.lookup_erase]
  split <;> rfl

theorem hasTurn_completedState {turnId turnId' : String} (r : ProviderTurnResult) (ref : Option String)
    {session : CodexSessionState} (hne : turnId' ≠ turnId) (h : session.hasTurn turnId' = true) :
    (Codex.completedState turnId r ref session).hasTurn turnId' = true := by
  rw [CodexSessionState.hasTurn_iff] at h ⊢
  rcases h with h | ⟨approvalId, pending, hp, rfl⟩
  · exact .inl ((List.mem_erase_of_ne hne).mpr h)
  · refine .inr ⟨approvalId, pending, ?_, rfl⟩
    change (session.pendingApprovals.eraseAll _).lookup approvalId = some pending
    rw [Table.lookup_eraseAll, if_neg]
    · exact hp
    · simp [hp, hne]

theorem Tended.completes (h : Tended s) {id turnId : String} {c' : Codex} (hc : Completes id turnId s.codex c')
    (r : Option ProviderTurnResult) : Tended (take (s.waitersOf id turnId) r [] { s with codex := c' }) := by
  refine ⟨fun id' session' turnId' i hs hi => ?_, fun i w hw hwaiting => ?_,
    List.forall_mem_cons.mpr ⟨fun _ hn => absurd hn List.not_mem_nil, h.free⟩⟩
  · rcases hc with ⟨-, hsame⟩ | ⟨session, r, ref, hold, hnew⟩
    · exact h.registered id' session' turnId' i (hsame ▸ hs) hi
    · change c'.sessions.lookup id' = some session' at hs
      rw [hnew, Table.lookup_insert] at hs
      split at hs
      · next he =>
        subst he
        obtain rfl := Option.some.inj hs
        rw [waitersOf_completedState] at hi
        split at hi
        · cases hi
        · next hne => exact hasTurn_completedState r ref hne (h.registered id' session turnId' i hold hi)
      · exact h.registered id' session' turnId' i hs hi
  · rcases h.awaited i w hw hwaiting with hreg | ⟨t, ht, hi⟩
    · by_cases he : w.req.runtimeSessionId = id ∧ w.req.turnId = turnId
      · obtain ⟨rfl, rfl⟩ := he
        exact .inr ⟨_, List.mem_cons_self, hreg⟩
      · obtain ⟨session', hs', hi'⟩ := mem_waitersOf.mp hreg
        refine .inl (mem_waitersOf.mpr ?_)
        change ∃ session, c'.sessions.lookup w.req.runtimeSessionId = some session ∧ i ∈ session.waitersOf w.req.turnId
        rcases hc with ⟨-, hsame⟩ | ⟨session, r, ref, hold, hnew⟩
        · exact ⟨session', hsame ▸ hs', hi'⟩
        · rw [hnew, Table.lookup_insert]
          split
          · next hid =>
            obtain rfl := Option.some.inj (hs'.symm.trans (hid ▸ hold))
            refine ⟨_, rfl, ?_⟩
            rw [waitersOf_completedState, if_neg fun ht => he ⟨hid, ht⟩]
            exact hi'
          · exact ⟨session', hs', hi'⟩
    · exact .inr ⟨t, List.mem_cons_of_mem _ ht, hi⟩

theorem Tended.replaces (h : Tended s) (id : String) (session' : CodexSessionState) {c' : Codex}
    (hc : c'.sessions = s.codex.sessions.insert id session') (hnone : session'.waiters = ∅) :
    Tended { s with codex := c', waits := receiveAll (s.allWaiters id) none s.waits } := by
  refine ⟨fun id' new turnId i hs hi => ?_, fun i w hw hwaiting => ?_, h.free⟩
  · change c'.sessions.lookup id' = some new at hs
    rw [hc, Table.lookup_insert] at hs
    split at hs
    · obtain rfl := Option.some.inj hs
      simp [CodexSessionState.waitersOf, hnone] at hi
    · exact h.registered id' new turnId i hs hi
  · obtain ⟨hold, hnot⟩ := lookup_receiveAll _ _ _ hw hwaiting
    refine (h.awaited i w hold hwaiting).imp_left fun hreg => ?_
    have hne : w.req.runtimeSessionId ≠ id := by
      rintro rfl
      exact hnot (mem_allWaiters hreg)
    obtain ⟨session, hs, hi⟩ := mem_waitersOf.mp hreg
    refine mem_waitersOf.mpr ⟨session, ?_, hi⟩
    change c'.sessions.lookup w.req.runtimeSessionId = some session
    rw [hc, Table.lookup_insert, if_neg hne]
    exact hs

theorem Tended.closes (h : Tended s) (id : String) {c' : Codex} (hc : c'.sessions = s.codex.sessions.erase id)
    (hfree : ∀ n ∈ s.codex.childrenOf id, s.childPoint n ≠ .held) :
    Tended (take (s.allWaiters id) none (s.codex.childrenOf id) { s with codex := c' }) := by
  refine ⟨fun id' session turnId i hs hi => ?_, fun i w hw hwaiting => ?_, List.forall_mem_cons.mpr ⟨hfree, h.free⟩⟩
  · change c'.sessions.lookup id' = some session at hs
    rw [hc, Table.lookup_erase] at hs
    split at hs
    · cases hs
    · exact h.registered id' session turnId i hs hi
  · rcases h.awaited i w hw hwaiting with hreg | ⟨t, ht, hi⟩
    · by_cases he : w.req.runtimeSessionId = id
      · subst he
        exact .inr ⟨_, List.mem_cons_self, mem_allWaiters hreg⟩
      · obtain ⟨session, hs, hi⟩ := mem_waitersOf.mp hreg
        refine .inl (mem_waitersOf.mpr ⟨session, ?_, hi⟩)
        change c'.sessions.lookup w.req.runtimeSessionId = some session
        rw [hc, Table.lookup_erase, if_neg he]
        exact hs
    · exact .inr ⟨t, List.mem_cons_of_mem _ ht, hi⟩

theorem Tended.child (h : Tended s) (n : ℕ) (p : ChildPoint) (hp : p = .held → ∀ t ∈ s.taken, n ∉ t.children) :
    Tended { s with children := s.children.insert n p } := by
  refine ⟨h.registered, h.awaited, fun t ht m hm => ?_⟩
  rw [childPoint_insert (s := s) rfl]
  split
  · next he =>
    rintro rfl
    exact hp rfl t ht (he ▸ hm)
  · exact h.free t ht m hm

theorem Tended.release (h : Tended s) {t : TakenWaiters} (hstep : step (.release t) s = some s') : Tended s' := by
  simp only [step, Option.ite_none_right_eq_some] at hstep
  obtain ⟨ht, hstep⟩ := hstep
  split at hstep
  · obtain rfl := Option.some.inj hstep
    refine ⟨h.registered, fun i w hw hwaiting => ?_, fun t' ht' => h.free t' (List.mem_of_mem_erase ht')⟩
    obtain ⟨hold, hnot⟩ := lookup_receiveAll _ _ _ hw hwaiting
    refine (h.awaited i w hold hwaiting).imp_right fun ⟨t', ht', hi⟩ => ⟨t', ?_, hi⟩
    refine (List.mem_erase_of_ne ?_).mpr ht'
    rintro rfl
    exact hnot hi
  · next n children hchildren =>
    split at hstep
    · cases hstep
    obtain rfl := Option.some.inj hstep
    have hkilled := h.child n .ended nofun
    refine ⟨h.registered, fun i w hw hwaiting => (h.awaited i w hw hwaiting).imp_right ?_, ?_⟩
    · rintro ⟨t', ht', hi⟩
      by_cases he : t' = t
      · subst he
        exact ⟨_, List.mem_cons_self, hi⟩
      · exact ⟨t', List.mem_cons_of_mem _ ((List.mem_erase_of_ne he).mpr ht'), hi⟩
    · refine List.forall_mem_cons.mpr ⟨fun m hm => ?_, fun t' ht' => hkilled.free t' (List.mem_of_mem_erase ht')⟩
      exact hkilled.free t ht m (hchildren ▸ List.mem_cons_of_mem n hm)

/-! ## Sections of a wait -/

theorem Tended.put (h : Tended s)
    (hw : w.point = .waiting → i ∈ s.waitersOf w.req.runtimeSessionId w.req.turnId) :
    Tended { s with waits := s.waits.insert i w } := by
  refine ⟨h.registered, fun j v hv hwaiting => ?_, h.free⟩
  change (s.waits.insert i w).lookup j = some v at hv
  rw [Table.lookup_insert] at hv
  split at hv
  · next hj =>
    subst hj
    obtain rfl := Option.some.inj hv
    exact .inl (hw hwaiting)
  · exact h.awaited j v hv hwaiting

theorem waitLooks_spec (req : ProviderWaitTurnRequest) (c : Codex) :
    After (Codex.waitLooks req) c fun _ c' => c' = c := by
  simp only [Codex.waitLooks]
  rw [after_bind_iff]
  refine after_codex_getSession _ (fun session hs => ?_) rfl
  dsimp only
  split
  · exact (after_pure _ _ _).mpr rfl
  · split
    · exact (after_pure _ _ _).mpr rfl
    · exact (after_throw _ _ _).mpr rfl

theorem waitRegisters_spec (req : ProviderWaitTurnRequest) (i : ℕ) (c : Codex) :
    After (Codex.waitRegisters req i) c fun r c' => (r ≠ .ok none ∧ c' = c) ∨
      ∃ session, c.sessions.lookup req.runtimeSessionId = some session ∧
        session.completedTurns.lookup req.turnId = none ∧
        c'.sessions = c.sessions.insert req.runtimeSessionId (Codex.addWaiter req.turnId i session) := by
  simp only [Codex.waitRegisters]
  rw [after_bind_iff]
  refine after_codex_getSession _ (fun session hs => ?_) (.inl ⟨by nofun, rfl⟩)
  dsimp only
  cases hcompleted : session.completedTurns.lookup req.turnId with
  | some r => exact (after_pure _ _ _).mpr (.inl ⟨by nofun, rfl⟩)
  | none =>
    simp only [Codex.putSession, after_bind_iff, after_modify, after_pure]
    exact .inr ⟨session, hs, hcompleted, rfl⟩

theorem mem_waitersOf_addWaiter {turnId turnId' : String} {i j : ℕ} {session : CodexSessionState} :
    j ∈ (Codex.addWaiter turnId i session).waitersOf turnId' ↔
      j ∈ session.waitersOf turnId' ∨ (turnId' = turnId ∧ j = i) := by
  change j ∈ ((session.waiters.insert turnId (session.waitersOf turnId ++ [i])).lookup turnId').getD [] ↔ _
  rw [Table.lookup_insert]
  split
  · next he =>
    subst he
    simp
  · next hne => simp [CodexSessionState.waitersOf, hne]

theorem hasTurn_addWaiter (turnId turnId' : String) (i : ℕ) (session : CodexSessionState) :
    (Codex.addWaiter turnId i session).hasTurn turnId' = session.hasTurn turnId' := rfl

theorem Tended.registers (h : Tended s) {session : CodexSessionState} {id turnId : String} {c' : Codex}
    (hs : s.codex.sessions.lookup id = some session) (ht : session.hasTurn turnId = true)
    (hc : c'.sessions = s.codex.sessions.insert id (Codex.addWaiter turnId i session)) :
    Tended { s with codex := c' } := by
  refine ⟨fun id' new turnId' j hnew hj => ?_, fun j v hv hwaiting => (h.awaited j v hv hwaiting).imp_left
    fun hreg => ?_, h.free⟩
  · change c'.sessions.lookup id' = some new at hnew
    rw [hc, Table.lookup_insert] at hnew
    split at hnew
    · next he =>
      subst he
      obtain rfl := Option.some.inj hnew
      rw [hasTurn_addWaiter]
      rcases mem_waitersOf_addWaiter.mp hj with hj | ⟨rfl, -⟩
      · exact h.registered id' session turnId' j hs hj
      · exact ht
    · exact h.registered id' new turnId' j hnew hj
  · obtain ⟨old, hold, hj⟩ := mem_waitersOf.mp hreg
    refine mem_waitersOf.mpr ?_
    change ∃ new, c'.sessions.lookup v.req.runtimeSessionId = some new ∧ j ∈ new.waitersOf v.req.turnId
    rw [hc, Table.lookup_insert]
    split
    · next he =>
      obtain rfl := Option.some.inj (hold.symm.trans (he ▸ hs))
      exact ⟨_, rfl, mem_waitersOf_addWaiter.mpr (.inl hj)⟩
    · exact ⟨old, hold, hj⟩

theorem Tended.goesOn (h : Tended s) (hu : unhindered (.goOn i) s = true) (hstep : step (.goOn i) s = some s') :
    Tended s' := by
  simp only [step, Option.bind_eq_bind, Option.bind_eq_some_iff] at hstep
  obtain ⟨⟨req, point⟩, hw, hstep⟩ := hstep
  cases point with
  | looking =>
    obtain rfl := Option.some.inj hstep
    have hsame := (waitLooks_spec req s.codex).out
    simp only [goOn, run, hsame]
    refine h.put fun hwaiting => ?_
    cases hr : ((Codex.waitLooks req).result s.codex).1 with
    | error e => simp [hr, after] at hwaiting
    | ok r => cases r <;> simp [hr, after] at hwaiting
  | registering =>
    obtain rfl := Option.some.inj hstep
    simp only [goOn, run]
    rcases (waitRegisters_spec req i s.codex).out with ⟨hr, hsame⟩ | ⟨session, hs, hcompleted, hc⟩
    · rw [hsame]
      refine h.put fun hwaiting => ?_
      cases hr' : ((Codex.waitRegisters req i).result s.codex).1 with
      | error e => simp [hr', after] at hwaiting
      | ok r =>
        cases r with
        | none => exact absurd hr' hr
        | some r => simp [hr', after] at hwaiting
    · simp only [unhindered, hw, hs, Option.all_some, hcompleted, Option.isSome_none, Bool.false_or] at hu
      refine (h.registers hs hu hc).put fun _ => mem_waitersOf.mpr ⟨Codex.addWaiter req.turnId i session, ?_, ?_⟩
      · change ((Codex.waitRegisters req i).result s.codex).2.sessions.lookup req.runtimeSessionId = _
        rw [hc]
        exact AList.lookup_insert _
      · exact mem_waitersOf_addWaiter.mpr (.inr ⟨rfl, rfl⟩)
  | waiting => cases hstep
  | returned r => cases hstep

/-! ## Runs -/

theorem tended_new : Tended new :=
  ⟨fun _ _ _ _ hs => by simp [new, Codex.new] at hs, fun _ _ hw => by simp [new] at hw, nofun⟩

theorem tended_step {l : CodexWaitLabel} (h : Tended s) (hu : unhindered l s = true) (hstep : step l s = some s') :
    Tended s' := by
  cases l with
  | create req =>
    obtain rfl := Option.some.inj hstep
    exact h.replaces req.runtimeSessionId (Codex.createdState req) rfl rfl
  | resume req =>
    obtain rfl := Option.some.inj hstep
    exact h.grows (resumeSession_grows req).out
  | send req spawned =>
    obtain rfl := Option.some.inj hstep
    exact h.grows (sendTurn_grows req spawned).out
  | interrupt req =>
    obtain rfl := Option.some.inj hstep
    exact h.grows (interruptTurn_grows req).out
  | respond req spawned =>
    simp only [step] at hstep
    split at hstep
    · next hd =>
      obtain rfl := Option.some.inj hstep
      exact h.completes (respondApproval_completes s.codex spawned hd).out _
    · next hd =>
      obtain rfl := Option.some.inj hstep
      exact h.grows (respondApproval_grows req spawned hd).out
  | close req =>
    obtain rfl := Option.some.inj hstep
    refine h.closes req.runtimeSessionId rfl fun n hn => ?_
    simpa [unhindered] using List.all_eq_true.mp hu n hn
  | outputEnds n =>
    simp only [step, Option.ite_none_right_eq_some, Option.some.injEq] at hstep
    obtain ⟨-, rfl⟩ := hstep
    refine h.child n .held fun _ t ht => ?_
    simpa using List.all_eq_true.mp hu t ht
  | childEnds n =>
    simp only [step, Option.ite_none_right_eq_some, Option.some.injEq] at hstep
    obtain ⟨-, rfl⟩ := hstep
    exact h.child n .ended nofun
  | ends n threadId r =>
    simp only [step, Option.bind_eq_bind, Option.bind_eq_some_iff, Option.ite_none_left_eq_some,
      Option.some.injEq] at hstep
    obtain ⟨process, -, -, rfl⟩ := hstep
    exact h.completes (processEnds_completes s.codex n process threadId r).out _
  | release t => exact h.release hstep
  | wait i req =>
    simp only [step, Option.ite_none_left_eq_some, Option.some.injEq] at hstep
    obtain ⟨-, rfl⟩ := hstep
    exact h.put nofun
  | goOn i => exact h.goesOn hu hstep
  | timeout i =>
    simp only [step, Option.bind_eq_bind, Option.bind_eq_some_iff, Option.ite_none_right_eq_some,
      Option.some.injEq] at hstep
    obtain ⟨w, -, -, rfl⟩ := hstep
    exact h.put nofun

/-- As long as no wait registers in a session that has come to be without its turn, and no child keeps a close waiting,
no waiter is orphaned. -/
theorem no_orphaned_waiter (h : Reaches step (fun l s => unhindered l s = true) new s) : s.Attended :=
  (h.invariant tended_new fun _ _ _ ht hu hstep => tended_step ht hu hstep).attended

/-- A wait for a turn whose process ends while the receiver is awaited. -/
theorem no_orphaned_waiter_answered : ∃ s, Reaches step (fun l s => unhindered l s = true) new s ∧
    (s.waits.lookup 0).map CodexWait.point = some (.returned (.ok ⟨"a", "turn", .completed, none, none⟩)) ∧
    s.Attended := by
  obtain ⟨s, hs, hpoint⟩ := exists_reaches_of_runAll (s := new) step unhindered
    [.create ⟨"a", none, none, none, none⟩, .send ⟨"a", "turn", [], none, none, none⟩ (.ok ()),
      .wait 0 ⟨"a", "turn", none⟩, .goOn 0, .goOn 0, .outputEnds 0, .childEnds 0,
      .ends 0 none ⟨"a", "turn", .completed, none, none⟩, .release ⟨[0], some ⟨"a", "turn", .completed, none, none⟩, []⟩]
    (fun s : CodexWaits => (s.waits.lookup 0).map CodexWait.point)
    (some (.returned (.ok ⟨"a", "turn", .completed, none, none⟩))) (by decide +kernel)
  exact ⟨s, hs, hpoint, no_orphaned_waiter hs⟩

/-- A session is closed and resumed between the two sections of a wait. -/
theorem not_no_orphaned_waiter : ¬ ∀ s, Reaches step (fun _ _ => True) new s → s.Attended := by
  intro h
  obtain ⟨s, hs, hrun⟩ := exists_reaches_of_runAll (s := new) step (fun _ _ => true)
    [.create ⟨"a", none, none, none, none⟩, .send ⟨"a", "turn", [], none, none, some "approval"⟩ (.ok ()),
      .wait 0 ⟨"a", "turn", none⟩, .goOn 0, .close ⟨"a", none⟩, .release ⟨[], none, []⟩,
      .resume ⟨"a", "runtime:a", none, none, none⟩, .goOn 0]
    (fun s : CodexWaits => (s.codex.sessions.lookup "a").map fun session =>
      (session.waitersOf "turn", session.hasTurn "turn"))
    (some ([0], false)) (by decide +kernel)
  obtain ⟨session, hsession, he⟩ := Option.map_eq_some_iff.mp hrun
  obtain ⟨hwaiters, hturn⟩ := Prod.mk.inj he
  have hhas := (h s (hs.mono fun _ _ _ => trivial)).registered "a" session "turn" 0 hsession (by rw [hwaiters]; simp)
  rw [hturn] at hhas
  cases hhas

end CodexWaits

end Gooselake.Providers
