import Gooselake.Library.Tally
import Gooselake.Tools.ProcessServer

/-!
What one step of the process server can do to the managed processes. `TaskMove` lists the pieces of
the tasks of one process, `CallMove` those of the calls, and `Booted` says what a new manager is made of.
-/

namespace Gooselake.Tools

open Gooselake.Core Data Library Library.Exec

set_option autoImplicit false

/-! ## Rules of the primitive actions -/

/-- The managed processes after a piece: `objects`, and the next free number as it was. -/
structure Keeps (p p' : Processes) (objects : Table ℕ ManagedProcess) : Prop where
  objects : p'.objects = objects
  nextObject : p'.nextObject = p.nextObject

theorem Keeps.refl (p : Processes) : Keeps p p p.objects := ⟨rfl, rfl⟩

section Rules

variable {p : Processes}

@[simp] theorem after_updateObject (h : ℕ) (f : ManagedProcess → ManagedProcess)
    (Q : Except RuntimeError Unit → Processes → Prop) :
    After (updateObject h f) p Q ↔ Q (.ok ()) { p with objects := p.objects.update h f } := after_iff

@[simp] theorem after_releasePermit (Q : Except RuntimeError Unit → Processes → Prop) :
    After releasePermit p Q ↔ Q (.ok ()) { p with permits := p.permits + 1 } := after_iff

@[simp] theorem after_getObject (h : ℕ) (Q : Except RuntimeError ManagedProcess → Processes → Prop) :
    After (getObject h) p Q ↔
      (∀ o, p.objects.lookup h = some o → Q (.ok o) p) ∧
        (p.objects.lookup h = none → Q (.error (.notFound "process")) p) := by
  simp [getObject, after_bind_iff]

theorem after_onProcessStore {α : Type} (f : ToolStore → Except RuntimeError α × ToolStore)
    (Q : Except RuntimeError α → Processes → Prop) :
    After (onProcessStore f) p Q ↔ Q (f p.store).1 { p with store := (f p.store).2 } := by
  simp [onProcessStore, after_bind_iff]

theorem appendProcessEvent_after (id : String) (sessionId : Option String) (kind : String)
    (criticality : RuntimeEventCriticality) (payload : Json) :
    After (appendProcessEvent id sessionId kind criticality payload) p
      fun r p' => r = .ok () ∧ Keeps p p' p.objects := by
  simp only [appendProcessEvent, after_bind_iff, after_get, after_modify, after_attempt, after_onProcessStore]
  split
  · exact (after_modify _ _ _).mpr ⟨rfl, rfl, rfl⟩
  · exact (after_pure _ _ _).mpr ⟨rfl, rfl, rfl⟩

end Rules

theorem capture_setCapture (c : Capture) (stream : OutputStream) (o : ManagedProcess) :
    capture stream (setCapture c stream o) = c := by
  cases stream <;> rfl

theorem capture_setCapture_ne {stream stream' : OutputStream} (hne : stream' ≠ stream) (c : Capture)
    (o : ManagedProcess) : capture stream' (setCapture c stream o) = capture stream' o := by
  cases stream <;> cases stream' <;> first | rfl | exact absurd rfl hne

/-! ## Moves of the tasks -/

inductive TaskRuns (h : ℕ) (o : ManagedProcess) : Task → ProcessM Unit → Prop where
  | exit {code signal : Option ℤ} {c : Child} (child : o.child = some c) (runs : c.running = true) :
      TaskRuns h o (.exit code signal)
        (updateObject h fun o => { o with child := o.child.map (Child.exited code signal) })
  | take (was : o.lifecycle = .spawned) : TaskRuns h o .take (lifecycleTake h)
  | timer (was : o.lifecycle = .waiting) : TaskRuns h o .timer (lifecycleTimer h)
  | waited {c : Child} (was : o.lifecycle = .waiting ∨ o.lifecycle = .reaping) (child : o.child = some c)
      (gone : c.running = false) : TaskRuns h o .waited (lifecycleWaited h (.ok (c.exitCode, c.exitSignal)))
  | waitFailed {errno : Option ℤ} (was : o.lifecycle = .waiting ∨ o.lifecycle = .reaping) :
      TaskRuns h o (.waitFailed errno) (lifecycleWaited h (.error errno))
  | drained {result : WaitResult} (was : o.lifecycle = .draining result)
      (pumpsOver : ∀ stream, (capture stream o).budget = none) : TaskRuns h o .drained (lifecycleStatus h result)
  | record {status : ProcessStatus} {exitCode signal : Option ℤ}
      (was : o.lifecycle = .recording status exitCode signal) :
      TaskRuns h o .record (lifecycleRecord h status exitCode signal)
  | read {stream : OutputStream} {bytes : ℕ} (pumps : (capture stream o).budget.isSome = true) :
      TaskRuns h o (.read stream bytes) (pumpRead h stream bytes)
  | eof {stream : OutputStream} (pumps : (capture stream o).budget.isSome = true) :
      TaskRuns h o (.eof stream) (pumpEnd h stream)

theorem taskRuns_of_piece {h : ℕ} {o : ManagedProcess} {task : Task} {m : ProcessM Unit}
    (hm : task.piece h o = some m) : TaskRuns h o task m := by
  cases task with
  | exit code signal =>
    simp only [Task.piece, Option.ite_none_right_eq_some, Option.some.injEq] at hm
    obtain ⟨hr, rfl⟩ := hm
    obtain ⟨c, hc, hruns⟩ := Option.any_eq_true _ _ |>.mp hr
    exact .exit hc hruns
  | take =>
    simp only [Task.piece, Option.ite_none_right_eq_some, Option.some.injEq] at hm
    obtain ⟨hl, rfl⟩ := hm
    exact .take hl
  | timer =>
    simp only [Task.piece, Option.ite_none_right_eq_some, Option.some.injEq] at hm
    obtain ⟨hl, rfl⟩ := hm
    exact .timer hl
  | waited =>
    simp only [Task.piece] at hm
    split at hm
    · next c hc =>
      simp only [Option.ite_none_right_eq_some, Option.some.injEq] at hm
      obtain ⟨⟨hl, hr⟩, rfl⟩ := hm
      exact .waited hl hc (Bool.not_eq_true _ ▸ hr)
    · cases hm
  | waitFailed errno =>
    simp only [Task.piece, Option.ite_none_right_eq_some, Option.some.injEq] at hm
    obtain ⟨hl, rfl⟩ := hm
    exact .waitFailed hl
  | drained =>
    simp only [Task.piece] at hm
    split at hm
    · next result hl =>
      simp only [Option.ite_none_right_eq_some, Option.some.injEq] at hm
      obtain ⟨⟨hout, herr⟩, rfl⟩ := hm
      refine .drained hl fun stream => ?_
      cases stream with
      | stdout => exact hout
      | stderr => exact herr
    · cases hm
  | record =>
    simp only [Task.piece] at hm
    split at hm
    · next hl =>
      obtain rfl := Option.some.inj hm
      exact .record hl
    · cases hm
  | read stream bytes =>
    simp only [Task.piece, Option.ite_none_right_eq_some, Option.some.injEq] at hm
    obtain ⟨hpumps, rfl⟩ := hm
    exact .read hpumps
  | eof stream =>
    simp only [Task.piece, Option.ite_none_right_eq_some, Option.some.injEq] at hm
    obtain ⟨hpumps, rfl⟩ := hm
    exact .eof hpumps

inductive TaskMove : Task → ManagedProcess → ManagedProcess → Prop where
  | exited {o : ManagedProcess} {c : Child} {code signal : Option ℤ} (child : o.child = some c)
      (runs : c.running = true) :
      TaskMove (.exit code signal) o { o with child := some (c.exited code signal) }
  | taken {o : ManagedProcess} {stdout stderr : Capture} (was : o.lifecycle = .spawned) (held : o.childHeld = true) :
      TaskMove .take o { o with childHeld := false, lifecycle := .waiting, stdout := stdout, stderr := stderr }
  | nothingToTake {o : ManagedProcess} (was : o.lifecycle = .spawned) (empty : o.childHeld = false) :
      TaskMove .take o { o with lifecycle := .ended }
  | timedOut {o : ManagedProcess} (was : o.lifecycle = .waiting) :
      TaskMove .timer o { o with timedOut := true, child := o.child.map Child.startKill, lifecycle := .reaping }
  | waited {o : ManagedProcess} {c : Child} (was : o.lifecycle = .waiting ∨ o.lifecycle = .reaping)
      (child : o.child = some c) (gone : c.running = false) :
      TaskMove .waited o { o with lifecycle := .draining (.ok (c.exitCode, c.exitSignal)) }
  | waitFailed {o : ManagedProcess} {errno : Option ℤ} (was : o.lifecycle = .waiting ∨ o.lifecycle = .reaping) :
      TaskMove (.waitFailed errno) o { o with lifecycle := .draining (.error errno) }
  | drained {o : ManagedProcess} {result : WaitResult} (was : o.lifecycle = .draining result) :
      TaskMove .drained o { o with
        lifecycle := .recording (finalStatus o result).1 (finalStatus o result).2.1 (finalStatus o result).2.2 }
  | recorded {o : ManagedProcess} {status : ProcessStatus} {exitCode signal : Option ℤ} {now : ℤ}
      (was : o.lifecycle = .recording status exitCode signal) :
      TaskMove .record o (recordedProcess now status exitCode signal o)
  | read {o : ManagedProcess} {stream : OutputStream} {bytes : ℕ} (c : Capture) :
      TaskMove (.read stream bytes) o (setCapture c stream o)
  | eof {o : ManagedProcess} {stream : OutputStream} (c : Capture) : TaskMove (.eof stream) o (setCapture c stream o)

section

variable {p : Processes} {h : ℕ} {o : ManagedProcess}

theorem update_eq (ho : p.objects.lookup h = some o) (f : ManagedProcess → ManagedProcess) :
    p.objects.update h f = p.objects.insert h (f o) := by
  rw [Table.update, ho]

/-- The outcome of a piece of task `task` of process `h`. -/
def TaskDone (p : Processes) (h : ℕ) (o : ManagedProcess) (task : Task) (p' : Processes) : Prop :=
  ∃ o', TaskMove task o o' ∧ Keeps p p' (p.objects.insert h o')

theorem updateObject_after (ho : p.objects.lookup h = some o) {task : Task} (f : ManagedProcess → ManagedProcess)
    (hmove : TaskMove task o (f o)) : After (updateObject h f) p fun _ p' => TaskDone p h o task p' := by
  refine (after_updateObject _ _ _).mpr ⟨f o, hmove, ?_, rfl⟩
  exact update_eq ho f

theorem lifecycleTake_after (ho : p.objects.lookup h = some o) (was : o.lifecycle = .spawned) :
    After (lifecycleTake h) p fun _ p' => TaskDone p h o .take p' := by
  simp only [lifecycleTake, after_bind_iff, after_getObject]
  refine ⟨fun o' ho' => ?_, fun hn => by rw [ho] at hn; cases hn⟩
  obtain rfl : o = o' := Option.some.inj (ho.symm.trans ho')
  cases held : o.childHeld with
  | true => exact updateObject_after ho _ (.taken was held)
  | false =>
    simp only [Bool.false_eq_true, if_false, after_bind_iff, after_updateObject, after_releasePermit]
    exact ⟨_, .nothingToTake was held, update_eq ho _, rfl⟩

theorem lifecycleRecord_after (ho : p.objects.lookup h = some o) {status : ProcessStatus} {exitCode signal : Option ℤ}
    (was : o.lifecycle = .recording status exitCode signal) :
    After (lifecycleRecord h status exitCode signal) p fun _ p' => TaskDone p h o .record p' := by
  have hdone : ∀ p', Keeps p p' (p.objects.insert h (recordedProcess p.clock status exitCode signal o)) →
      TaskDone p h o .record p' := fun p' hk => ⟨_, .recorded was, hk⟩
  simp only [lifecycleRecord, after_bind_iff, after_get, after_updateObject, after_getObject, after_attempt,
    after_onProcessStore, update_eq ho]
  refine ⟨fun o' _ => ?_, fun _ => hdone _ ⟨rfl, rfl⟩⟩
  refine (appendProcessEvent_after _ _ _ _ _).elim (fun _ p' hp => ?_) (fun e p' hp => ?_)
  · exact (after_releasePermit _).mpr (hdone _ ⟨hp.2.objects, hp.2.nextObject⟩)
  · exact hdone _ ⟨hp.2.objects, hp.2.nextObject⟩

theorem pumpRead_after (ho : p.objects.lookup h = some o) (stream : OutputStream) (bytes : ℕ) :
    After (pumpRead h stream bytes) p fun _ p' => TaskDone p h o (.read stream bytes) p' := by
  have hdone : ∀ c p', Keeps p p' (p.objects.insert h (setCapture c stream o)) →
      TaskDone p h o (.read stream bytes) p' := fun c p' hk => ⟨_, .read c, hk⟩
  simp only [pumpRead, after_bind_iff, after_get, after_getObject, after_updateObject, update_eq ho]
  refine ⟨fun o' ho' => ?_, fun hn => by rw [ho] at hn; cases hn⟩
  obtain rfl : o = o' := Option.some.inj (ho.symm.trans ho')
  split
  · exact (appendProcessEvent_after _ _ _ _ _).mono fun _ p' hp => hdone _ p' ⟨hp.2.objects, hp.2.nextObject⟩
  · exact (after_pure _ _ _).mpr (hdone _ _ ⟨rfl, rfl⟩)

theorem task_moves (ho : p.objects.lookup h = some o) {task : Task} {m : ProcessM Unit} (hm : task.piece h o = some m) :
    After m p fun _ p' => TaskDone p h o task p' := by
  cases taskRuns_of_piece hm with
  | exit child runs =>
    refine updateObject_after ho _ ?_
    simp only [child, Option.map_some]
    exact .exited child runs
  | take was => exact lifecycleTake_after ho was
  | timer was => exact updateObject_after ho _ (.timedOut was)
  | waited was child gone => exact updateObject_after ho _ (.waited was child gone)
  | waitFailed was => exact updateObject_after ho _ (.waitFailed was)
  | drained was => exact updateObject_after ho _ (.drained was)
  | record was => exact lifecycleRecord_after ho was
  | @read stream bytes => exact pumpRead_after ho stream bytes
  | eof => exact updateObject_after ho _ (.eof _)

end

/-! ## Moves of the calls -/

/-- A kill of process `h` that has set the flag and not looked for the child yet. -/
def ProcessCall.flagging (h : ℕ) : ProcessCall → Bool
  | .killChild h' _ => h = h'
  | _ => false

/-- A kill of process `h` that has looked for the child. -/
def ProcessCall.returning (h : ℕ) : ProcessCall → Bool
  | .killEvent h' _ | .killDetail h' => h = h'
  | _ => false

/-- What a piece of a call does: the await it starts from, the one it reaches and the processes it leaves. -/
inductive CallMove (p : Processes) : Option ProcessCall → Option ProcessCall → Processes → Prop where
  | stopped {before : Option ProcessCall} {p' : Processes} (keeps : Keeps p p' p.objects)
      (was : ∀ c h, before = some c → c.flagging h = true → p.objects.lookup h = none) : CallMove p before none p'
  | went {before : Option ProcessCall} {after : ProcessCall} {p' : Processes} (keeps : Keeps p p' p.objects)
      (was : ∀ c h, before = some c → c.flagging h = false) (flagging : ∀ h, after.flagging h = false)
      (returning : ∀ h, after.returning h = false) : CallMove p before (some after) p'
  | killFlagged {request : ProcessKillRequest} {h : ℕ} {p' : Processes}
      (keeps : Keeps p p' (p.objects.update h fun o => { o with killRequested := true })) :
      CallMove p (some (.killFlag h request)) (some (.killChild h request)) p'
  | killSent {request : ProcessKillRequest} {h : ℕ} {o : ManagedProcess} {p' : Processes}
      (found : p.objects.lookup h = some o) (held : o.childHeld = true)
      (keeps : Keeps p p' (p.objects.insert h { o with child := o.child.map Child.startKill })) :
      CallMove p (some (.killChild h request)) (some (.killEvent h request)) p'
  | killMissed {request : ProcessKillRequest} {h : ℕ} {o : ManagedProcess} {p' : Processes}
      (found : p.objects.lookup h = some o) (empty : o.childHeld = false) (keeps : Keeps p p' p.objects) :
      CallMove p (some (.killChild h request)) (some (.killDetail h)) p'
  | killAnnounced {request : ProcessKillRequest} {h : ℕ} {p' : Processes} (keeps : Keeps p p' p.objects) :
      CallMove p (some (.killEvent h request)) (some (.killDetail h)) p'
  | inserted {record : ProcessRecord} {after : Option ProcessCall} {p' : Processes}
      (next : after = none ∨ after = some (.runDetail record.id))
      (objects : p'.objects = p.objects.insert p.nextObject (.spawned record))
      (nextObject : p'.nextObject = p.nextObject + 1) : CallMove p (some (.runInsert record)) after p'

section

variable {p : Processes} {α : Type}

theorem CallMove.stop {before : Option ProcessCall} {p' : Processes} (keeps : Keeps p p' p.objects)
    (was : ∀ c h, before = some c → c.flagging h = false) : CallMove p before none p' :=
  .stopped keeps fun c h hc hf => by rw [was c h hc] at hf; cases hf

theorem notFlagging {c : ProcessCall} (hc : ∀ h, c.flagging h = false) :
    ∀ c' h, some c = some c' → c'.flagging h = false :=
  fun _ h e => Option.some.inj e ▸ hc h

theorem went_after {x : ProcessM α} {f : α → ProcessCall} {before : Option ProcessCall}
    (hx : After x p fun _ p' => Keeps p p' p.objects) (was : ∀ c h, before = some c → c.flagging h = false)
    (hf : ∀ a h, (f a).flagging h = false) (hr : ∀ a h, (f a).returning h = false) :
    After (do let a ← x; return some (f a)) p fun r p' => CallMove p before (ProcessServer.left r) p' :=
  after_bind hx (fun a _ h => (after_pure _ _ _).mpr (.went h was (hf a) (hr a))) (fun _ _ h => .stop h was)

theorem runBegin_after (request : ProcessRunRequest) : After (runBegin request) p fun _ p' => Keeps p p' p.objects := by
  simp only [runBegin, after_bind_iff, after_get]
  split
  · exact (after_throw _ _ _).mpr (.refl p)
  · split
    · exact (after_throw _ _ _).mpr (.refl p)
    · exact (after_pure _ _ _).mpr (.refl p)

theorem processFromId_after (id : String) : After (processFromId id) p fun _ p' => Keeps p p' p.objects := by
  simp only [processFromId, after_bind_iff, after_get, after_orThrow]
  exact ⟨fun _ _ => .refl p, fun _ => .refl p⟩

theorem ensureOwnership_after (o : ManagedProcess) (caller : Option String) :
    After (ensureOwnership o caller) p fun _ p' => Keeps p p' p.objects := by
  unfold ensureOwnership
  split
  · exact (after_pure _ _ _).mpr (.refl p)
  · split
    · exact (after_pure _ _ _).mpr (.refl p)
    · exact (after_throw _ _ _).mpr (.refl p)

theorem runSpawn_after (request : ProcessRunRequest) (spawned : Except String (Option ℤ)) :
    After (runSpawn request spawned) p fun _ p' => Keeps p p' p.objects := by
  simp only [runSpawn, after_bind_iff, after_modify, after_get]
  cases spawned with
  | error error =>
    simp only [after_bind_iff, after_releasePermit, after_throw]
    exact ⟨rfl, rfl⟩
  | ok pid =>
    simp only [after_bind_iff, after_attempt, after_onProcessStore]
    split
    · exact (after_pure _ _ _).mpr ⟨rfl, rfl⟩
    · exact (after_pure _ _ _).mpr ⟨rfl, rfl⟩

theorem begin_call_moves (op : ProcessOperation) :
    After op.begin p fun r p' => CallMove p none (ProcessServer.left r) p' := by
  have was : ∀ c h, (none : Option ProcessCall) = some c → c.flagging h = false := by
    intro c h hc
    cases hc
  cases op with
  | run request => exact went_after (runBegin_after request) was (fun _ _ => rfl) (fun _ _ => rfl)
  | kill request => exact went_after (processFromId_after _) was (fun _ _ => rfl) (fun _ _ => rfl)
  | list =>
    have hbegin : After cleanupBegin p fun _ p' => Keeps p p' p.objects := by
      simp only [cleanupBegin, after_bind_iff, after_get, after_pure]
      exact .refl p
    exact went_after hbegin was (fun _ _ => rfl) (fun _ _ => rfl)

theorem goOn_call_moves {c : ProcessCall} {answer : ProcessAnswer} {m : ProcessM (Option ProcessCall)}
    (hm : c.goOn answer = some m) : After m p fun r p' => CallMove p (some c) (ProcessServer.left r) p' := by
  cases answer with
  | spawned r =>
    cases c <;> simp only [ProcessCall.goOn, reduceCtorEq, Option.some.injEq] at hm
    next request =>
    subst hm
    have was := notFlagging (c := .runPermit request) fun _ => rfl
    refine after_bind (runSpawn_after request r) (fun a p' h => ?_) (fun _ _ h => .stop h was)
    obtain ⟨record, _ | error⟩ := a
    · exact (after_pure _ _ _).mpr (.went h was (fun _ => rfl) (fun _ => rfl))
    · exact (after_pure _ _ _).mpr (.went h was (fun _ => rfl) (fun _ => rfl))
  | lock =>
    cases c with
    | runPermit request => cases hm
    | runTeardown error =>
      obtain rfl := Option.some.inj hm
      simp only [after_bind_iff, after_releasePermit, after_throw]
      exact .stop ⟨rfl, rfl⟩ (notFlagging fun _ => rfl)
    | runInsert record =>
      obtain rfl := Option.some.inj hm
      simp only [runInsert, after_bind_iff, after_modify]
      refine (appendProcessEvent_after _ _ _ _ _).elim (fun _ p' hp => ?_) (fun e p' hp => ?_)
      · exact (after_pure _ _ _).mpr (.inserted (.inr rfl) hp.2.objects hp.2.nextObject)
      · exact .inserted (.inl rfl) hp.2.objects hp.2.nextObject
    | runDetail id =>
      obtain rfl := Option.some.inj hm
      have was := notFlagging (c := .runDetail id) fun _ => rfl
      exact after_bind (processFromId_after id) (fun _ _ h => (after_pure _ _ _).mpr (.stop h was))
        (fun _ _ h => .stop h was)
    | killOwner h request =>
      obtain rfl := Option.some.inj hm
      have was := notFlagging (c := .killOwner h request) fun _ => rfl
      rw [after_bind_iff, after_getObject]
      refine ⟨fun o ho => ?_, fun _ => .stop (.refl p) was⟩
      exact went_after (ensureOwnership_after o _) was (fun _ _ => rfl) (fun _ _ => rfl)
    | killFlag h request =>
      obtain rfl := Option.some.inj hm
      simp only [killFlag, after_bind_iff, after_updateObject, after_pure]
      exact .killFlagged ⟨rfl, rfl⟩
    | killChild h request =>
      obtain rfl := Option.some.inj hm
      simp only [killChild, after_bind_iff, after_getObject]
      refine ⟨fun o ho => ?_, fun hn => .stopped (.refl p) fun c h' hc hf => ?_⟩
      · cases held : o.childHeld with
        | true =>
          simp only [if_true, after_bind_iff, after_updateObject, after_pure]
          exact .killSent ho held ⟨update_eq ho _, rfl⟩
        | false =>
          simp only [Bool.false_eq_true, if_false, after_pure]
          exact .killMissed ho held (.refl p)
      · obtain rfl := Option.some.inj hc
        obtain rfl : h' = h := by simpa [ProcessCall.flagging] using hf
        exact hn
    | killEvent h request =>
      obtain rfl := Option.some.inj hm
      have was := notFlagging (c := .killEvent h request) fun _ => rfl
      simp only [killEvent, after_bind_iff, after_getObject]
      refine ⟨fun o ho => ?_, fun _ => .stop (.refl p) was⟩
      refine (appendProcessEvent_after _ _ _ _ _).elim (fun _ p' hp => ?_) (fun e p' hp => .stop hp.2 was)
      exact (after_pure _ _ _).mpr (.killAnnounced hp.2)
    | killDetail h =>
      obtain rfl := Option.some.inj hm
      exact (after_pure _ _ _).mpr (.stop (.refl p) (notFlagging fun _ => rfl))
    | listRemove ids =>
      obtain rfl := Option.some.inj hm
      simp only [cleanupRemove, after_bind_iff, after_modify, after_pure]
      exact .went ⟨rfl, rfl⟩ (notFlagging fun _ => rfl) (fun _ => rfl) (fun _ => rfl)
    | listRows =>
      obtain rfl := Option.some.inj hm
      exact (after_pure _ _ _).mpr (.stop (.refl p) (notFlagging fun _ => rfl))

end

/-! ## Moves of the server -/

/-- What one step of the server does: a piece of a call, a piece of a task, or time passes. -/
inductive ServerMove (s : ProcessServer) : ProcessLabel → ProcessServer → Prop where
  | started {i : ℕ} {op : ProcessOperation} {after : Option ProcessCall} {p' : Processes}
      (new : s.calls.lookup i = none) (move : CallMove s.manager none after p') :
      ServerMove s (.start i op) ⟨p', ProcessServer.put s.calls i after⟩
  | wentOn {i : ℕ} {answer : ProcessAnswer} {c : ProcessCall} {after : Option ProcessCall} {p' : Processes}
      (was : s.calls.lookup i = some c) (move : CallMove s.manager (some c) after p') :
      ServerMove s (.goOn i answer) ⟨p', ProcessServer.put s.calls i after⟩
  | task {h : ℕ} {task : Task} {o o' : ManagedProcess} {p' : Processes} (found : s.manager.objects.lookup h = some o)
      (move : TaskMove task o o') (keeps : Keeps s.manager p' (s.manager.objects.insert h o')) :
      ServerMove s (.task h task) ⟨p', s.calls⟩
  | ticked {now : ℤ} : ServerMove s (.tick now) { s with manager := { s.manager with clock := now } }

theorem step_move {l : ProcessLabel} {s s' : ProcessServer} (h : ProcessServer.step l s = some s') :
    ServerMove s l s' := by
  cases l with
  | start i op =>
    simp only [ProcessServer.step, Option.ite_none_left_eq_some, Option.some.injEq] at h
    obtain ⟨hi, rfl⟩ := h
    exact .started (AList.lookup_eq_none.mpr hi) (begin_call_moves op).out
  | goOn i answer =>
    simp only [ProcessServer.step, Option.bind_eq_bind, Option.bind_eq_some_iff] at h
    obtain ⟨c, hc, m, hm, h⟩ := h
    simp only [Option.ite_none_left_eq_some, Option.some.injEq] at h
    obtain ⟨-, rfl⟩ := h
    exact .wentOn hc (goOn_call_moves hm).out
  | task h' task =>
    simp only [ProcessServer.step, Option.bind_eq_bind, Option.bind_eq_some_iff, Option.some.injEq] at h
    obtain ⟨o, ho, m, hm, rfl⟩ := h
    obtain ⟨o', hmove, hk⟩ := (task_moves ho hm).out
    exact .task ho hmove hk
  | tick now =>
    obtain rfl := Option.some.inj h
    exact .ticked

/-! ## A new manager -/

theorem recoveredRecord_id (clock : ℤ) (r : ProcessRecord) : (recoveredRecord clock r).id = r.id := by
  unfold recoveredRecord
  split <;> rfl

structure Booted (store : ToolStore) (config : ProcessManagerConfig) (clock : ℤ) (p : Processes) : Prop where
  configured : p.config = config
  permits : p.permits = max config.maxConcurrent 1
  nextObject : p.nextObject = store.processes.length
  nextProcessId : p.nextProcessId = (store.processes.filterMap fun r => parseProcessSequence r.id).foldl max 0 + 1
  stored : storeRecovered clock store.processes store = (.ok (), p.store)
  objects : ∀ h, p.objects.lookup h = (store.processes[h]?).map fun r => .hydrated (recoveredRecord clock r)

theorem new_booted {store : ToolStore} {config : ProcessManagerConfig} {clock : ℤ} {p : Processes}
    (hp : Processes.new store config clock = .ok p) : Booted store config clock p := by
  unfold Processes.new at hp
  split at hp
  · cases hp
  · next hstore =>
    obtain rfl := Except.ok.inj hp
    refine ⟨rfl, rfl, rfl, rfl, hstore, fun h => ?_⟩
    refine (Table.lookup_foldl_zipIdx
      (fun r => ManagedProcess.hydrated (recoveredRecord clock r)) store.processes 0 ∅ h).trans ?_
    split
    · rfl
    · next hlt =>
      rw [List.getElem?_eq_none (by omega)]
      rfl

theorem Booted.found {store : ToolStore} {config : ProcessManagerConfig} {clock : ℤ} {p : Processes}
    (hp : Booted store config clock p) {h : ℕ} {o : ManagedProcess} (ho : p.objects.lookup h = some o) :
    ∃ r, store.processes[h]? = some r ∧ o = .hydrated (recoveredRecord clock r) := by
  rw [hp.objects] at ho
  obtain ⟨r, hr, rfl⟩ := Option.map_eq_some_iff.mp ho
  exact ⟨r, hr, rfl⟩

theorem Booted.below {store : ToolStore} {config : ProcessManagerConfig} {clock : ℤ} {p : Processes}
    (hp : Booted store config clock p) {h : ℕ} {o : ManagedProcess} (ho : p.objects.lookup h = some o) :
    h < p.nextObject := by
  obtain ⟨r, hr, -⟩ := hp.found ho
  rw [hp.nextObject]
  exact (List.getElem?_eq_some_iff.mp hr).1

end Gooselake.Tools
