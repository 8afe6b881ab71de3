import Gooselake.Library.Tally
import Gooselake.Tools.ProcessIndex

/-!
The permits of one process manager: each child holds one from its spawn until its end is recorded, or until the start
that failed after the spawn has been cleared away.
-/

namespace Gooselake.Tools

open Gooselake.Core Data Library Library.Exec

set_option autoImplicit false

/-! ## Books -/

structure Books where
  config : ProcessManagerConfig
  permits : ℕ
  nextProcessId : ℕ
  rows : List ProcessRecord

def books (p : Processes) : Books := ⟨p.config, p.permits, p.nextProcessId, p.store.processes⟩

def Books.released (b : Books) : Books := { b with permits := b.permits + 1 }

theorem books_appendProcessEvent (id : String) (sessionId : Option String) (kind : String)
    (criticality : RuntimeEventCriticality) (payload : Json) :
    Preserves books (appendProcessEvent id sessionId kind criticality payload) := by
  refine .bind .get fun p => .bind (.modify fun _ => rfl) fun _ => .bind (.attempt ?_) fun r => ?_
  · exact .bind .get fun p s => (after_bind_iff _ _ _ _).mpr (by simp only [after_modify, after_ofExcept]; rfl)
  · cases r with
    | ok record => exact .modify fun _ => rfl
    | error e => exact .pure ()

/-! ## Processes that calls leave as they are -/

/-- The process of `o` after a flag was set or a signal sent. -/
structure Alike (o o' : ManagedProcess) : Prop where
  record : o'.record = o.record
  lifecycle : o'.lifecycle = o.lifecycle
  childHeld : o'.childHeld = o.childHeld
  child : ∀ c', o'.child = some c' → ∃ c, o.child = some c ∧ c'.running = c.running ∧
    (c.killed = true → c'.killed = true)

theorem Alike.refl (o : ManagedProcess) : Alike o o := ⟨rfl, rfl, rfl, fun c hc => ⟨c, hc, rfl, id⟩⟩

def ManagedProcess.holdsPermit (o : ManagedProcess) : Bool := decide (o.lifecycle ≠ .ended)

theorem Alike.holdsPermit {o o' : ManagedProcess} (h : Alike o o') : o'.holdsPermit = o.holdsPermit := by
  rw [ManagedProcess.holdsPermit, ManagedProcess.holdsPermit, h.lifecycle]

def ProcessCall.holdsPermit : ProcessCall → Bool
  | .runTeardown _ | .runInsert _ => true
  | _ => false

structure SameProcesses (p p' : Processes) : Prop where
  nextObject : p'.nextObject = p.nextObject
  held : Table.tally ManagedProcess.holdsPermit p'.objects = Table.tally ManagedProcess.holdsPermit p.objects
  found : ∀ h o', p'.objects.lookup h = some o' → ∃ o, p.objects.lookup h = some o ∧ Alike o o'
  kept : ∀ h o, p.objects.lookup h = some o → ∃ o', p'.objects.lookup h = some o' ∧ Alike o o'

theorem SameProcesses.of_keeps {p p' : Processes} (h : Keeps p p' p.objects) : SameProcesses p p' where
  nextObject := h.nextObject
  held := by rw [h.objects]
  found h' o ho := ⟨o, h.objects ▸ ho, .refl o⟩
  kept h' o ho := ⟨o, by rw [h.objects]; exact ho, .refl o⟩

theorem SameProcesses.of_update {p p' : Processes} {h : ℕ} {f : ManagedProcess → ManagedProcess}
    (hf : ∀ o, Alike o (f o)) (hk : Keeps p p' (p.objects.update h f)) : SameProcesses p p' where
  nextObject := hk.nextObject
  held := by
    rw [hk.objects]
    exact Table.tally_update _ _ fun o => (hf o).holdsPermit
  found h' o' ho' := by
    rw [hk.objects, Table.lookup_update] at ho'
    split at ho'
    · next he =>
      obtain ⟨o, ho, rfl⟩ := Option.map_eq_some_iff.mp ho'
      exact ⟨o, he ▸ ho, hf o⟩
    · exact ⟨o', ho', .refl o'⟩
  kept h' o ho := by
    rw [hk.objects, Table.lookup_update]
    by_cases he : h' = h
    · subst he
      exact ⟨f o, by rw [if_pos rfl, ho]; rfl, hf o⟩
    · exact ⟨o, by rw [if_neg he]; exact ho, .refl o⟩

/-! ## Pieces of the calls -/

inductive CallBooks (p : Processes) : Option ProcessCall → Option ProcessCall → Processes → Prop where
  | quiet {before after : Option ProcessCall} {p' : Processes} (books : books p' = Tools.books p)
      (same : SameProcesses p p') (was : before.any ProcessCall.holdsPermit = false)
      (now : after.any ProcessCall.holdsPermit = false) : CallBooks p before after p'
  | spawnFailed {request : ProcessRunRequest} {p' : Processes} (same : SameProcesses p p')
      (books : books p' = { Tools.books p with permits := p.permits - 1 + 1, nextProcessId := p.nextProcessId + 1 }) :
      CallBooks p (some (.runPermit request)) none p'
  | stored {request : ProcessRunRequest} {pid : Option ℤ} {p' : Processes} (record : ProcessRecord)
      (started : record = startedRecord p request s!"proc_{p.nextProcessId}" pid) (same : SameProcesses p p')
      (books : books p' = { Tools.books p with
        permits := p.permits - 1
        nextProcessId := p.nextProcessId + 1
        rows := upsert ProcessRecord.id (fun _ new => new) record p.store.processes }) :
      CallBooks p (some (.runPermit request)) (some (.runInsert record)) p'
  | unstored {request : ProcessRunRequest} {error : RuntimeError} {p' : Processes} (same : SameProcesses p p')
      (books : books p' = { Tools.books p with permits := p.permits - 1, nextProcessId := p.nextProcessId + 1 }) :
      CallBooks p (some (.runPermit request)) (some (.runTeardown error)) p'
  | tornDown {error : RuntimeError} {p' : Processes} (same : SameProcesses p p')
      (books : books p' = (Tools.books p).released) : CallBooks p (some (.runTeardown error)) none p'
  | inserted {record : ProcessRecord} {after : Option ProcessCall} {p' : Processes}
      (objects : p'.objects = p.objects.insert p.nextObject (.spawned record))
      (nextObject : p'.nextObject = p.nextObject + 1) (books : books p' = Tools.books p)
      (now : after.any ProcessCall.holdsPermit = false) : CallBooks p (some (.runInsert record)) after p'

section

variable {p : Processes} {α : Type}

def SameBooks (x : ProcessM α) (p : Processes) : Prop := After x p fun _ p' => books p' = books p ∧ SameProcesses p p'

theorem sameBooks_readOnly {x : ProcessM α} (hx : ReadOnly x) : SameBooks x p :=
  (hx p).mono fun _ _ h => by rw [h]; exact ⟨rfl, .of_keeps (.refl p)⟩

theorem sameBooks_updateObject (h : ℕ) {f : ManagedProcess → ManagedProcess} (hf : ∀ o, Alike o (f o)) :
    SameBooks (updateObject h f) p :=
  (after_updateObject h f _).mpr ⟨rfl, .of_update hf ⟨rfl, rfl⟩⟩

theorem sameBooks_appendProcessEvent (id : String) (sessionId : Option String) (kind : String)
    (criticality : RuntimeEventCriticality) (payload : Json) :
    SameBooks (appendProcessEvent id sessionId kind criticality payload) p :=
  ((books_appendProcessEvent id sessionId kind criticality payload p).and
    (appendProcessEvent_after id sessionId kind criticality payload)).mono fun _ _ h => ⟨h.1, .of_keeps h.2.2⟩

theorem sameBooks_after {x : ProcessM α} {f : α → Option ProcessCall} {before : Option ProcessCall} (hx : SameBooks x p)
    (was : before.any ProcessCall.holdsPermit = false) (hf : ∀ a, (f a).any ProcessCall.holdsPermit = false) :
    After (do let a ← x; return f a) p fun r p' => CallBooks p before (ProcessServer.left r) p' :=
  after_bind hx (fun a _ h => (after_pure _ _ _).mpr (.quiet h.1 h.2 was (hf a))) fun _ _ h => .quiet h.1 h.2 was rfl

theorem alike_startKill (o : ManagedProcess) : Alike o { o with child := o.child.map Child.startKill } where
  record := rfl
  lifecycle := rfl
  childHeld := rfl
  child c' hc' := by
    obtain ⟨c, hc, rfl⟩ := Option.map_eq_some_iff.mp hc'
    exact ⟨c, hc, rfl, fun h => by simp only [Child.startKill, h, Bool.true_or]⟩

theorem sameBooks_killChild (h : ℕ) : SameBooks (killChild h) p := by
  simp only [SameBooks, killChild, after_bind_iff, after_getObject]
  refine ⟨fun o ho => ?_, fun _ => ⟨trivial, .of_keeps (.refl p)⟩⟩
  split
  · simp only [after_bind_iff, after_updateObject, after_pure]
    exact ⟨rfl, .of_update alike_startKill ⟨rfl, rfl⟩⟩
  · exact (after_pure _ _ _).mpr ⟨rfl, .of_keeps (.refl p)⟩

theorem sameBooks_killEvent (h : ℕ) (reason : Option String) : SameBooks (killEvent h reason) p := by
  simp only [SameBooks, killEvent, after_bind_iff, after_getObject]
  exact ⟨fun o _ => sameBooks_appendProcessEvent _ _ _ _ _, fun _ => ⟨trivial, .of_keeps (.refl p)⟩⟩

theorem begin_books (op : ProcessOperation) :
    After op.begin p fun r p' => CallBooks p none (ProcessServer.left r) p' := by
  cases op with
  | run request =>
    have hread : ReadOnly (runBegin request) :=
      .bind .get fun _ => .ite (.throw _) (.ite (.throw _) (.pure _))
    exact sameBooks_after (sameBooks_readOnly hread) rfl fun _ => rfl
  | kill request => exact sameBooks_after (sameBooks_readOnly (readOnly_processFromId _)) rfl fun _ => rfl
  | list =>
    have hread : ReadOnly cleanupBegin := .bind .get fun _ => .pure _
    exact sameBooks_after (sameBooks_readOnly hread) rfl fun _ => rfl

theorem upsertProcess_cases (r : ProcessRecord) (s : ToolStore) :
    ((ToolStore.upsertProcess r s).1 = .ok () ∧
        (ToolStore.upsertProcess r s).2.processes = upsert ProcessRecord.id (fun _ new => new) r s.processes) ∨
      (∃ e, (ToolStore.upsertProcess r s).1 = .error e) ∧ (ToolStore.upsertProcess r s).2.processes = s.processes := by
  unfold ToolStore.upsertProcess ToolStore.write
  split
  · exact .inr ⟨⟨_, rfl⟩, rfl⟩
  · exact .inl ⟨rfl, rfl⟩
  · exact .inl ⟨rfl, rfl⟩

theorem runSpawn_books (request : ProcessRunRequest) (spawned : Except String (Option ℤ)) :
    After (do
      let (record, error) ← runSpawn request spawned
      return match error with
        | none => some (.runInsert record)
        | some error => some (.runTeardown error)) p
      fun r p' => CallBooks p (some (.runPermit request)) (ProcessServer.left r) p' := by
  simp only [runSpawn, after_bind_iff, after_modify, after_get]
  cases spawned with
  | error error =>
    simp only [after_bind_iff, after_releasePermit, after_throw]
    exact .spawnFailed (.of_keeps ⟨rfl, rfl⟩) rfl
  | ok pid =>
    simp only [after_bind_iff, after_attempt, after_onProcessStore, Nat.add_sub_cancel]
    rcases upsertProcess_cases (startedRecord
      { p with permits := p.permits - 1, nextProcessId := p.nextProcessId + 1 } request s!"proc_{p.nextProcessId}" pid)
      p.store with ⟨hr, hrows⟩ | ⟨⟨e, hr⟩, hrows⟩
    · rw [hr]
      simp only [after_pure]
      refine .stored _ rfl (.of_keeps ⟨rfl, rfl⟩) ?_
      simp only [books, hrows]
    · rw [hr]
      simp only [after_pure]
      refine .unstored (.of_keeps ⟨rfl, rfl⟩) ?_
      simp only [books, hrows]

theorem goOn_books {c : ProcessCall} {answer : ProcessAnswer} {m : ProcessM (Option ProcessCall)}
    (hm : c.goOn answer = some m) : After m p fun r p' => CallBooks p (some c) (ProcessServer.left r) p' := by
  cases answer with
  | spawned r =>
    cases c <;> simp only [ProcessCall.goOn, reduceCtorEq, Option.some.injEq] at hm
    subst hm
    exact runSpawn_books _ r
  | lock =>
    cases c with
    | runPermit request => cases hm
    | runTeardown error =>
      obtain rfl := Option.some.inj hm
      simp only [after_bind_iff, after_releasePermit, after_throw]
      exact .tornDown (.of_keeps ⟨rfl, rfl⟩) rfl
    | runInsert record =>
      obtain rfl := Option.some.inj hm
      simp only [runInsert, after_bind_iff, after_modify]
      refine ((books_appendProcessEvent _ _ _ _ _ _).and (appendProcessEvent_after _ _ _ _ _)).elim
        (fun _ p' h => ?_) fun e p' h => ?_
      · exact (after_pure _ _ _).mpr (.inserted h.2.2.objects h.2.2.nextObject h.1 rfl)
      · exact .inserted h.2.2.objects h.2.2.nextObject h.1 rfl
    | runDetail id =>
      obtain rfl := Option.some.inj hm
      exact sameBooks_after (sameBooks_readOnly (readOnly_processFromId id)) rfl fun _ => rfl
    | killOwner h request =>
      obtain rfl := Option.some.inj hm
      have hread : ReadOnly (do ensureOwnership (← getObject h) request.callerSessionId) :=
        (readOnly_getObject h).bind fun o => readOnly_ensureOwnership o _
      have hquiet : After (do
          let _ ← (do ensureOwnership (← getObject h) request.callerSessionId)
          return some (.killFlag h request)) p fun r p' =>
            CallBooks p (some (.killOwner h request)) (ProcessServer.left r) p' :=
        sameBooks_after (sameBooks_readOnly hread) rfl fun _ => rfl
      simpa only [bind_assoc] using hquiet
    | killFlag h request =>
      obtain rfl := Option.some.inj hm
      exact sameBooks_after (sameBooks_updateObject h
        fun o => ⟨rfl, rfl, rfl, fun c hc => ⟨c, hc, rfl, id⟩⟩) rfl fun _ => rfl
    | killChild h request =>
      obtain rfl := Option.some.inj hm
      refine sameBooks_after (sameBooks_killChild h) rfl fun killed => ?_
      cases killed <;> rfl
    | killEvent h request =>
      obtain rfl := Option.some.inj hm
      exact sameBooks_after (sameBooks_killEvent h _) rfl fun _ => rfl
    | killDetail h =>
      obtain rfl := Option.some.inj hm
      exact (after_pure _ _ _).mpr (.quiet rfl (.of_keeps (.refl p)) rfl rfl)
    | listRemove ids =>
      obtain rfl := Option.some.inj hm
      have hsame : SameBooks (cleanupRemove ids) p := (after_modify _ _ _).mpr ⟨rfl, .of_keeps ⟨rfl, rfl⟩⟩
      exact sameBooks_after hsame rfl fun _ => rfl
    | listRows =>
      obtain rfl := Option.some.inj hm
      exact (after_pure _ _ _).mpr (.quiet rfl (.of_keeps (.refl p)) rfl rfl)

/-! ## Pieces of the tasks -/

/-- The books after a piece of a task that has made `o'` of its process `o`. -/
def Task.books (p : Processes) (o o' : ManagedProcess) : Task → Books
  | .take => if o.childHeld then Tools.books p else (Tools.books p).released
  | .record => { (Tools.books p).released with rows := (ToolStore.upsertProcess o'.record p.store).2.processes }
  | _ => Tools.books p

variable {h : ℕ} {o : ManagedProcess}

def Booked (p : Processes) (h : ℕ) (o : ManagedProcess) (task : Task) (x : ProcessM Unit) : Prop :=
  After x p fun _ p' => ∀ o', p'.objects.lookup h = some o' → books p' = task.books p o o'

theorem booked_updateObject {task : Task} (f : ManagedProcess → ManagedProcess)
    (htask : ∀ o', task.books p o o' = books p) : Booked p h o task (updateObject h f) :=
  (after_updateObject h f _).mpr fun o' _ => (htask o').symm

theorem booked_lifecycleTake (ho : p.objects.lookup h = some o) : Booked p h o .take (lifecycleTake h) := by
  simp only [Booked, lifecycleTake, after_bind_iff, after_getObject]
  refine ⟨fun o' ho' => ?_, fun hn => by rw [ho] at hn; cases hn⟩
  obtain rfl : o = o' := Option.some.inj (ho.symm.trans ho')
  cases held : o.childHeld with
  | true =>
    refine (after_updateObject _ _ _).mpr fun o' _ => ?_
    simp only [Task.books, held, if_true]
    rfl
  | false =>
    simp only [Bool.false_eq_true, if_false, after_bind_iff, after_updateObject, after_releasePermit]
    intro o' _
    simp only [Task.books, held, Bool.false_eq_true, if_false]
    rfl

theorem booked_lifecycleRecord (ho : p.objects.lookup h = some o) (status : ProcessStatus)
    (exitCode signal : Option ℤ) :
    Booked p h o .record (lifecycleRecord h status exitCode signal) := by
  have hrecorded : (p.objects.insert h (recordedProcess p.clock status exitCode signal o)).lookup h =
      some (recordedProcess p.clock status exitCode signal o) := AList.lookup_insert _
  simp only [Booked, lifecycleRecord, after_bind_iff, after_get, after_updateObject, after_getObject, after_attempt,
    after_onProcessStore, update_eq ho, hrecorded]
  refine ⟨fun o' ho' => ?_, fun hn => by cases hn⟩
  obtain rfl := Option.some.inj ho'
  refine ((books_appendProcessEvent _ _ _ _ _ _).and (appendProcessEvent_after _ _ _ _ _)).elim
    (fun _ p' hp => ?_) fun e p' hp => by cases hp.2.1
  refine (after_releasePermit _).mpr fun o' hlookup => ?_
  rw [show p'.objects = _ from hp.2.2.objects, hrecorded] at hlookup
  obtain rfl := Option.some.inj hlookup
  have hreleased : books { p' with permits := p'.permits + 1 } = (books p').released := rfl
  rw [hreleased, hp.1]
  rfl

theorem booked_pumpRead (ho : p.objects.lookup h = some o) (stream : OutputStream) (bytes : ℕ) :
    Booked p h o (.read stream bytes) (pumpRead h stream bytes) := by
  simp only [Booked, pumpRead, after_bind_iff, after_get, after_getObject, after_updateObject]
  refine ⟨fun o' _ => ?_, fun hn => by rw [ho] at hn; cases hn⟩
  split
  · exact (books_appendProcessEvent _ _ _ _ _ _).mono fun _ p' hp _ _ => hp
  · exact (after_pure _ _ _).mpr fun _ _ => rfl

theorem piece_booked (ho : p.objects.lookup h = some o) {task : Task} {m : ProcessM Unit}
    (hm : task.piece h o = some m) :
    Booked p h o task m := by
  cases taskRuns_of_piece hm with
  | take => exact booked_lifecycleTake ho
  | record => exact booked_lifecycleRecord ho _ _ _
  | @read stream bytes => exact booked_pumpRead ho stream bytes
  | exit | timer | waited | waitFailed | drained | eof => exact booked_updateObject _ fun _ => rfl

end

/-! ## Steps of the server -/

inductive BooksMove (s : ProcessServer) : ProcessLabel → ProcessServer → Prop where
  | call {l : ProcessLabel} {i : ℕ} {before after : Option ProcessCall} {p' : Processes}
      (was : s.calls.lookup i = before)
      (permit : before.any ProcessCall.needsPermit = true → s.manager.permits ≠ 0)
      (move : CallBooks s.manager before after p') : BooksMove s l ⟨p', ProcessServer.put s.calls i after⟩
  | task {h : ℕ} {task : Task} {o o' : ManagedProcess} {p' : Processes} (found : s.manager.objects.lookup h = some o)
      (move : TaskMove task o o') (keeps : Keeps s.manager p' (s.manager.objects.insert h o'))
      (books : books p' = task.books s.manager o o') : BooksMove s (.task h task) ⟨p', s.calls⟩
  | ticked {now : ℤ} : BooksMove s (.tick now) { s with manager := { s.manager with clock := now } }

theorem step_books {l : ProcessLabel} {s s' : ProcessServer} (h : ProcessServer.step l s = some s') :
    BooksMove s l s' := by
  cases l with
  | start i op =>
    simp only [ProcessServer.step, Option.ite_none_left_eq_some, Option.some.injEq] at h
    obtain ⟨hi, rfl⟩ := h
    exact .call (AList.lookup_eq_none.mpr hi) (fun hp => by cases hp) (begin_books op).out
  | goOn i answer =>
    simp only [ProcessServer.step, Option.bind_eq_bind, Option.bind_eq_some_iff] at h
    obtain ⟨c, hc, m, hm, h⟩ := h
    simp only [Option.ite_none_left_eq_some, Option.some.injEq, Bool.and_eq_true, decide_eq_true_eq, not_and] at h
    obtain ⟨hp, rfl⟩ := h
    exact .call hc hp (goOn_books hm).out
  | task h' task =>
    simp only [ProcessServer.step, Option.bind_eq_bind, Option.bind_eq_some_iff, Option.some.injEq] at h
    obtain ⟨o, ho, m, hm, rfl⟩ := h
    obtain ⟨⟨o', hmove, hk⟩, hbooks⟩ := ((task_moves ho hm).and (piece_booked ho hm)).out
    exact .task ho hmove hk (hbooks o' (by rw [hk.objects]; exact AList.lookup_insert _))
  | tick now =>
    obtain rfl := Option.some.inj h
    exact .ticked

/-! ## Sound processes -/

/-- The record of a process says `running` until its lifecycle task is over, and its final status from then on. -/
structure ManagedProcess.Sound (o : ManagedProcess) : Prop where
  held : o.lifecycle = .spawned → o.childHeld = true
  going : o.lifecycle ≠ .ended → o.record.status = .running
  recording : ∀ status exitCode signal, o.lifecycle = .recording status exitCode signal →
    isTerminalProcessStatus status = true
  ended : o.lifecycle = .ended → isTerminalProcessStatus o.record.status = true
  gone : o.lifecycle = .ended → ∀ c, o.child = some c → c.running = true → c.killed = true

/-- The status `b` may follow the status `a`. -/
def Onward (a b : ProcessStatus) : Prop := b = a ∨ (a = .running ∧ isTerminalProcessStatus b = true)

theorem Onward.trans {a b c : ProcessStatus} (h : Onward a b) (h' : Onward b c) : Onward a c := by
  rcases h with rfl | ⟨ha, hb⟩
  · exact h'
  · rcases h' with rfl | ⟨rfl, -⟩
    · exact .inr ⟨ha, hb⟩
    · cases hb

namespace ManagedProcess

theorem Sound.alike {o o' : ManagedProcess} (ho : o.Sound) (h : Alike o o') : o'.Sound where
  held hl := by rw [h.childHeld]; exact ho.held (h.lifecycle ▸ hl)
  going hl := by rw [h.record]; exact ho.going (h.lifecycle ▸ hl)
  recording status exitCode signal hl := ho.recording status exitCode signal (h.lifecycle ▸ hl)
  ended hl := by rw [h.record]; exact ho.ended (h.lifecycle ▸ hl)
  gone hl c' hc' hr := by
    obtain ⟨c, hc, hrun, hkill⟩ := h.child c' hc'
    exact hkill (ho.gone (h.lifecycle ▸ hl) c hc (hrun ▸ hr))

theorem Sound.spawned {record : ProcessRecord} (h : record.status = .running) :
    (ManagedProcess.spawned record).Sound where
  held _ := rfl
  going _ := h
  recording _ _ _ hl := by cases hl
  ended hl := by cases hl
  gone hl := by cases hl

theorem Sound.hydrated {record : ProcessRecord} (h : isTerminalProcessStatus record.status = true) :
    (ManagedProcess.hydrated record).Sound where
  held hl := by cases hl
  going hl := absurd rfl hl
  recording _ _ _ hl := by cases hl
  ended _ := h
  gone _ c hc := by cases hc

theorem finalStatus_terminal (o : ManagedProcess) (result : WaitResult) :
    isTerminalProcessStatus (finalStatus o result).1 = true := by
  unfold finalStatus
  split
  · split
    · rfl
    · split
      · rfl
      · split
        · rfl
        · rfl
  · rfl

theorem Sound.goes {o o' : ManagedProcess} (ho : o.Sound) (hl : o.lifecycle ≠ .ended) (hrecord : o'.record = o.record)
    (hl' : o'.lifecycle ≠ .ended) (hspawned : o'.lifecycle ≠ .spawned)
    (hrecording : ∀ status exitCode signal, o'.lifecycle = .recording status exitCode signal →
      isTerminalProcessStatus status = true) : o'.Sound where
  held h := absurd h hspawned
  going _ := by rw [hrecord]; exact ho.going hl
  recording := hrecording
  ended h := absurd h hl'
  gone h := absurd h hl'

theorem Sound.task {task : Task} {o o' : ManagedProcess} (ho : o.Sound) (h : TaskMove task o o') : o'.Sound := by
  have hcapture : ∀ (c : Capture) (stream : OutputStream), Alike o (setCapture c stream o) := fun c stream => by
    cases stream <;> exact ⟨rfl, rfl, rfl, fun c hc => ⟨c, hc, rfl, id⟩⟩
  cases h with
  | @exited c code signal child runs =>
    refine ⟨ho.held, ho.going, ho.recording, ho.ended, fun _ c' hc' hr => ?_⟩
    obtain rfl := Option.some.inj hc'
    cases hr
  | taken was held =>
    exact ho.goes (by rw [was]; exact nofun) rfl nofun nofun (fun _ _ _ hl => by cases hl)
  | nothingToTake was empty =>
    rw [ho.held was] at empty
    cases empty
  | timedOut was =>
    exact ho.goes (by rw [was]; exact nofun) rfl nofun nofun (fun _ _ _ hl => by cases hl)
  | waited was child gone =>
    have hl : o.lifecycle ≠ .ended := by rcases was with was | was <;> rw [was] <;> exact nofun
    exact ho.goes hl rfl nofun nofun (fun _ _ _ hl => by cases hl)
  | waitFailed was =>
    have hl : o.lifecycle ≠ .ended := by rcases was with was | was <;> rw [was] <;> exact nofun
    exact ho.goes hl rfl nofun nofun (fun _ _ _ hl => by cases hl)
  | @drained _ result was =>
    refine ho.goes (by rw [was]; exact nofun) rfl nofun nofun (fun status exitCode signal hl => ?_)
    simp only [Lifecycle.recording.injEq] at hl
    rw [← hl.1]
    exact finalStatus_terminal o result
  | @recorded _ status exitCode signal now was =>
    refine ⟨nofun, fun hl => absurd rfl hl, nofun, fun _ => ho.recording _ _ _ was, fun _ c' hc' hr => ?_⟩
    obtain ⟨c, -, rfl⟩ := Option.map_eq_some_iff.mp hc'
    rw [show c.startKill.running = c.running from rfl] at hr
    simp only [Child.startKill, hr, Bool.or_true]
  | read c => exact ho.alike (hcapture c _)
  | eof c => exact ho.alike (hcapture c _)

theorem task_record {task : Task} {o o' : ManagedProcess} (ho : o.Sound) (h : TaskMove task o o') :
    o'.record.id = o.record.id ∧ Onward o.record.status o'.record.status ∧ (task ≠ .record → o'.record = o.record) := by
  cases h with
  | @recorded _ status exitCode signal now was =>
    have hrunning := ho.going (by rw [was]; exact nofun)
    exact ⟨rfl, .inr ⟨hrunning, ho.recording _ _ _ was⟩, fun hne => absurd rfl hne⟩
  | read c => exact ⟨by rw [record_setCapture], by rw [record_setCapture]; exact .inl rfl, fun _ => record_setCapture _ _ _⟩
  | eof c => exact ⟨by rw [record_setCapture], by rw [record_setCapture]; exact .inl rfl, fun _ => record_setCapture _ _ _⟩
  | exited | taken | nothingToTake | timedOut | waited | waitFailed | drained => exact ⟨rfl, .inl rfl, fun _ => rfl⟩

theorem task_permit {task : Task} {o o' : ManagedProcess} (p : Processes) (ho : o.Sound) (h : TaskMove task o o') :
    (task.books p o o').permits + Table.weight holdsPermit (some o') =
      p.permits + Table.weight holdsPermit (some o) := by
  have hweight : ∀ {x y : ManagedProcess}, x.lifecycle ≠ .ended → y.lifecycle ≠ .ended →
      Table.weight holdsPermit (some x) = Table.weight holdsPermit (some y) := by
    intro x y hx hy
    simp [Table.weight, holdsPermit, hx, hy]
  have hcapture : ∀ (c : Capture) (stream : OutputStream), (setCapture c stream o).holdsPermit = o.holdsPermit := by
    rintro c (_ | _) <;> rfl
  cases h with
  | exited child runs => rfl
  | taken was held =>
    simp only [Task.books, held, if_true]
    exact congrArg (p.permits + ·) (hweight (by simp) (by simp [was]))
  | nothingToTake was empty =>
    rw [ho.held was] at empty
    cases empty
  | timedOut was =>
    exact congrArg (p.permits + ·) (hweight (by simp) (by simp [was]))
  | waited was child gone =>
    have hl : o.lifecycle ≠ .ended := by rcases was with was | was <;> simp [was]
    exact congrArg (p.permits + ·) (hweight (by simp) hl)
  | waitFailed was =>
    have hl : o.lifecycle ≠ .ended := by rcases was with was | was <;> simp [was]
    exact congrArg (p.permits + ·) (hweight (by simp) hl)
  | drained was =>
    exact congrArg (p.permits + ·) (hweight (by simp) (by simp [was]))
  | @recorded _ status exitCode signal now was =>
    have hold : o.holdsPermit = true := by simp [holdsPermit, was]
    have hnew : (recordedProcess now status exitCode signal o).holdsPermit = false :=
      by simp [holdsPermit, recordedProcess]
    simp [Task.books, Books.released, Tools.books, Table.weight, hold, hnew]
  | read c => simp [Task.books, Table.weight, hcapture, Tools.books]
  | eof c => simp [Task.books, Table.weight, hcapture, Tools.books]

end ManagedProcess

/-! ## Every state of a manager -/

namespace ProcessServer

/-- Every permit is in the semaphore, with a process whose lifecycle task is not over, or with a call that has spawned
a child and not handed it over. -/
structure Sound (s : ProcessServer) : Prop where
  below : ∀ h o, s.manager.objects.lookup h = some o → h < s.manager.nextObject
  objects : ∀ h o, s.manager.objects.lookup h = some o → o.Sound
  calls : ∀ i record, s.calls.lookup i = some (.runInsert record) → record.status = .running
  conserved : s.manager.permits + Table.tally ManagedProcess.holdsPermit s.manager.objects +
    Table.tally ProcessCall.holdsPermit s.calls = max s.manager.config.maxConcurrent 1

theorem tally_put (p : ProcessCall → Bool) (calls : Table ℕ ProcessCall) (i : ℕ) (after : Option ProcessCall) :
    Table.tally p (put calls i after) + Table.weight p (calls.lookup i) =
      Table.tally p calls + Table.weight p after := by
  cases after with
  | none => exact Table.tally_erase calls i
  | some c => exact Table.tally_insert calls i c

theorem weight_of_any {α : Type} {p : α → Bool} {a : Option α} (h : a.any p = false) : Table.weight p a = 0 := by
  rw [Table.weight, h]
  rfl

section

variable {s : ProcessServer} {i : ℕ} {before after : Option ProcessCall} {p' : Processes}

theorem Sound.same (hs : s.Sound) (was : s.calls.lookup i = before) (same : SameProcesses s.manager p')
    (hconfig : p'.config = s.manager.config)
    (hpermits : p'.permits + Table.weight ProcessCall.holdsPermit after =
      s.manager.permits + Table.weight ProcessCall.holdsPermit before)
    (hafter : ∀ record, after = some (.runInsert record) → record.status = .running) :
    Sound ⟨p', put s.calls i after⟩ where
  below h o ho := by
    obtain ⟨o', ho', -⟩ := same.found h o ho
    rw [same.nextObject]
    exact hs.below h o' ho'
  objects h o ho := by
    obtain ⟨o', ho', halike⟩ := same.found h o ho
    exact (hs.objects h o' ho').alike halike
  calls j record hj := by
    simp only [lookup_put] at hj
    split at hj
    · exact hafter record hj
    · exact hs.calls j record hj
  conserved := by
    have hcalls := tally_put ProcessCall.holdsPermit s.calls i after
    have hconserved := hs.conserved
    rw [was] at hcalls
    simp only [hconfig, same.held]
    omega

theorem Sound.call (hs : s.Sound) (was : s.calls.lookup i = before)
    (permit : before.any ProcessCall.needsPermit = true → s.manager.permits ≠ 0)
    (move : CallBooks s.manager before after p') : Sound ⟨p', put s.calls i after⟩ := by
  cases move with
  | quiet books same hwas hnow =>
    refine hs.same was same (congrArg Books.config books :) ?_ fun record hr => ?_
    · have hpermits : p'.permits = s.manager.permits := (congrArg Books.permits books :)
      rw [weight_of_any hwas, weight_of_any hnow, hpermits]
    · rw [hr] at hnow
      cases hnow
  | spawnFailed same books =>
    refine hs.same was same (congrArg Books.config books :) ?_ (fun _ hr => by cases hr)
    have hpermits : p'.permits = s.manager.permits - 1 + 1 := (congrArg Books.permits books :)
    have := permit rfl
    simp only [Table.weight, Option.any_some, Option.any_none, ProcessCall.holdsPermit, Bool.false_eq_true, if_false]
    omega
  | stored record started same books =>
    refine hs.same was same (congrArg Books.config books :) ?_ fun record' hr => ?_
    · have hpermits : p'.permits = s.manager.permits - 1 := (congrArg Books.permits books :)
      have := permit rfl
      simp only [Table.weight, Option.any_some, ProcessCall.holdsPermit, if_true, Bool.false_eq_true, if_false]
      omega
    · obtain rfl : record = record' := by simpa using hr
      rw [started]
      rfl
  | unstored same books =>
    refine hs.same was same (congrArg Books.config books :) ?_ (fun record hr => by cases hr)
    have hpermits : p'.permits = s.manager.permits - 1 := (congrArg Books.permits books :)
    have := permit rfl
    simp only [Table.weight, Option.any_some, ProcessCall.holdsPermit, if_true, Bool.false_eq_true, if_false]
    omega
  | tornDown same books =>
    refine hs.same was same (congrArg Books.config books :) ?_ (fun _ hr => by cases hr)
    have hpermits : p'.permits = s.manager.permits + 1 := (congrArg Books.permits books :)
    simp only [Table.weight, Option.any_some, Option.any_none, ProcessCall.holdsPermit, if_true, Bool.false_eq_true,
      if_false]
    omega
  | @inserted record after p' objects nextObject books hnow =>
    have hfree : s.manager.objects.lookup s.manager.nextObject = none := by
      cases hl : s.manager.objects.lookup s.manager.nextObject with
      | none => rfl
      | some o => exact absurd (hs.below _ o hl) (lt_irrefl _)
    refine ⟨fun h o ho => ?_, fun h o ho => ?_, fun j record' hj => ?_, ?_⟩
    · simp only [objects, Table.lookup_insert] at ho
      rw [nextObject]
      split at ho
      · next he => exact he ▸ Nat.lt_succ_self _
      · exact (hs.below h o ho).trans (Nat.lt_succ_self _)
    · simp only [objects, Table.lookup_insert] at ho
      split at ho
      · obtain rfl := Option.some.inj ho
        exact .spawned (hs.calls i record was)
      · exact hs.objects h o ho
    · simp only [lookup_put] at hj
      split at hj
      · rw [hj] at hnow
        cases hnow
      · exact hs.calls j record' hj
    · have hpermits : p'.permits = s.manager.permits := (congrArg Books.permits books :)
      have hconfig : p'.config = s.manager.config := (congrArg Books.config books :)
      have hcalls := tally_put ProcessCall.holdsPermit s.calls i after
      have hobjects := Table.tally_insert (p := ManagedProcess.holdsPermit) s.manager.objects s.manager.nextObject
        (.spawned record)
      have hconserved := hs.conserved
      -- the permit of the call becomes that of the process
      have hcall : Table.weight ProcessCall.holdsPermit (some (.runInsert record)) = 1 := rfl
      have hprocess : Table.weight ManagedProcess.holdsPermit (some (.spawned record)) = 1 := rfl
      rw [was, weight_of_any hnow, hcall] at hcalls
      rw [hfree, Table.weight_none, hprocess] at hobjects
      simp only [objects, hconfig]
      omega

theorem Sound.step {l : ProcessLabel} {s s' : ProcessServer} (hs : s.Sound) (hstep : step l s = some s') :
    s'.Sound := by
  cases step_books hstep with
  | call was permit move => exact hs.call was permit move
  | @task h task o o' p' found move keeps books =>
    have hsound := hs.objects h o found
    refine ⟨fun h' x hx => ?_, fun h' x hx => ?_, hs.calls, ?_⟩
    · rw [keeps.objects, Table.lookup_insert] at hx
      rw [keeps.nextObject]
      split at hx
      · next he => exact he ▸ hs.below h o found
      · exact hs.below h' x hx
    · rw [keeps.objects, Table.lookup_insert] at hx
      split at hx
      · obtain rfl := Option.some.inj hx
        exact hsound.task move
      · exact hs.objects h' x hx
    · have hpermits : p'.permits = (task.books s.manager o o').permits := (congrArg Books.permits books :)
      have hpermit := ManagedProcess.task_permit s.manager hsound move
      have hconfig : p'.config = s.manager.config := by
        refine (congrArg Books.config books :).trans ?_
        cases task with
        | take => simp only [Task.books]; split <;> rfl
        | _ => rfl
      have hobjects := Table.tally_insert (p := ManagedProcess.holdsPermit) s.manager.objects h o'
      have hconserved := hs.conserved
      rw [found] at hobjects
      simp only [keeps.objects, hconfig, hpermits]
      omega
  | ticked => exact ⟨hs.below, hs.objects, hs.calls, hs.conserved⟩

end

end ProcessServer

end Gooselake.Tools
