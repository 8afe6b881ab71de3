import Gooselake.Library.Progress
import Gooselake.Tools.Kill
import Gooselake.Tools.ProcessLives

/-!
The pipes behind the output of the processes. The child of a process and whoever inherits from it hold the write end; a
pump reads what was written and is over when nobody holds the write end any more, and the lifecycle task waits for both
pumps before it records the end of the process.
-/

namespace Gooselake.Tools

open Gooselake.Core Data Library Library.Exec

set_option autoImplicit false

/-! ## Pipes -/

/-- The pipe of an output stream, with the processes other than the child that hold its write end counted. `logOpens`
tells whether the pump can open its log file; if not, it is over at once. -/
structure Pipe where
  held : ℕ
  unread : ℕ
  logOpens : Bool
  deriving DecidableEq, Repr

structure PipedServer where
  server : ProcessServer
  pipes : ℕ → OutputStream → Pipe

def pumpBufferBytes : ℕ := 8192

inductive PipedLabel where
  /-- a step of the server that is none of a pump -/
  | server (l : ProcessLabel)
  | read (h : ℕ) (stream : OutputStream) (bytes : ℕ)
  /-- a pump gets to the end of its stream, or has no log file -/
  | finished (h : ℕ) (stream : OutputStream)
  | readFailed (h : ℕ) (stream : OutputStream)
  | written (h : ℕ) (stream : OutputStream) (bytes : ℕ)
  /-- a descendant of the child comes to hold the write end -/
  | inherited (h : ℕ) (stream : OutputStream)
  | released (h : ℕ) (stream : OutputStream)

def ProcessLabel.ofPump : ProcessLabel → Bool
  | .task _ (.read _ _) | .task _ (.eof _) => true
  | _ => false

namespace PipedServer

def start (p : Processes) (logOpens : ℕ → OutputStream → Bool) : PipedServer :=
  ⟨.start p, fun h stream => ⟨0, 0, logOpens h stream⟩⟩

def childRuns (h : ℕ) (s : PipedServer) : Bool := (s.server.manager.objects.lookup h).any running

def isOpen (h : ℕ) (stream : OutputStream) (s : PipedServer) : Bool :=
  s.childRuns h || decide (0 < (s.pipes h stream).held)

def putPipe (h : ℕ) (stream : OutputStream) (f : Pipe → Pipe) (s : PipedServer) : PipedServer :=
  { s with pipes := fun h' stream' =>
      if h' = h ∧ stream' = stream then f (s.pipes h' stream') else s.pipes h' stream' }

def runServer (l : ProcessLabel) (s : PipedServer) : Option PipedServer :=
  (ProcessServer.step l s.server).map fun server => { s with server }

def step (l : PipedLabel) (s : PipedServer) : Option PipedServer :=
  match l with
  | .server l => if l.ofPump then none else s.runServer l
  | .read h stream bytes =>
    let pipe := s.pipes h stream
    if pipe.logOpens ∧ 0 < bytes ∧ bytes ≤ min pipe.unread pumpBufferBytes then
      (s.runServer (.task h (.read stream bytes))).map
        (putPipe h stream fun pipe => { pipe with unread := pipe.unread - bytes })
    else none
  | .finished h stream =>
    let pipe := s.pipes h stream
    if pipe.logOpens ∧ (pipe.unread ≠ 0 ∨ s.isOpen h stream) then none else s.runServer (.task h (.eof stream))
  | .readFailed h stream => s.runServer (.task h (.eof stream))
  | .written h stream bytes =>
    if s.isOpen h stream then some (s.putPipe h stream fun pipe => { pipe with unread := pipe.unread + bytes })
    else none
  | .inherited h stream =>
    if s.isOpen h stream then some (s.putPipe h stream fun pipe => { pipe with held := pipe.held + 1 }) else none
  | .released h stream =>
    if 0 < (s.pipes h stream).held then some (s.putPipe h stream fun pipe => { pipe with held := pipe.held - 1 })
    else none

end PipedServer

/-- A step of the lifecycle task of process `h`, of its pumps, or the exit of a child that was killed. -/
def ownStep (h : ℕ) (l : PipedLabel) (s : PipedServer) : Prop :=
  match l with
  | .server (.task h' task) => h' = h ∧
    match task with
    | .take | .timer | .waited | .drained | .record => True
    | .exit _ _ => ∃ o c, s.server.manager.objects.lookup h = some o ∧ o.child = some c ∧ c.killed = true
    | .waitFailed _ | .read _ _ | .eof _ => False
  | .read h' _ _ | .finished h' _ => h' = h
  | _ => False

/-- The end of the process is recorded and its permit given back, since the state `s₀`. -/
def EndRecorded (h : ℕ) (s₀ s : PipedServer) : Prop :=
  ∃ o₀ o, s₀.server.manager.objects.lookup h = some o₀ ∧ s.server.manager.objects.lookup h = some o ∧
    o.lifecycle = .ended ∧ isTerminalProcessStatus o.record.status = true ∧
    s.server.manager.permits = s₀.server.manager.permits + if o₀.lifecycle = .ended then 0 else 1

def Lifecycle.awaitsPumps : Lifecycle → Bool
  | .recording _ _ _ | .ended => false
  | .spawned | .waiting | .reaping | .draining _ => true

def pumpLeft (o : ManagedProcess) (stream : OutputStream) : Bool :=
  decide (o.lifecycle = .spawned) || (capture stream o).budget.isSome

/-- Nobody else holds a pipe open that the process waits for. -/
def NotHeld (h : ℕ) (o : ManagedProcess) (s : PipedServer) : Prop :=
  o.lifecycle.awaitsPumps = true → ∀ stream, pumpLeft o stream = true → (s.pipes h stream).logOpens = true →
    (s.pipes h stream).held = 0

/-! ## What the pieces of the tasks do to the pumps -/

def Task.pumping (o : ManagedProcess) (stream : OutputStream) : Task → Bool
  | .take => o.childHeld || (capture stream o).budget.isSome
  | .eof stream' => decide (stream ≠ stream') && (capture stream o).budget.isSome
  | _ => (capture stream o).budget.isSome

def PumpsAs (h : ℕ) (o : ManagedProcess) (task : Task) (p' : Processes) : Prop :=
  ∀ o', p'.objects.lookup h = some o' → ∀ stream, (capture stream o').budget.isSome = task.pumping o stream

section

variable {p : Processes} {h : ℕ} {o : ManagedProcess}

theorem pumpsAs_insert {task : Task} {o' : ManagedProcess} {p' : Processes}
    (hobjects : p'.objects = p.objects.insert h o')
    (hpumps : ∀ stream, (capture stream o').budget.isSome = task.pumping o stream) : PumpsAs h o task p' := by
  intro x hx
  rw [hobjects, AList.lookup_insert] at hx
  obtain rfl := Option.some.inj hx
  exact hpumps

theorem pumpsAs_updateObject (ho : p.objects.lookup h = some o) {task : Task} {f : ManagedProcess → ManagedProcess}
    (hpumps : ∀ stream, (capture stream (f o)).budget.isSome = task.pumping o stream) :
    After (updateObject h f) p fun _ p' => PumpsAs h o task p' :=
  (after_updateObject h f _).mpr (pumpsAs_insert (update_eq ho f) hpumps)

theorem pumpsAs_lifecycleTake (ho : p.objects.lookup h = some o) :
    After (lifecycleTake h) p fun _ p' => PumpsAs h o .take p' := by
  simp only [lifecycleTake, after_bind_iff, after_getObject]
  refine ⟨fun o' ho' => ?_, fun hn => by rw [ho] at hn; cases hn⟩
  obtain rfl : o = o' := Option.some.inj (ho.symm.trans ho')
  cases held : o.childHeld with
  | true =>
    apply pumpsAs_updateObject ho
    intro stream
    cases stream <;> simp [capture, Task.pumping, held]
  | false =>
    simp only [Bool.false_eq_true, if_false, after_bind_iff, after_updateObject, after_releasePermit]
    apply pumpsAs_insert (update_eq ho _)
    intro stream
    cases stream <;> simp [capture, Task.pumping, held]

theorem pumpsAs_lifecycleRecord (ho : p.objects.lookup h = some o) (status : ProcessStatus)
    (exitCode signal : Option ℤ) :
    After (lifecycleRecord h status exitCode signal) p fun _ p' => PumpsAs h o .record p' := by
  have hsame : ∀ stream,
      (capture stream (recordedProcess p.clock status exitCode signal o)).budget.isSome =
        Task.pumping o stream .record := by
    intro stream
    cases stream <;> rfl
  simp only [lifecycleRecord, after_bind_iff, after_get, after_updateObject, after_getObject, after_attempt,
    after_onProcessStore, update_eq ho]
  refine ⟨fun o' _ => ?_, fun _ => pumpsAs_insert rfl hsame⟩
  refine (appendProcessEvent_after _ _ _ _ _).elim (fun _ p' hp => ?_) fun e p' hp => ?_
  · exact (after_releasePermit _).mpr (pumpsAs_insert hp.2.objects hsame)
  · exact pumpsAs_insert hp.2.objects hsame

theorem pumpsAs_pumpRead (ho : p.objects.lookup h = some o) (stream : OutputStream) (bytes : ℕ)
    (hrun : (capture stream o).budget.isSome = true) :
    After (pumpRead h stream bytes) p fun _ p' => PumpsAs h o (.read stream bytes) p' := by
  have hdone : ∀ (c : Capture) (p' : Processes), c.budget.isSome = true →
      p'.objects = p.objects.insert h (setCapture c stream o) → PumpsAs h o (.read stream bytes) p' := by
    intro c p' hc hobjects
    apply pumpsAs_insert hobjects
    intro stream'
    by_cases he : stream' = stream
    · subst he
      rw [capture_setCapture, hc]
      exact hrun.symm
    · rw [capture_setCapture_ne he]
      rfl
  simp only [pumpRead, after_bind_iff, after_get, after_getObject, after_updateObject, update_eq ho]
  refine ⟨fun o' ho' => ?_, fun hn => by rw [ho] at hn; cases hn⟩
  obtain rfl : o = o' := Option.some.inj (ho.symm.trans ho')
  split
  · exact (appendProcessEvent_after _ _ _ _ _).mono fun _ p' hp => hdone _ p' rfl hp.2.objects
  · exact (after_pure _ _ _).mpr (hdone _ _ rfl rfl)

theorem piece_pumps (ho : p.objects.lookup h = some o) {task : Task} {m : ProcessM Unit}
    (hm : task.piece h o = some m) : After m p fun _ p' => PumpsAs h o task p' := by
  cases taskRuns_of_piece hm with
  | take => exact pumpsAs_lifecycleTake ho
  | record => exact pumpsAs_lifecycleRecord ho _ _ _
  | @read stream bytes pumps => exact pumpsAs_pumpRead ho stream bytes pumps
  | @eof stream =>
    apply pumpsAs_updateObject ho
    intro stream'
    by_cases he : stream' = stream
    · subst he
      simp [capture_setCapture, Task.pumping]
    · simp [capture_setCapture_ne he, Task.pumping, he]
  | exit | timer | waited | waitFailed | drained =>
    exact pumpsAs_updateObject ho fun stream => by cases stream <;> rfl

end

/-! ## One step of the tasks of a process -/

/-- A piece of a task of process `h` was run, which makes `o'` of `o`. -/
structure Ran (h : ℕ) (task : Task) (o o' : ManagedProcess) (s t : ProcessServer) : Prop where
  found : s.manager.objects.lookup h = some o
  piece : (task.piece h o).isSome = true
  now : t.manager.objects.lookup h = some o'
  move : TaskMove task o o'
  permits : t.manager.permits = (task.books s.manager o o').permits
  pumps : ∀ stream, (capture stream o').budget.isSome = task.pumping o stream

theorem step_ran {h : ℕ} {task : Task} {s t : ProcessServer} (hstep : ProcessServer.step (.task h task) s = some t) :
    ∃ o o', Ran h task o o' s t := by
  simp only [ProcessServer.step, Option.bind_eq_bind, Option.bind_eq_some_iff, Option.some.injEq] at hstep
  obtain ⟨o, ho, m, hm, rfl⟩ := hstep
  obtain ⟨⟨⟨o', hmove, hk⟩, hbooks⟩, hpumps⟩ :=
    (((task_moves ho hm).and (piece_booked ho hm)).and (piece_pumps ho hm)).out
  have hnow : (s.run m).manager.objects.lookup h = some o' := by
    rw [ProcessServer.run, hk.objects]
    exact AList.lookup_insert _
  exact ⟨o, o', ho, by rw [hm]; rfl, hnow, hmove, congrArg Books.permits (hbooks o' hnow), hpumps o' hnow⟩

/-- What a step of its own does to the pipes of process `h`. -/
structure PipesAs (h : ℕ) (task : Task) (s u : PipedServer) : Prop where
  held : ∀ stream, (u.pipes h stream).held = (s.pipes h stream).held
  logOpens : ∀ stream, (u.pipes h stream).logOpens = (s.pipes h stream).logOpens
  unread : ∀ stream, (u.pipes h stream).unread ≤ (s.pipes h stream).unread
  read : ∀ stream bytes, task = .read stream bytes → (u.pipes h stream).unread < (s.pipes h stream).unread
  ended : ∀ stream, task = .eof stream → (s.pipes h stream).logOpens = true → (s.pipes h stream).held = 0

theorem pipesAs_same {h : ℕ} {task : Task} {s u : PipedServer} (hpipes : u.pipes = s.pipes)
    (hread : ∀ stream bytes, task ≠ .read stream bytes)
    (hended : ∀ stream, task = .eof stream → (s.pipes h stream).logOpens = true → (s.pipes h stream).held = 0) :
    PipesAs h task s u where
  held _ := by rw [hpipes]
  logOpens _ := by rw [hpipes]
  unread _ := by rw [hpipes]
  read stream bytes he := absurd he (hread stream bytes)
  ended := hended

theorem runServer_eq_some {l : ProcessLabel} {s u : PipedServer} (h : s.runServer l = some u) :
    ∃ t, ProcessServer.step l s.server = some t ∧ u = { s with server := t } := by
  obtain ⟨t, ht, rfl⟩ := Option.map_eq_some_iff.mp h
  exact ⟨t, ht, rfl⟩

theorem ownStep_ran {h : ℕ} {l : PipedLabel} {s u : PipedServer} (hown : ownStep h l s)
    (hstep : PipedServer.step l s = some u) :
    ∃ task o o', Ran h task o o' s.server u.server ∧ PipesAs h task s u ∧
      ProcessServer.step (.task h task) s.server = some u.server := by
  cases l with
  | server l =>
    cases l with
    | task h' task =>
      obtain ⟨rfl, htask⟩ := hown
      simp only [PipedServer.step, Option.ite_none_left_eq_some] at hstep
      obtain ⟨t, ht, rfl⟩ := runServer_eq_some hstep.2
      obtain ⟨o, o', hran⟩ := step_ran ht
      refine ⟨task, o, o', hran, pipesAs_same rfl ?_ ?_, ht⟩
      · rintro stream bytes rfl
        exact htask
      · rintro stream rfl
        exact htask.elim
    | start | goOn | tick => exact hown.elim
  | read h' stream bytes =>
    obtain rfl : h' = h := hown
    simp only [PipedServer.step, Option.ite_none_right_eq_some] at hstep
    obtain ⟨⟨-, hpos, hle⟩, hstep⟩ := hstep
    obtain ⟨v, hv, rfl⟩ := Option.map_eq_some_iff.mp hstep
    obtain ⟨t, ht, rfl⟩ := runServer_eq_some hv
    obtain ⟨o, o', hran⟩ := step_ran ht
    have hle : bytes ≤ (s.pipes h' stream).unread := hle.trans (Nat.min_le_left _ _)
    refine ⟨.read stream bytes, o, o', hran, ⟨?_, ?_, ?_, ?_, nofun⟩, ht⟩
    · intro stream'
      simp only [PipedServer.putPipe]
      split <;> rfl
    · intro stream'
      simp only [PipedServer.putPipe]
      split <;> rfl
    · intro stream'
      simp only [PipedServer.putPipe]
      split
      · exact Nat.sub_le _ _
      · exact Nat.le_refl _
    · rintro stream' bytes' he
      obtain ⟨rfl, rfl⟩ := Task.read.inj he
      simp only [PipedServer.putPipe, and_self, if_true]
      omega
  | finished h' stream =>
    obtain rfl : h' = h := hown
    simp only [PipedServer.step, Option.ite_none_left_eq_some] at hstep
    obtain ⟨hclosed, hstep⟩ := hstep
    obtain ⟨t, ht, rfl⟩ := runServer_eq_some hstep
    obtain ⟨o, o', hran⟩ := step_ran ht
    refine ⟨.eof stream, o, o', hran, pipesAs_same rfl nofun ?_, ht⟩
    rintro stream' he hopens
    obtain rfl := Task.eof.inj he
    by_contra hheld
    have hopen : s.isOpen h' stream = true := by
      rw [PipedServer.isOpen, Bool.or_eq_true, decide_eq_true_eq]
      exact .inr (Nat.pos_of_ne_zero hheld)
    exact hclosed ⟨hopens, .inr hopen⟩
  | readFailed | written | inherited | released => exact hown.elim

/-! ## The way to the end -/

def Lifecycle.stage : Lifecycle → ℕ
  | .spawned => 5
  | .waiting => 4
  | .reaping => 3
  | .draining _ => 2
  | .recording _ _ _ => 1
  | .ended => 0

def pumpWork (o : ManagedProcess) (stream : OutputStream) (unread : ℕ) : ℕ :=
  (if o.lifecycle = .spawned then 1 + unread else 0) + if (capture stream o).budget.isSome then 1 + unread else 0

/-- What is left to do until the end of process `h` is recorded. -/
def workLeft (h : ℕ) (s : PipedServer) : ℕ :=
  match s.server.manager.objects.lookup h with
  | none => 0
  | some o => o.lifecycle.stage + (if running o then 1 else 0) +
      (pumpWork o .stdout (s.pipes h .stdout).unread + pumpWork o .stderr (s.pipes h .stderr).unread)

section

variable {h : ℕ} {task : Task} {o o' : ManagedProcess} {s t : ProcessServer}

/-- The lifecycle task goes forward, or it stays and the child exits or a pump goes on. -/
inductive Onwards (h : ℕ) (task : Task) (o o' : ManagedProcess) : Prop
  | stage (hlt : o'.lifecycle.stage < o.lifecycle.stage) (hrun : running o' = running o)
      (hspawned : o'.lifecycle ≠ .spawned)
      (hpumps : ∀ stream, (capture stream o').budget.isSome = true →
        o.lifecycle = .spawned ∨ (capture stream o).budget.isSome = true)
  | exited (hl : o'.lifecycle = o.lifecycle) (hrun : running o = true) (hgone : running o' = false)
      (hpumps : ∀ stream, (capture stream o').budget.isSome = (capture stream o).budget.isSome)
  | read (stream : OutputStream) (bytes : ℕ) (htask : task = .read stream bytes) (hl : o'.lifecycle = o.lifecycle)
      (hrun : running o' = running o) (hpump : (capture stream o).budget.isSome = true)
      (hpumps : ∀ stream, (capture stream o').budget.isSome = (capture stream o).budget.isSome)
  | pumpOver (stream : OutputStream) (hl : o'.lifecycle = o.lifecycle) (hrun : running o' = running o)
      (hpump : (capture stream o).budget.isSome = true) (hover : (capture stream o').budget.isSome = false)
      (hpumps : ∀ stream', stream' ≠ stream →
        (capture stream' o').budget.isSome = (capture stream' o).budget.isSome)

theorem lt_stage_of_waiting (h : o.lifecycle = .waiting ∨ o.lifecycle = .reaping) : 2 < o.lifecycle.stage := by
  rcases h with h | h <;> rw [h] <;> decide

theorem Ran.onwards (hran : Ran h task o o' s t) (hsound : o.Sound) : Onwards h task o o' := by
  have hpumps := hran.pumps
  obtain ⟨m, hm⟩ := Option.isSome_iff_exists.mp hran.piece
  have hruns := taskRuns_of_piece hm
  cases hran.move with
  | @exited _ c code signal child runs =>
    refine .exited rfl ?_ rfl hpumps
    rw [running, child]
    exact runs
  | taken was held =>
    refine .stage ?_ rfl (fun hl => by cases hl) fun _ _ => .inl was
    rw [was]
    exact Nat.lt_succ_self 4
  | nothingToTake was empty =>
    rw [hsound.held was] at empty
    cases empty
  | timedOut was =>
    refine .stage ?_ (running_startKill o (fun _ => _) rfl) (fun hl => by cases hl) fun stream hs => .inr ?_
    · rw [was]
      exact Nat.lt_succ_self 3
    · exact (hpumps stream).symm.trans hs
  | waited was child gone =>
    refine .stage ?_ rfl (fun hl => by cases hl) fun stream hs => .inr ((hpumps stream).symm.trans hs)
    exact lt_stage_of_waiting was
  | waitFailed was =>
    refine .stage ?_ rfl (fun hl => by cases hl) fun stream hs => .inr ((hpumps stream).symm.trans hs)
    exact lt_stage_of_waiting was
  | drained was =>
    refine .stage ?_ rfl (fun hl => by cases hl) fun stream hs => .inr ((hpumps stream).symm.trans hs)
    rw [was]
    exact Nat.lt_succ_self 1
  | recorded was =>
    refine .stage ?_ (running_startKill o (fun _ => _) rfl) (fun hl => by cases hl) fun stream hs => .inr ?_
    · rw [was]
      exact Nat.zero_lt_one
    · exact (hpumps stream).symm.trans hs
  | @read _ stream bytes c =>
    cases hruns with
    | read hpump => refine .read stream bytes rfl ?_ ?_ hpump hpumps <;> cases stream <;> rfl
  | @eof _ stream c =>
    cases hruns with
    | eof hpump =>
      refine .pumpOver stream ?_ ?_ hpump ?_ fun stream' hne => ?_
      · cases stream <;> rfl
      · cases stream <;> rfl
      · rw [hpumps]
        simp [Task.pumping]
      · rw [hpumps]
        simp [Task.pumping, hne]

end

theorem pumpWork_le {o o' : ManagedProcess} {stream : OutputStream} {unread unread' : ℕ} (hle : unread' ≤ unread)
    (hl : o'.lifecycle = o.lifecycle)
    (hpump : (capture stream o').budget.isSome = true → (capture stream o).budget.isSome = true) :
    pumpWork o' stream unread' ≤ pumpWork o stream unread := by
  have hrest : (if (capture stream o').budget.isSome then 1 + unread' else 0) ≤
      if (capture stream o).budget.isSome then 1 + unread else 0 := by
    split
    · next hs =>
      rw [if_pos (hpump hs)]
      omega
    · exact Nat.zero_le _
  unfold pumpWork
  rw [hl]
  split <;> omega

section

variable {h : ℕ} {s₀ s u : PipedServer}

theorem workLeft_eq {o : ManagedProcess} (ho : s.server.manager.objects.lookup h = some o) : workLeft h s =
    o.lifecycle.stage + (if running o then 1 else 0) +
      (pumpWork o .stdout (s.pipes h .stdout).unread + pumpWork o .stderr (s.pipes h .stderr).unread) := by
  rw [workLeft, ho]

theorem pumpWork_onward {o o' : ManagedProcess} {stream : OutputStream} {unread unread' : ℕ}
    (hle : unread' ≤ unread) (hspawned : o'.lifecycle ≠ .spawned)
    (hpump : (capture stream o').budget.isSome = true →
      o.lifecycle = .spawned ∨ (capture stream o).budget.isSome = true) :
    pumpWork o' stream unread' ≤ pumpWork o stream unread := by
  unfold pumpWork
  rw [if_neg hspawned]
  split
  · next hsome =>
    rcases hpump hsome with hl | hs
    · rw [if_pos hl]
      omega
    · rw [if_pos hs]
      omega
  · omega

theorem workLeft_lt {task : Task} {o o' : ManagedProcess} (hsound : o.Sound) (hran : Ran h task o o' s.server u.server)
    (hpipes : PipesAs h task s u) : workLeft h u < workLeft h s := by
  rw [workLeft_eq hran.found, workLeft_eq hran.now]
  have hout := hpipes.unread .stdout
  have herr := hpipes.unread .stderr
  cases hran.onwards hsound with
  | stage hlt hrun hspawned hpumps =>
    have h1 := pumpWork_onward hout hspawned (hpumps .stdout)
    have h2 := pumpWork_onward herr hspawned (hpumps .stderr)
    rw [hrun]
    omega
  | exited hl hrun hgone hpumps =>
    have h1 := pumpWork_le hout hl fun hs => (hpumps .stdout).symm.trans hs
    have h2 := pumpWork_le herr hl fun hs => (hpumps .stderr).symm.trans hs
    rw [hl, if_pos hrun, if_neg (by rw [hgone]; decide)]
    omega
  | read stream bytes htask hl hrun hpump hpumps =>
    have h1 := pumpWork_le hout hl fun hs => (hpumps .stdout).symm.trans hs
    have h2 := pumpWork_le herr hl fun hs => (hpumps .stderr).symm.trans hs
    have hlt := hpipes.read stream bytes htask
    have hless : pumpWork o' stream (u.pipes h stream).unread < pumpWork o stream (s.pipes h stream).unread := by
      unfold pumpWork
      rw [hl, hpumps stream, if_pos hpump, if_pos hpump]
      split <;> omega
    rw [hl, hrun]
    cases stream <;> omega
  | pumpOver stream hl hrun hpump hover hpumps =>
    have hless : pumpWork o' stream (u.pipes h stream).unread < pumpWork o stream (s.pipes h stream).unread := by
      have hle := hpipes.unread stream
      unfold pumpWork
      rw [hl, hover, if_pos hpump, if_neg Bool.false_ne_true]
      split <;> omega
    rw [hl, hrun]
    cases stream with
    | stdout =>
      have h2 := pumpWork_le herr hl fun hs => (hpumps .stderr (by decide)).symm.trans hs
      omega
    | stderr =>
      have h1 := pumpWork_le hout hl fun hs => (hpumps .stdout (by decide)).symm.trans hs
      omega

/-! ## What a step of its own keeps -/

def childEnding (o : ManagedProcess) : Prop := ∃ c, o.child = some c ∧ (c.running = false ∨ c.killed = true)

theorem childEnding_startKill {o o' : ManagedProcess} (hchild : o'.child = o.child.map Child.startKill)
    (h : childEnding o) : childEnding o' := by
  obtain ⟨c, hc, hend⟩ := h
  refine ⟨c.startKill, by rw [hchild, hc]; rfl, hend.imp id fun hk => ?_⟩
  simp [Child.startKill, hk]

theorem childEnding_move {task : Task} {o o' : ManagedProcess} (hmove : TaskMove task o o') (h : childEnding o) :
    childEnding o' := by
  cases hmove with
  | @exited _ c code signal child runs => exact ⟨_, rfl, .inl rfl⟩
  | timedOut | recorded => exact childEnding_startKill rfl h
  | taken | nothingToTake | waited | waitFailed | drained => exact h
  | @read _ stream bytes c => cases stream <;> exact h
  | @eof _ stream c => cases stream <;> exact h

theorem Ran.left {task : Task} {o o' : ManagedProcess} {t t' : ProcessServer} (hran : Ran h task o o' t t')
    (hsound : o.Sound) :
    (o'.lifecycle.awaitsPumps = true → o.lifecycle.awaitsPumps = true) ∧
      ∀ stream, pumpLeft o' stream = true → pumpLeft o stream = true := by
  have hawaits : ∀ l l' : Lifecycle, l'.stage ≤ l.stage → l'.awaitsPumps = true → l.awaitsPumps = true := by
    intro l l' hle hl'
    have hlate : ∀ l : Lifecycle, l.awaitsPumps = true ↔ 2 ≤ l.stage := by
      intro l
      cases l <;> simp [Lifecycle.awaitsPumps, Lifecycle.stage]
    exact (hlate l).mpr (((hlate l').mp hl').trans hle)
  simp only [pumpLeft, Bool.or_eq_true, decide_eq_true_eq]
  cases hran.onwards hsound with
  | stage hlt hrun hspawned hpumps =>
    exact ⟨hawaits _ _ hlt.le, fun stream hs => hpumps stream (hs.resolve_left hspawned)⟩
  | exited hl hrun hgone hpumps =>
    refine ⟨hawaits _ _ (by rw [hl]), fun stream hs => ?_⟩
    rwa [hl, hpumps stream] at hs
  | read stream bytes htask hl hrun hpump hpumps =>
    refine ⟨hawaits _ _ (by rw [hl]), fun stream hs => ?_⟩
    rwa [hl, hpumps stream] at hs
  | pumpOver stream hl hrun hpump hover hpumps =>
    refine ⟨hawaits _ _ (by rw [hl]), fun stream' hs => ?_⟩
    by_cases he : stream' = stream
    · exact .inr (he ▸ hpump)
    · rwa [hl, hpumps stream' he] at hs

theorem NotHeld.ran {task : Task} {o o' : ManagedProcess} (hn : NotHeld h o s) (hsound : o.Sound)
    (hran : Ran h task o o' s.server u.server) (hpipes : PipesAs h task s u) : NotHeld h o' u := by
  intro hawaits stream hleft hopens
  obtain ⟨hback, hpump⟩ := hran.left hsound
  rw [hpipes.logOpens] at hopens
  rw [hpipes.held]
  exact hn (hback hawaits) stream (hpump stream hleft) hopens

theorem Ran.permits_add {task : Task} {o o' : ManagedProcess} {t t' : ProcessServer} (hran : Ran h task o o' t t')
    (hsound : o.Sound) :
    t'.manager.permits + (if o'.lifecycle = .ended then 0 else 1) =
      t.manager.permits + if o.lifecycle = .ended then 0 else 1 := by
  have hweight : ∀ x : ManagedProcess,
      Table.weight ManagedProcess.holdsPermit (some x) = if x.lifecycle = .ended then 0 else 1 := by
    intro x
    by_cases hx : x.lifecycle = .ended <;> simp [Table.weight, ManagedProcess.holdsPermit, hx]
  have hpermit := ManagedProcess.task_permit t.manager hsound hran.move
  rwa [hweight, hweight, ← hran.permits] at hpermit

/-! ## The end is reached -/

/-- Process `h` is on the way to its end, with the permits of the state `s₀` accounted for. -/
structure Ending (h : ℕ) (s₀ s : PipedServer) (o : ManagedProcess) : Prop where
  sound : s.server.Sound
  found : s.server.manager.objects.lookup h = some o
  child : childEnding o
  notHeld : NotHeld h o s
  permits : ∃ o₀, s₀.server.manager.objects.lookup h = some o₀ ∧
    s.server.manager.permits + (if o.lifecycle = .ended then 0 else 1) =
      s₀.server.manager.permits + if o₀.lifecycle = .ended then 0 else 1

theorem Ending.endRecorded {o : ManagedProcess} (hs : Ending h s₀ s o) (hended : o.lifecycle = .ended) :
    EndRecorded h s₀ s := by
  obtain ⟨o₀, ho₀, hpermits⟩ := hs.permits
  rw [if_pos hended, Nat.add_zero] at hpermits
  exact ⟨o₀, o, ho₀, hs.found, hended, (hs.sound.objects h o hs.found).ended hended, hpermits⟩

theorem Ending.goes {l : PipedLabel} {o : ManagedProcess} (hs : Ending h s₀ s o) (hown : ownStep h l s)
    (hstep : PipedServer.step l s = some u) : (∃ o', Ending h s₀ u o') ∧ workLeft h u < workLeft h s := by
  obtain ⟨task, x, o', hran, hpipes, hserver⟩ := ownStep_ran hown hstep
  obtain rfl := Option.some.inj (hs.found.symm.trans hran.found)
  have hsound := hs.sound.objects h o hs.found
  obtain ⟨o₀, ho₀, hpermits⟩ := hs.permits
  refine ⟨⟨o', hs.sound.step hserver, hran.now, childEnding_move hran.move hs.child,
    hs.notHeld.ran hsound hran hpipes, o₀, ho₀, ?_⟩, workLeft_lt hsound hran hpipes⟩
  rw [hran.permits_add hsound]
  exact hpermits

theorem runServer_task (task : Task) {o : ManagedProcess} (ho : s.server.manager.objects.lookup h = some o)
    (hpiece : (task.piece h o).isSome = true) : ∃ u, s.runServer (.task h task) = some u := by
  obtain ⟨m, hm⟩ := Option.isSome_iff_exists.mp hpiece
  refine ⟨{ s with server := s.server.run m }, ?_⟩
  simp [PipedServer.runServer, ProcessServer.step, ho, hm]

theorem possible_of_piece (task : Task) {o : ManagedProcess} (ho : s.server.manager.objects.lookup h = some o)
    (hpiece : (task.piece h o).isSome = true) (hown : ownStep h (.server (.task h task)) s) :
    ∃ l u, ownStep h l s ∧ PipedServer.step l s = some u := by
  obtain ⟨u, hu⟩ := runServer_task task ho hpiece
  refine ⟨.server (.task h task), u, hown, ?_⟩
  have hnot : ProcessLabel.ofPump (.task h task) = false := by
    cases task with
    | read | eof => exact hown.2.elim
    | _ => rfl
  rw [PipedServer.step, hnot]
  exact hu

theorem possible_of_pump {stream : OutputStream} {o : ManagedProcess} (ho : s.server.manager.objects.lookup h = some o)
    (hpump : (capture stream o).budget.isSome = true) (hgone : running o = false)
    (hheld : (s.pipes h stream).logOpens = true → (s.pipes h stream).held = 0) :
    ∃ l u, ownStep h l s ∧ PipedServer.step l s = some u := by
  by_cases hread : (s.pipes h stream).logOpens = true ∧ 0 < (s.pipes h stream).unread
  · obtain ⟨v, hv⟩ := runServer_task (.read stream (min (s.pipes h stream).unread pumpBufferBytes)) ho
      (by rw [Task.piece, if_pos hpump]; rfl)
    refine ⟨.read h stream (min (s.pipes h stream).unread pumpBufferBytes),
      v.putPipe h stream fun pipe =>
        { pipe with unread := pipe.unread - min (s.pipes h stream).unread pumpBufferBytes }, rfl, ?_⟩
    rw [PipedServer.step, if_pos ⟨hread.1, lt_min hread.2 (by decide), Nat.le_refl _⟩, hv]
    rfl
  · obtain ⟨u, hu⟩ := runServer_task (.eof stream) ho (by rw [Task.piece, if_pos hpump]; rfl)
    refine ⟨.finished h stream, u, rfl, ?_⟩
    rw [PipedServer.step, if_neg, hu]
    rintro ⟨hopens, hunread | hopen⟩
    · exact hread ⟨hopens, Nat.pos_of_ne_zero hunread⟩
    · rw [PipedServer.isOpen, PipedServer.childRuns, ho, Option.any_some, hgone, Bool.false_or, decide_eq_true_eq,
        hheld hopens] at hopen
      exact Nat.lt_irrefl _ hopen

theorem Ending.possible {o : ManagedProcess} (hs : Ending h s₀ s o) (hne : o.lifecycle ≠ .ended) :
    ∃ l u, ownStep h l s ∧ PipedServer.step l s = some u := by
  obtain ⟨c, hc, hend⟩ := hs.child
  -- a child that was killed and still runs exits
  have hexit : c.running = true → ∃ l u, ownStep h l s ∧ PipedServer.step l s = some u := by
    intro hruns
    have hkilled := hend.resolve_left (by rw [hruns]; decide)
    have hrunning : running o = true := by rw [running, hc]; exact hruns
    exact possible_of_piece (.exit none (some 9)) hs.found (by rw [Task.piece, if_pos hrunning]; rfl)
      ⟨rfl, o, c, hs.found, hc, hkilled⟩
  have hwaited : o.lifecycle = .waiting ∨ o.lifecycle = .reaping →
      ∃ l u, ownStep h l s ∧ PipedServer.step l s = some u := by
    intro hl
    by_cases hruns : c.running = true
    · exact hexit hruns
    · exact possible_of_piece .waited hs.found (by simp [Task.piece, hc, hl, hruns]) ⟨rfl, trivial⟩
  cases hl : o.lifecycle with
  | spawned => exact possible_of_piece .take hs.found (by rw [Task.piece, if_pos hl]; rfl) ⟨rfl, trivial⟩
  | waiting => exact hwaited (.inl hl)
  | reaping => exact hwaited (.inr hl)
  | draining result =>
    by_cases hruns : c.running = true
    · exact hexit hruns
    · have hgone : running o = false := by rw [running, hc]; exact Bool.not_eq_true _ ▸ hruns
      by_cases hpumps : ∃ stream, (capture stream o).budget.isSome = true
      · obtain ⟨stream, hpump⟩ := hpumps
        refine possible_of_pump hs.found hpump hgone ?_
        refine hs.notHeld (by rw [hl]; rfl) stream ?_
        rw [pumpLeft, hpump, Bool.or_true]
      · have hover : o.stdout.budget = none ∧ o.stderr.budget = none := by
          have hnone : ∀ stream, (capture stream o).budget = none := fun stream =>
            Option.not_isSome_iff_eq_none.mp fun hs => hpumps ⟨stream, hs⟩
          exact ⟨hnone .stdout, hnone .stderr⟩
        exact possible_of_piece .drained hs.found (by simp [Task.piece, hl, hover]) ⟨rfl, trivial⟩
  | recording status exitCode signal =>
    exact possible_of_piece .record hs.found (by simp [Task.piece, hl]) ⟨rfl, trivial⟩
  | ended => exact absurd hl hne

theorem Ending.certain {o : ManagedProcess} (hs : Ending h s₀ s o) :
    Certain PipedServer.step (ownStep h) (EndRecorded h s₀) s := by
  refine Certain.of_measure (fun s => ∃ o, Ending h s₀ s o) (workLeft h) ?_ ?_ ⟨o, hs⟩
  · rintro s ⟨o, hs⟩ hnot
    exact hs.possible fun hended => hnot (hs.endRecorded hended)
  · rintro s l u ⟨o, hs⟩ - hown hstep
    exact hs.goes hown hstep

/-! ## A pipe that is held -/

/-- The lifecycle task of process `h` waits for a pump whose pipe somebody but the child holds. -/
structure Held (h : ℕ) (stream : OutputStream) (o : ManagedProcess) (s : PipedServer) : Prop where
  sound : s.server.Sound
  found : s.server.manager.objects.lookup h = some o
  awaits : o.lifecycle.awaitsPumps = true
  left : pumpLeft o stream = true
  logOpens : (s.pipes h stream).logOpens = true
  held : (s.pipes h stream).held ≠ 0

theorem Ran.waits {task : Task} {o o' : ManagedProcess} {stream : OutputStream} {t t' : ProcessServer}
    (hran : Ran h task o o' t t') (hsound : o.Sound) (hne : task ≠ .eof stream)
    (hawaits : o.lifecycle.awaitsPumps = true) (hleft : pumpLeft o stream = true) :
    o'.lifecycle.awaitsPumps = true ∧ pumpLeft o' stream = true := by
  have hpump := hran.pumps stream
  obtain ⟨m, hm⟩ := Option.isSome_iff_exists.mp hran.piece
  have hruns := taskRuns_of_piece hm
  -- what the pieces leave alone
  have hsame : o'.lifecycle = o.lifecycle → (capture stream o').budget.isSome = (capture stream o).budget.isSome →
      o'.lifecycle.awaitsPumps = true ∧ pumpLeft o' stream = true := by
    intro hl hb
    rw [pumpLeft, hl, hb]
    exact ⟨hawaits, hleft⟩
  have honward : o.lifecycle ≠ .spawned → o'.lifecycle.awaitsPumps = true →
      (capture stream o').budget.isSome = (capture stream o).budget.isSome →
        o'.lifecycle.awaitsPumps = true ∧ pumpLeft o' stream = true := by
    intro hspawned hl hb
    rw [pumpLeft, decide_eq_false hspawned, Bool.false_or] at hleft
    refine ⟨hl, ?_⟩
    rw [pumpLeft, hb, hleft, Bool.or_true]
  cases hran.move with
  | exited child runs => exact hsame rfl hpump
  | taken was held =>
    refine ⟨rfl, ?_⟩
    rw [pumpLeft, hpump, Task.pumping, hsound.held was, Bool.true_or, Bool.or_true]
  | nothingToTake was empty =>
    rw [hsound.held was] at empty
    cases empty
  | timedOut was => exact honward (by rw [was]; nofun) rfl hpump
  | waited was child gone => exact honward (by rcases was with was | was <;> rw [was] <;> nofun) rfl hpump
  | waitFailed was => exact honward (by rcases was with was | was <;> rw [was] <;> nofun) rfl hpump
  | drained was =>
    cases hruns with
    | drained _ pumpsOver =>
      rw [pumpLeft, was, pumpsOver stream] at hleft
      cases hleft
  | recorded was =>
    rw [was] at hawaits
    cases hawaits
  | @read _ stream' bytes c => exact hsame (by cases stream' <;> rfl) hpump
  | @eof _ stream' c =>
    have hother : stream ≠ stream' := fun he => hne (he ▸ rfl)
    refine hsame (by cases stream' <;> rfl) ?_
    rw [hpump, Task.pumping, decide_eq_true hother, Bool.true_and]

theorem Held.goes {stream : OutputStream} {l : PipedLabel} {o : ManagedProcess} (hs : Held h stream o s)
    (hown : ownStep h l s) (hstep : PipedServer.step l s = some u) : ∃ o', Held h stream o' u := by
  obtain ⟨task, x, o', hran, hpipes, hserver⟩ := ownStep_ran hown hstep
  obtain rfl := Option.some.inj (hs.found.symm.trans hran.found)
  have hne : task ≠ .eof stream := fun he => hs.held (hpipes.ended stream he hs.logOpens)
  obtain ⟨hawaits, hleft⟩ := hran.waits (hs.sound.objects h o hs.found) hne hs.awaits hs.left
  refine ⟨o', hs.sound.step hserver, hran.now, hawaits, hleft, ?_, ?_⟩
  · rw [hpipes.logOpens]
    exact hs.logOpens
  · rw [hpipes.held]
    exact hs.held

theorem Held.not_certain {stream : OutputStream} {o : ManagedProcess} (hs : Held h stream o s) :
    ¬Certain PipedServer.step (ownStep h) (EndRecorded h s₀) s := by
  refine Certain.not_of_trap (fun s => ∃ o, Held h stream o s) ?_ ?_ ⟨o, hs⟩
  · rintro s ⟨o, hs⟩ ⟨-, x, -, hx, hended, -⟩
    obtain rfl := Option.some.inj (hs.found.symm.trans hx)
    have hawaits := hs.awaits
    rw [hended] at hawaits
    cases hawaits
  · rintro s l u ⟨o, hs⟩ hown hstep
    exact hs.goes hown hstep

/-! ## Every state of a server with pipes -/

namespace PipedServer

theorem step_server {l : PipedLabel} (hstep : step l s = some u) :
    u.server = s.server ∨ ∃ l', ProcessServer.step l' s.server = some u.server := by
  have hrun : ∀ {l : ProcessLabel} {v : PipedServer}, s.runServer l = some v →
      ∃ l', ProcessServer.step l' s.server = some v.server := by
    intro l v hv
    obtain ⟨t, ht, rfl⟩ := runServer_eq_some hv
    exact ⟨l, ht⟩
  cases l with
  | server l =>
    simp only [step, Option.ite_none_left_eq_some] at hstep
    exact .inr (hrun hstep.2)
  | read h stream bytes =>
    simp only [step, Option.ite_none_right_eq_some] at hstep
    obtain ⟨v, hv, rfl⟩ := Option.map_eq_some_iff.mp hstep.2
    obtain ⟨l', hl'⟩ := hrun hv
    exact .inr ⟨l', hl'⟩
  | finished h stream =>
    simp only [step, Option.ite_none_left_eq_some] at hstep
    exact .inr (hrun hstep.2)
  | readFailed h stream => exact .inr (hrun hstep)
  | written | inherited | released =>
    simp only [step, Option.ite_none_right_eq_some, Option.some.injEq] at hstep
    obtain ⟨-, rfl⟩ := hstep
    exact .inl rfl

theorem sound_of_reaches {store : ToolStore} {config : ProcessManagerConfig} {clock : ℤ} {p : Processes}
    {logOpens : ℕ → OutputStream → Bool} (hp : Processes.new store config clock = .ok p)
    (hs : Reaches step (fun _ _ => True) (start p logOpens) s) : s.server.Sound := by
  refine hs.invariant (I := fun s => s.server.Sound) (new_booted hp).sound fun l t u ht _ hstep => ?_
  rcases step_server hstep with he | ⟨l', hstep'⟩
  · rw [he]
    exact ht
  · exact ht.step hstep'

end PipedServer

/-- Once its child is gone, or has been killed, a process gets to the record of its end by steps of its own just if
nobody else holds a pipe that its lifecycle task waits for. -/
theorem end_recorded_iff {store : ToolStore} {config : ProcessManagerConfig} {clock : ℤ} {p : Processes}
    {logOpens : ℕ → OutputStream → Bool} (hp : Processes.new store config clock = .ok p)
    (hs : Reaches PipedServer.step (fun _ _ => True) (.start p logOpens) s) {o : ManagedProcess}
    (ho : s.server.manager.objects.lookup h = some o) (hchild : childEnding o) :
    Certain PipedServer.step (ownStep h) (EndRecorded h s) s ↔ NotHeld h o s := by
  have hsound := PipedServer.sound_of_reaches hp hs
  constructor
  · intro hcertain hawaits stream hleft hopens
    by_contra hheld
    exact Held.not_certain ⟨hsound, ho, hawaits, hleft, hopens, hheld⟩ hcertain
  · intro hnot
    exact Ending.certain ⟨hsound, ho, hchild, hnot, o, ho, rfl⟩

end

def sleepExits (descendants : List PipedLabel) : List PipedLabel :=
  runSleep.map .server ++ .server (.task 0 .take) :: descendants ++ [.server (.task 0 (.exit (some 0) none))]

/-- All about the object of a process that its end depends on, and the pipe of its standard output. -/
structure PipeView where
  child : Option Child
  lifecycle : Lifecycle
  pump : Bool
  pipe : Pipe
  deriving DecidableEq

def pipeView (h : ℕ) (s : PipedServer) : Option PipeView :=
  (s.server.manager.objects.lookup h).map fun o =>
    ⟨o.child, o.lifecycle, o.stdout.budget.isSome, s.pipes h .stdout⟩

def noPipes : PipedServer := .start noProcesses fun _ _ => true

theorem end_recorded_alone : ∃ (s : PipedServer) (o : ManagedProcess),
    s.server.manager.objects.lookup 0 = some o ∧ o.lifecycle = .waiting ∧
      (Certain PipedServer.step (ownStep 0) (EndRecorded 0 s) s ↔ NotHeld 0 o s) := by
  obtain ⟨s, hs, he⟩ := exists_reaches_of_runAll PipedServer.step (fun _ _ => true) (sleepExits []) (pipeView 0)
    (some ⟨some ⟨false, some 0, none, false⟩, .waiting, true, ⟨0, 0, true⟩⟩) (s := noPipes) (by decide +kernel)
  obtain ⟨o, ho, hview⟩ := Option.map_eq_some_iff.mp he
  obtain ⟨hchild, hl, -, -⟩ := PipeView.mk.inj hview
  exact ⟨s, o, ho, hl, end_recorded_iff noProcesses_new (hs.mono fun _ _ _ => trivial) ho ⟨_, hchild, .inl rfl⟩⟩

/-- A child that exits while its own child keeps its standard output. -/
theorem not_end_recorded : ¬ ∀ (store : ToolStore) (config : ProcessManagerConfig) (clock : ℤ) (p : Processes)
    (logOpens : ℕ → OutputStream → Bool) (s : PipedServer), Processes.new store config clock = .ok p →
      Reaches PipedServer.step (fun _ _ => True) (.start p logOpens) s → ∀ (h : ℕ) (o : ManagedProcess),
        s.server.manager.objects.lookup h = some o → childEnding o →
          Certain PipedServer.step (ownStep h) (EndRecorded h s) s := by
  intro hall
  obtain ⟨s, hs, he⟩ := exists_reaches_of_runAll PipedServer.step (fun _ _ => true)
    (sleepExits [.inherited 0 .stdout]) (pipeView 0)
    (some ⟨some ⟨false, some 0, none, false⟩, .waiting, true, ⟨1, 0, true⟩⟩) (s := noPipes) (by decide +kernel)
  have hreach : Reaches PipedServer.step (fun _ _ => True) (.start noProcesses fun _ _ => true) s :=
    hs.mono fun _ _ _ => trivial
  obtain ⟨o, ho, hview⟩ := Option.map_eq_some_iff.mp he
  obtain ⟨hchild, hl, hpump, hpipe⟩ := PipeView.mk.inj hview
  have hheld : Held 0 .stdout o s := by
    refine ⟨PipedServer.sound_of_reaches noProcesses_new hreach, ho, ?_, ?_, ?_, ?_⟩
    · rw [hl]
      rfl
    · rw [pumpLeft, capture, hpump, Bool.or_true]
    · rw [hpipe]
    · rw [hpipe]
      exact Nat.one_ne_zero
  exact hheld.not_certain (hall _ _ _ _ _ s noProcesses_new hreach 0 o ho ⟨_, hchild, .inl rfl⟩)

end Gooselake.Tools
