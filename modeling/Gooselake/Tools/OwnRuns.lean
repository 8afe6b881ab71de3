import Mathlib.Data.Fintype.EquivFin
import Gooselake.Tools.OwnProcesses

/-!
An operation carried out at one go is a run of the server, so that operations may come between its steps.
-/

namespace Gooselake.Tools

open Gooselake.Core Data Library Library.Exec

set_option autoImplicit false

/-! ## Pieces in a run -/

theorem erase_insert_of_notMem {calls : Table ℕ ProcessCall} {i : ℕ} (hi : i ∉ calls) (c : ProcessCall) :
    (calls.insert i c).erase i = calls := by
  have hkey : i ∉ calls.entries.keys := hi
  refine AList.ext ?_
  simp only [Table.entries_erase, AList.entries_insert, List.kerase_cons_eq, List.kerase_of_notMem_keys hkey]

theorem result_then {α β : Type} (x : ProcessM α) (f : α → β) (p : Processes) :
    (do let a ← x; return f a : ProcessM β).result p = ((x.result p).1.map f, (x.result p).2) := by
  have hafter : After (do let a ← x; return f a : ProcessM β) p
      fun r p' => (r, p') = ((x.result p).1.map f, (x.result p).2) := by
    refine after_bind (R := fun r p' => (r, p') = x.result p) ⟨rfl⟩ (fun a p' h => ?_) fun e p' h => ?_
    · exact (after_pure _ _ _).mpr (by rw [← h]; rfl)
    · rw [← h]
      rfl
  exact hafter.out

namespace ProcessServer

/-- A run of the server leads to these processes, with call `i` at this await and the other calls where they were. -/
def Comes (s : ProcessServer) (i : ℕ) (after : Option ProcessCall) (p : Processes) : Prop :=
  Reaches step (fun _ _ => True) s ⟨p, put s.calls i after⟩

variable {s : ProcessServer} {i : ℕ} {p : Processes} {α β : Type}

theorem put_erased (hi : i ∉ s.calls) : put s.calls i none = s.calls := by
  have hkey : i ∉ s.calls.entries.keys := hi
  exact AList.ext (List.kerase_of_notMem_keys hkey)

theorem put_put (hi : i ∉ s.calls) (c : ProcessCall) (after : Option ProcessCall) :
    put (put s.calls i (some c)) i after = put s.calls i after := by
  cases after with
  | none => exact (erase_insert_of_notMem hi c).trans (put_erased hi).symm
  | some c' => exact AList.insert_insert s.calls

theorem comes_start (hi : i ∉ s.calls) (op : ProcessOperation) {x : ProcessM α} {f : α → Option ProcessCall}
    (hop : op.begin = do let a ← x; return f a) :
    After x s.manager fun r p' => s.Comes i (left (r.map f)) p' := by
  refine ⟨Reaches.refl.tail (i := .start i op) trivial ?_⟩
  simp only [step, if_neg hi, settle, hop, result_then]

theorem comes_goOn (hi : i ∉ s.calls) (answer : ProcessAnswer) {c : ProcessCall} {m : ProcessM (Option ProcessCall)}
    (h : s.Comes i (some c) p) (hc : c.goOn answer = some m) (hpermit : c.needsPermit = true → p.permits ≠ 0) :
    After m p fun r p' => s.Comes i (left r) p' := by
  refine ⟨Reaches.tail (i := .goOn i answer) h trivial ?_⟩
  have hlookup : (put s.calls i (some c)).lookup i = some c := AList.lookup_insert _
  have hready : ¬ (c.needsPermit && decide (p.permits = 0)) = true := by
    rw [Bool.and_eq_true, decide_eq_true_eq]
    exact fun hp => hpermit hp.1 hp.2
  simp only [step, hlookup, Option.bind_eq_bind, Option.bind_some, hc, if_neg hready, settle, put_put hi]

theorem comes_then (hi : i ∉ s.calls) (answer : ProcessAnswer) {c : ProcessCall} {x : ProcessM α}
    {f : α → Option ProcessCall} (h : s.Comes i (some c) p) (hc : c.goOn answer = some (do let a ← x; return f a))
    (hpermit : c.needsPermit = true → p.permits ≠ 0) : After x p fun r p' => s.Comes i (left (r.map f)) p' := by
  have hout := (comes_goOn hi answer h hc hpermit).out
  rw [result_then] at hout
  exact ⟨hout⟩

def IsRun (s : ProcessServer) (m : ProcessM α) : Prop :=
  After m s.manager fun _ p' => Reaches step (fun _ _ => True) s ⟨p', s.calls⟩

theorem isRun_readOnly {m : ProcessM α} (hm : ReadOnly m) : s.IsRun m :=
  (hm s.manager).mono fun _ p' h => by rw [h]; exact .refl

theorem IsRun.map {m : ProcessM α} (h : s.IsRun m) (f : α → β) : s.IsRun (f <$> m) := by
  rw [IsRun, map_eq_pure_bind]
  exact after_bind h (fun a p' hr => (after_pure _ _ _).mpr hr) fun _ _ hr => hr

theorem exists_free (calls : Table ℕ ProcessCall) : ∃ i, i ∉ calls := by
  obtain ⟨i, hi⟩ := Infinite.exists_notMem_finset calls.keys.toFinset
  exact ⟨i, fun h => hi (List.mem_toFinset.mpr (AList.mem_keys.mp h))⟩

theorem listProcesses_isRun (caller : Option String) (includeCompleted : Bool) (order : List String) :
    s.IsRun (listProcesses caller includeCompleted order) := by
  obtain ⟨i, hi⟩ := exists_free s.calls
  have hend : ∀ {p}, s.Comes i none p → Reaches step (fun _ _ => True) s ⟨p, s.calls⟩ := fun h => put_erased hi ▸ h
  refine after_bind (comes_start hi .list (x := cleanupBegin) rfl) (fun ids p₁ h₁ => ?_) fun _ _ h => hend h
  refine after_bind (comes_then hi .lock (x := cleanupRemove ids) (f := fun _ => some .listRows) h₁ rfl
    (by simp [ProcessCall.needsPermit])) (fun _ p₂ h₂ => ?_) fun _ _ h => hend h
  simp only [after_bind_iff, after_get, after_pure]
  exact hend (comes_goOn hi .lock h₂ rfl (by simp [ProcessCall.needsPermit])).out

theorem killProcess_isRun (request : ProcessKillRequest) : s.IsRun (killProcess request) := by
  obtain ⟨i, hi⟩ := exists_free s.calls
  have hend : ∀ {p}, s.Comes i none p → Reaches step (fun _ _ => True) s ⟨p, s.calls⟩ := fun h => put_erased hi ▸ h
  have hsplit : killProcess request = (do
      let h ← processFromId request.processId
      let _ ← (do ensureOwnership (← getObject h) request.callerSessionId)
      let _ ← killFlag h
      let killed ← killChild h
      if killed then killEvent h request.reason
      return detailFromProcess (← getObject h)) := by
    simp only [killProcess, ownedProcess, bind_assoc, pure_bind]
  have hdetails : ∀ {h p}, s.Comes i (some (.killDetail h)) p → After (do return detailFromProcess (← getObject h)) p
      fun _ p' => Reaches step (fun _ _ => True) s ⟨p', s.calls⟩ := by
    intro h p hp
    have hread : ReadOnly (do return detailFromProcess (← getObject h)) := (readOnly_getObject h).bind fun o => .pure _
    refine (hread p).mono fun _ p' he => ?_
    rw [he]
    exact hend (comes_goOn hi .lock hp rfl (by simp [ProcessCall.needsPermit])).out
  rw [hsplit]
  refine after_bind (comes_start hi (.kill request) rfl) (fun h p₁ h₁ => ?_) fun _ _ h => hend h
  refine after_bind (comes_then hi .lock (f := fun _ => some (.killFlag h request)) h₁ ?_
    (by simp [ProcessCall.needsPermit])) (fun _ p₂ h₂ => ?_) fun _ _ h => hend h
  · simp only [ProcessCall.goOn, bind_assoc]
  refine after_bind (comes_then hi .lock (x := killFlag h) h₂ rfl (by simp [ProcessCall.needsPermit]))
    (fun _ p₃ h₃ => ?_) fun _ _ h => hend h
  refine after_bind (comes_then hi .lock (x := killChild h) h₃ rfl (by simp [ProcessCall.needsPermit]))
    (fun killed p₄ h₄ => ?_) fun _ _ h => hend h
  cases killed with
  | true =>
    refine after_bind (comes_then hi .lock (x := killEvent h request.reason) h₄ rfl (by simp [ProcessCall.needsPermit]))
      (fun _ p₅ h₅ => hdetails h₅) fun _ _ h => hend h
  | false => exact hdetails h₄

theorem runProcess_isRun (request : ProcessRunRequest) (spawned : Except String (Option ℤ))
    (hpermit : s.manager.permits ≠ 0) : s.IsRun (runProcess request spawned) := by
  obtain ⟨i, hi⟩ := exists_free s.calls
  have hend : ∀ {p}, s.Comes i none p → Reaches step (fun _ _ => True) s ⟨p, s.calls⟩ := fun h => put_erased hi ▸ h
  have hbegin := (comes_start hi (.run request) (x := runBegin request) rfl).and (runBegin_caller request)
  refine after_bind hbegin (fun q p₁ h₁ => ?_) fun _ _ h => hend h.1
  obtain ⟨h₁, rfl, -⟩ := h₁
  refine after_bind (comes_then hi (.spawned spawned) (x := runSpawn q spawned) h₁ rfl fun _ => hpermit)
    (fun a p₂ h₂ => ?_) fun _ _ h => hend h
  obtain ⟨record, error⟩ := a
  cases error with
  | some error =>
    have hteardown := comes_goOn hi .lock h₂ rfl (by simp [ProcessCall.needsPermit])
    simp only [after_bind_iff, after_releasePermit, after_throw] at hteardown ⊢
    exact hend hteardown
  | none =>
    refine after_bind (comes_then hi .lock (x := runInsert record) h₂ rfl (by simp [ProcessCall.needsPermit]))
      (fun _ p₃ h₃ => ?_) fun _ _ h => hend h
    refine after_bind (comes_then hi .lock (x := processFromId record.id) h₃ rfl
      (by simp [ProcessCall.needsPermit])) (fun h p₄ h₄ => ?_) fun _ _ h => hend h
    have hread : ReadOnly (do return detailFromProcess (← getObject h)) := (readOnly_getObject h).bind fun o => .pure _
    refine (hread p₄).mono fun _ p' he => ?_
    rw [he]
    exact hend h₄

theorem exec_isRun (files : String → ByteArray) {op : ProcessRequest} (hready : op.ready s.manager = true) :
    s.IsRun (op.exec files) := by
  have howned : ∀ id caller, ReadOnly (ownedProcess id caller) := fun id caller =>
    (readOnly_processFromId id).bind fun h => (readOnly_getObject h).bind fun o =>
      (readOnly_ensureOwnership o caller).bind fun _ => .pure h
  have hget : ∀ id caller, ReadOnly (getProcess id caller) := fun id caller =>
    (howned id caller).bind fun h => (readOnly_getObject h).bind fun o => .pure _
  cases op with
  | run request spawned => exact (runProcess_isRun request spawned (of_decide_eq_true hready)).map _
  | list caller includeCompleted order => exact (listProcesses_isRun caller includeCompleted order).map _
  | get id caller => exact (isRun_readOnly (hget id caller)).map _
  | getByPid pid caller order =>
    have hpid : ReadOnly (processIdFromPid order pid) := .bind .get fun _ => .bind (.orThrow _ _) fun _ => .pure _
    exact (isRun_readOnly (hpid.bind fun id => hget id caller)).map _
  | logs request maxBytes =>
    have hlogs : ReadOnly (readProcessLogs files request maxBytes) := (readOnly_processFromId _).bind fun h =>
      (readOnly_getObject h).bind fun o => (readOnly_ensureOwnership o _).bind fun _ =>
        (ReadOnly.ofExcept _).bind fun _ => .pure _
    exact (isRun_readOnly hlogs).map _
  | kill request => exact (killProcess_isRun request).map _
  | replay id caller afterSeq limit =>
      exact (isRun_readOnly ((howned id caller).bind fun _ => .bind .get fun _ => .pure _)).map _

/-! ## What holds in every state -/

structure Lawful (s : ProcessServer) : Prop where
  sound : s.Sound
  listed : s.Listed
  indexed : Indexed s.manager

theorem counter_le {l : ProcessLabel} {s s' : ProcessServer} (h : step l s = some s') :
    s.manager.nextProcessId ≤ s'.manager.nextProcessId := by
  cases step_books h with
  | @call l i before after p' was permit move =>
    cases move with
    | quiet books same hwas hnow => exact (congrArg Books.nextProcessId books :).ge
    | tornDown same books => exact (congrArg Books.nextProcessId books :).ge
    | inserted objects nextObject books hnow => exact (congrArg Books.nextProcessId books :).ge
    | spawnFailed same books => exact (Nat.le_succ _).trans (congrArg Books.nextProcessId books :).ge
    | unstored same books => exact (Nat.le_succ _).trans (congrArg Books.nextProcessId books :).ge
    | stored record started same books => exact (Nat.le_succ _).trans (congrArg Books.nextProcessId books :).ge
  | @task h task o o' p' found move keeps books =>
    refine (((congrArg Books.nextProcessId books :).trans ?_).ge : s.manager.nextProcessId ≤ p'.nextProcessId)
    cases task with
    | take => simp only [Task.books]; split <;> rfl
    | _ => rfl
  | ticked => exact le_rfl

theorem Lawful.reaches {P : ProcessLabel → ProcessServer → Prop} {s t : ProcessServer} (hs : s.Lawful)
    (h : Reaches step P s t) (hcount : t.manager.nextProcessId < 2 ^ 64) : t.Lawful := by
  induction h with
  | refl => exact hs
  | tail _ _ hstep ih =>
    have hprev := (counter_le hstep).trans_lt hcount
    have hlaw := ih hprev
    exact ⟨hlaw.sound.step hstep, (hlaw.listed.step hlaw.sound hprev hstep).1, hlaw.indexed.step hstep⟩

theorem Lawful.orderly {s : ProcessServer} (h : s.Lawful) (hcount : s.manager.nextProcessId < 2 ^ 64) :
    Orderly s.manager :=
  ⟨h.indexed, h.listed.objects, h.listed.fresh hcount⟩

end ProcessServer

/-! ## Sessions at work -/

/-- The server takes a step, or a whole operation is carried out; `files` is what the log directory holds then. -/
inductive SessionLabel where
  | serve (l : ProcessLabel)
  | operate (files : String → ByteArray) (op : ProcessRequest)

def sessionStep : SessionLabel → ProcessServer → Option ProcessServer
  | .serve l, s => ProcessServer.step l s
  | .operate files op, s =>
    if op.ready s.manager then some { s with manager := ((op.exec files).result s.manager).2 } else none

theorem sessionStep_reaches {l : SessionLabel} {s s' : ProcessServer} (h : sessionStep l s = some s') :
    Reaches ProcessServer.step (fun _ _ => True) s s' := by
  cases l with
  | serve l => exact Reaches.refl.tail trivial h
  | operate files op =>
    simp only [sessionStep, Option.ite_none_right_eq_some, Option.some.injEq] at h
    obtain ⟨hready, rfl⟩ := h
    exact (ProcessServer.exec_isRun files hready).out

theorem reaches_of_sessions {s t : ProcessServer} (h : Reaches sessionStep (fun _ _ => True) s t) :
    Reaches ProcessServer.step (fun _ _ => True) s t := by
  induction h with
  | refl => exact .refl
  | tail _ _ hstep ih => exact ih.trans (sessionStep_reaches hstep)

/-- Whatever sessions and tasks have done before, in whatever order, an operation with the caller session `session`, made
directly or through a process tool, is confined to the processes of that session; but a listing drops processes of any
session whose retention time is over from the map. -/
theorem session_tools_isolated {store : ToolStore} {config : ProcessManagerConfig} {clock : ℤ} {p : Processes}
    {x : ProcessServer} (hrows : (rowIds store).Nodup) (hp : Processes.new store config clock = .ok p)
    (hx : Reaches sessionStep (fun _ _ => True) (.start p) x) (hcount : x.manager.nextProcessId < 2 ^ 64)
    (files : String → ByteArray) :
    (∀ session op, op.caller = some session → Isolated files x.manager session (op.drops x.manager) op) ∧
      ∀ request call order spawned, readProcessTool request = .ok call → ∃ op,
        call.processRequest order spawned = some op ∧
          Isolated files x.manager request.callerSessionId (op.drops x.manager) op := by
  have hbooted := new_booted hp
  have hstart : (ProcessServer.start p).Lawful := ⟨hbooted.sound, hbooted.listed hrows, indexed_new hp⟩
  have horderly := (hstart.reaches (reaches_of_sessions hx) hcount).orderly hcount
  have hisolated : ∀ session op, op.caller = some session →
      Isolated files x.manager session (op.drops x.manager) op := by
    intro session op hop
    obtain ⟨hkept, hreply⟩ := (exec_confined files horderly hop).out
    refine ⟨hreply, hkept, fun h o hnames ho hother => ?_⟩
    obtain ⟨hsame, e, he⟩ := (exec_refused files hop hnames ho hother).out
    exact ⟨e, Prod.ext he hsame⟩
  refine ⟨hisolated, fun request call order spawned hcall => ?_⟩
  obtain ⟨op, hop, hcaller⟩ := processRequest_caller hcall order spawned
  exact ⟨op, hop, hisolated _ op hcaller⟩

/-! ## A listing of another session -/

def noFiles : String → ByteArray := fun _ => ByteArray.empty

def firstSession : List SessionLabel :=
  .operate noFiles (.run ⟨some "session_1", none, "true", none, none⟩ (.ok (some 7))) ::
    (ProcessHost.sleepOver ++ [ProcessLabel.tick 5000]).map .serve

def shortRetention : ProcessManagerConfig := ⟨true, 4, 60000, 65536, 1000, 4096, "logs"⟩

def listingOfSecond : ProcessRequest := .list (some "session_2") true []

def killOfSecond : ProcessRequest := .kill ⟨"proc_1", some "session_2", none⟩

theorem shortRetention_new : ∃ p, Processes.new (ToolStore.empty []) shortRetention 0 = .ok p ∧
    p = { noProcesses with config := shortRetention } :=
  ⟨_, rfl, rfl⟩

theorem session_tools_isolated_kill : ∃ x : ProcessServer, (x.manager.objects.lookup 0).map (·.record.sessionId) =
    some (some "session_1") ∧ Isolated noFiles x.manager "session_2" (killOfSecond.drops x.manager) killOfSecond := by
  obtain ⟨x, hx, he⟩ := exists_reaches_of_runAll sessionStep (fun _ _ => true) firstSession
    (fun x => ((x.manager.objects.lookup 0).map (·.record.sessionId), x.manager.nextProcessId))
    (some (some "session_1"), 2) (s := .start noProcesses) (by decide +kernel)
  obtain ⟨hsession, hnext⟩ := Prod.mk.inj he
  have hrows : (rowIds noProcesses.store).Nodup := List.nodup_nil
  exact ⟨x, hsession, (session_tools_isolated hrows noProcesses_new
    (hx.mono fun _ _ _ => trivial) (by rw [hnext]; decide) noFiles).1 "session_2" killOfSecond rfl⟩

/-- The listing of one session drops a process of another from the map. -/
theorem not_session_tools_isolated : ¬ ∀ (store : ToolStore) (config : ProcessManagerConfig) (clock : ℤ) (p : Processes)
    (x : ProcessServer) (files : String → ByteArray) (session : String) (op : ProcessRequest), (rowIds store).Nodup →
      Processes.new store config clock = .ok p → Reaches sessionStep (fun _ _ => True) (.start p) x →
        x.manager.nextProcessId < 2 ^ 64 → op.caller = some session →
          Isolated files x.manager session (fun _ => False) op := by
  intro hall
  obtain ⟨p, hp, he⟩ := shortRetention_new
  obtain ⟨x, hx, hview⟩ := exists_reaches_of_runAll sessionStep (fun _ _ => true) firstSession
    (fun x => ((x.manager.objects.lookup 0).map (·.record.sessionId), x.manager.nextProcessId,
      x.manager.processes.lookup "proc_1",
      ((listingOfSecond.exec noFiles).result x.manager).2.processes.lookup "proc_1"))
    (some (some "session_1"), 2, some 0, none) (s := .start { noProcesses with config := shortRetention })
    (by decide +kernel)
  obtain ⟨hsession, hview⟩ := Prod.mk.inj hview
  obtain ⟨hnext, hview⟩ := Prod.mk.inj hview
  obtain ⟨hbefore, hafter⟩ := Prod.mk.inj hview
  obtain ⟨o, ho, hown⟩ := Option.map_eq_some_iff.mp hsession
  have hisolated := hall (ToolStore.empty []) shortRetention 0 p x noFiles "session_2" listingOfSecond List.nodup_nil hp
    (he ▸ hx.mono fun _ _ _ => trivial) (by rw [hnext]; decide) rfl
  rcases hisolated.kept.entries "proc_1" 0 o hbefore ho (by rw [hown]; decide) with h | h
  · rw [hafter] at h
    cases h
  · exact h

end Gooselake.Tools
