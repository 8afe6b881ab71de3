import Gooselake.Library.Index
import Gooselake.Tools.SessionTools
import Gooselake.Tools.ToolLanguage

/-!
A status that names a pid: the manager goes through the map of all processes, in no particular order, takes the first
with the pid, and asks only then whose it is. When the caller gets its running process.
-/

namespace Gooselake.Tools

open Gooselake.Core Data Library Library.Exec

set_option autoImplicit false

/-! ## The tool -/

def toolAnswer : Except RuntimeError ProcessReply → Except TeamToolFailure ProcessReply
  | .ok reply => .ok reply
  | .error e => .error ⟨"tool_failed", e.display⟩

theorem toolAnswer_ok_iff (answer : Except RuntimeError ProcessReply) (reply : ProcessReply) :
    toolAnswer answer = .ok reply ↔ answer = .ok reply := by
  cases answer <;> simp [toolAnswer]

def invokeProcessTool (files : String → ByteArray) (order : List String) (spawned : Except String (Option ℤ))
    (request : ToolInvokeRequest) : ProcessM (Except TeamToolFailure ProcessReply) :=
  match readProcessTool request with
  | .error failure => return .error failure
  | .ok call =>
    match call.processRequest order spawned with
    | none => return .error (unsupportedProcessTool (trim request.toolName))
    | some op => toolAnswer <$> attempt (op.exec files)

/-- The request asks for the status of a process by its pid. -/
def NamesPid (request : ToolInvokeRequest) (pid : ℤ) : Prop :=
  readProcessTool request = .ok (.getProcess (.pid pid) request.callerSessionId)

/-- In whatever order the map is gone through, the tool answers with the details of a process and changes nothing. -/
def AnswersWith (p : Processes) (request : ToolInvokeRequest) (o : ManagedProcess) : Prop :=
  ∀ files order spawned, order.Perm p.processes.keys →
    (invokeProcessTool files order spawned request).result p = (.ok (.ok (.details (detailFromProcess o))), p)

/-- The session has a running process with the pid. -/
structure RunsWithPid (p : Processes) (session : String) (pid : ℤ) (h : ℕ) (o : ManagedProcess) : Prop where
  found : HasPid p pid h o
  owner : o.record.sessionId = some session
  runs : o.record.status = .running

/-! ## The search -/

def withPid (p : Processes) (pid : ℤ) (id : String) : Option ManagedProcess :=
  ((p.processes.lookup id).bind p.objects.lookup).filter fun o => o.record.pid = some pid

theorem withPid_iff (p : Processes) (pid : ℤ) (id : String) (o : ManagedProcess) :
    withPid p pid id = some o ↔ ∃ h, p.processes.lookup id = some h ∧ p.objects.lookup h = some o ∧
      o.record.pid = some pid := by
  simp only [withPid, Option.filter_eq_some_iff, Option.bind_eq_some_iff, decide_eq_true_eq]
  constructor
  · rintro ⟨⟨h, hid, ho⟩, hpid⟩
    exact ⟨h, hid, ho, hpid⟩
  · rintro ⟨h, hid, ho, hpid⟩
    exact ⟨⟨h, hid, ho⟩, hpid⟩

theorem firstWithPid_all_orders_iff {p : Processes} (hp : Indexed p) {pid : ℤ} {h : ℕ} {o : ManagedProcess}
    (ho : HasPid p pid h o) :
    (∀ order, order.Perm p.processes.keys → firstWithPid p order pid = some o) ↔
      ∀ h' o', HasPid p pid h' o' → h' = h := by
  have hid : p.processes.lookup o.record.id = some h := hp.lookup_id ho
  have hsearch := findSome?_all_orders_iff p.processes.keys (withPid p pid) o
  refine Iff.trans hsearch ⟨?_, ?_⟩
  · rintro ⟨-, hall⟩ h' o' ho'
    have hid' : p.processes.lookup o'.record.id = some h' := hp.lookup_id ho'
    have hwith : withPid p pid o'.record.id = some o' := (withPid_iff p pid _ o').mpr ⟨h', hid', ho'.2⟩
    obtain rfl := hall _ (AList.mem_keys.mp (Table.lookup_isSome hid')) o' hwith
    exact Option.some.inj (hid'.symm.trans hid)
  · intro hall
    refine ⟨⟨o.record.id, AList.mem_keys.mp (Table.lookup_isSome hid), ?_⟩, fun id _ o' hwith => ?_⟩
    · exact (withPid_iff p pid _ o).mpr ⟨h, hid, ho.2⟩
    · obtain ⟨h', hid', ho', hpid'⟩ := (withPid_iff p pid id o').mp hwith
      obtain rfl := hall h' o' ⟨⟨id, hid'⟩, ho', hpid'⟩
      exact Option.some.inj (ho'.symm.trans ho.2.1)

/-! ## The answer -/

def othersProcess (o : ManagedProcess) : RuntimeError :=
  .invalidState s!"process {o.record.id} belongs to a different session"

theorem getProcess_result {p : Processes} {id session : String} {h : ℕ} {o : ManagedProcess}
    (hid : p.processes.lookup id = some h) (ho : p.objects.lookup h = some o) :
    (getProcess id (some session)).result p =
      (if o.record.sessionId = some session then .ok (detailFromProcess o) else .error (othersProcess o), p) := by
  have hafter : After (getProcess id (some session)) p fun r p' =>
      (r, p') = (if o.record.sessionId = some session then .ok (detailFromProcess o)
        else .error (othersProcess o), p) := by
    simp only [getProcess, ownedProcess, processFromId, ensureOwnership, after_bind_iff, after_get, after_orThrow,
      after_getObject, hid]
    by_cases howner : o.record.sessionId = some session
    · simp [howner, ho]
    · simp [howner, ho, othersProcess]
  exact hafter.out

theorem getProcessByPid_result {p : Processes} (hp : Indexed p) {pid : ℤ} {order : List String}
    {h : ℕ} {o : ManagedProcess} (ho : HasPid p pid h o) (hfirst : firstWithPid p order pid = some o)
    (session : String) :
    (getProcessByPid pid (some session) order).result p =
      (if o.record.sessionId = some session then .ok (detailFromProcess o) else .error (othersProcess o), p) := by
  have hafter : After (getProcessByPid pid (some session) order) p fun r p' =>
      (r, p') = (if o.record.sessionId = some session then .ok (detailFromProcess o)
        else .error (othersProcess o), p) := by
    rw [getProcessByPid, after_bind_iff, after_iff, processIdFromPid_result hfirst]
    exact after_iff.mpr (getProcess_result (hp.lookup_id ho) ho.2.1)
  exact hafter.out

theorem invokeProcessTool_byPid {p : Processes} {request : ToolInvokeRequest} {pid : ℤ} (hread : NamesPid request pid)
    (files : String → ByteArray) (order : List String) (spawned : Except String (Option ℤ))
    {answer : Except RuntimeError ProcessDetails}
    (hanswer : (getProcessByPid pid (some request.callerSessionId) order).result p = (answer, p)) :
    (invokeProcessTool files order spawned request).result p = (.ok (toolAnswer (answer.map .details)), p) := by
  have hread' : readProcessTool request = .ok (.getProcess (.pid pid) request.callerSessionId) := hread
  have hafter : After (invokeProcessTool files order spawned request) p fun r p' =>
      (r, p') = (.ok (toolAnswer (answer.map .details)), p) := by
    simp only [invokeProcessTool, hread', ToolCall.processRequest, ProcessRequest.exec, map_eq_pure_bind,
      after_bind_iff, after_attempt]
    rw [after_iff, hanswer]
    cases answer with
    | ok d => simp [Except.map]
    | error e => simp [Except.map]
  exact hafter.out

theorem answersWith_iff {p : Processes} (hp : Indexed p) {request : ToolInvokeRequest} {pid : ℤ}
    (hread : NamesPid request pid) {h : ℕ} {o : ManagedProcess} (ho : HasPid p pid h o)
    (howner : o.record.sessionId = some request.callerSessionId) :
    AnswersWith p request o ↔ ∀ order, order.Perm p.processes.keys → firstWithPid p order pid = some o := by
  constructor
  · intro hall order horder
    obtain ⟨h', o', ho', hfirst⟩ := firstWithPid_some horder ho
    have hresult := invokeProcessTool_byPid hread (fun _ => .empty) order (.ok none)
      (getProcessByPid_result hp ho' hfirst _)
    rw [hall _ order (.ok none) horder, Prod.mk.injEq, Except.ok.injEq, eq_comm, toolAnswer_ok_iff] at hresult
    by_cases howner' : o'.record.sessionId = some request.callerSessionId
    · rw [if_pos howner'] at hresult
      have hid : o'.record.id = o.record.id := by
        have hdetails := ProcessReply.details.inj (Except.ok.inj hresult.1)
        exact congrArg (fun d => d.process.processId) hdetails
      have hlookup := hp.lookup_id ho'
      rw [hid, hp.lookup_id ho] at hlookup
      obtain rfl := Option.some.inj hlookup
      rw [hfirst, ← ho.2.1, ho'.2.1]
    · rw [if_neg howner'] at hresult
      cases hresult.1
  · intro hall files order spawned horder
    have hresult := getProcessByPid_result hp ho (hall order horder) (request.callerSessionId)
    rw [if_pos howner] at hresult
    exact invokeProcessTool_byPid hread files order spawned hresult

/-! ## A pid names the caller's running process -/

/-- The caller gets its running process by the pid, whatever the order of the map, exactly when no other process in the
map, of whatever session and status, has the pid. -/
theorem pid_names_running {store : ToolStore} {config : ProcessManagerConfig} {clock : ℤ} {p : Processes}
    {s : ProcessServer} (hp : Processes.new store config clock = .ok p)
    (hs : Reaches ProcessServer.step (fun _ _ => True) (.start p) s) {request : ToolInvokeRequest} {pid : ℤ}
    (hread : NamesPid request pid) {h : ℕ} {o : ManagedProcess}
    (ho : RunsWithPid s.manager request.callerSessionId pid h o) :
    AnswersWith s.manager request o ↔ ∀ h' o', HasPid s.manager pid h' o' → h' = h := by
  have hm : Indexed s.manager := indexed_reaches hp hs
  exact (answersWith_iff hm hread ho.found ho.owner).trans (firstWithPid_all_orders_iff hm ho.found)

def statusOfSeven : ToolInvokeRequest where
  callerSessionId := "session_1"
  invocationId := none
  «namespace» := none
  toolName := "gg_process_status"
  args := .obj [("pid", .int 7)]

theorem namesPid_seven : NamesPid statusOfSeven 7 := by
  rfl

/-- Session 2 runs a process that gets the pid 7 and exits; then session 1 runs one that gets the pid again. -/
def reusePid : List ProcessLabel :=
  [.start 0 (.run ⟨some "session_2", none, "true", none, none⟩), .goOn 0 (.spawned (.ok (some 7))), .goOn 0 .lock,
    .goOn 0 .lock, .task 0 .take] ++ endSleep (some 0) none ++
    [.start 1 (.run ⟨some "session_1", none, "sleep 60", none, none⟩), .goOn 1 (.spawned (.ok (some 7))),
      .goOn 1 .lock, .goOn 1 .lock]

/-- What the map holds under an id, and the session, the pid and the status of the process. -/
structure PidView where
  number : Option ℕ
  session : Option String
  pid : Option ℤ
  status : Option ProcessStatus
  deriving DecidableEq

def pidView (id : String) (h : ℕ) (s : ProcessServer) : PidView where
  number := s.manager.processes.lookup id
  session := (s.manager.objects.lookup h).bind fun o => o.record.sessionId
  pid := (s.manager.objects.lookup h).bind fun o => o.record.pid
  status := (s.manager.objects.lookup h).map fun o => o.record.status

theorem exists_pidView {id session : String} {h : ℕ} {pid : ℤ} {status : ProcessStatus} {s : ProcessServer}
    (hview : pidView id h s = ⟨some h, some session, some pid, some status⟩) :
    ∃ o, HasPid s.manager pid h o ∧ o.record.sessionId = some session ∧ o.record.status = status := by
  obtain ⟨hid, howner, hpid, hstatus⟩ := PidView.mk.inj hview
  obtain ⟨o, ho, hstatus⟩ := Option.map_eq_some_iff.mp hstatus
  rw [ho, Option.bind_some] at howner hpid
  exact ⟨o, ⟨⟨id, hid⟩, ho, hpid⟩, howner, hstatus⟩

/-- Session 2 runs a process with the pid 8, then session 1 one with the pid 7. -/
def twoPids : List ProcessLabel :=
  [.start 0 (.run ⟨some "session_2", none, "true", none, none⟩), .goOn 0 (.spawned (.ok (some 8))), .goOn 0 .lock,
    .goOn 0 .lock, .start 1 (.run ⟨some "session_1", none, "sleep 60", none, none⟩),
    .goOn 1 (.spawned (.ok (some 7))), .goOn 1 .lock, .goOn 1 .lock]

/-- The process is found by its pid, as the other one has another. -/
theorem pid_names_running_alone : ∃ (s : ProcessServer) (o : ManagedProcess),
    RunsWithPid s.manager "session_1" 7 1 o ∧ AnswersWith s.manager statusOfSeven o := by
  obtain ⟨s, hs, he⟩ := exists_reaches_of_runAll ProcessServer.step (fun _ _ => true) twoPids
    (fun s => (s.manager.processes.keys, pidView "proc_1" 0 s, pidView "proc_2" 1 s))
    (["proc_2", "proc_1"], ⟨some 0, some "session_2", some 8, some .running⟩,
      ⟨some 1, some "session_1", some 7, some .running⟩) (s := .start noProcesses) (by decide +kernel)
  obtain ⟨hkeys, hviews⟩ := Prod.mk.inj he
  obtain ⟨hother, hview⟩ := Prod.mk.inj hviews
  obtain ⟨o₀, ⟨-, ho₀, hpid₀⟩, -, -⟩ := exists_pidView hother
  obtain ⟨o, ho, howner, hruns⟩ := exists_pidView hview
  have hrun : RunsWithPid s.manager "session_1" 7 1 o := ⟨ho, howner, hruns⟩
  have halone : ∀ h' o', HasPid s.manager 7 h' o' → h' = 1 := by
    rintro h' o' ⟨⟨id, hid⟩, ho', hpid⟩
    have hmem : id ∈ s.manager.processes.keys := AList.mem_keys.mp (Table.lookup_isSome hid)
    rw [hkeys, List.mem_cons, List.mem_singleton] at hmem
    rcases hmem with rfl | rfl
    · exact Option.some.inj (hid.symm.trans (PidView.mk.inj hview).1)
    · obtain rfl : h' = 0 := Option.some.inj (hid.symm.trans (PidView.mk.inj hother).1)
      obtain rfl := Option.some.inj (ho'.symm.trans ho₀)
      exact absurd (hpid.symm.trans hpid₀) (by decide)
  exact ⟨s, o, hrun, (pid_names_running noProcesses_new (hs.mono fun _ _ _ => trivial) namesPid_seven hrun).mpr halone⟩

/-- After the pid was used again, the caller may get the error about the process that had it before. -/
theorem not_pid_names_running : ¬ ∀ (store : ToolStore) (config : ProcessManagerConfig) (clock : ℤ) (p : Processes)
    (s : ProcessServer), Processes.new store config clock = .ok p →
      Reaches ProcessServer.step (fun _ _ => True) (.start p) s →
        ∀ (request : ToolInvokeRequest) (pid : ℤ) (h : ℕ) (o : ManagedProcess), NamesPid request pid →
          RunsWithPid s.manager request.callerSessionId pid h o → AnswersWith s.manager request o := by
  intro hall
  obtain ⟨s, hs, he⟩ := exists_reaches_of_runAll ProcessServer.step (fun _ _ => true) reusePid
    (fun s => (pidView "proc_1" 0 s, pidView "proc_2" 1 s))
    (⟨some 0, some "session_2", some 7, some .completed⟩, ⟨some 1, some "session_1", some 7, some .running⟩)
    (s := .start noProcesses) (by decide +kernel)
  have hreaches := hs.mono fun _ _ _ => trivial
  obtain ⟨hold, hnew⟩ := Prod.mk.inj he
  obtain ⟨o₀, ho₀, -, -⟩ := exists_pidView hold
  obtain ⟨o, ho, howner, hruns⟩ := exists_pidView hnew
  have hm : Indexed s.manager := indexed_reaches noProcesses_new hreaches
  have hanswers := hall _ _ _ _ s noProcesses_new hreaches statusOfSeven 7 1 o namesPid_seven ⟨ho, howner, hruns⟩
  have hfirst := (answersWith_iff hm namesPid_seven ho howner).mp hanswers
  have hsame : 0 = 1 := (firstWithPid_all_orders_iff hm ho).mp hfirst 0 o₀ ho₀
  omega

end Gooselake.Tools
