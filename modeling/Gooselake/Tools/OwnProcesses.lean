import Gooselake.Tools.ProcessTable
import Gooselake.Tools.SessionTools

/-!
A session that works with the process manager sees its own processes and touches no others.
-/

namespace Gooselake.Tools

open Gooselake.Core Data Library Library.Exec

set_option autoImplicit false

/-! ## What concerns a session -/

/-- Process `h` belongs to the session. -/
def Owns (p : Processes) (session : String) (h : ℕ) (o : ManagedProcess) : Prop :=
  p.objects.lookup h = some o ∧ o.record.sessionId = some session

def ProcessReply.Concerns (files : String → ByteArray) (p : Processes) (session : String) : ProcessReply → Prop
  | .details d => ∃ h o, Owns p session h o ∧ d = detailFromProcess o
  | .summaries rows => ∀ row ∈ rows, ∃ h o, Owns p session h o ∧ row = summaryOf o.record
  | .chunks rows => ∃ h o, Owns p session h o ∧
      ∃ request maxBytes streams, rows = logsOf files request maxBytes o streams
  | .events log => ∃ h o, Owns p session h o ∧ ∀ e ∈ log, e.scope = .process ∧ e.scopeId = o.record.id

/-- What other sessions have stays: processes with their flags, rows, entries of the map other than those in `gone`; the
events that are new are about the session. -/
structure Kept (session : String) (gone : String → Prop) (p p' : Processes) : Prop where
  objects : ∀ h o, p.objects.lookup h = some o → o.record.sessionId ≠ some session → p'.objects.lookup h = some o
  rows : ∀ r ∈ p.store.processes, r.sessionId ≠ some session → r ∈ p'.store.processes
  entries : ∀ id h o, p.processes.lookup id = some h → p.objects.lookup h = some o →
    o.record.sessionId ≠ some session → p'.processes.lookup id = some h ∨ gone id
  events : ∃ new, p'.store.base.events = p.store.base.events ++ new ∧ ∀ e ∈ new, e.sessionId = some session

/-- What an operation of the session may do: answer with what concerns it, and leave the others alone. An operation that
names a process of another session fails and changes nothing. -/
structure Isolated (files : String → ByteArray) (p : Processes) (session : String) (gone : String → Prop)
    (op : ProcessRequest) : Prop where
  reply : ∀ reply, ((op.exec files).result p).1 = .ok reply → reply.Concerns files ((op.exec files).result p).2 session
  kept : Kept session gone p ((op.exec files).result p).2
  refused : ∀ h o, op.names p = some h → p.objects.lookup h = some o → o.record.sessionId ≠ some session →
    ∃ e, (op.exec files).result p = (.error e, p)

/-- The processes that a listing drops from the map: they are over, and their retention time is too. -/
def ProcessRequest.drops (p : Processes) : ProcessRequest → String → Prop
  | .list _ _ _, id => p.config.completedRetentionMs ≠ 0 ∧ id ∈ expired p
  | _, _ => False

structure Orderly (p : Processes) : Prop where
  indexed : Indexed p
  listed : ∀ h o, p.objects.lookup h = some o → o.record.id ∈ rowIds p.store
  fresh : processId p.nextProcessId ∉ rowIds p.store

/-! ## Keeping what others have -/

section

variable {session : String} {gone : String → Prop} {p p' p'' : Processes}

theorem Kept.same (hobjects : p'.objects = p.objects) (hrows : p'.store.processes = p.store.processes)
    (hprocesses : p'.processes = p.processes)
    (hevents : ∃ new, p'.store.base.events = p.store.base.events ++ new ∧ ∀ e ∈ new, e.sessionId = some session) :
    Kept session gone p p' where
  objects h o ho _ := by rw [hobjects]; exact ho
  rows r hr _ := by rw [hrows]; exact hr
  entries id h o hid _ _ := .inl (by rw [hprocesses]; exact hid)
  events := hevents

theorem Kept.refl (p : Processes) : Kept session gone p p :=
  .same rfl rfl rfl ⟨[], (List.append_nil _).symm, fun _ he => by cases he⟩

theorem Kept.trans (h : Kept session gone p p') (h' : Kept session gone p' p'') : Kept session gone p p'' where
  objects n o ho hne := h'.objects n o (h.objects n o ho hne) hne
  rows r hr hne := h'.rows r (h.rows r hr hne) hne
  entries id n o hid ho hne := by
    rcases h.entries id n o hid ho hne with hid' | hgone
    · exact h'.entries id n o hid' (h.objects n o ho hne) hne
    · exact .inr hgone
  events := by
    obtain ⟨new, hnew, hown⟩ := h.events
    obtain ⟨new', hnew', hown'⟩ := h'.events
    refine ⟨new ++ new', by rw [hnew', hnew, List.append_assoc], fun e he => ?_⟩
    rcases List.mem_append.mp he with he | he
    · exact hown e he
    · exact hown' e he

theorem Kept.update {h : ℕ} {o : ManagedProcess} (ho : Owns p session h o) (f : ManagedProcess → ManagedProcess) :
    Kept session gone p { p with objects := p.objects.update h f } where
  objects n x hx hne := by
    rw [Table.lookup_update, if_neg]
    · exact hx
    · rintro rfl
      obtain rfl := Option.some.inj (ho.1.symm.trans hx)
      exact hne ho.2
  rows r hr _ := hr
  entries id n x hid _ _ := .inl hid
  events := ⟨[], (List.append_nil _).symm, fun _ he => by cases he⟩

theorem appendProcessEvent_kept (id : String) (kind : String) (criticality : RuntimeEventCriticality) (payload : Json) :
    After (appendProcessEvent id (some session) kind criticality payload) p fun r p' =>
      r = .ok () ∧ Kept session gone p p' ∧ p'.objects = p.objects ∧ p'.processes = p.processes := by
  simp only [appendProcessEvent, after_bind_iff, after_get, after_modify, after_attempt, after_onProcessStore]
  have hevents : ∀ event : NewRuntimeEvent, event.sessionId = some session →
      ∃ new, (ToolStore.appendRuntimeEvent event p.store).2.base.events = p.store.base.events ++ new ∧
        ∀ e ∈ new, e.sessionId = some session := by
    intro event hsession
    rcases appendRuntimeEvent_cases event p.store.base with ⟨he, -⟩ | ⟨-, -, he⟩
    · exact ⟨[], he.trans (List.append_nil _).symm, fun _ he => by cases he⟩
    · refine ⟨_, he, fun e hmem => ?_⟩
      obtain rfl := List.mem_singleton.mp hmem
      exact hsession
  split
  · exact (after_modify _ _ _).mpr ⟨rfl, .same rfl rfl rfl (hevents _ rfl), rfl, rfl⟩
  · exact (after_pure _ _ _).mpr ⟨rfl, .same rfl rfl rfl (hevents _ rfl), rfl, rfl⟩

end

/-! ## Processes of the caller -/

section

variable {p : Processes}

theorem ownedProcess_spec (id : String) (session : String) :
    After (ownedProcess id (some session)) p fun r p' =>
      p' = p ∧ ∀ h, r = .ok h → p.processes.lookup id = some h ∧ ∃ o, Owns p session h o := by
  simp only [ownedProcess, processFromId, after_bind_iff, after_get, after_orThrow, after_getObject]
  refine ⟨fun h hid => ⟨fun o ho => ?_, fun _ => ⟨trivial, fun _ hr => by cases hr⟩⟩,
    fun _ => ⟨trivial, fun _ hr => by cases hr⟩⟩
  simp only [ensureOwnership]
  split
  · next hown =>
    simp only [after_pure, true_and]
    intro h' hr
    obtain rfl := Except.ok.inj hr
    exact ⟨hid, o, ho, hown⟩
  · simp only [after_throw, true_and]
    intro h' hr
    cases hr

def Refused {α : Type} (p : Processes) (m : ProcessM α) : Prop := After m p fun r p' => p' = p ∧ ∃ e, r = .error e

theorem ownedProcess_refused {id : String} {session : String} {h : ℕ} {o : ManagedProcess}
    (hid : p.processes.lookup id = some h) (ho : p.objects.lookup h = some o)
    (hother : o.record.sessionId ≠ some session) : Refused p (ownedProcess id (some session)) := by
  refine (ownedProcess_spec id session).mono fun r p' hr => ⟨hr.1, ?_⟩
  cases r with
  | error e => exact ⟨e, rfl⟩
  | ok h' =>
    obtain ⟨hid', o', hown⟩ := hr.2 h' rfl
    obtain rfl := Option.some.inj (hid.symm.trans hid')
    obtain rfl := Option.some.inj (ho.symm.trans hown.1)
    exact absurd hown.2 hother

end

/-! ## Operations one by one -/

section

variable {p : Processes} {session : String} {gone : String → Prop} {α β : Type}

def Confined (p : Processes) (session : String) (gone : String → Prop) (about : α → Processes → Prop)
    (m : ProcessM α) : Prop :=
  After m p fun r p' => Kept session gone p p' ∧ ∀ a, r = .ok a → about a p'

theorem Refused.bind {m : ProcessM α} (h : Refused p m) (f : α → ProcessM β) : Refused p (m >>= f) :=
  after_bind h (fun a p' hr => by obtain ⟨e, he⟩ := hr.2; cases he) fun e p' hr => ⟨hr.1, e, rfl⟩

theorem Confined.map {about : α → Processes → Prop} {about' : β → Processes → Prop} {m : ProcessM α}
    (h : Confined p session gone about m) (f : α → β) (hf : ∀ a p', about a p' → about' (f a) p') :
    Confined p session gone about' (f <$> m) := by
  rw [Confined, map_eq_pure_bind]
  refine after_bind h (fun a p' hr => (after_pure _ _ _).mpr ⟨hr.1, fun b hb => ?_⟩)
    fun e p' hr => ⟨hr.1, fun _ h => by cases h⟩
  obtain rfl := Except.ok.inj hb
  exact hf a p' (hr.2 a rfl)

/-- The rule for operations that begin with the look-up of a process of the caller. -/
theorem confined_owned {about : α → Processes → Prop} (id : String) {f : ℕ → ProcessM α}
    (hf : ∀ h o, p.processes.lookup id = some h → Owns p session h o → Confined p session gone about (f h)) :
    Confined p session gone about (do let h ← ownedProcess id (some session); f h) := by
  refine after_bind (ownedProcess_spec id session) (fun h p' hr => ?_)
    fun e p' hr => ⟨by rw [hr.1]; exact .refl p, fun _ h => by cases h⟩
  obtain ⟨rfl, hok⟩ := hr
  obtain ⟨hid, o, ho⟩ := hok h rfl
  exact hf h o hid ho

def OwnDetails (session : String) (d : ProcessDetails) (p : Processes) : Prop :=
  ∃ h o, Owns p session h o ∧ d = detailFromProcess o

theorem confined_details (gone : String → Prop) {h : ℕ} {o : ManagedProcess} (ho : Owns p session h o) :
    Confined p session gone (OwnDetails session) (do return detailFromProcess (← getObject h)) := by
  simp only [Confined, after_bind_iff, after_getObject, after_pure]
  refine ⟨fun o' ho' => ⟨.refl p, fun d hd => ?_⟩, fun _ => ⟨.refl p, fun _ h => by cases h⟩⟩
  obtain rfl := Option.some.inj (ho.1.symm.trans ho')
  obtain rfl := Except.ok.inj hd
  exact ⟨h, o, ho, rfl⟩

theorem getProcess_confined (id : String) :
    Confined p session gone (OwnDetails session) (getProcess id (some session)) :=
  confined_owned id fun _ _ _ ho => confined_details gone ho

theorem getProcessByPid_confined (pid : ℤ) (order : List String) :
    Confined p session gone (OwnDetails session) (getProcessByPid pid (some session) order) := by
  simp only [Confined, getProcessByPid, processIdFromPid, after_bind_iff, after_get, after_orThrow, after_pure]
  exact ⟨fun o _ => getProcess_confined o.record.id, fun _ => ⟨.refl p, fun _ h => by cases h⟩⟩

theorem replayEvents_confined (hp : Indexed p) (id : String) (afterSeq : Option ℤ) (limit : ℕ) :
    Confined p session gone (fun events p' => ∃ h o, Owns p' session h o ∧
      ∀ e ∈ events, e.scope = .process ∧ e.scopeId = o.record.id) (replayEvents id (some session) afterSeq limit) := by
  refine confined_owned id fun h o hid ho => ?_
  simp only [Confined, after_bind_iff, after_get, after_pure]
  refine ⟨.refl p, fun events he => ⟨h, o, ho, fun e hmem => ?_⟩⟩
  obtain rfl := Except.ok.inj he
  obtain ⟨o', ho', hrecord⟩ := hp.found id h hid
  obtain rfl := Option.some.inj (ho.1.symm.trans ho')
  simp only [Store.listRuntimeEvents] at hmem
  have hscope := (List.perm_insertionSort _ _).mem_iff.mp (List.mem_of_mem_take hmem)
  simp only [scopeLog, List.mem_filter, decide_eq_true_eq] at hscope
  exact ⟨hscope.1.2.1, hscope.1.2.2.trans hrecord.symm⟩

theorem readProcessLogs_confined (files : String → ByteArray) (request : ProcessLogReadRequest) (maxBytes : Option ℕ)
    (hcaller : request.callerSessionId = some session) :
    Confined p session gone (fun rows p' => ∃ h o, Owns p' session h o ∧
      ∃ request maxBytes streams, rows = logsOf files request maxBytes o streams)
      (readProcessLogs files request maxBytes) := by
  simp only [Confined, readProcessLogs, processFromId, after_bind_iff, after_get, after_orThrow,
    after_getObject, hcaller,
    ensureOwnership]
  refine ⟨fun h _ => ⟨fun o ho => ?_, fun _ => ⟨.refl p, fun _ h => by cases h⟩⟩, fun _ =>
    ⟨.refl p, fun _ h => by cases h⟩⟩
  split
  · next hown =>
    simp only [after_pure, after_ofExcept]
    split
    · next streams hstreams =>
      refine ⟨.refl p, fun rows hrows => ?_⟩
      obtain rfl := Except.ok.inj hrows
      exact ⟨h, o, ⟨ho, hown⟩, request, maxBytes, streams, rfl⟩
    · exact ⟨.refl p, fun _ h => by cases h⟩
  · exact (after_throw _ _ _).mpr ⟨.refl p, fun _ h => by cases h⟩

/-! ## kill_process -/

/-- Others are left alone, and process `h` still belongs to the session. -/
def Working (session : String) (gone : String → Prop) (p : Processes) (h : ℕ) (p' : Processes) : Prop :=
  Kept session gone p p' ∧ ∃ o, Owns p' session h o

theorem working_updateObject {h : ℕ} {p' : Processes} (hp : Working session gone p h p')
    {f : ManagedProcess → ManagedProcess} (hf : ∀ o, (f o).record = o.record) :
    After (updateObject h f) p' fun _ p'' => Working session gone p h p'' := by
  obtain ⟨hkept, o, ho⟩ := hp
  refine (after_updateObject h f _).mpr ⟨hkept.trans (.update ho f), f o, ?_, ?_⟩
  · simp only [Table.lookup_update, if_true, ho.1, Option.map_some]
  · rw [hf]
    exact ho.2

theorem working_killChild {h : ℕ} {p' : Processes} (hp : Working session gone p h p') :
    After (killChild h) p' fun _ p'' => Working session gone p h p'' := by
  simp only [killChild, after_bind_iff, after_getObject]
  refine ⟨fun o _ => ?_, fun _ => hp⟩
  split
  · refine after_bind (working_updateObject hp fun _ => rfl) (fun _ p'' h => ?_) fun _ _ h => h
    exact (after_pure _ _ _).mpr h
  · exact (after_pure _ _ _).mpr hp

theorem working_killEvent {h : ℕ} {p' : Processes} (hp : Working session gone p h p') (reason : Option String) :
    After (killEvent h reason) p' fun _ p'' => Working session gone p h p'' := by
  obtain ⟨hkept, o, ho⟩ := hp
  simp only [killEvent, after_bind_iff, after_getObject]
  refine ⟨fun o' ho' => ?_, fun _ => ⟨hkept, o, ho⟩⟩
  obtain rfl := Option.some.inj (ho.1.symm.trans ho')
  rw [ho.2]
  refine (appendProcessEvent_kept _ _ _ _).mono fun r p'' hr => ⟨hkept.trans hr.2.1, o, ?_, ho.2⟩
  rw [hr.2.2.1]
  exact ho.1

theorem killProcess_confined (request : ProcessKillRequest) (hcaller : request.callerSessionId = some session) :
    Confined p session gone (OwnDetails session) (killProcess request) := by
  unfold killProcess
  rw [hcaller]
  refine confined_owned request.processId fun h o _ ho => ?_
  have hdetails : ∀ p', Working session gone p h p' → After (do return detailFromProcess (← getObject h)) p'
      fun r p'' => Kept session gone p p'' ∧ ∀ d, r = .ok d → OwnDetails session d p'' := by
    rintro p' ⟨hkept, o', ho'⟩
    exact (confined_details gone ho').mono fun r p'' hr => ⟨hkept.trans hr.1, hr.2⟩
  have hstart : Working session gone p h p := ⟨.refl p, o, ho⟩
  refine after_bind (working_updateObject hstart fun _ => rfl) (fun _ p₁ h₁ => ?_)
    fun _ _ h => ⟨h.1, fun _ h => by cases h⟩
  refine after_bind (working_killChild h₁) (fun killed p₂ h₂ => ?_) fun _ _ h => ⟨h.1, fun _ h => by cases h⟩
  cases killed with
  | true =>
    refine after_bind (working_killEvent h₂ request.reason) (fun _ p₃ h₃ => hdetails p₃ h₃) fun _ _ h =>
      ⟨h.1, fun _ h => by cases h⟩
  | false => exact hdetails p₂ h₂

/-! ## list_processes -/

theorem listedRow_own {includeCompleted : Bool} {id : String} {row : ProcessSummary}
    (h : listedRow p (some session) includeCompleted id = some row) : ∃ h o, Owns p session h o ∧
      row = summaryOf o.record := by
  unfold listedRow at h
  split at h
  · next o ho =>
    obtain ⟨n, -, ho⟩ := Option.bind_eq_some_iff.mp ho
    split at h
    · next hshown =>
      simp only [Option.all_some, Bool.and_eq_true, decide_eq_true_eq] at hshown
      exact ⟨n, o, ⟨ho, hshown.1⟩, (Option.some.inj h).symm⟩
    · cases h
  · cases h

theorem listProcesses_confined (includeCompleted : Bool) (order : List String) :
    Confined p session (fun id => p.config.completedRetentionMs ≠ 0 ∧ id ∈ expired p)
      (fun rows p' => ∀ row ∈ rows, ∃ h o, Owns p' session h o ∧ row = summaryOf o.record)
      (listProcesses (some session) includeCompleted order) := by
  simp only [Confined, listProcesses, cleanupBegin, cleanupRemove, after_bind_iff, after_get, after_modify, after_pure]
  refine ⟨⟨fun h o ho _ => ho, fun r hr _ => hr, fun id h o hid _ _ => ?_, [], (List.append_nil _).symm,
    fun _ he => by cases he⟩, fun rows hrows row hrow => ?_⟩
  · by_cases hretention : p.config.completedRetentionMs = 0
    · simp only [if_pos hretention, Table.lookup_eraseAll, List.not_mem_nil, if_false]
      exact .inl hid
    · simp only [if_neg hretention, Table.lookup_eraseAll]
      split
      · next hmem => exact .inr ⟨hretention, hmem⟩
      · exact .inl hid
  · obtain rfl := Except.ok.inj hrows
    obtain ⟨id, -, hid⟩ := List.mem_filterMap.mp (List.mem_mergeSort.mp hrow)
    exact listedRow_own hid

/-! ## run_process -/

theorem runBegin_caller (request : ProcessRunRequest) :
    After (runBegin request) p fun r p' => p' = p ∧ ∀ q, r = .ok q → q.callerSessionId = request.callerSessionId := by
  simp only [runBegin, after_bind_iff, after_get]
  split
  · exact (after_throw _ _ _).mpr ⟨rfl, fun _ h => by cases h⟩
  · split
    · exact (after_throw _ _ _).mpr ⟨rfl, fun _ h => by cases h⟩
    · exact (after_pure _ _ _).mpr ⟨rfl, fun q hq => by rw [← Except.ok.inj hq]⟩

theorem upsertProcess_base (r : ProcessRecord) (s : ToolStore) :
    (ToolStore.upsertProcess r s).2.base.events = s.base.events := by
  unfold ToolStore.upsertProcess ToolStore.write
  split <;> rfl

/-- A spawn adds at most one row, under the next id, and nothing else that others could see. -/
structure Spawned (p : Processes) (request : ProcessRunRequest)
    (r : Except RuntimeError (ProcessRecord × Option RuntimeError))
    (p' : Processes) : Prop where
  objects : p'.objects = p.objects
  processes : p'.processes = p.processes
  nextObject : p'.nextObject = p.nextObject
  events : p'.store.base.events = p.store.base.events
  record : ∀ record error, r = .ok (record, error) →
    record.id = processId p.nextProcessId ∧ record.sessionId = request.callerSessionId
  rows : p'.store.processes = p.store.processes ∨ ∃ record, record.id = processId p.nextProcessId ∧
    p'.store.processes = upsert ProcessRecord.id (fun _ new => new) record p.store.processes

theorem runSpawn_spawned (request : ProcessRunRequest) (spawned : Except String (Option ℤ)) :
    After (runSpawn request spawned) p fun r p' => Spawned p request r p' := by
  simp only [runSpawn, after_bind_iff, after_modify, after_get]
  cases spawned with
  | error error =>
    simp only [after_bind_iff, after_releasePermit, after_throw]
    exact ⟨rfl, rfl, rfl, rfl, fun _ _ h => (by cases h), .inl rfl⟩
  | ok pid =>
    simp only [after_bind_iff, after_attempt, after_onProcessStore, Nat.add_sub_cancel]
    generalize hrecord : startedRecord _ request s!"proc_{p.nextProcessId}" pid = record
    have hid : record.id = processId p.nextProcessId := by rw [← hrecord]; rfl
    have hsession : record.sessionId = request.callerSessionId := by rw [← hrecord]; rfl
    have hspawned : ∀ error, Spawned p request (.ok (record, error)) { p with
        permits := p.permits - 1
        nextProcessId := p.nextProcessId + 1
        store := (ToolStore.upsertProcess record p.store).2 } := by
      intro error
      refine ⟨rfl, rfl, rfl, upsertProcess_base record p.store, fun record' error' hr => ?_, ?_⟩
      · obtain ⟨rfl, -⟩ := Prod.mk.inj (Except.ok.inj hr)
        exact ⟨hid, hsession⟩
      · rcases upsertProcess_cases record p.store with ⟨-, h⟩ | ⟨-, h⟩
        · exact .inr ⟨record, hid, h⟩
        · exact .inl h
    split
    · exact (after_pure _ _ _).mpr (hspawned _)
    · exact (after_pure _ _ _).mpr (hspawned _)

theorem Spawned.kept (session : String) (gone : String → Prop) {request : ProcessRunRequest}
    {r : Except RuntimeError (ProcessRecord × Option RuntimeError)}
    {p' : Processes} (hp : Orderly p) (h : Spawned p request r p') : Kept session gone p p' where
  objects n o ho _ := by rw [h.objects]; exact ho
  rows row hrow _ := by
    rcases h.rows with hrows | ⟨record, hid, hrows⟩
    · rw [hrows]
      exact hrow
    · rw [hrows]
      refine mem_upsert_of_ne _ hrow fun he => hp.fresh ?_
      rw [← hid, ← he]
      exact List.mem_map_of_mem hrow
  entries id n o hid _ _ := .inl (by rw [h.processes]; exact hid)
  events := ⟨[], by rw [h.events, List.append_nil], fun _ he => by cases he⟩

theorem kept_inserted (session : String) (gone : String → Prop) {p' : Processes} {request : ProcessRunRequest}
    {r : Except RuntimeError (ProcessRecord × Option RuntimeError)} (hp : Orderly p) (h : Spawned p request r p')
    {record : ProcessRecord} (hid : record.id = processId p.nextProcessId) : Kept session gone p { p' with
      objects := p'.objects.insert p'.nextObject (.spawned record)
      processes := p'.processes.insert record.id p'.nextObject
      nextObject := p'.nextObject + 1 } where
  objects n o ho _ := by
    have hne : n ≠ p'.nextObject := by rw [h.nextObject]; exact (hp.indexed.below n o ho).ne
    simp only [Table.lookup_insert, if_neg hne, h.objects]
    exact ho
  rows := (h.kept session gone hp).rows
  entries id n o hentry ho _ := by
    have hne : id ≠ record.id := by
      rintro rfl
      obtain ⟨o', ho', he⟩ := hp.indexed.found _ n hentry
      exact hp.fresh (by rw [← hid, ← he]; exact hp.listed n o' ho')
    simp only [Table.lookup_insert, if_neg hne, h.processes]
    exact .inl hentry
  events := (h.kept session gone hp).events

theorem runProcess_confined (hp : Orderly p) (request : ProcessRunRequest) (spawned : Except String (Option ℤ))
    (hcaller : request.callerSessionId = some session) :
    Confined p session gone (OwnDetails session) (runProcess request spawned) := by
  refine after_bind (runBegin_caller request) (fun q p₁ h₁ => ?_)
    fun _ _ h => ⟨by rw [h.1]; exact .refl p, fun _ h => by cases h⟩
  obtain ⟨rfl, hq⟩ := h₁
  have hq := (hq q rfl).trans hcaller
  refine after_bind (runSpawn_spawned q spawned) (fun a p₂ h₂ => ?_)
    fun _ _ h => ⟨h.kept session gone hp, fun _ h => by cases h⟩
  obtain ⟨record, error⟩ := a
  obtain ⟨hid, hsession⟩ := h₂.record record error rfl
  cases error with
  | some error =>
    simp only [after_bind_iff, after_releasePermit, after_throw]
    have hkept : Kept session gone p₁ p₂ := h₂.kept session gone hp
    exact ⟨hkept.trans (.same rfl rfl rfl ⟨[], (List.append_nil _).symm, fun _ he => by cases he⟩),
      fun _ h => by cases h⟩
  | none =>
    have hkept := kept_inserted session gone hp h₂ hid
    simp only [runInsert, after_bind_iff, after_modify]
    rw [hsession.trans hq]
    refine (appendProcessEvent_kept _ _ _ _).elim (fun _ p₃ h₃ => ?_)
      fun _ p₃ h₃ => ⟨hkept.trans h₃.2.1, fun _ h => by cases h⟩
    obtain ⟨-, hkept₃, hobjects, hprocesses⟩ := h₃
    have hown : Owns p₃ session p₂.nextObject (.spawned record) := by
      refine ⟨?_, hsession.trans hq⟩
      rw [hobjects]
      exact AList.lookup_insert _
    have hlookup : p₃.processes.lookup record.id = some p₂.nextObject := by
      rw [hprocesses]
      exact AList.lookup_insert _
    simp only [processFromId, after_bind_iff, after_get, after_orThrow, hlookup, after_getObject, after_pure]
    refine ⟨fun n hn => ?_, fun hn => by cases hn⟩
    obtain rfl := Option.some.inj hn
    refine ⟨fun o ho => ⟨hkept.trans hkept₃, fun d hd => ?_⟩, fun _ => ⟨hkept.trans hkept₃, fun _ h => by cases h⟩⟩
    obtain rfl := Except.ok.inj hd
    obtain rfl := Option.some.inj (hown.1.symm.trans ho)
    exact ⟨_, _, hown, rfl⟩

/-! ## Every operation -/

variable {files : String → ByteArray} {op : ProcessRequest}

theorem exec_confined (files : String → ByteArray) (hp : Orderly p) (hop : op.caller = some session) :
    Confined p session (op.drops p) (fun reply p' => reply.Concerns files p' session) (op.exec files) := by
  cases op with
  | run request spawned => exact (runProcess_confined hp request spawned hop).map _ fun _ _ h => h
  | list caller includeCompleted order =>
    obtain rfl : caller = some session := hop
    exact (listProcesses_confined includeCompleted order).map _ fun _ _ h => h
  | get id caller =>
    obtain rfl : caller = some session := hop
    exact (getProcess_confined id).map _ fun _ _ h => h
  | getByPid pid caller order =>
    obtain rfl : caller = some session := hop
    exact (getProcessByPid_confined pid order).map _ fun _ _ h => h
  | logs request maxBytes => exact (readProcessLogs_confined files request maxBytes hop).map _ fun _ _ h => h
  | kill request => exact (killProcess_confined request hop).map _ fun _ _ h => h
  | replay id caller afterSeq limit =>
    obtain rfl : caller = some session := hop
    exact (replayEvents_confined hp.indexed id afterSeq limit).map _ fun _ _ h => h

theorem exec_refused (files : String → ByteArray) (hop : op.caller = some session) {h : ℕ} {o : ManagedProcess}
    (hnames : op.names p = some h)
    (ho : p.objects.lookup h = some o) (hother : o.record.sessionId ≠ some session) : Refused p (op.exec files) := by
  have hmap : ∀ {α : Type} (f : α → ProcessReply) (m : ProcessM α), Refused p m → Refused p (f <$> m) := by
    intro α f m hm
    rw [map_eq_pure_bind]
    exact hm.bind _
  cases op with
  | run request spawned => cases hnames
  | list caller includeCompleted order => cases hnames
  | get id caller =>
    obtain rfl : caller = some session := hop
    exact hmap _ _ ((ownedProcess_refused hnames ho hother).bind _)
  | getByPid pid caller order =>
    obtain rfl : caller = some session := hop
    obtain ⟨o', ho', hid⟩ := Option.bind_eq_some_iff.mp hnames
    refine hmap _ _ ?_
    simp only [Refused, getProcessByPid, processIdFromPid, after_bind_iff, after_get, after_orThrow, after_pure]
    refine ⟨fun x hx => ?_, fun hn => ⟨trivial, _, rfl⟩⟩
    obtain rfl := Option.some.inj (ho'.symm.trans hx)
    exact (ownedProcess_refused hid ho hother).bind _
  | logs request maxBytes =>
    refine hmap _ _ ?_
    have hcaller : request.callerSessionId = some session := hop
    simp only [Refused, readProcessLogs, processFromId, after_bind_iff, after_get, after_orThrow,
      after_getObject, hcaller,
      ensureOwnership]
    refine ⟨fun h' hid => ⟨fun o' ho' => ?_, fun _ => ⟨trivial, _, rfl⟩⟩, fun _ => ⟨trivial, _, rfl⟩⟩
    obtain rfl : h = h' := Option.some.inj (hnames.symm.trans hid)
    obtain rfl := Option.some.inj (ho.symm.trans ho')
    rw [if_neg hother, after_throw]
    exact ⟨rfl, _, rfl⟩
  | kill request =>
    refine hmap _ _ ?_
    unfold killProcess
    rw [show request.callerSessionId = some session from hop]
    exact (ownedProcess_refused hnames ho hother).bind _
  | replay id caller afterSeq limit =>
    obtain rfl : caller = some session := hop
    exact hmap _ _ ((ownedProcess_refused hnames ho hother).bind _)

end

end Gooselake.Tools
