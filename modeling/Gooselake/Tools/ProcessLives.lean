import Gooselake.Tools.ProcessPermits

/-!
The process manager through the stops and starts of its runtime. A new manager knows the processes of the one before it
only as rows of the store.
-/

namespace Gooselake.Tools

open Gooselake.Core Data Library Library.Exec
open Gooselake.TeamComms (parseU64_toDigits)

set_option autoImplicit false

/-! ## The runtime's lives -/

inductive HostState where
  | up (s : ProcessServer)
  | down (store : ToolStore)

/-- An id that a manager has handed out, and whether a record is stored under it. -/
structure Start where
  life : ℕ
  id : String
  recorded : Bool
  deriving DecidableEq, Repr

structure ProcessHost where
  state : HostState
  /-- How many managers there have been. -/
  life : ℕ
  starts : List Start
  /-- The children of the managers that are gone. -/
  left : List Child

inductive HostLabel where
  | serve (l : ProcessLabel)
  /-- The runtime ends; `dropped` says whether its handles are dropped, which signals the children. -/
  | stop (dropped : Bool)
  | boot (config : ProcessManagerConfig) (clock : ℤ)
  | leave (n : ℕ) (code signal : Option ℤ)

def ProcessCall.child : ProcessCall → Option Child
  | .runInsert _ => some .spawned
  | .runTeardown _ => some Child.spawned.startKill
  | _ => none

def ProcessServer.children (s : ProcessServer) : List Child :=
  (Table.values s.manager.objects).filterMap ManagedProcess.child ++ (Table.values s.calls).filterMap ProcessCall.child

def processId (n : ℕ) : String := s!"proc_{n}"

def startsOf (life : ℕ) (s s' : ProcessServer) : List Start :=
  if s'.manager.nextProcessId = s.manager.nextProcessId then []
  else
    let id := processId s.manager.nextProcessId
    [⟨life, id, s'.manager.store.processes.any fun r => r.id = id⟩]

namespace ProcessHost

def start (store : ToolStore) : ProcessHost where
  state := .down store
  life := 0
  starts := store.processes.map fun r => ⟨0, r.id, true⟩
  left := []

def step : HostLabel → ProcessHost → Option ProcessHost
  | .serve l, host =>
    match host.state with
    | .up s => (ProcessServer.step l s).map fun s' =>
        { host with state := .up s', starts := host.starts ++ startsOf host.life s s' }
    | .down _ => none
  | .stop dropped, host =>
    match host.state with
    | .up s => some { host with
        state := .down s.manager.store
        left := host.left ++ s.children.map fun c => if dropped then c.startKill else c }
    | .down _ => none
  | .boot config clock, host =>
    match host.state with
    | .up _ => none
    | .down store =>
      match Processes.new store config clock with
      | .ok p => some { host with state := .up (.start p), life := host.life + 1 }
      | .error _ => some { host with state := .down (storeRecovered clock store.processes store).2 }
  | .leave n code signal, host => some { host with left := host.left.modify n (Child.exited code signal) }

def rows (host : ProcessHost) : List ProcessRecord :=
  match host.state with
  | .up s => s.manager.store.processes
  | .down store => store.processes

end ProcessHost

/-! ## Starting a manager -/

theorem storeRecovered_rows (clock : ℤ) (records : List ProcessRecord) (store : ToolStore)
    (hsub : ∀ r ∈ records, r ∈ store.processes) (hrecords : (records.map ProcessRecord.id).Nodup)
    (hrows : (store.processes.map ProcessRecord.id).Nodup) :
    (storeRecovered clock records store).2.processes.map ProcessRecord.id = store.processes.map ProcessRecord.id ∧
      (∀ r ∈ (storeRecovered clock records store).2.processes,
        r ∈ store.processes ∨ ∃ r₀ ∈ records, r = recoveredRecord clock r₀) ∧
      (∀ r ∈ store.processes, r.id ∉ records.map ProcessRecord.id →
        r ∈ (storeRecovered clock records store).2.processes) ∧
      ((storeRecovered clock records store).1 = .ok () →
        ∀ r ∈ records, recoveredRecord clock r ∈ (storeRecovered clock records store).2.processes) := by
  induction records generalizing store with
  | nil => exact ⟨rfl, fun r hr => .inl hr, fun r hr _ => hr, fun _ r hr => by cases hr⟩
  | cons record records ih =>
    rw [List.map_cons, List.nodup_cons] at hrecords
    obtain ⟨hnot, hrest⟩ := hrecords
    unfold storeRecovered
    by_cases hsame : recoveredRecord clock record = record
    · rw [if_pos hsame]
      obtain ⟨hids, hfrom, hkept, hdone⟩ := ih store (fun r hr => hsub r (List.mem_cons_of_mem _ hr)) hrest hrows
      refine ⟨hids, fun r hr => ?_, fun r hr hid => ?_, fun hok r hr => ?_⟩
      · exact (hfrom r hr).imp_right fun ⟨r₀, hr₀, he⟩ => ⟨r₀, List.mem_cons_of_mem _ hr₀, he⟩
      · exact hkept r hr fun hmem => hid (List.mem_cons_of_mem _ hmem)
      · rcases List.mem_cons.mp hr with rfl | hr
        · rw [hsame]
          exact hkept r (hsub r List.mem_cons_self) hnot
        · exact hdone hok r hr
    · rw [if_neg hsame]
      have hid := recoveredRecord_id clock record
      have hmem : record.id ∈ store.processes.map ProcessRecord.id :=
        List.mem_map_of_mem (hsub record List.mem_cons_self)
      rcases upsertProcess_cases (recoveredRecord clock record) store with ⟨hr, hprocesses⟩ | ⟨⟨e, hr⟩, hprocesses⟩
      · have hids₁ : (ToolStore.upsertProcess (recoveredRecord clock record) store).2.processes.map ProcessRecord.id =
            store.processes.map ProcessRecord.id := by
          rw [hprocesses, map_upsert fun _ => rfl, hid, if_pos hmem]
        have hstay : ∀ r ∈ store.processes, r.id ≠ record.id →
            r ∈ (ToolStore.upsertProcess (recoveredRecord clock record) store).2.processes := fun r hr hne => by
          rw [hprocesses]
          exact mem_upsert_of_ne _ hr (by rw [hid]; exact hne)
        have hsub₁ : ∀ r ∈ records, r ∈ (ToolStore.upsertProcess (recoveredRecord clock record) store).2.processes :=
          fun r hr => hstay r (hsub r (List.mem_cons_of_mem _ hr)) fun he => hnot (he ▸ List.mem_map_of_mem hr)
        obtain ⟨hids, hfrom, hkept, hdone⟩ := ih _ hsub₁ hrest (by rw [hids₁]; exact hrows)
        generalize hw : ToolStore.upsertProcess (recoveredRecord clock record) store = w at *
        obtain ⟨res, store₁⟩ := w
        obtain rfl : res = .ok () := hr
        refine ⟨hids.trans hids₁, fun r hr => ?_, fun r hr hrid => ?_, fun hok r hr => ?_⟩
        · rcases hfrom r hr with hr | ⟨r₀, hr₀, he⟩
          · rw [show store₁.processes = _ from hprocesses] at hr
            rcases mem_upsert hr with hr | hr | ⟨old, -, -, hr⟩
            · exact .inl hr
            · exact .inr ⟨record, List.mem_cons_self, hr⟩
            · exact .inr ⟨record, List.mem_cons_self, hr⟩
          · exact .inr ⟨r₀, List.mem_cons_of_mem _ hr₀, he⟩
        · have hne : r.id ≠ record.id := fun he => hrid (he ▸ List.mem_cons_self)
          exact hkept r (hstay r hr hne) fun hmem => hrid (List.mem_cons_of_mem _ hmem)
        · rcases List.mem_cons.mp hr with rfl | hr
          · have hnew : recoveredRecord clock r ∈ store₁.processes := by
              rw [show store₁.processes = _ from hprocesses]
              exact mem_upsert_self _ _
            exact hkept _ hnew (by rw [hid]; exact hnot)
          · exact hdone hok r hr
      · generalize hw : ToolStore.upsertProcess (recoveredRecord clock record) store = w at *
        obtain ⟨res, store₁⟩ := w
        obtain rfl : res = .error e := hr
        have hprocesses : store₁.processes = store.processes := hprocesses
        refine ⟨by rw [hprocesses], fun r hr => .inl (hprocesses ▸ hr), fun r hr _ => ?_, fun hok => by cases hok⟩
        rw [hprocesses]
        exact hr

theorem recoveredRecord_terminal (clock : ℤ) (r : ProcessRecord) :
    isTerminalProcessStatus (recoveredRecord clock r).status = true := by
  unfold recoveredRecord
  split
  · rfl
  · next hr =>
    rw [not_or] at hr
    cases hs : r.status with
    | queued => exact absurd hs hr.2
    | running => exact absurd hs hr.1
    | _ => rfl

theorem Booted.sound {store : ToolStore} {config : ProcessManagerConfig} {clock : ℤ} {p : Processes}
    (hp : Booted store config clock p) : (ProcessServer.start p).Sound where
  below h o ho := hp.below ho
  objects h o ho := by
    obtain ⟨r, -, rfl⟩ := hp.found ho
    exact .hydrated (recoveredRecord_terminal clock r)
  calls i record hi := by cases hi
  conserved := by
    have hobjects : Table.tally ManagedProcess.holdsPermit p.objects = 0 := by
      refine Table.tally_eq_zero fun h o ho => ?_
      obtain ⟨r, -, rfl⟩ := hp.found ho
      rfl
    have hcalls : Table.tally ProcessCall.holdsPermit (∅ : Table ℕ ProcessCall) = 0 := Table.tally_empty
    simp only [ProcessServer.start, hobjects, hcalls, hp.permits, hp.configured, Nat.add_zero]

/-! ## What holds in every life -/

namespace ProcessHost

/-- `I` holds of the server while there is one, and `J` of the store otherwise. -/
def Holds (I : ProcessServer → Prop) (J : ToolStore → Prop) (host : ProcessHost) : Prop :=
  match host.state with
  | .up s => I s
  | .down store => J store

theorem Holds.up {I : ProcessServer → Prop} {J : ToolStore → Prop} {host : ProcessHost} {s : ProcessServer}
    (h : host.Holds I J) (hup : host.state = .up s) : I s := by
  rw [Holds, hup] at h
  exact h

/-- What the runtime does to a server and to a store: it serves, stops, and starts a manager or fails to. -/
inductive Move (host : ProcessHost) : HostLabel → ProcessHost → Prop where
  | served {l : ProcessLabel} {s s' : ProcessServer} (was : host.state = .up s)
      (step : ProcessServer.step l s = some s') :
      Move host (.serve l) { host with state := .up s', starts := host.starts ++ startsOf host.life s s' }
  | stopped {dropped : Bool} {s : ProcessServer} {left : List Child} (was : host.state = .up s) :
      Move host (.stop dropped) { host with state := .down s.manager.store, left := left }
  | booted {config : ProcessManagerConfig} {clock : ℤ} {store : ToolStore} {p : Processes}
      (was : host.state = .down store)
      (new : Booted store config clock p) :
      Move host (.boot config clock) { host with state := .up (.start p), life := host.life + 1 }
  | failed {config : ProcessManagerConfig} {clock : ℤ} {store : ToolStore} (was : host.state = .down store) :
      Move host (.boot config clock) { host with state := .down (storeRecovered clock store.processes store).2 }
  | gone {n : ℕ} {code signal : Option ℤ} {left : List Child} :
      Move host (.leave n code signal) { host with left := left }

theorem step_move {l : HostLabel} {host host' : ProcessHost} (h : step l host = some host') : Move host l host' := by
  cases l with
  | serve l =>
    simp only [step] at h
    split at h
    · next s was =>
      obtain ⟨s', hstep, rfl⟩ := Option.map_eq_some_iff.mp h
      exact .served was hstep
    · cases h
  | stop dropped =>
    simp only [step] at h
    split at h
    · next s was =>
      obtain rfl := Option.some.inj h
      exact .stopped was
    · cases h
  | boot config clock =>
    simp only [step] at h
    split at h
    · cases h
    · next store was =>
      split at h
      · next p hp =>
        obtain rfl := Option.some.inj h
        exact .booted was (new_booted hp)
      · obtain rfl := Option.some.inj h
        exact .failed was
  | leave n code signal =>
    obtain rfl := Option.some.inj h
    exact .gone

/-- The rule for facts about the server that every life begins with, from facts about the store that every life
leaves. -/
theorem holds_reaches {P : HostLabel → ProcessHost → Prop} {I : ProcessServer → Prop} {J : ToolStore → Prop}
    {store : ToolStore} {host : ProcessHost} (hs : Reaches step P (start store) host) (hstore : J store)
    (served : ∀ host l s s', host.state = .up s → P (.serve l) host → I s → ProcessServer.step l s = some s' → I s')
    (stopped : ∀ s, I s → J s.manager.store)
    (booted : ∀ store config clock p, J store → Booted store config clock p → I (.start p))
    (failed : ∀ store clock, J store → J (storeRecovered clock store.processes store).2) : host.Holds I J := by
  refine hs.invariant (I := Holds I J) hstore fun l host host' hI hP hstep => ?_
  cases step_move hstep with
  | served was step =>
    rw [Holds, was] at hI
    exact served host _ _ _ was hP hI step
  | stopped was =>
    rw [Holds, was] at hI
    exact stopped _ hI
  | booted was new =>
    rw [Holds, was] at hI
    exact booted _ _ _ _ hI new
  | failed was =>
    rw [Holds, was] at hI
    exact failed _ _ hI
  | gone => exact hI

theorem sound_reaches {P : HostLabel → ProcessHost → Prop} {store : ToolStore} {host : ProcessHost}
    (hs : Reaches step P (start store) host) : host.Holds ProcessServer.Sound fun _ => True :=
  holds_reaches hs trivial (fun _ _ _ _ _ _ h hstep => h.step hstep) (fun _ _ => trivial)
    (fun _ _ _ _ _ hp => hp.sound) (fun _ _ _ => trivial)

end ProcessHost

/-! ## Ids -/

theorem parseProcessSequence_processId {n : ℕ} (h : n < 2 ^ 64) : parseProcessSequence (processId n) = some n := by
  have hlist : (processId n).toList = "proc_".toList ++ Nat.toDigits 10 n := by
    simp [processId, String.toList_append, Nat.toList_repr]
    rfl
  have hdrop : ("proc_".toList ++ Nat.toDigits 10 n).drop 5 = Nat.toDigits 10 n := rfl
  unfold parseProcessSequence
  rw [hlist, if_pos (List.isPrefixOf_iff_prefix.mpr ⟨_, rfl⟩), hdrop, parseU64_toDigits h]

theorem lt_foldl_max {l : List ℕ} {n : ℕ} (h : n ∈ l) : n < l.foldl max 0 + 1 := by
  have hfold : ∀ (l : List ℕ) (m : ℕ), m ≤ l.foldl max m ∧ ∀ n ∈ l, n ≤ l.foldl max m := by
    intro l
    induction l with
    | nil => exact fun m => ⟨le_rfl, fun n hn => by cases hn⟩
    | cons x l ih =>
      intro m
      obtain ⟨hle, hmem⟩ := ih (max m x)
      refine ⟨(le_max_left _ _).trans hle, fun n hn => ?_⟩
      rcases List.mem_cons.mp hn with rfl | hn
      · exact (le_max_right _ _).trans hle
      · exact hmem n hn
  exact Nat.lt_succ_of_le ((hfold l 0).2 n h)

def rowIds (store : ToolStore) : List String := store.processes.map ProcessRecord.id

/-- The rows have ids of their own with numbers that are used up, and every process has one. -/
structure ProcessServer.Listed (s : ProcessServer) : Prop where
  nodup : (rowIds s.manager.store).Nodup
  numbered : ∀ id ∈ rowIds s.manager.store, ∀ n, parseProcessSequence id = some n → n < s.manager.nextProcessId
  objects : ∀ h o, s.manager.objects.lookup h = some o → o.record.id ∈ rowIds s.manager.store
  calls : ∀ i record, s.calls.lookup i = some (.runInsert record) → record.id ∈ rowIds s.manager.store

namespace ProcessServer

structure Grown (s s' : ProcessServer) : Prop where
  rows : ∀ id ∈ rowIds s.manager.store, id ∈ rowIds s'.manager.store
  next : s'.manager.nextProcessId = s.manager.nextProcessId ∨
    s'.manager.nextProcessId = s.manager.nextProcessId + 1

section

variable {s : ProcessServer} {calls : Table ℕ ProcessCall} {p' : Processes}

theorem Listed.same (hs : s.Listed) (hids : rowIds p'.store = rowIds s.manager.store)
    (hnext : p'.nextProcessId = s.manager.nextProcessId ∨ p'.nextProcessId = s.manager.nextProcessId + 1)
    (hobjects : ∀ h o, p'.objects.lookup h = some o → o.record.id ∈ rowIds s.manager.store)
    (hcalls : ∀ i record, calls.lookup i = some (.runInsert record) → record.id ∈ rowIds s.manager.store) :
    Listed ⟨p', calls⟩ ∧ Grown s ⟨p', calls⟩ := by
  refine ⟨⟨by rw [hids]; exact hs.nodup, fun id hid n hn => ?_, fun h o ho => ?_, fun i record hi => ?_⟩,
    fun id hid => by rw [hids]; exact hid, hnext⟩
  · have := hs.numbered id (by rwa [hids] at hid) n hn
    dsimp only
    omega
  · rw [hids]
    exact hobjects h o ho
  · rw [hids]
    exact hcalls i record hi

theorem Listed.objects_same (hs : s.Listed) (same : SameProcesses s.manager p') (h : ℕ) (o : ManagedProcess)
    (ho : p'.objects.lookup h = some o) : o.record.id ∈ rowIds s.manager.store := by
  obtain ⟨o', ho', halike⟩ := same.found h o ho
  rw [halike.record]
  exact hs.objects h o' ho'

theorem Listed.calls_put (hs : s.Listed) {i : ℕ} {after : Option ProcessCall}
    (hafter : ∀ record, after ≠ some (.runInsert record)) (j : ℕ) (record : ProcessRecord)
    (hj : (put s.calls i after).lookup j = some (.runInsert record)) : record.id ∈ rowIds s.manager.store := by
  rw [lookup_put] at hj
  split at hj
  · exact absurd hj (hafter record)
  · exact hs.calls j record hj

theorem notInsert_of_any {after : Option ProcessCall} (h : after.any ProcessCall.holdsPermit = false)
    (record : ProcessRecord) : after ≠ some (.runInsert record) := by
  rintro rfl
  cases h

theorem Listed.fresh (hs : s.Listed) (hcount : s.manager.nextProcessId < 2 ^ 64) :
    processId s.manager.nextProcessId ∉ rowIds s.manager.store := fun hmem =>
  lt_irrefl _ (hs.numbered _ hmem _ (parseProcessSequence_processId hcount))

theorem Listed.call (hs : s.Listed) (hcount : s.manager.nextProcessId < 2 ^ 64) {i : ℕ}
    {before after : Option ProcessCall} (was : s.calls.lookup i = before) (move : CallBooks s.manager before after p') :
    Listed ⟨p', put s.calls i after⟩ ∧ Grown s ⟨p', put s.calls i after⟩ := by
  cases move with
  | quiet books same hwas hnow =>
    have hrows : p'.store.processes = s.manager.store.processes := (congrArg Books.rows books :)
    exact hs.same (congrArg (List.map ProcessRecord.id) hrows) (.inl (congrArg Books.nextProcessId books :))
      (hs.objects_same same) (hs.calls_put (notInsert_of_any hnow))
  | spawnFailed same books =>
    have hrows : p'.store.processes = s.manager.store.processes := (congrArg Books.rows books :)
    exact hs.same (congrArg (List.map ProcessRecord.id) hrows) (.inr (congrArg Books.nextProcessId books :))
      (hs.objects_same same) (hs.calls_put fun _ h => by cases h)
  | unstored same books =>
    have hrows : p'.store.processes = s.manager.store.processes := (congrArg Books.rows books :)
    exact hs.same (congrArg (List.map ProcessRecord.id) hrows) (.inr (congrArg Books.nextProcessId books :))
      (hs.objects_same same) (hs.calls_put fun _ h => by cases h)
  | tornDown same books =>
    have hrows : p'.store.processes = s.manager.store.processes := (congrArg Books.rows books :)
    exact hs.same (congrArg (List.map ProcessRecord.id) hrows) (.inl (congrArg Books.nextProcessId books :))
      (hs.objects_same same) (hs.calls_put fun _ h => by cases h)
  | @inserted record after p' objects nextObject books hnow =>
    have hrows : p'.store.processes = s.manager.store.processes := (congrArg Books.rows books :)
    refine hs.same (congrArg (List.map ProcessRecord.id) hrows) (.inl (congrArg Books.nextProcessId books :))
      (fun h o ho => ?_) (hs.calls_put (notInsert_of_any hnow))
    rw [objects, Table.lookup_insert] at ho
    split at ho
    · obtain rfl := Option.some.inj ho
      exact hs.calls i record was
    · exact hs.objects h o ho
  | stored record started same books =>
    have hrows : p'.store.processes = upsert ProcessRecord.id (fun _ new => new) record s.manager.store.processes :=
      (congrArg Books.rows books :)
    have hnext : p'.nextProcessId = s.manager.nextProcessId + 1 := (congrArg Books.nextProcessId books :)
    have hid : record.id = processId s.manager.nextProcessId := by rw [started]; rfl
    have hids : rowIds p'.store = rowIds s.manager.store ++ [record.id] := by
      rw [rowIds, hrows, map_upsert fun _ => rfl, if_neg]
      · rfl
      · rw [hid]
        exact hs.fresh hcount
    have hstay : ∀ id ∈ rowIds s.manager.store, id ∈ rowIds p'.store := fun id hmem => by
      rw [hids]
      exact List.mem_append_left _ hmem
    refine ⟨⟨?_, fun id hmem n hn => ?_, fun h o ho => ?_, fun j record' hj => ?_⟩, hstay, .inr hnext⟩
    · dsimp only
      rw [rowIds, hrows]
      exact nodup_upsert (fun _ => rfl) hs.nodup
    · dsimp only at hmem ⊢
      rw [hids, List.mem_append, List.mem_singleton] at hmem
      rcases hmem with hmem | rfl
      · have := hs.numbered id hmem n hn
        omega
      · rw [hid, parseProcessSequence_processId hcount] at hn
        obtain rfl := Option.some.inj hn
        omega
    · exact hstay _ (hs.objects_same same h o ho)
    · simp only [lookup_put] at hj
      split at hj
      · obtain rfl : record = record' := by simpa using hj
        dsimp only
        rw [hids]
        exact List.mem_append_right _ (List.mem_singleton_self _)
      · exact hstay _ (hs.calls j record' hj)

theorem Listed.step {l : ProcessLabel} {s s' : ProcessServer} (hs : s.Listed) (hsound : s.Sound)
    (hcount : s.manager.nextProcessId < 2 ^ 64) (hstep : ProcessServer.step l s = some s') : s'.Listed ∧
      Grown s s' := by
  cases step_books hstep with
  | call was permit move => exact hs.call hcount was move
  | @task h task o o' p' found move keeps books =>
    have hid : o'.record.id = o.record.id := (ManagedProcess.task_record (hsound.objects h o found) move).1
    have hmem := hs.objects h o found
    refine hs.same ?_ (.inl ?_) (fun h' x hx => ?_) hs.calls
    · have hrows : p'.store.processes = (task.books s.manager o o').rows := (congrArg Books.rows books :)
      rw [rowIds, hrows]
      cases task with
      | record =>
        rcases upsertProcess_cases o'.record s.manager.store with ⟨-, hr⟩ | ⟨-, hr⟩
        · simp only [Task.books, hr]
          rw [map_upsert fun _ => rfl, if_pos (by rw [hid]; exact hmem)]
          rfl
        · simp only [Task.books, hr]
          rfl
      | take => simp only [Task.books]; split <;> rfl
      | _ => rfl
    · refine (congrArg Books.nextProcessId books :).trans ?_
      cases task with
      | take => simp only [Task.books]; split <;> rfl
      | _ => rfl
    · rw [keeps.objects, Table.lookup_insert] at hx
      split at hx
      · obtain rfl := Option.some.inj hx
        rw [hid]
        exact hmem
      · exact hs.objects h' x hx
  | ticked => exact ⟨⟨hs.nodup, hs.numbered, hs.objects, hs.calls⟩, fun _ h => h, .inl rfl⟩

end

end ProcessServer

theorem rowIds_recovered (clock : ℤ) {store : ToolStore} (h : (rowIds store).Nodup) :
    rowIds (storeRecovered clock store.processes store).2 = rowIds store :=
  (storeRecovered_rows clock store.processes store (fun _ hr => hr) h h).1

theorem Booted.listed {store : ToolStore} {config : ProcessManagerConfig} {clock : ℤ} {p : Processes}
    (hp : Booted store config clock p) (hrows : (rowIds store).Nodup) : (ProcessServer.start p).Listed := by
  have hids : rowIds p.store = rowIds store := by
    rw [← rowIds_recovered clock hrows, hp.stored]
  refine ⟨?_, fun id hid n hn => ?_, fun h o ho => ?_, fun i record hi => by cases hi⟩
  · rw [show (ProcessServer.start p).manager.store = p.store from rfl, hids]
    exact hrows
  · rw [show (ProcessServer.start p).manager.store = p.store from rfl, hids] at hid
    rw [show (ProcessServer.start p).manager.nextProcessId = _ from hp.nextProcessId]
    obtain ⟨r, hr, rfl⟩ := List.mem_map.mp hid
    exact lt_foldl_max (List.mem_filterMap.mpr ⟨r, hr, hn⟩)
  · obtain ⟨r, hr, rfl⟩ := hp.found ho
    rw [show (ProcessServer.start p).manager.store = p.store from rfl, hids]
    exact List.mem_map.mpr ⟨r, List.mem_of_getElem? hr, (recoveredRecord_id clock r).symm⟩

end Gooselake.Tools
