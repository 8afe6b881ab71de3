import Gooselake.Tools.Kill

/-!
The map of the processes by id: whatever calls and tasks do, a process stands under its own id.
-/

namespace Gooselake.Tools

open Gooselake.Core Data Library Library.Exec

set_option autoImplicit false

/-- The map leads to managed processes under their own ids, all of them with used numbers. -/
structure Indexed (p : Processes) : Prop where
  found : ∀ id h, p.processes.lookup id = some h → ∃ o, p.objects.lookup h = some o ∧ o.record.id = id
  below : ∀ h o, p.objects.lookup h = some o → h < p.nextObject

def IndexKept (p p' : Processes) : Prop := Indexed p → Indexed p'

instance : Std.Refl IndexKept := ⟨fun _ h => h⟩

instance : Trans IndexKept IndexKept IndexKept := ⟨fun h h' hp => h' (h hp)⟩

/-! ## Primitive actions -/

theorem Indexed.same {p p' : Processes} (h : Indexed p) (hprocesses : p'.processes = p.processes)
    (hobjects : p'.objects = p.objects) (hnext : p'.nextObject = p.nextObject) : Indexed p' := by
  obtain ⟨found, below⟩ := h
  refine ⟨?_, ?_⟩
  · rw [hprocesses, hobjects]
    exact found
  · rw [hobjects, hnext]
    exact below

theorem Indexed.updated {p : Processes} (hp : Indexed p) (h : ℕ) {f : ManagedProcess → ManagedProcess}
    (hf : ∀ o, (f o).record.id = o.record.id) : Indexed { p with objects := p.objects.update h f } where
  found id h' hid := by
    obtain ⟨o, ho, rfl⟩ := hp.found id h' hid
    rw [Table.lookup_update]
    by_cases he : h' = h
    · subst he
      exact ⟨f o, by rw [if_pos rfl, ho]; rfl, hf o⟩
    · exact ⟨o, by rw [if_neg he]; exact ho, rfl⟩
  below h' o ho := by
    rw [Table.lookup_update] at ho
    split at ho
    · next he =>
      obtain ⟨o', ho', -⟩ := Option.map_eq_some_iff.mp ho
      exact he ▸ hp.below h o' ho'
    · exact hp.below h' o ho

theorem Indexed.inserted {p : Processes} (hp : Indexed p) (record : ProcessRecord) :
    Indexed { p with
      objects := p.objects.insert p.nextObject (.spawned record)
      processes := p.processes.insert record.id p.nextObject
      nextObject := p.nextObject + 1 } where
  found id h hid := by
    rw [Table.lookup_insert] at hid
    split at hid
    · next he =>
      obtain rfl := Option.some.inj hid
      exact ⟨_, AList.lookup_insert _, he.symm⟩
    · obtain ⟨o, ho, hrecord⟩ := hp.found id h hid
      have hne : h ≠ p.nextObject := (hp.below h o ho).ne
      exact ⟨o, by rw [Table.lookup_insert, if_neg hne]; exact ho, hrecord⟩
  below h o ho := by
    rw [Table.lookup_insert] at ho
    split at ho
    · next he =>
      change h < p.nextObject + 1
      omega
    · exact (hp.below h o ho).trans (Nat.lt_succ_self _)

theorem Indexed.removed {p : Processes} (hp : Indexed p) (ids : List String) :
    Indexed { p with processes := p.processes.eraseAll ids } where
  found id h hid := by
    rw [Table.lookup_eraseAll] at hid
    split at hid
    · cases hid
    · exact hp.found id h hid
  below := hp.below

theorem kept_modify {f : Processes → Processes} (hprocesses : ∀ p, (f p).processes = p.processes)
    (hobjects : ∀ p, (f p).objects = p.objects) (hnext : ∀ p, (f p).nextObject = p.nextObject) :
    Within IndexKept (modify f : ProcessM Unit) :=
  .modify fun p hp => hp.same (hprocesses p) (hobjects p) (hnext p)

theorem kept_updateObject (h : ℕ) {f : ManagedProcess → ManagedProcess} (hf : ∀ o, (f o).record.id = o.record.id) :
    Within IndexKept (updateObject h f) :=
  .modify fun _ hp => hp.updated h hf

theorem kept_releasePermit : Within IndexKept releasePermit :=
  kept_modify (fun _ => rfl) (fun _ => rfl) (fun _ => rfl)

theorem readOnly_getObject (h : ℕ) : ReadOnly (getObject h) := .bind .get fun _ => .orThrow _ _

theorem readOnly_processFromId (id : String) : ReadOnly (processFromId id) := .bind .get fun _ => .orThrow _ _

theorem readOnly_ensureOwnership (o : ManagedProcess) (caller : Option String) :
    ReadOnly (ensureOwnership o caller) := by
  unfold ensureOwnership
  split
  · exact .pure ()
  · exact .ite (.pure ()) (.throw _)

theorem kept_onProcessStore {α : Type} (f : ToolStore → Except RuntimeError α × ToolStore) :
    Within IndexKept (onProcessStore f) := by
  refine .bind ReadOnly.get.within fun p => .bind ?_ fun _ => (ReadOnly.ofExcept _).within
  exact kept_modify (fun _ => rfl) (fun _ => rfl) (fun _ => rfl)

theorem kept_appendProcessEvent (id : String) (sessionId : Option String) (kind : String)
    (criticality : RuntimeEventCriticality) (payload : Json) :
    Within IndexKept (appendProcessEvent id sessionId kind criticality payload) := by
  refine .bind ReadOnly.get.within fun p => .bind (kept_modify (fun _ => rfl) (fun _ => rfl) (fun _ => rfl)) fun _ => ?_
  refine .bind (.attempt (kept_onProcessStore _)) fun r => ?_
  cases r with
  | ok record => exact kept_modify (fun _ => rfl) (fun _ => rfl) (fun _ => rfl)
  | error e => exact (ReadOnly.pure ()).within

/-! ## Pieces of the calls -/

theorem kept_begin (op : ProcessOperation) : Within IndexKept op.begin := by
  cases op with
  | run request =>
    have hread : ReadOnly (runBegin request) :=
      .bind .get fun _ => .ite (.throw _) (.ite (.throw _) (.pure _))
    exact (hread.bind fun _ => .pure _).within
  | kill request => exact ((readOnly_processFromId _).bind fun _ => .pure _).within
  | list =>
    have hread : ReadOnly cleanupBegin := .bind .get fun _ => .pure _
    exact (hread.bind fun _ => .pure _).within

theorem kept_runSpawn (request : ProcessRunRequest) (spawned : Except String (Option ℤ)) :
    Within IndexKept (runSpawn request spawned) := by
  refine .bind (kept_modify (fun _ => rfl) (fun _ => rfl) (fun _ => rfl)) fun _ => .bind ReadOnly.get.within fun p => ?_
  cases spawned with
  | error error => exact .bind kept_releasePermit fun _ => (ReadOnly.throw _).within
  | ok pid =>
    refine .bind (.attempt (kept_onProcessStore _)) fun stored => ?_
    cases stored with
    | ok _ => exact (ReadOnly.pure _).within
    | error error => exact (ReadOnly.pure _).within

theorem kept_runInsert (record : ProcessRecord) : Within IndexKept (runInsert record) :=
  .bind (.modify fun _ hp => hp.inserted record) fun _ => kept_appendProcessEvent _ _ _ _ _

theorem kept_killChild (h : ℕ) : Within IndexKept (killChild h) := by
  refine .bind (readOnly_getObject h).within fun o => .ite ?_ (ReadOnly.pure _).within
  exact .bind (kept_updateObject h fun _ => rfl) fun _ => (ReadOnly.pure _).within

theorem kept_goOn {c : ProcessCall} {answer : ProcessAnswer} {m : ProcessM (Option ProcessCall)}
    (hm : c.goOn answer = some m) : Within IndexKept m := by
  have thenPure : ∀ {α : Type} {x : ProcessM α} {f : α → Option ProcessCall}, Within IndexKept x →
      Within IndexKept (do let a ← x; return f a) := fun hx => .bind hx fun _ => (ReadOnly.pure _).within
  cases answer with
  | spawned r =>
    cases c <;> simp only [ProcessCall.goOn, reduceCtorEq, Option.some.injEq] at hm
    subst hm
    exact thenPure (kept_runSpawn _ r)
  | lock =>
    cases c with
    | runPermit request => cases hm
    | runTeardown error =>
      obtain rfl := Option.some.inj hm
      exact .bind kept_releasePermit fun _ => (ReadOnly.throw _).within
    | runInsert record =>
      obtain rfl := Option.some.inj hm
      exact thenPure (kept_runInsert record)
    | runDetail id =>
      obtain rfl := Option.some.inj hm
      exact thenPure (readOnly_processFromId id).within
    | killOwner h request =>
      obtain rfl := Option.some.inj hm
      exact .bind (readOnly_getObject h).within fun o => thenPure (readOnly_ensureOwnership o _).within
    | killFlag h request =>
      obtain rfl := Option.some.inj hm
      exact thenPure (kept_updateObject h fun _ => rfl)
    | killChild h request =>
      obtain rfl := Option.some.inj hm
      exact thenPure (kept_killChild h)
    | killEvent h request =>
      obtain rfl := Option.some.inj hm
      exact thenPure (.bind (readOnly_getObject h).within fun o => kept_appendProcessEvent _ _ _ _ _)
    | killDetail h =>
      obtain rfl := Option.some.inj hm
      exact (ReadOnly.pure _).within
    | listRemove ids =>
      obtain rfl := Option.some.inj hm
      exact thenPure (.modify fun _ hp => hp.removed ids)
    | listRows =>
      obtain rfl := Option.some.inj hm
      exact (ReadOnly.pure _).within

/-! ## Pieces of the tasks -/

theorem record_setCapture (c : Capture) (stream : OutputStream) (o : ManagedProcess) :
    (setCapture c stream o).record = o.record := by
  cases stream <;> rfl

theorem kept_lifecycleTake (h : ℕ) : Within IndexKept (lifecycleTake h) := by
  refine .bind (readOnly_getObject h).within fun o => .ite (kept_updateObject h fun _ => rfl) ?_
  exact .bind (kept_updateObject h fun _ => rfl) fun _ => kept_releasePermit

theorem kept_lifecycleRecord (h : ℕ) (status : ProcessStatus) (exitCode signal : Option ℤ) :
    Within IndexKept (lifecycleRecord h status exitCode signal) := by
  refine .bind ReadOnly.get.within fun p => .bind (kept_updateObject h fun _ => rfl) fun _ => ?_
  refine .bind (readOnly_getObject h).within fun o => .bind (.attempt (kept_onProcessStore _)) fun _ => ?_
  exact .bind (kept_appendProcessEvent _ _ _ _ _) fun _ => kept_releasePermit

theorem kept_pumpRead (h : ℕ) (stream : OutputStream) (bytes : ℕ) : Within IndexKept (pumpRead h stream bytes) := by
  refine .bind ReadOnly.get.within fun p => .bind (readOnly_getObject h).within fun o => ?_
  refine .bind (kept_updateObject h fun o => by rw [record_setCapture]) fun _ => ?_
  exact .ite (kept_appendProcessEvent _ _ _ _ _) (ReadOnly.pure _).within

theorem kept_piece {h : ℕ} {o : ManagedProcess} {task : Task} {m : ProcessM Unit} (hm : task.piece h o = some m) :
    Within IndexKept m := by
  cases taskRuns_of_piece hm with
  | take => exact kept_lifecycleTake h
  | record => exact kept_lifecycleRecord h _ _ _
  | @read stream bytes => exact kept_pumpRead h stream bytes
  | eof => exact kept_updateObject h fun o => by rw [record_setCapture]
  | exit | timer | waited | waitFailed | drained => exact kept_updateObject h fun _ => rfl

/-! ## Runs -/

theorem Indexed.step {l : ProcessLabel} {s s' : ProcessServer} (hs : Indexed s.manager)
    (h : ProcessServer.step l s = some s') : Indexed s'.manager := by
  cases l with
  | start i op =>
    simp only [ProcessServer.step, Option.ite_none_left_eq_some, Option.some.injEq] at h
    obtain ⟨-, rfl⟩ := h
    exact (kept_begin op s.manager).out hs
  | goOn i answer =>
    simp only [ProcessServer.step, Option.bind_eq_bind, Option.bind_eq_some_iff] at h
    obtain ⟨c, -, m, hm, h⟩ := h
    simp only [Option.ite_none_left_eq_some, Option.some.injEq] at h
    obtain ⟨-, rfl⟩ := h
    exact (kept_goOn hm s.manager).out hs
  | task h' task =>
    simp only [ProcessServer.step, Option.bind_eq_bind, Option.bind_eq_some_iff, Option.some.injEq] at h
    obtain ⟨o, -, m, hm, rfl⟩ := h
    exact (kept_piece hm s.manager).out hs
  | tick now =>
    obtain rfl := Option.some.inj h
    exact hs.same rfl rfl rfl

theorem rows_found (rows : List (ProcessRecord × ℕ)) (clock : ℤ) (hrows : (rows.map Prod.snd).Nodup)
    (objects : Table ℕ ManagedProcess) (processes : Table String ℕ)
    (h : ∀ id h, processes.lookup id = some h → h ∉ rows.map Prod.snd ∧
      ∃ o, objects.lookup h = some o ∧ o.record.id = id) :
    ∀ id h, (rows.foldl (fun t r => t.insert r.1.id r.2) processes).lookup id = some h →
      ∃ o, (rows.foldl (fun t r => t.insert r.2 (.hydrated (recoveredRecord clock r.1))) objects).lookup h = some o ∧
        o.record.id = id := by
  induction rows generalizing objects processes with
  | nil => exact fun id h' hid => (h id h' hid).2
  | cons r rows ih =>
    rw [List.map_cons, List.nodup_cons] at hrows
    refine ih hrows.2 _ _ fun id h' hid => ?_
    rw [Table.lookup_insert] at hid
    split at hid
    · next he =>
      obtain rfl := Option.some.inj hid
      refine ⟨hrows.1, _, AList.lookup_insert _, ?_⟩
      exact (recoveredRecord_id clock r.1).trans he.symm
    · obtain ⟨hnot, o, ho, hrecord⟩ := h id h' hid
      rw [List.map_cons, List.mem_cons, not_or] at hnot
      exact ⟨hnot.2, o, by rw [Table.lookup_insert, if_neg hnot.1]; exact ho, hrecord⟩

theorem indexed_new {store : ToolStore} {config : ProcessManagerConfig} {clock : ℤ} {p : Processes}
    (hp : Processes.new store config clock = .ok p) : Indexed p where
  found := by
    unfold Processes.new at hp
    split at hp
    · cases hp
    · obtain rfl := Except.ok.inj hp
      have hnumbers : (store.processes.zipIdx.map Prod.snd).Nodup := by
        rw [List.zipIdx_map_snd]
        exact List.nodup_range'
      exact rows_found _ clock hnumbers ∅ ∅ fun id h hid => by simp at hid
  below _ _ ho := (new_booted hp).below ho

/-- In every state of a manager its map is sound. -/
theorem indexed_reaches {store : ToolStore} {config : ProcessManagerConfig} {clock : ℤ} {p : Processes}
    {P : ProcessLabel → ProcessServer → Prop} {s : ProcessServer} (hp : Processes.new store config clock = .ok p)
    (hs : Reaches ProcessServer.step P (.start p) s) : Indexed s.manager :=
  hs.invariant (I := fun s => Indexed s.manager) (indexed_new hp) fun _ _ _ h _ hstep => h.step hstep

end Gooselake.Tools
