import Gooselake.Tools.ProcessLives

/-!
The laws of the process table: how many children run at once, that an id is handed out once, and how the status of a
record moves.
-/

namespace Gooselake.Tools

open Gooselake.Core Data Library Library.Exec

set_option autoImplicit false

/-! ## Conditions on the steps of a run -/

namespace ProcessHost

/-- The counter has not run through 64 bits. -/
def counted (host : ProcessHost) : Bool :=
  match host.state with
  | .up s => decide (s.manager.nextProcessId < 2 ^ 64)
  | .down _ => true

/-- The write of a process's end does not fail. -/
def endStored : HostLabel → ProcessHost → Bool
  | .serve (.task _ .record), host =>
    match host.state with
    | .up s => s.manager.store.base.faults.head? != some true
    | .down _ => true
  | _, _ => true

theorem counted_up {host : ProcessHost} {s : ProcessServer} (h : host.counted = true) (hup : host.state = .up s) :
    s.manager.nextProcessId < 2 ^ 64 := by
  rw [counted, hup] at h
  exact of_decide_eq_true h

end ProcessHost

/-! ## Ids that are handed out -/

theorem ProcessHost.listed_reaches {P : HostLabel → ProcessHost → Prop} {store : ToolStore} {host : ProcessHost}
    (hrows : (rowIds store).Nodup) (hcount : ∀ l host, P l host → host.counted = true)
    (hs : Reaches step P (start store) host) :
    host.Holds (fun s => s.Sound ∧ s.Listed) fun store => (rowIds store).Nodup := by
  refine holds_reaches hs hrows (fun host l s s' hup hP h hstep => ?_) (fun _ h => h.2.nodup)
    (fun _ _ _ _ h hp => ⟨hp.sound, hp.listed h⟩) (fun store clock h => ?_)
  · exact ⟨h.1.step hstep, (h.2.step h.1 (counted_up (hcount _ _ hP) hup) hstep).1⟩
  · rw [rowIds_recovered clock h]
    exact h

/-- An id is handed out again only in a later life, and only when no record was stored under it. -/
def IdsApart (starts : List Start) : Prop :=
  starts.Pairwise fun a b => a.id = b.id → a.life < b.life ∧ a.recorded = false

/-- The ids that were handed out: those with a record are ids of rows, those of this life are below the counter. -/
structure ProcessHost.Handed (host : ProcessHost) : Prop where
  rows : ∀ a ∈ host.starts, a.recorded = true → a.id ∈ host.rows.map ProcessRecord.id
  lives : ∀ a ∈ host.starts, a.life ≤ host.life
  now : ∀ s, host.state = .up s → ∀ a ∈ host.starts, a.life = host.life →
    ∃ n < s.manager.nextProcessId, a.id = processId n
  apart : IdsApart host.starts

theorem processId_inj {m n : ℕ} (hm : m < 2 ^ 64) (hn : n < 2 ^ 64) (h : processId m = processId n) : m = n := by
  have hparse := parseProcessSequence_processId hm
  rw [h, parseProcessSequence_processId hn] at hparse
  exact (Option.some.inj hparse).symm

theorem mem_startsOf {life : ℕ} {s s' : ProcessServer} {a : Start} (h : a ∈ startsOf life s s') :
    s'.manager.nextProcessId ≠ s.manager.nextProcessId ∧ a.life = life ∧ a.id = processId s.manager.nextProcessId ∧
      (a.recorded = true → a.id ∈ rowIds s'.manager.store) := by
  unfold startsOf at h
  split at h
  · cases h
  · next hne =>
    obtain rfl := List.mem_singleton.mp h
    refine ⟨hne, rfl, rfl, fun hr => ?_⟩
    obtain ⟨r, hr, he⟩ := List.any_eq_true.mp hr
    exact List.mem_map.mpr ⟨r, hr, of_decide_eq_true he⟩

theorem pairwise_startsOf (life : ℕ) (s s' : ProcessServer) (R : Start → Start → Prop) :
    (startsOf life s s').Pairwise R := by
  unfold startsOf
  split
  · exact .nil
  · exact List.pairwise_singleton _ _

namespace ProcessHost

theorem rows_up {host : ProcessHost} {s : ProcessServer} (h : host.state = .up s) :
    host.rows = s.manager.store.processes := by
  rw [rows, h]

theorem rows_down {host : ProcessHost} {store : ToolStore} (h : host.state = .down store) :
    host.rows = store.processes := by
  rw [rows, h]

theorem Handed.served {host : ProcessHost} {l : ProcessLabel} {s s' : ProcessServer} (hs : host.Handed)
    (was : host.state = .up s) (hsound : s.Sound) (hlisted : s.Listed) (hcount : s.manager.nextProcessId < 2 ^ 64)
    (hstep : ProcessServer.step l s = some s') :
    Handed { host with state := .up s', starts := host.starts ++ startsOf host.life s s' } := by
  obtain ⟨-, hgrown⟩ := hlisted.step hsound hcount hstep
  have hold : ∀ a ∈ host.starts, a.recorded = true → a.id ∈ rowIds s.manager.store := fun a ha hr => by
    have := hs.rows a ha hr
    rwa [rows_up was] at this
  refine ⟨fun a ha hr => ?_, fun a ha => ?_, fun s'' hup a ha hlife => ?_, ?_⟩
  · rw [rows_up rfl]
    rcases List.mem_append.mp ha with ha | ha
    · exact hgrown.rows _ (hold a ha hr)
    · exact (mem_startsOf ha).2.2.2 hr
  · rcases List.mem_append.mp ha with ha | ha
    · exact hs.lives a ha
    · exact (mem_startsOf ha).2.1.le
  · obtain rfl : s' = s'' := HostState.up.inj hup
    rcases List.mem_append.mp ha with ha | ha
    · obtain ⟨n, hn, he⟩ := hs.now s was a ha hlife
      exact ⟨n, by rcases hgrown.next with h | h <;> omega, he⟩
    · obtain ⟨hne, -, he, -⟩ := mem_startsOf ha
      exact ⟨_, by rcases hgrown.next with h | h <;> omega, he⟩
  · refine List.pairwise_append.mpr ⟨hs.apart, pairwise_startsOf _ _ _ _, fun a ha b hb hid => ?_⟩
    obtain ⟨-, hlife, hb, -⟩ := mem_startsOf hb
    rw [hb] at hid
    refine ⟨?_, ?_⟩
    · rw [hlife]
      refine lt_of_le_of_ne (hs.lives a ha) fun he => ?_
      obtain ⟨n, hn, hna⟩ := hs.now s was a ha he
      exact hn.ne (processId_inj (hn.trans hcount) hcount (hna.symm.trans hid))
    · cases hr : a.recorded with
      | false => rfl
      | true => exact absurd (hid ▸ hold a ha hr) (hlisted.fresh hcount)

theorem Handed.step {l : HostLabel} {host host' : ProcessHost} (hs : host.Handed)
    (hlaw : host.Holds (fun s => s.Sound ∧ s.Listed) fun store => (rowIds store).Nodup) (hcount : host.counted = true)
    (hstep : ProcessHost.step l host = some host') : host'.Handed := by
  cases step_move hstep with
  | served was step =>
    obtain ⟨hsound, hlisted⟩ := hlaw.up was
    exact hs.served was hsound hlisted (counted_up hcount was) step
  | stopped was =>
    refine ⟨fun a ha hr => ?_, hs.lives, fun _ h => (by cases h), hs.apart⟩
    have := hs.rows a ha hr
    rwa [rows_up was] at this
  | @booted config clock store p was new =>
    have hnodup : (rowIds store).Nodup := by
      rw [Holds, was] at hlaw
      exact hlaw
    refine ⟨fun a ha hr => ?_, fun a ha => (hs.lives a ha).trans (Nat.le_succ _), fun s hup a ha hlife => ?_, hs.apart⟩
    · have hmem := hs.rows a ha hr
      rw [rows_down was] at hmem
      have hids : rowIds p.store = rowIds store := by rw [← rowIds_recovered clock hnodup, new.stored]
      rw [rows_up rfl]
      exact (congrArg (a.id ∈ ·) hids).mpr hmem
    · have := hs.lives a ha
      dsimp only at hlife
      omega
  | @failed config clock store was =>
    have hnodup : (rowIds store).Nodup := by
      rw [Holds, was] at hlaw
      exact hlaw
    refine ⟨fun a ha hr => ?_, hs.lives, fun _ h => (by cases h), hs.apart⟩
    have hmem := hs.rows a ha hr
    rw [rows_down was] at hmem
    rw [rows_down rfl]
    exact (congrArg (a.id ∈ ·) (rowIds_recovered clock hnodup)).mpr hmem
  | gone => exact ⟨hs.rows, hs.lives, hs.now, hs.apart⟩

theorem Handed.start {store : ToolStore} (hrows : (rowIds store).Nodup) : (ProcessHost.start store).Handed where
  rows a ha _ := by
    obtain ⟨r, hr, rfl⟩ := List.mem_map.mp ha
    exact List.mem_map_of_mem hr
  lives a ha := by
    obtain ⟨r, -, rfl⟩ := List.mem_map.mp ha
    exact le_rfl
  now s hup := by cases hup
  apart := by
    refine List.pairwise_map.mpr ((List.pairwise_map.mp hrows).imp fun hne he => absurd he hne)

theorem handed_reaches {P : HostLabel → ProcessHost → Prop} {store : ToolStore} {host : ProcessHost}
    (hrows : (rowIds store).Nodup) (hcount : ∀ l host, P l host → host.counted = true)
    (hs : Reaches step P (start store) host) : host.Handed := by
  induction hs with
  | refl => exact .start hrows
  | tail hprev hP hstep ih => exact ih.step (listed_reaches hrows hcount hprev) (hcount _ _ hP) hstep

end ProcessHost

/-! ## Statuses -/

namespace ProcessServer

structure Agreed (s : ProcessServer) : Prop where
  objects : ∀ h o, s.manager.objects.lookup h = some o → o.record ∈ s.manager.store.processes
  calls : ∀ i record, s.calls.lookup i = some (.runInsert record) → record ∈ s.manager.store.processes
  apart : ∀ h o h' o', s.manager.objects.lookup h = some o → s.manager.objects.lookup h' = some o' →
    o.record.id = o'.record.id → h = h'
  callsApart : ∀ i r j r', s.calls.lookup i = some (.runInsert r) → s.calls.lookup j = some (.runInsert r') →
    r.id = r'.id → i = j
  split : ∀ h o i r, s.manager.objects.lookup h = some o → s.calls.lookup i = some (.runInsert r) → o.record.id ≠ r.id

section

variable {s : ProcessServer} {i : ℕ} {before after : Option ProcessCall} {p' : Processes}

theorem insert_of_put (hafter : ∀ record, after ≠ some (.runInsert record)) {j : ℕ} {record : ProcessRecord}
    (hj : (put s.calls i after).lookup j = some (.runInsert record)) :
    j ≠ i ∧ s.calls.lookup j = some (.runInsert record) := by
  rw [lookup_put] at hj
  split at hj
  · exact absurd hj (hafter record)
  · next hne => exact ⟨hne, hj⟩

theorem Agreed.same (hs : s.Agreed) (same : SameProcesses s.manager p')
    (hrows : p'.store.processes = s.manager.store.processes) (hafter : ∀ record, after ≠ some (.runInsert record)) :
    Agreed ⟨p', put s.calls i after⟩ where
  objects h o ho := by
    obtain ⟨o', ho', halike⟩ := same.found h o ho
    rw [hrows, halike.record]
    exact hs.objects h o' ho'
  calls j record hj := by
    rw [hrows]
    exact hs.calls j record (insert_of_put hafter hj).2
  apart h o h' o' ho ho' hid := by
    obtain ⟨x, hx, hxa⟩ := same.found h o ho
    obtain ⟨x', hx', hxa'⟩ := same.found h' o' ho'
    rw [hxa.record, hxa'.record] at hid
    exact hs.apart h x h' x' hx hx' hid
  callsApart j r k r' hj hk := hs.callsApart j r k r' (insert_of_put hafter hj).2 (insert_of_put hafter hk).2
  split h o j r ho hj := by
    obtain ⟨x, hx, hxa⟩ := same.found h o ho
    rw [hxa.record]
    exact hs.split h x j r hx (insert_of_put hafter hj).2

theorem Agreed.call (hs : s.Agreed) (hlisted : s.Listed) (hcount : s.manager.nextProcessId < 2 ^ 64)
    (was : s.calls.lookup i = before) (move : CallBooks s.manager before after p') :
    Agreed ⟨p', put s.calls i after⟩ := by
  cases move with
  | quiet books same hwas hnow => exact hs.same same (congrArg Books.rows books :) (notInsert_of_any hnow)
  | spawnFailed same books => exact hs.same same (congrArg Books.rows books :) (fun _ h => by cases h)
  | unstored same books => exact hs.same same (congrArg Books.rows books :) (fun _ h => by cases h)
  | tornDown same books => exact hs.same same (congrArg Books.rows books :) (fun _ h => by cases h)
  | @inserted record after p' objects nextObject books hnow =>
    have hrows : p'.store.processes = s.manager.store.processes := (congrArg Books.rows books :)
    have hput : ∀ {j : ℕ} {r : ProcessRecord}, (put s.calls i after).lookup j = some (.runInsert r) →
        j ≠ i ∧ s.calls.lookup j = some (.runInsert r) := insert_of_put (notInsert_of_any hnow)
    have hcases : ∀ {h o}, p'.objects.lookup h = some o →
        (h = s.manager.nextObject ∧ o.record = record) ∨ s.manager.objects.lookup h = some o := by
      intro h o ho
      rw [objects, Table.lookup_insert] at ho
      split at ho
      · next he =>
        obtain rfl := Option.some.inj ho
        exact .inl ⟨he, rfl⟩
      · exact .inr ho
    refine ⟨fun h o ho => ?_, fun j r hj => ?_, fun h o h' o' ho ho' hid => ?_, fun j r k r' hj hk => ?_,
      fun h o j r ho hj => ?_⟩
    · rw [hrows]
      rcases hcases ho with ⟨-, hr⟩ | ho
      · rw [hr]
        exact hs.calls i record was
      · exact hs.objects h o ho
    · rw [hrows]
      exact hs.calls j r (hput hj).2
    · rcases hcases ho with ⟨he, hr⟩ | ho
      · rcases hcases ho' with ⟨he', -⟩ | ho'
        · rw [he, he']
        · rw [hr] at hid
          exact absurd hid.symm (hs.split h' o' i record ho' was)
      · rcases hcases ho' with ⟨-, hr'⟩ | ho'
        · rw [hr'] at hid
          exact absurd hid (hs.split h o i record ho was)
        · exact hs.apart h o h' o' ho ho' hid
    · exact hs.callsApart j r k r' (hput hj).2 (hput hk).2
    · obtain ⟨hne, hj⟩ := hput hj
      rcases hcases ho with ⟨-, hr⟩ | ho
      · rw [hr]
        exact fun hid => hne (hs.callsApart i record j r was hj hid).symm
      · exact hs.split h o j r ho hj
  | stored record started same books =>
    have hrows : p'.store.processes = upsert ProcessRecord.id (fun _ new => new) record s.manager.store.processes :=
      (congrArg Books.rows books :)
    have hid : record.id = processId s.manager.nextProcessId := by rw [started]; rfl
    have hfresh : record.id ∉ rowIds s.manager.store := by rw [hid]; exact hlisted.fresh hcount
    have hstay : ∀ r ∈ s.manager.store.processes, r ∈ p'.store.processes := fun r hr => by
      rw [hrows]
      exact mem_upsert_of_ne _ hr fun he => hfresh (he ▸ List.mem_map_of_mem hr)
    have hcases : ∀ {j r}, (put s.calls i (some (.runInsert record))).lookup j = some (.runInsert r) →
        (j = i ∧ r = record) ∨ s.calls.lookup j = some (.runInsert r) := by
      intro j r hj
      rw [lookup_put] at hj
      split at hj
      · next he => exact .inl ⟨he, by simpa using hj.symm⟩
      · exact .inr hj
    refine ⟨fun h o ho => ?_, fun j r hj => ?_, fun h o h' o' ho ho' he => ?_, fun j r k r' hj hk he => ?_,
      fun h o j r ho hj => ?_⟩
    · obtain ⟨x, hx, hxa⟩ := same.found h o ho
      rw [hxa.record]
      exact hstay _ (hs.objects h x hx)
    · rcases hcases hj with ⟨-, rfl⟩ | hj
      · dsimp only
        rw [hrows]
        exact mem_upsert_self _ _
      · exact hstay _ (hs.calls j r hj)
    · obtain ⟨x, hx, hxa⟩ := same.found h o ho
      obtain ⟨x', hx', hxa'⟩ := same.found h' o' ho'
      rw [hxa.record, hxa'.record] at he
      exact hs.apart h x h' x' hx hx' he
    · rcases hcases hj with ⟨hji, hr⟩ | hj'
      · rcases hcases hk with ⟨hki, -⟩ | hk'
        · rw [hji, hki]
        · rw [hr] at he
          exact absurd (he ▸ hlisted.calls k r' hk') hfresh
      · rcases hcases hk with ⟨-, hr⟩ | hk'
        · rw [hr] at he
          exact absurd (he ▸ hlisted.calls j r hj') hfresh
        · exact hs.callsApart j r k r' hj' hk' he
    · obtain ⟨x, hx, hxa⟩ := same.found h o ho
      rw [hxa.record]
      rcases hcases hj with ⟨-, rfl⟩ | hj
      · exact fun he => hfresh (he ▸ hlisted.objects h x hx)
      · exact hs.split h x j r hx hj

end

theorem upsertProcess_stores {r : ProcessRecord} {s : ToolStore} (h : (s.base.faults.head? != some true) = true) :
    (ToolStore.upsertProcess r s).2.processes = upsert ProcessRecord.id (fun _ new => new) r s.processes := by
  unfold ToolStore.upsertProcess ToolStore.write
  split
  · next hf =>
    rw [hf] at h
    cases h
  · rfl
  · rfl

theorem Agreed.step {l : ProcessLabel} {s s' : ProcessServer} (hs : s.Agreed) (hsound : s.Sound) (hlisted : s.Listed)
    (hcount : s.manager.nextProcessId < 2 ^ 64)
    (hend : ∀ h, l = .task h .record → (s.manager.store.base.faults.head? != some true) = true)
    (hstep : ProcessServer.step l s = some s') : s'.Agreed := by
  cases step_books hstep with
  | call was permit move => exact hs.call hlisted hcount was move
  | @task h task o o' p' found move keeps books =>
    obtain ⟨hid, -, hrecord⟩ := ManagedProcess.task_record (hsound.objects h o found) move
    have hcases : ∀ {k x}, p'.objects.lookup k = some x →
        (k = h ∧ x = o') ∨ (k ≠ h ∧ s.manager.objects.lookup k = some x) := by
      intro k x hx
      rw [keeps.objects, Table.lookup_insert] at hx
      split at hx
      · next he => exact .inl ⟨he, (Option.some.inj hx).symm⟩
      · next hne => exact .inr ⟨hne, hx⟩
    have hown : ∀ {k x}, p'.objects.lookup k = some x →
        ∃ x₀, s.manager.objects.lookup k = some x₀ ∧ x.record.id = x₀.record.id := by
      intro k x hx
      rcases hcases hx with ⟨rfl, rfl⟩ | ⟨-, hx⟩
      · exact ⟨o, found, hid⟩
      · exact ⟨x, hx, rfl⟩
    -- the row of the process is written with its record; the rows of the others stay
    have hrows : o'.record ∈ p'.store.processes ∧
        ∀ r ∈ s.manager.store.processes, r.id ≠ o.record.id → r ∈ p'.store.processes := by
      have hbooks : p'.store.processes = (task.books s.manager o o').rows := (congrArg Books.rows books :)
      rw [hbooks]
      by_cases ht : task = .record
      · subst ht
        simp only [Task.books, upsertProcess_stores (hend h rfl)]
        exact ⟨mem_upsert_self _ _, fun r hr hne => mem_upsert_of_ne _ hr (by rw [hid]; exact hne)⟩
      · have hsame : (task.books s.manager o o').rows = s.manager.store.processes := by
          cases task with
          | record => exact absurd rfl ht
          | take => simp only [Task.books]; split <;> rfl
          | _ => rfl
        rw [hsame, hrecord ht]
        exact ⟨hs.objects h o found, fun r hr _ => hr⟩
    refine ⟨fun k x hx => ?_, fun i r hi => ?_, fun k x k' x' hx hx' he => ?_, hs.callsApart, fun k x i r hx hi => ?_⟩
    · rcases hcases hx with ⟨-, rfl⟩ | ⟨hne, hx⟩
      · exact hrows.1
      · exact hrows.2 _ (hs.objects k x hx) fun he => hne (hs.apart k x h o hx found he)
    · exact hrows.2 _ (hs.calls i r hi) (hs.split h o i r found hi).symm
    · obtain ⟨y, hy, hyid⟩ := hown hx
      obtain ⟨y', hy', hyid'⟩ := hown hx'
      exact hs.apart k y k' y' hy hy' (hyid.symm.trans (he.trans hyid'))
    · obtain ⟨y, hy, hyid⟩ := hown hx
      rw [hyid]
      exact hs.split k y i r hy hi
  | ticked => exact ⟨hs.objects, hs.calls, hs.apart, hs.callsApart, hs.split⟩

inductive RowsMove (rows : List ProcessRecord) : List ProcessRecord → Prop where
  | same : RowsMove rows rows
  | added {record : ProcessRecord} (fresh : record.id ∉ rows.map ProcessRecord.id) :
      RowsMove rows (upsert ProcessRecord.id (fun _ new => new) record rows)
  | changed {old record : ProcessRecord} (mem : old ∈ rows) (id : record.id = old.id)
      (onward : Onward old.status record.status) :
      RowsMove rows (upsert ProcessRecord.id (fun _ new => new) record rows)

theorem rows_move {l : ProcessLabel} {s s' : ProcessServer} (hs : s.Agreed) (hsound : s.Sound) (hlisted : s.Listed)
    (hcount : s.manager.nextProcessId < 2 ^ 64) (hstep : ProcessServer.step l s = some s') :
    RowsMove s.manager.store.processes s'.manager.store.processes := by
  have hsame : ∀ {p' : Processes}, p'.store.processes = s.manager.store.processes →
      RowsMove s.manager.store.processes p'.store.processes := fun h => h ▸ .same
  cases step_books hstep with
  | @call l i before after p' was permit move =>
    cases move with
    | quiet books same hwas hnow => exact hsame (congrArg Books.rows books :)
    | spawnFailed same books => exact hsame (congrArg Books.rows books :)
    | unstored same books => exact hsame (congrArg Books.rows books :)
    | tornDown same books => exact hsame (congrArg Books.rows books :)
    | inserted objects nextObject books hnow => exact hsame (congrArg Books.rows books :)
    | stored record started same books =>
      have hrows : p'.store.processes = upsert ProcessRecord.id (fun _ new => new) record s.manager.store.processes :=
        (congrArg Books.rows books :)
      have hid : record.id = processId s.manager.nextProcessId := by rw [started]; rfl
      dsimp only
      rw [hrows]
      exact .added (by rw [hid]; exact hlisted.fresh hcount)
  | @task h task o o' p' found move keeps books =>
    obtain ⟨hid, honward, -⟩ := ManagedProcess.task_record (hsound.objects h o found) move
    have hbooks : p'.store.processes = (task.books s.manager o o').rows := (congrArg Books.rows books :)
    cases task with
    | record =>
      rcases upsertProcess_cases o'.record s.manager.store with ⟨-, hr⟩ | ⟨-, hr⟩
      · dsimp only
        rw [hbooks]
        simp only [Task.books, hr]
        exact .changed (hs.objects h o found) hid honward
      · exact hsame (hbooks.trans hr)
    | take =>
      refine hsame (hbooks.trans ?_)
      simp only [Task.books]
      split <;> rfl
    | _ => exact hsame hbooks
  | ticked => exact .same

end ProcessServer

theorem Booted.agreed {store : ToolStore} {config : ProcessManagerConfig} {clock : ℤ} {p : Processes}
    (hp : Booted store config clock p) (hrows : (rowIds store).Nodup) : (ProcessServer.start p).Agreed := by
  obtain ⟨-, -, -, hdone⟩ := storeRecovered_rows clock store.processes store (fun _ hr => hr) hrows hrows
  rw [hp.stored] at hdone
  refine ⟨fun h o ho => ?_, fun i record hi => (by cases hi), fun h o h' o' ho ho' hid => ?_,
    fun i r j r' hi => (by cases hi), fun h o i r _ hi => (by cases hi)⟩
  · obtain ⟨r, hr, rfl⟩ := hp.found ho
    exact hdone rfl r (List.mem_of_getElem? hr)
  · obtain ⟨r, hr, rfl⟩ := hp.found ho
    obtain ⟨r', hr', rfl⟩ := hp.found ho'
    change (recoveredRecord clock r).id = (recoveredRecord clock r').id at hid
    rw [recoveredRecord_id, recoveredRecord_id] at hid
    have hlt : h < (rowIds store).length := by
      rw [rowIds, List.length_map]
      exact (List.getElem?_eq_some_iff.mp hr).1
    refine (List.getElem?_inj hlt hrows).mp ?_
    simp only [rowIds, List.getElem?_map, hr, hr', Option.map_some, hid]

namespace ProcessHost

theorem endStored_up {host : ProcessHost} {l : ProcessLabel} {s : ProcessServer} (h : endStored (.serve l) host = true)
    (hup : host.state = .up s) (n : ℕ) (hl : l = .task n .record) :
    (s.manager.store.base.faults.head? != some true) = true := by
  subst hl
  simp only [endStored, hup] at h
  exact h

theorem agreed_reaches {P : HostLabel → ProcessHost → Prop} {store : ToolStore} {host : ProcessHost}
    (hrows : (rowIds store).Nodup) (hP : ∀ l host, P l host → host.counted = true ∧ endStored l host = true)
    (hs : Reaches step P (start store) host) :
    host.Holds (fun s => (s.Sound ∧ s.Listed) ∧ s.Agreed) fun store => (rowIds store).Nodup := by
  refine holds_reaches hs hrows (fun host l s s' hup hl h hstep => ?_) (fun _ h => h.1.2.nodup)
    (fun _ _ _ _ h hp => ⟨⟨hp.sound, hp.listed h⟩, hp.agreed h⟩) (fun store clock h => ?_)
  · obtain ⟨⟨hsound, hlisted⟩, hagreed⟩ := h
    obtain ⟨hc, he⟩ := hP _ _ hl
    have hcount := counted_up hc hup
    exact ⟨⟨hsound.step hstep, (hlisted.step hsound hcount hstep).1⟩,
      hagreed.step hsound hlisted hcount (endStored_up he hup) hstep⟩
  · rw [rowIds_recovered clock h]
    exact h

/-- The row with the id exists, and its status may follow `a`. -/
def RowFollows (id : String) (a : ProcessStatus) (host : ProcessHost) : Prop :=
  id ∈ host.rows.map ProcessRecord.id ∧ ∀ r ∈ host.rows, r.id = id → Onward a r.status

theorem onward_recovered {a : ProcessStatus} (ha : a ≠ .queued) (clock : ℤ) {r : ProcessRecord}
    (h : Onward a r.status) : Onward a (recoveredRecord clock r).status := by
  unfold recoveredRecord
  split
  · next hr =>
    rcases h with he | ⟨-, ht⟩
    · rw [he] at hr
      exact .inr ⟨hr.resolve_right ha, rfl⟩
    · rcases hr with hr | hr <;> rw [hr] at ht <;> cases ht
  · exact h

theorem RowFollows.recovered {id : String} {a : ProcessStatus} {host host' : ProcessHost} {store : ToolStore}
    (h : RowFollows id a host) (ha : a ≠ .queued) (clock : ℤ) (hrows : (rowIds store).Nodup)
    (was : host.rows = store.processes) (now : host'.rows = (storeRecovered clock store.processes store).2.processes) :
    RowFollows id a host' := by
  obtain ⟨hmem, honward⟩ := h
  obtain ⟨hids, hfrom, -⟩ := storeRecovered_rows clock store.processes store (fun _ hr => hr) hrows hrows
  rw [was] at hmem honward
  refine ⟨by rw [now, hids]; exact hmem, fun r hr hid => ?_⟩
  rw [now] at hr
  rcases hfrom r hr with hr | ⟨r₀, hr₀, rfl⟩
  · exact honward r hr hid
  · rw [recoveredRecord_id] at hid
    exact onward_recovered ha clock (honward r₀ hr₀ hid)

theorem RowFollows.step {id : String} {a : ProcessStatus} {l : HostLabel} {host host' : ProcessHost}
    (h : RowFollows id a host) (ha : a ≠ .queued)
    (hlaw : host.Holds (fun s => (s.Sound ∧ s.Listed) ∧ s.Agreed) fun store => (rowIds store).Nodup)
    (hcount : host.counted = true) (hstep : ProcessHost.step l host = some host') : RowFollows id a host' := by
  cases step_move hstep with
  | @served l s s' was step =>
    obtain ⟨⟨hsound, hlisted⟩, hagreed⟩ := hlaw.up was
    have hmove := ProcessServer.rows_move hagreed hsound hlisted (counted_up hcount was) step
    rw [RowFollows, rows_up was] at h
    rw [RowFollows, rows_up rfl]
    obtain ⟨hmem, honward⟩ := h
    have hnodup : (s.manager.store.processes.map ProcessRecord.id).Nodup := hlisted.nodup
    generalize s.manager.store.processes = rows at hmove hmem honward hnodup
    generalize s'.manager.store.processes = rows' at hmove
    have hgrows : ∀ record : ProcessRecord,
        id ∈ (upsert ProcessRecord.id (fun _ new => new) record rows).map ProcessRecord.id := by
      intro record
      rw [map_upsert fun _ => rfl]
      split
      · exact hmem
      · exact List.mem_append_left _ hmem
    cases hmove with
    | same => exact ⟨hmem, honward⟩
    | @added record fresh =>
      refine ⟨hgrows record, fun r hr hid => ?_⟩
      rcases mem_upsert_new hnodup hr with rfl | ⟨hr, -⟩
      · exact absurd (hid ▸ hmem) fresh
      · exact honward r hr hid
    | @changed old record mem hold onward =>
      refine ⟨hgrows record, fun r hr hid => ?_⟩
      rcases mem_upsert_new hnodup hr with rfl | ⟨hr, -⟩
      · exact (honward old mem (hold.symm.trans hid)).trans onward
      · exact honward r hr hid
  | stopped was =>
    rw [RowFollows, rows_up was] at h
    exact h
  | @booted config clock store p was new =>
    rw [Holds, was] at hlaw
    exact h.recovered ha clock hlaw (rows_down was) (by rw [rows_up rfl, new.stored]; rfl)
  | @failed config clock store was =>
    rw [Holds, was] at hlaw
    exact h.recovered ha clock hlaw (rows_down was) (rows_down rfl)
  | gone => exact h

def HasStatus (host : ProcessHost) (id : String) (a : ProcessStatus) : Prop :=
  ∃ s h o, host.state = .up s ∧ s.manager.objects.lookup h = some o ∧ o.record.id = id ∧ o.record.status = a

/-- The statuses that the records have in `host'` may follow those they have in `host`. -/
def StatusesFollow (host host' : ProcessHost) : Prop :=
  ∀ id a b, host.HasStatus id a → host'.HasStatus id b → Onward a b

theorem statuses_follow {P : HostLabel → ProcessHost → Prop} {store : ToolStore} {host host' : ProcessHost}
    (hrows : (rowIds store).Nodup) (hP : ∀ l host, P l host → host.counted = true ∧ endStored l host = true)
    (hs : Reaches step P (start store) host) (hs' : Reaches step P host host') : StatusesFollow host host' := by
  rintro id a b ⟨s, h, o, hup, ho, rfl, rfl⟩ ⟨s', h', o', hup', ho', hid, rfl⟩
  obtain ⟨⟨hsound, hlisted⟩, hagreed⟩ := (agreed_reaches hrows hP hs).up hup
  have ha : o.record.status ≠ .queued := by
    intro hq
    by_cases hl : o.lifecycle = .ended
    · have := (hsound.objects h o ho).ended hl
      rw [hq] at this
      cases this
    · have := (hsound.objects h o ho).going hl
      rw [hq] at this
      cases this
  have hfollows : RowFollows o.record.id o.record.status host := by
    rw [RowFollows, rows_up hup]
    refine ⟨hlisted.objects h o ho, fun r hr hid => .inl ?_⟩
    rw [List.inj_on_of_nodup_map hlisted.nodup hr (hagreed.objects h o ho) hid]
  have hrun : ∀ {t}, Reaches step P host t → RowFollows o.record.id o.record.status t := by
    intro t ht
    induction ht with
    | refl => exact hfollows
    | tail hprev hl hstep ih =>
      exact ih.step ha (agreed_reaches hrows hP (hs.trans hprev)) (hP _ _ hl).1 hstep
  have hend := hrun hs'
  rw [RowFollows, rows_up hup'] at hend
  obtain ⟨-, hagreed'⟩ := (agreed_reaches hrows hP (hs.trans hs')).up hup'
  exact hend.2 _ (hagreed'.objects h' o' ho') hid

/-! ## The process table -/

def held (s : ProcessServer) : ℕ :=
  Table.tally (fun o => running o && o.holdsPermit) s.manager.objects + Table.tally ProcessCall.holdsPermit s.calls

/-- The manager in place holds no more children than it may, and a child it let go of while it ran was signalled. -/
def ChildrenBounded (host : ProcessHost) : Prop :=
  ∀ s, host.state = .up s → held s ≤ max s.manager.config.maxConcurrent 1 ∧
    ∀ h o c, s.manager.objects.lookup h = some o → o.holdsPermit = false → o.child = some c → c.running = true →
      c.killed = true

/-- After a start every process read from the store has ended. -/
def HydratedEnded (host : ProcessHost) : Prop :=
  ∀ config clock host' s, step (.boot config clock) host = some host' → host'.state = .up s →
    ∀ h o, s.manager.objects.lookup h = some o → isTerminalProcessStatus o.record.status = true

theorem childrenBounded_of_sound {host : ProcessHost} (h : host.Holds ProcessServer.Sound fun _ => True) :
    host.ChildrenBounded := by
  intro s hup
  have hsound := h.up hup
  refine ⟨?_, fun n o c ho hl hc hr => ?_⟩
  · have hle : Table.tally (fun o => running o && o.holdsPermit) s.manager.objects ≤
        Table.tally ManagedProcess.holdsPermit s.manager.objects :=
      Table.tally_mono _ fun o ho => (Bool.and_eq_true _ _ ▸ ho).2
    have hconserved := hsound.conserved
    unfold held
    omega
  · have hended : o.lifecycle = .ended := by simpa [ManagedProcess.holdsPermit] using hl
    exact (hsound.objects n o ho).gone hended c hc hr

theorem hydratedEnded (host : ProcessHost) : host.HydratedEnded := by
  intro config clock host' s hstep hup h o ho
  cases step_move hstep with
  | booted was new =>
    obtain rfl := HostState.up.inj hup
    obtain ⟨r, -, rfl⟩ := new.found ho
    exact recoveredRecord_terminal clock r
  | failed was => cases hup

/-- The laws of the process table over every run from a store whose rows have ids of their own: of the children, of the
ids, and of the statuses while the ends that are recorded are stored. -/
theorem process_table {store : ToolStore} (hrows : (rowIds store).Nodup) :
    (∀ host, Reaches step (fun _ _ => True) (start store) host → host.ChildrenBounded ∧ host.HydratedEnded) ∧
      (∀ host, Reaches step (fun _ host => host.counted = true) (start store) host → IdsApart host.starts) ∧
      ∀ host host', Reaches step (fun l host => (host.counted && endStored l host) = true) (start store) host →
        Reaches step (fun l host => (host.counted && endStored l host) = true) host host' →
        StatusesFollow host host' := by
  refine ⟨fun host hs => ⟨childrenBounded_of_sound (sound_reaches hs), hydratedEnded host⟩, fun host hs => ?_,
    fun host host' hs hs' => ?_⟩
  · exact (handed_reaches hrows (fun _ _ h => h) hs).apart
  · exact statuses_follow hrows (fun _ _ h => Bool.and_eq_true _ _ ▸ h) hs hs'

/-! ## Three restarts -/

def running (host : ProcessHost) : ℕ :=
  host.left.countP Child.running + match host.state with
    | .up s => s.children.countP Child.running
    | .down _ => 0

def bootOne : HostLabel := .boot ⟨true, 1, 60000, 65536, 0, 4096, "logs"⟩ 0

def sleepOver : List ProcessLabel := [.task 0 .take] ++ endSleep (some 0) none

def startNothing : List ProcessLabel :=
  [.start 0 (.run ⟨none, none, "sleep 60", none, none⟩), .goOn 0 (.spawned (.error "no such file"))]

def firstStatus (host : ProcessHost) : Option (String × ProcessStatus) :=
  match host.state with
  | .up s => (s.manager.objects.lookup 0).map fun o => (o.record.id, o.record.status)
  | .down _ => none

theorem hasStatus_of_firstStatus {host : ProcessHost} {id : String} {a : ProcessStatus}
    (h : host.firstStatus = some (id, a)) : host.HasStatus id a := by
  unfold firstStatus at h
  split at h
  · next s hup =>
    obtain ⟨o, ho, he⟩ := Option.map_eq_some_iff.mp h
    obtain ⟨hid, ha⟩ := Prod.mk.inj he
    exact ⟨s, 0, o, hup, ho, hid, ha⟩
  · cases h

theorem process_table_sleep : ∃ host host' : ProcessHost, host.firstStatus = some ("proc_1", .running) ∧
    host'.firstStatus = some ("proc_1", .completed) ∧ host'.ChildrenBounded ∧ IdsApart host'.starts ∧
    StatusesFollow host host' := by
  have hrows : (rowIds (ToolStore.empty [])).Nodup := List.nodup_nil
  obtain ⟨hchildren, hids, hstatuses⟩ := process_table hrows
  obtain ⟨host, hs, he⟩ := exists_reaches_of_runAll step (fun l host => host.counted && endStored l host)
    (bootOne :: runSleep.map .serve)
    (fun host => (host.firstStatus, (runAll (guarded step fun l host => host.counted && endStored l host)
      (sleepOver.map .serve) host).map firstStatus))
    (some ("proc_1", .running), some (some ("proc_1", .completed))) (s := start (ToolStore.empty []))
    (by decide +kernel)
  obtain ⟨hfirst, hend⟩ := Prod.mk.inj he
  obtain ⟨host', hrun, hlast⟩ := Option.map_eq_some_iff.mp hend
  have hs' := reaches_of_runAll hrun
  refine ⟨host, host', hfirst, hlast, (hchildren host' ((hs.trans hs').mono fun _ _ _ => trivial)).1,
    hids host' ((hs.trans hs').mono fun _ _ h => (Bool.and_eq_true _ _ ▸ h).1), hstatuses host host' hs hs'⟩

/-- A child outlives its manager; an id whose start failed is handed out again; an end that is not stored is lost. -/
theorem not_process_table :
    (¬ ∀ (store : ToolStore) (host : ProcessHost) (s : ProcessServer), (rowIds store).Nodup →
      Reaches step (fun _ _ => True) (start store) host → host.state = .up s →
        host.running ≤ max s.manager.config.maxConcurrent 1) ∧
    (¬ ∀ (store : ToolStore) (host : ProcessHost), (rowIds store).Nodup →
      Reaches step (fun _ _ => True) (start store) host → (host.starts.map Start.id).Nodup) ∧
    ¬ ∀ (store : ToolStore) (host host' : ProcessHost), (rowIds store).Nodup →
      Reaches step (fun _ _ => True) (start store) host → Reaches step (fun _ _ => True) host host' →
        StatusesFollow host host' := by
  refine ⟨fun hall => ?_, fun hall => ?_, fun hall => ?_⟩
  · obtain ⟨host, hs, he⟩ := exists_reaches_of_runAll step (fun _ _ => true)
      (bootOne :: runSleep.map .serve ++ .stop false :: bootOne :: runSleep.map .serve)
      (fun host => (host.running, match host.state with
        | .up s => some s.manager.config.maxConcurrent
        | .down _ => none)) (2, some 1) (s := start (ToolStore.empty [])) (by decide +kernel)
    obtain ⟨hrunning, hconfig⟩ := Prod.mk.inj he
    cases hup : host.state with
    | down store =>
      rw [hup] at hconfig
      cases hconfig
    | up s =>
      rw [hup] at hconfig
      have hle := hall (ToolStore.empty []) host s List.nodup_nil (hs.mono fun _ _ _ => trivial) hup
      rw [hrunning, Option.some.inj hconfig] at hle
      exact absurd hle (by decide)
  · obtain ⟨host, hs, he⟩ := exists_reaches_of_runAll step (fun _ _ => true)
      (bootOne :: startNothing.map .serve ++ .stop true :: bootOne :: startNothing.map .serve)
      (fun host => host.starts.map Start.id) ["proc_1", "proc_1"] (s := start (ToolStore.empty [])) (by decide +kernel)
    have hnodup := hall (ToolStore.empty []) host List.nodup_nil (hs.mono fun _ _ _ => trivial)
    rw [he] at hnodup
    exact absurd hnodup (by decide)
  · obtain ⟨host, hs, he⟩ :=
      exists_reaches_of_runAll step (fun _ _ => true) (bootOne :: (runSleep ++ sleepOver).map .serve)
      (fun host => (host.firstStatus,
        (runAll (guarded step fun _ _ => true) [.stop true, bootOne] host).map firstStatus))
      (some ("proc_1", .completed), some (some ("proc_1", .failed)))
      (s := start (ToolStore.empty [false, false, true])) (by decide +kernel)
    obtain ⟨hfirst, hend⟩ := Prod.mk.inj he
    obtain ⟨host', hrun, hlast⟩ := Option.map_eq_some_iff.mp hend
    have hs' := (reaches_of_runAll hrun).mono (Q := fun _ _ => True) fun _ _ _ => trivial
    rcases hall (ToolStore.empty [false, false, true]) host host' List.nodup_nil
      (hs.mono fun _ _ _ => trivial) hs' _ _ _
      (hasStatus_of_firstStatus hfirst) (hasStatus_of_firstStatus hlast) with h | ⟨h, -⟩
    · cases h
    · cases h

end ProcessHost

end Gooselake.Tools
