import Gooselake.Core.Store
import Gooselake.Library.Pages

/-!
The event log of the store: what a query returns, and that the sequence numbers of a scope increase in
the order of the appends.
-/

namespace Gooselake.Core

open Data Library

set_option autoImplicit false

def scopeLog (scope : RuntimeEventScope) (scopeId : String) (events : List RuntimeEventRecord) :
    List RuntimeEventRecord :=
  events.filter fun e => e.scope = scope ∧ e.scopeId = scopeId

def Store.listRuntimeEvents (scope : Option (RuntimeEventScope × String)) (afterSeq : Option ℤ) (limit : ℕ)
    (s : Store) : List RuntimeEventRecord :=
  match scope with
  | some (scope, scopeId) =>
    (((scopeLog scope scopeId s.events).filter (isAfter (fun e => e.seq) afterSeq)).insertionSort
      fun a b => a.seq ≤ b.seq).take limit
  | none =>
    ((s.events.filter (isAfter (fun e => e.rowId) afterSeq)).insertionSort fun a b => a.rowId ≤ b.rowId).take limit

/-- In every scope the sequence numbers are positive and increase in the order of the appends. -/
structure Sequenced (events : List RuntimeEventRecord) : Prop where
  increasing : ∀ scope scopeId, Increasing (fun e => e.seq) (scopeLog scope scopeId events)
  positive : ∀ e ∈ events, 0 < e.seq

theorem Sequenced.nil : Sequenced [] := ⟨fun _ _ => List.Pairwise.nil, fun _ h => absurd h (by simp)⟩

theorem le_foldl_max (l : List RuntimeEventRecord) (m : ℤ) :
    m ≤ l.foldl (fun m e => max m e.seq) m ∧ ∀ e ∈ l, e.seq ≤ l.foldl (fun m e => max m e.seq) m := by
  induction l generalizing m with
  | nil => exact ⟨le_refl m, fun _ h => absurd h (by simp)⟩
  | cons a l ih =>
    obtain ⟨hm, hl⟩ := ih (max m a.seq)
    refine ⟨(le_max_left m a.seq).trans hm, fun e he => ?_⟩
    rcases List.mem_cons.mp he with rfl | he
    · exact (le_max_right m e.seq).trans hm
    · exact hl e he

theorem lt_nextSeq {scope : RuntimeEventScope} {scopeId : String} {events : List RuntimeEventRecord}
    {e : RuntimeEventRecord} (he : e ∈ scopeLog scope scopeId events) : e.seq < Store.nextSeq scope scopeId events := by
  have := (le_foldl_max (scopeLog scope scopeId events) 0).2 e he
  unfold Store.nextSeq
  exact Int.lt_add_one_of_le this

theorem nextSeq_pos (scope : RuntimeEventScope) (scopeId : String) (events : List RuntimeEventRecord) :
    0 < Store.nextSeq scope scopeId events := by
  have := (le_foldl_max (scopeLog scope scopeId events) 0).1
  unfold Store.nextSeq
  exact Int.lt_add_one_of_le this

def appendedRecord (event : NewRuntimeEvent) (events : List RuntimeEventRecord) : RuntimeEventRecord :=
  { event with rowId := events.length + 1, seq := Store.nextSeq event.scope event.scopeId events }

theorem Sequenced.append {events : List RuntimeEventRecord} (h : Sequenced events) (event : NewRuntimeEvent) :
    Sequenced (events ++ [appendedRecord event events]) where
  increasing scope scopeId := by
    simp only [scopeLog, List.filter_append, Increasing, List.pairwise_append]
    refine ⟨h.increasing scope scopeId, ?_, fun a ha b hb => ?_⟩
    · exact List.Pairwise.sublist List.filter_sublist (List.pairwise_singleton _ _)
    · obtain ⟨hb, hmatch⟩ := List.mem_filter.mp hb
      obtain rfl := List.mem_singleton.mp hb
      obtain ⟨rfl, rfl⟩ : event.scope = scope ∧ event.scopeId = scopeId := of_decide_eq_true hmatch
      exact lt_nextSeq ha
  positive e he := by
    rcases List.mem_append.mp he with he | he
    · exact h.positive e he
    · obtain rfl := List.mem_singleton.mp he
      exact nextSeq_pos _ _ _

theorem appendRuntimeEvent_cases (event : NewRuntimeEvent) (s : Store) :
    ((Store.appendRuntimeEvent event s).2.events = s.events ∧ ∀ r, (Store.appendRuntimeEvent event s).1 = .ok r →
      s.events.find? (fun e => e.eventId = event.eventId) = some r) ∨
    (s.events.find? (fun e => e.eventId = event.eventId) = none ∧
      (Store.appendRuntimeEvent event s).1 = .ok (appendedRecord event s.events) ∧
      (Store.appendRuntimeEvent event s).2.events = s.events ++ [appendedRecord event s.events]) := by
  unfold Store.appendRuntimeEvent
  split
  · next existing hfind =>
    left
    split
    · exact ⟨rfl, fun r hr => by cases hr⟩
    · exact ⟨rfl, fun r hr => Except.ok.inj hr ▸ hfind⟩
    · exact ⟨rfl, fun r hr => Except.ok.inj hr ▸ hfind⟩
  · next hfind =>
    simp only [Store.write]
    rcases hf : s.faults with _ | ⟨_ | _, rest⟩
    · exact .inr ⟨hfind, rfl, rfl⟩
    · exact .inr ⟨hfind, rfl, rfl⟩
    · exact .inl ⟨rfl, fun r hr => by cases hr⟩

theorem listRuntimeEvents_scope {s : Store} (h : Sequenced s.events) (scope : RuntimeEventScope) (scopeId : String)
    (afterSeq : Option ℤ) (limit : ℕ) :
    s.listRuntimeEvents (some (scope, scopeId)) afterSeq limit =
      pageAfter (fun e => e.seq) afterSeq limit (scopeLog scope scopeId s.events) := by
  simp only [Store.listRuntimeEvents, pageAfter]
  rw [((h.increasing scope scopeId).filter _).insertionSort_eq]

/-! ## Every log -/

def Store.appendRuntimeEvents (events : List NewRuntimeEvent) (s : Store) : Store :=
  events.foldl (fun s event => (Store.appendRuntimeEvent event s).2) s

/-- The numbers from 1 to `n`. -/
def countFrom1 (n : ℕ) : List ℤ := (List.range n).map fun k : ℕ => (k : ℤ) + 1

theorem countFrom1_succ (n : ℕ) : countFrom1 (n + 1) = countFrom1 n ++ [(n : ℤ) + 1] := by
  simp [countFrom1, List.range_succ]

theorem mem_countFrom1 {n : ℕ} {k : ℤ} : k ∈ countFrom1 n ↔ 1 ≤ k ∧ k ≤ n := by
  simp only [countFrom1, List.mem_map, List.mem_range]
  constructor
  · rintro ⟨j, hj, rfl⟩
    omega
  · intro ⟨hlow, hhigh⟩
    exact ⟨(k - 1).toNat, by omega, by omega⟩

theorem pairwise_countFrom1 (n : ℕ) : (countFrom1 n).Pairwise (· < ·) := by
  induction n with
  | zero => exact List.Pairwise.nil
  | succ n ih =>
    rw [countFrom1_succ]
    refine List.pairwise_append.mpr ⟨ih, List.pairwise_singleton _ _, fun a ha b hb => ?_⟩
    have hle := (mem_countFrom1.mp ha).2
    obtain rfl := List.mem_singleton.mp hb
    omega

/-- The sequence numbers of each scope count from 1 in the order of the appends, and so do the row ids of the whole
log; no event id is there twice. -/
structure LogNumbered (events : List RuntimeEventRecord) : Prop where
  seqs : ∀ scope scopeId, (scopeLog scope scopeId events).map (fun e => e.seq) =
    countFrom1 (scopeLog scope scopeId events).length
  rows : events.map (fun e => e.rowId) = countFrom1 events.length
  ids : (events.map fun e => e.eventId).Nodup

theorem foldl_max_le {l : List RuntimeEventRecord} {m b : ℤ} (hm : m ≤ b) (h : ∀ e ∈ l, e.seq ≤ b) :
    l.foldl (fun m e => max m e.seq) m ≤ b := by
  induction l generalizing m with
  | nil => exact hm
  | cons e l ih => exact ih (max_le hm (h e List.mem_cons_self)) fun e' he' => h e' (List.mem_cons_of_mem _ he')

theorem LogNumbered.nextSeq {events : List RuntimeEventRecord} (h : LogNumbered events) (scope : RuntimeEventScope)
    (scopeId : String) : Store.nextSeq scope scopeId events = (scopeLog scope scopeId events).length + 1 := by
  have hseqs := h.seqs scope scopeId
  have hle : (scopeLog scope scopeId events).foldl (fun m e => max m e.seq) 0 ≤
      (scopeLog scope scopeId events).length := by
    refine foldl_max_le (by omega) fun e he => ?_
    have hmem : e.seq ∈ countFrom1 (scopeLog scope scopeId events).length := hseqs ▸ List.mem_map_of_mem he
    exact (mem_countFrom1.mp hmem).2
  have hge : ((scopeLog scope scopeId events).length : ℤ) ≤
      (scopeLog scope scopeId events).foldl (fun m e => max m e.seq) 0 := by
    by_cases hempty : (scopeLog scope scopeId events).length = 0
    · rw [hempty]
      exact (le_foldl_max _ 0).1
    · have hmem : ((scopeLog scope scopeId events).length : ℤ) ∈ (scopeLog scope scopeId events).map
          fun e => e.seq := by
        rw [hseqs]
        exact mem_countFrom1.mpr ⟨by omega, by omega⟩
      obtain ⟨e, he, hseq⟩ := List.mem_map.mp hmem
      rw [← hseq]
      exact (le_foldl_max _ 0).2 e he
  unfold Store.nextSeq
  change (scopeLog scope scopeId events).foldl (fun m e => max m e.seq) 0 + 1 = _
  omega

theorem LogNumbered.append {events : List RuntimeEventRecord} (h : LogNumbered events) {event : NewRuntimeEvent}
    (hnew : events.find? (fun e => e.eventId = event.eventId) = none) :
    LogNumbered (events ++ [appendedRecord event events]) := by
  refine ⟨fun scope scopeId => ?_, ?_, ?_⟩
  · by_cases hscope : event.scope = scope ∧ event.scopeId = scopeId
    · obtain ⟨rfl, rfl⟩ := hscope
      have hlog : scopeLog event.scope event.scopeId (events ++ [appendedRecord event events]) =
          scopeLog event.scope event.scopeId events ++ [appendedRecord event events] := by
        simp [scopeLog, List.filter_append, appendedRecord]
      rw [hlog, List.map_append, h.seqs, List.length_append, List.length_singleton, countFrom1_succ]
      exact congrArg (fun seq => _ ++ [seq]) (h.nextSeq _ _)
    · have hlog : scopeLog scope scopeId (events ++ [appendedRecord event events]) = scopeLog scope scopeId events := by
        simp [scopeLog, List.filter_append, appendedRecord, hscope]
      rw [hlog]
      exact h.seqs scope scopeId
  · rw [List.map_append, h.rows, List.length_append, List.length_singleton, countFrom1_succ]
    rfl
  · rw [List.map_append]
    refine List.nodup_append.mpr ⟨h.ids, List.nodup_singleton _, fun a ha b hb he => ?_⟩
    obtain ⟨e, hmem, rfl⟩ := List.mem_map.mp ha
    obtain rfl := List.mem_singleton.mp hb
    have := List.find?_eq_none.mp hnew e hmem
    exact this (decide_eq_true he)

theorem logNumbered_nil : LogNumbered [] := ⟨fun _ _ => rfl, rfl, List.nodup_nil⟩

theorem logNumbered_appends (events : List NewRuntimeEvent) {s : Store} (h : LogNumbered s.events) :
    LogNumbered (Store.appendRuntimeEvents events s).events := by
  induction events generalizing s with
  | nil => exact h
  | cons event events ih =>
    refine ih ?_
    rcases appendRuntimeEvent_cases event s with ⟨hsame, -⟩ | ⟨hnew, -, hadded⟩
    · rw [hsame]
      exact h
    · rw [hadded]
      exact h.append hnew

/-- What one more append can do: with a stored event id it returns the stored record and adds nothing, else it adds
the next record; it fails only on a fault of the store, and then adds nothing. -/
structure AppendLaw (s : Store) : Prop where
  stored : ∀ event, ∀ existing ∈ s.events, existing.eventId = event.eventId →
    (Store.appendRuntimeEvent event s).2.events = s.events ∧
      (s.faults.headD false = false → (Store.appendRuntimeEvent event s).1 = .ok existing)
  added : ∀ event, (∀ e ∈ s.events, e.eventId ≠ event.eventId) → s.faults.headD false = false →
    (Store.appendRuntimeEvent event s).1 = .ok (appendedRecord event s.events) ∧
      (Store.appendRuntimeEvent event s).2.events = s.events ++ [appendedRecord event s.events]
  fault : ∀ event, s.faults.headD false = true → (∃ e, (Store.appendRuntimeEvent event s).1 = .error e) ∧
    (Store.appendRuntimeEvent event s).2.events = s.events

theorem LogNumbered.appendLaw {s : Store} (h : LogNumbered s.events) : AppendLaw s := by
  refine ⟨fun event existing hmem hid => ?_, fun event hnew hfault => ?_, fun event hfault => ?_⟩
  · have hfind : s.events.find? (fun e => e.eventId = event.eventId) = some existing := by
      obtain ⟨first, hfirst⟩ := Option.isSome_iff_exists.mp (List.find?_isSome (p := fun e => e.eventId = event.eventId)
        |>.mpr ⟨existing, hmem, decide_eq_true hid⟩)
      have heq : first.eventId = event.eventId := by simpa using List.find?_some hfirst
      obtain rfl := List.inj_on_of_nodup_map h.ids (List.mem_of_find?_eq_some hfirst) hmem (heq.trans hid.symm)
      exact hfirst
    unfold Store.appendRuntimeEvent
    rw [hfind]
    rcases hf : s.faults with _ | ⟨_ | _, rest⟩ <;> simp
  · have hfind : s.events.find? (fun e => e.eventId = event.eventId) = none :=
      List.find?_eq_none.mpr fun e he => by simpa using hnew e he
    unfold Store.appendRuntimeEvent
    rw [hfind]
    rcases hf : s.faults with _ | ⟨_ | _, rest⟩
    · simp [Store.write, hf, appendedRecord]
    · simp [Store.write, hf, appendedRecord]
    · rw [hf] at hfault
      cases hfault
  · unfold Store.appendRuntimeEvent Store.write
    rcases hf : s.faults with _ | ⟨_ | _, rest⟩
    · rw [hf] at hfault
      cases hfault
    · rw [hf] at hfault
      cases hfault
    · cases s.events.find? fun e => e.eventId = event.eventId <;> exact ⟨⟨_, rfl⟩, rfl⟩

/-- Every sequence of appends to a new log, whichever of them fail. -/
theorem event_log_numbered (faults : List Bool) (events : List NewRuntimeEvent) :
    LogNumbered (Store.appendRuntimeEvents events (Store.empty faults)).events ∧
      AppendLaw (Store.appendRuntimeEvents events (Store.empty faults)) := by
  have h : LogNumbered (Store.appendRuntimeEvents events (Store.empty faults)).events :=
    logNumbered_appends events logNumbered_nil
  exact ⟨h, h.appendLaw⟩

end Gooselake.Core
