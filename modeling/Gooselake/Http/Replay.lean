import Mathlib.Logic.Function.Iterate
import Gooselake.Http.Events

/-!
Replaying the log page by page. The loops of the event streams read on from the last cursor until a page is short
or empty; the streams of a team and of the whole log then poll from there. Events may be appended at any time.
-/

namespace Gooselake.Http

open Gooselake.Core Data Library

set_option autoImplicit false

/-! ## Readers -/

def cursorOf (scope : Option (RuntimeEventScope × String)) (e : RuntimeEventRecord) : ℤ :=
  match scope with
  | some _ => e.seq
  | none => e.rowId

def matching (scope : Option (RuntimeEventScope × String)) (events : List RuntimeEventRecord) :
    List RuntimeEventRecord :=
  match scope with
  | some (scope, scopeId) => scopeLog scope scopeId events
  | none => events

inductive ReaderPhase where
  | replaying (replayCursor : Option ℤ)
  | polling (cursor : ℤ)

structure Reader where
  scope : Option (RuntimeEventScope × String)
  /-- The cursor of the request. -/
  cursor : Option ℤ
  limit : ℕ
  phase : ReaderPhase
  events : List RuntimeEventRecord

def Reader.read (store : Store) (r : Reader) : Reader :=
  match r.phase with
  | .replaying replayCursor =>
    let page := store.listRuntimeEvents r.scope replayCursor r.limit
    match page.getLast? with
    | none => { r with phase := .polling ((replayCursor.or r.cursor).getD 0) }
    | some last => { r with
        phase := if page.length < r.limit then .polling (cursorOf r.scope last) else
          .replaying (some (cursorOf r.scope last))
        events := r.events ++ page }
  | .polling cursor =>
    let page := store.listRuntimeEvents r.scope (some cursor) r.limit
    { r with
      phase := .polling (page.foldl (fun cursor e => max cursor (cursorOf r.scope e)) cursor)
      events := r.events ++ page }

def Reader.isReplaying (r : Reader) : Bool :=
  match r.phase with
  | .replaying _ => true
  | .polling _ => false

def Reader.position (r : Reader) : Option ℤ :=
  match r.phase with
  | .replaying replayCursor => replayCursor
  | .polling cursor => some cursor

structure Replay where
  store : Store
  reader : Reader

inductive ReplayLabel where
  | append (event : NewRuntimeEvent)
  | read

namespace Replay

def step : ReplayLabel → Replay → Option Replay
  | .append event, s => some { s with store := (Store.appendRuntimeEvent event s.store).2 }
  | .read, s => some { s with reader := s.reader.read s.store }

def start (store : Store) (scope : Option (RuntimeEventScope × String)) (cursor : Option ℤ)
    (limit : Option ℕ) : Replay :=
  ⟨store, scope, cursor, replayPageLimit limit, .replaying cursor, []⟩

def after (s : Replay) (cursor : Option ℤ) : List RuntimeEventRecord :=
  (matching s.reader.scope s.store.events).filter (isAfter (cursorOf s.reader.scope) cursor)

/-- The property: what was given and what comes after the position of the reader are the events after the cursor of
the request, in increasing order; the loop ends, and when it does all of them have been given. -/
structure Complete (s : Replay) : Prop where
  given : s.reader.events ++ s.after s.reader.position = s.after s.reader.cursor
  increasing : (s.reader.events.map (cursorOf s.reader.scope)).Pairwise (· < ·)
  whole : s.reader.isReplaying = true → (s.reader.read s.store).isReplaying = false →
    (s.reader.read s.store).events = s.after s.reader.cursor
  ends : ∃ n, ((Reader.read s.store)^[n] s.reader).isReplaying = false

end Replay

/-! ## Pages of the log -/

theorem matching_increasing {events : List RuntimeEventRecord} (h : LogNumbered events)
    (scope : Option (RuntimeEventScope × String)) : Increasing (cursorOf scope) (matching scope events) := by
  cases scope with
  | none =>
    refine List.pairwise_map.mp ?_
    change (events.map fun e => e.rowId).Pairwise (· < ·)
    rw [h.rows]
    exact pairwise_countFrom1 _
  | some p =>
    refine List.pairwise_map.mp ?_
    change ((scopeLog p.1 p.2 events).map fun e => e.seq).Pairwise (· < ·)
    rw [h.seqs]
    exact pairwise_countFrom1 _

theorem matching_pos {events : List RuntimeEventRecord} (h : LogNumbered events)
    {scope : Option (RuntimeEventScope × String)} {e : RuntimeEventRecord} (he : e ∈ matching scope events) :
    0 < cursorOf scope e := by
  cases scope with
  | none =>
    have hmem : e.rowId ∈ countFrom1 events.length := h.rows ▸ List.mem_map_of_mem he
    have := (mem_countFrom1.mp hmem).1
    change 0 < e.rowId
    omega
  | some p =>
    have hmem : e.seq ∈ countFrom1 (scopeLog p.1 p.2 events).length := h.seqs p.1 p.2 ▸ List.mem_map_of_mem he
    have := (mem_countFrom1.mp hmem).1
    change 0 < e.seq
    omega

theorem listRuntimeEvents_eq {store : Store} (h : LogNumbered store.events)
    (scope : Option (RuntimeEventScope × String))
    (cursor : Option ℤ) (limit : ℕ) : store.listRuntimeEvents scope cursor limit =
      pageAfter (cursorOf scope) cursor limit (matching scope store.events) := by
  have hsorted := ((matching_increasing h scope).filter (isAfter (cursorOf scope) cursor)).insertionSort_eq
  cases scope with
  | none => exact congrArg (List.take limit) hsorted
  | some p => exact congrArg (List.take limit) hsorted

theorem foldl_max_page {scope : Option (RuntimeEventScope × String)} {page : List RuntimeEventRecord} {cursor : ℤ}
    {last : RuntimeEventRecord} (h : Increasing (cursorOf scope) page) (hlast : page.getLast? = some last)
    (hafter : ∀ e ∈ page, cursor < cursorOf scope e) :
    page.foldl (fun cursor e => max cursor (cursorOf scope e)) cursor = cursorOf scope last := by
  induction page generalizing cursor with
  | nil => cases hlast
  | cons e page ih =>
    obtain ⟨he, hpage⟩ := List.pairwise_cons.mp h
    have hmax : max cursor (cursorOf scope e) = cursorOf scope e := max_eq_right (hafter e List.mem_cons_self).le
    rw [List.foldl_cons, hmax]
    cases page with
    | nil =>
      obtain rfl := Option.some.inj hlast
      rfl
    | cons e' page => exact ih hpage (by rwa [List.getLast?_cons_cons] at hlast) he

/-! ## Steps -/

def Stands (s : Replay) : Prop :=
  s.reader.position = s.reader.cursor ∨ (s.reader.cursor = none ∧ s.reader.position = some 0) ∨
    ∃ e ∈ matching s.reader.scope s.store.events, s.reader.position = some (cursorOf s.reader.scope e) ∧
      isAfter (cursorOf s.reader.scope) s.reader.cursor e = true

structure Reading (s : Replay) : Prop where
  numbered : LogNumbered s.store.events
  limit : 0 < s.reader.limit
  stands : Stands s
  given : s.reader.events ++ s.after s.reader.position = s.after s.reader.cursor

section

variable {s : Replay}

theorem Stands.after_iff (h : Stands s) {e : RuntimeEventRecord} (hpos : 0 < cursorOf s.reader.scope e)
    (hlast : ∀ e' ∈ matching s.reader.scope s.store.events, cursorOf s.reader.scope e' < cursorOf s.reader.scope e) :
    isAfter (cursorOf s.reader.scope) s.reader.position e = isAfter (cursorOf s.reader.scope) s.reader.cursor e := by
  rcases h with heq | ⟨hnone, hzero⟩ | ⟨e', he', hposition, hafter⟩
  · rw [heq]
  · rw [hnone, hzero]
    simpa [isAfter] using hpos
  · rw [hposition, isAfter_trans hafter (hlast e' he')]
    simpa [isAfter] using hlast e' he'

theorem Reading.append (h : Reading s) (event : NewRuntimeEvent) :
    Reading { s with store := (Store.appendRuntimeEvent event s.store).2 } := by
  rcases appendRuntimeEvent_cases event s.store with ⟨hsame, -⟩ | ⟨hnew, -, hadded⟩
  · refine ⟨?_, h.limit, ?_, ?_⟩
    · rw [hsame]
      exact h.numbered
    · unfold Stands
      rw [hsame]
      exact h.stands
    · unfold Replay.after
      rw [hsame]
      exact h.given
  · have hnumbered : LogNumbered (s.store.events ++ [appendedRecord event s.store.events]) := h.numbered.append hnew
    obtain ⟨added, hmatching, hadded'⟩ : ∃ added, matching s.reader.scope (s.store.events ++ [appendedRecord event
        s.store.events]) = matching s.reader.scope s.store.events ++ added ∧ added.length ≤ 1 := by
      cases s.reader.scope with
      | none => exact ⟨_, rfl, le_rfl⟩
      | some p => exact ⟨_, List.filter_append _ _, List.length_filter_le _ _⟩
    have hincreasing := matching_increasing hnumbered s.reader.scope
    have hpositive : ∀ e ∈ added, 0 < cursorOf s.reader.scope e := fun e he =>
      matching_pos hnumbered (hmatching ▸ List.mem_append_right _ he)
    rw [hmatching] at hincreasing
    have hlast : ∀ e ∈ added, ∀ e' ∈ matching s.reader.scope s.store.events,
        cursorOf s.reader.scope e' < cursorOf s.reader.scope e := fun e he e' he' =>
      (List.pairwise_append.mp hincreasing).2.2 e' he' e he
    have hfilter : added.filter (isAfter (cursorOf s.reader.scope) s.reader.position) =
        added.filter (isAfter (cursorOf s.reader.scope) s.reader.cursor) :=
      List.filter_congr fun e he => h.stands.after_iff (hpositive e he) (hlast e he)
    refine ⟨?_, h.limit, ?_, ?_⟩
    · rw [hadded]
      exact hnumbered
    · rcases h.stands with heq | hzero | ⟨e, he, hposition, hafter⟩
      · exact .inl heq
      · exact .inr (.inl hzero)
      · refine .inr (.inr ⟨e, ?_, hposition, hafter⟩)
        rw [hadded, hmatching]
        exact List.mem_append_left _ he
    · have hgiven := h.given
      unfold Replay.after at hgiven ⊢
      dsimp only
      rw [hadded, hmatching, List.filter_append, List.filter_append, hfilter, ← List.append_assoc, hgiven]

theorem Reading.page (h : Reading s) {last : RuntimeEventRecord}
    (hlast : (s.store.listRuntimeEvents s.reader.scope s.reader.position s.reader.limit).getLast? = some last) :
    s.store.listRuntimeEvents s.reader.scope s.reader.position s.reader.limit ++
        s.after (some (cursorOf s.reader.scope last)) = s.after s.reader.position ∧
      last ∈ matching s.reader.scope s.store.events ∧
      isAfter (cursorOf s.reader.scope) s.reader.position last = true := by
  rw [listRuntimeEvents_eq h.numbered] at hlast ⊢
  refine ⟨pageAfter_append (matching_increasing h.numbered _) hlast, ?_⟩
  exact List.mem_filter.mp (List.mem_of_mem_take (List.mem_of_getLast? hlast))

theorem Stands.after_cursor (h : Stands s) {e : RuntimeEventRecord}
    (hafter : isAfter (cursorOf s.reader.scope) s.reader.position e = true) :
    isAfter (cursorOf s.reader.scope) s.reader.cursor e = true := by
  rcases h with heq | ⟨hnone, -⟩ | ⟨e', -, hposition, hafter'⟩
  · rwa [← heq]
  · rw [hnone]
    rfl
  · rw [hposition] at hafter
    exact isAfter_trans hafter' (by simpa [isAfter] using hafter)

theorem position_advanced {r : Reader} {c : Prop} [Decidable c] (events : List RuntimeEventRecord) (last : ℤ) :
    ({ r with phase := if c then .polling last else .replaying (some last), events := events } : Reader).position =
      some last := by
  by_cases hc : c
  · simp [Reader.position, hc]
  · simp [Reader.position, hc]

theorem Reading.advance (h : Reading s) {last : RuntimeEventRecord} {phase : ReaderPhase}
    (hlast : (s.store.listRuntimeEvents s.reader.scope s.reader.position s.reader.limit).getLast? = some last)
    (hphase : ({ s.reader with
      phase := phase
      events := s.reader.events ++
        s.store.listRuntimeEvents s.reader.scope s.reader.position s.reader.limit } : Reader).position =
        some (cursorOf s.reader.scope last)) :
    Reading { s with reader := { s.reader with
      phase := phase
      events := s.reader.events ++ s.store.listRuntimeEvents s.reader.scope s.reader.position s.reader.limit } } := by
  obtain ⟨hpage, hmem, hafter⟩ := h.page hlast
  refine ⟨h.numbered, h.limit, .inr (.inr ⟨last, hmem, hphase, h.stands.after_cursor hafter⟩), ?_⟩
  have hgiven := h.given
  rw [← hpage, ← List.append_assoc] at hgiven
  refine Eq.trans (congrArg _ ?_) hgiven
  exact congrArg (fun p => s.after p) hphase

theorem Reading.zero (h : Reading s) : s.after (some 0) = s.after none := by
  refine List.filter_congr fun e he => ?_
  simpa [isAfter] using matching_pos h.numbered he

theorem Reading.read (h : Reading s) : Reading { s with reader := s.reader.read s.store } := by
  cases hphase : s.reader.phase with
  | replaying replayCursor =>
    have hposition : s.reader.position = replayCursor := by simp [Reader.position, hphase]
    cases hlast : (s.store.listRuntimeEvents s.reader.scope replayCursor s.reader.limit).getLast? with
    | none =>
      have hread : s.reader.read s.store =
          { s.reader with phase := .polling ((replayCursor.or s.reader.cursor).getD 0) } := by
        simp [Reader.read, hphase, hlast]
      rw [hread]
      cases replayCursor with
      | none =>
        have hcursor : s.reader.cursor = none := by
          rcases h.stands with heq | ⟨hnone, -⟩ | ⟨e, -, hsome, -⟩
          · exact heq.symm.trans hposition
          · exact hnone
          · rw [hposition] at hsome
            cases hsome
        refine ⟨h.numbered, h.limit, .inr (.inl ⟨hcursor, by simp [Reader.position, hcursor]⟩), ?_⟩
        have hgiven := h.given
        rw [hposition, ← h.zero] at hgiven
        change s.reader.events ++ s.after (some ((none.or s.reader.cursor).getD 0)) = s.after s.reader.cursor
        rw [hcursor] at hgiven ⊢
        exact hgiven
      | some c =>
        have hsame : ({ s.reader with phase := .polling (((some c).or s.reader.cursor).getD 0) } : Reader).position =
            s.reader.position := hposition.symm
        refine ⟨h.numbered, h.limit, ?_, ?_⟩
        · unfold Stands
          rw [hsame]
          exact h.stands
        · rw [hsame]
          exact h.given
    | some last =>
      have hread : s.reader.read s.store = { s.reader with
          phase := if (s.store.listRuntimeEvents s.reader.scope s.reader.position s.reader.limit).length < s.reader.limit then
            .polling (cursorOf s.reader.scope last) else .replaying (some (cursorOf s.reader.scope last))
          events := s.reader.events ++ s.store.listRuntimeEvents s.reader.scope s.reader.position s.reader.limit } := by
        rw [hposition]
        simp [Reader.read, hphase, hlast]
      rw [hread]
      refine h.advance (hposition ▸ hlast) ?_
      exact position_advanced _ _
  | polling cursor =>
    have hposition : s.reader.position = some cursor := by simp [Reader.position, hphase]
    cases hlast : (s.store.listRuntimeEvents s.reader.scope (some cursor) s.reader.limit).getLast? with
    | none =>
      have hempty := List.getLast?_eq_none_iff.mp hlast
      have hread : s.reader.read s.store = s.reader := by
        obtain ⟨store, scope, requested, limit, phase, events⟩ := s
        obtain rfl : phase = _ := hphase
        simp only at hempty
        simp [Reader.read, hempty]
      rw [hread]
      exact h
    | some last =>
      have hpage := listRuntimeEvents_eq h.numbered s.reader.scope (some cursor) s.reader.limit
      have hincreasing : Increasing (cursorOf s.reader.scope)
          (s.store.listRuntimeEvents s.reader.scope (some cursor) s.reader.limit) := by
        rw [hpage]
        exact ((matching_increasing h.numbered _).filter _).sublist (List.take_sublist _ _)
      have hafter : ∀ e ∈ s.store.listRuntimeEvents s.reader.scope (some cursor) s.reader.limit,
          cursor < cursorOf s.reader.scope e := by
        intro e he
        rw [hpage] at he
        simpa [isAfter] using (List.mem_filter.mp (List.mem_of_mem_take he)).2
      have hread : s.reader.read s.store = { s.reader with
          phase := .polling (cursorOf s.reader.scope last)
          events := s.reader.events ++ s.store.listRuntimeEvents s.reader.scope s.reader.position s.reader.limit } := by
        rw [hposition, ← foldl_max_page hincreasing hlast hafter]
        simp [Reader.read, hphase]
      rw [hread]
      exact h.advance (hposition ▸ hlast) rfl

/-! ## The end of the loop -/

theorem Reading.whole (h : Reading s) (hreplaying : s.reader.isReplaying = true)
    (hends : (s.reader.read s.store).isReplaying = false) :
    (s.reader.read s.store).events = s.after s.reader.cursor := by
  cases hphase : s.reader.phase with
  | polling cursor => simp [Reader.isReplaying, hphase] at hreplaying
  | replaying replayCursor =>
    have hposition : s.reader.position = replayCursor := by simp [Reader.position, hphase]
    have hgiven := h.given
    rw [hposition] at hgiven
    have hrest : (s.store.listRuntimeEvents s.reader.scope replayCursor s.reader.limit).length < s.reader.limit →
        s.store.listRuntimeEvents s.reader.scope replayCursor s.reader.limit = s.after replayCursor := by
      rw [listRuntimeEvents_eq h.numbered]
      exact pageAfter_of_short
    cases hlast : (s.store.listRuntimeEvents s.reader.scope replayCursor s.reader.limit).getLast? with
    | none =>
      have hempty := List.getLast?_eq_none_iff.mp hlast
      have hshort := hrest (by rw [hempty]; exact h.limit)
      rw [hempty] at hshort
      rw [← hgiven, ← hshort, List.append_nil]
      simp [Reader.read, hphase, hlast]
    | some last =>
      have hlength : (s.store.listRuntimeEvents s.reader.scope replayCursor s.reader.limit).length <
          s.reader.limit := by
        by_contra hlong
        simp [Reader.read, Reader.isReplaying, hphase, hlast, hlong] at hends
      rw [← hgiven, ← hrest hlength]
      simp [Reader.read, hphase, hlast]

theorem Reading.ends (h : Reading s) : ∃ n, ((Reader.read s.store)^[n] s.reader).isReplaying = false := by
  induction hn : (s.after s.reader.position).length using Nat.strong_induction_on generalizing s with
  | _ n ih =>
    by_cases hreplaying : s.reader.isReplaying = true
    swap
    · exact ⟨0, by simpa using hreplaying⟩
    by_cases hends : (s.reader.read s.store).isReplaying = true
    swap
    · exact ⟨1, by simpa using hends⟩
    have hless : (({ s with reader := s.reader.read s.store } : Replay).after
        (s.reader.read s.store).position).length < n := by
      cases hphase : s.reader.phase with
      | polling cursor => simp [Reader.isReplaying, hphase] at hreplaying
      | replaying replayCursor =>
        have hposition : s.reader.position = replayCursor := by simp [Reader.position, hphase]
        cases hlast : (s.store.listRuntimeEvents s.reader.scope replayCursor s.reader.limit).getLast? with
        | none => simp [Reader.read, Reader.isReplaying, hphase, hlast] at hends
        | some last =>
          obtain ⟨hpage, -⟩ := h.page (hposition ▸ hlast)
          have hlength := congrArg List.length hpage
          rw [List.length_append, hn] at hlength
          have hnonempty : 0 < (s.store.listRuntimeEvents s.reader.scope s.reader.position s.reader.limit).length := by
            rw [hposition]
            exact List.length_pos_of_mem (List.mem_of_getLast? hlast)
          have hmoved : (s.reader.read s.store).scope = s.reader.scope ∧
              (s.reader.read s.store).position = some (cursorOf s.reader.scope last) := by
            have hread : s.reader.read s.store = { s.reader with
                phase := if (s.store.listRuntimeEvents s.reader.scope replayCursor s.reader.limit).length < s.reader.limit then
                  .polling (cursorOf s.reader.scope last) else .replaying (some (cursorOf s.reader.scope last))
                events := s.reader.events ++
                    s.store.listRuntimeEvents s.reader.scope replayCursor s.reader.limit } := by
              simp [Reader.read, hphase, hlast]
            rw [hread]
            exact ⟨rfl, position_advanced _ _⟩
          unfold Replay.after at hlength ⊢
          dsimp only
          rw [hmoved.1, hmoved.2]
          omega
    obtain ⟨k, hk⟩ := ih _ hless h.read rfl
    exact ⟨k + 1, hk⟩

theorem Reading.complete (h : Reading s) : s.Complete := by
  refine ⟨h.given, ?_, h.whole, h.ends⟩
  have hsorted : Increasing (cursorOf s.reader.scope) (s.after s.reader.cursor) :=
    (matching_increasing h.numbered s.reader.scope).filter _
  rw [← h.given] at hsorted
  exact (Increasing.map_keys (List.pairwise_append.mp hsorted).1)

end

/-! ## Every run -/

/-- For every log, scope, cursor and requested limit, and whatever is appended meanwhile. -/
theorem replay_complete {faults : List Bool} {events : List NewRuntimeEvent}
    {scope : Option (RuntimeEventScope × String)} {cursor : Option ℤ} {limit : Option ℕ} {s : Replay}
    (hr : Reaches Replay.step (fun _ _ => True)
      (Replay.start (Store.appendRuntimeEvents events (Store.empty faults)) scope cursor limit) s) : s.Complete := by
  refine Reading.complete (hr.invariant (I := Reading) ?_ fun l t u h _ hs => ?_)
  · refine ⟨logNumbered_appends events logNumbered_nil, ?_, .inl rfl, rfl⟩
    change 0 < min (max (limit.getD 2000) 1) 10000
    omega
  · cases l with
    | append event =>
      obtain rfl := Option.some.inj hs
      exact h.append event
    | read =>
      obtain rfl := Option.some.inj hs
      exact h.read

def teamEvent (eventId teamId : String) : NewRuntimeEvent :=
  ⟨eventId, .team, teamId, none, some teamId, none, "team_message.created", .critical, .null, none, none, 0⟩

/-- The loop reads a page of two, an event is appended, and the task goes on from there. -/
theorem replay_complete_team :
    ∃ s : Replay, s.reader.events.map (fun e => (e.seq, e.rowId)) = [(2, 3), (3, 4), (4, 5)] ∧
    s.Complete := by
  obtain ⟨s, hs, he⟩ := exists_reaches_of_runAll Replay.step (fun _ _ => true)
    [.read, .read, .append (teamEvent "evt_5" "team_1"), .read, .read]
    (fun s => s.reader.events.map fun e => (e.seq, e.rowId)) [(2, 3), (3, 4), (4, 5)]
    (s := Replay.start (Store.appendRuntimeEvents [teamEvent "evt_1" "team_1", teamEvent "evt_2" "team_2",
      teamEvent "evt_3" "team_1", teamEvent "evt_4" "team_1"] (Store.empty [])) (some (.team, "team_1"))
        (some 1) (some 2))
    (by decide +kernel)
  exact ⟨s, he, replay_complete (hs.mono fun _ _ _ => trivial)⟩

end Gooselake.Http
