import Gooselake.Library.Progress
import Gooselake.Providers.BridgeLanes

/-!
The order of the events of a session. All of them go to one lane, which handles them in the order in which they were
written; so the check sees the sequence numbers of a session in that order, although the lanes share its table.
-/

namespace Gooselake.Providers.BridgeLanes

open Gooselake.Core Data Library ClaudeTurns

set_option autoImplicit false

/-! ## Events in the order written -/

def ofSession (id : String) (payload : Json) : Bool := decide ((payload.get? "sessionId").bind Json.asStr = some id)

/-- The events of a session, in the order of the lines. -/
def eventsOf (id : String) (payloads : List Json) : List BridgeEvent :=
  (payloads.filter (ofSession id)).filterMap readEvent

def eventLine : Line → Option Json
  | .ok (some payload) => if (payload.get? "event").isSome then some payload else none
  | _ => none

def events (lines : List Line) : List Json := lines.filterMap eventLine

/-- The numbers rise from 1 on. -/
def Rising (es : List BridgeEvent) : Prop := es.Pairwise (fun d e => d.seq < e.seq) ∧ ∀ e ∈ es, 0 < e.seq

/-- The events of a session are taken up in the order written, one when the one before it is done. -/
structure InOrder (id : String) (written : List Json) (l : Lanes Json Handling) : Prop where
  taken : eventsOf id l.taken <+: eventsOf id written
  done : ∃ current : List BridgeEvent, current.length ≤ 1 ∧ eventsOf id l.taken = eventsOf id l.done ++ current

theorem sessionId_of_readEvent {payload : Json} {e : BridgeEvent} (h : readEvent payload = some e) :
    (payload.get? "sessionId").bind Json.asStr = some e.sessionId := by
  simp only [readEvent, Option.bind_eq_bind, Option.bind_eq_some_iff, Option.pure_def, Option.some.injEq] at h
  obtain ⟨name, -, seq, -, sessionId, ⟨value, hvalue, hid⟩, rfl⟩ := h
  rw [hvalue]
  exact hid

theorem ofSession_of_readEvent {payload : Json} {e : BridgeEvent} {id : String} (h : readEvent payload = some e) :
    ofSession id payload = true ↔ e.sessionId = id := by
  rw [ofSession, decide_eq_true_eq, sessionId_of_readEvent h, Option.some.injEq]

theorem eventsOf_append (id : String) (xs ys : List Json) :
    eventsOf id (xs ++ ys) = eventsOf id xs ++ eventsOf id ys := by
  rw [eventsOf, List.filter_append, List.filterMap_append]
  rfl

theorem eventsOf_eq_filter (id : String) (payloads : List Json) :
    eventsOf id payloads = (payloads.filterMap readEvent).filter fun e => decide (e.sessionId = id) := by
  induction payloads with
  | nil => rfl
  | cons payload payloads ih =>
    rw [← List.singleton_append, eventsOf_append, ih, List.filterMap_append, List.filter_append]
    congr 1
    cases he : readEvent payload with
    | none => by_cases hp : ofSession id payload = true <;> simp [eventsOf, hp, he]
    | some e =>
      by_cases hid : e.sessionId = id
      · have hp := (ofSession_of_readEvent he).mpr hid
        simp [eventsOf, hp, he, hid]
      · have hp : ¬ofSession id payload = true := fun hp => hid ((ofSession_of_readEvent he).mp hp)
        simp [eventsOf, hp, he, hid]

theorem events_cons (line : Line) (lines : List Line) :
    events (line :: lines) = (eventLine line).toList ++ events lines := by
  cases h : eventLine line <;> simp [events, h]

/-! ## One lane for a session -/

section

variable {o : Outside} {id : String}

def Outside.laneOfSession (o : Outside) (id : String) : ℕ := o.laneOfKey s!"session:{trim id}"

theorem laneOf_eq (hid : trim id ≠ "") {payload : Json} (hp : ofSession id payload = true) :
    o.laneOf payload = o.laneOfSession id := by
  rw [ofSession, decide_eq_true_eq] at hp
  rw [Outside.laneOf, stdoutWorkerLaneKeyForPayload, hp, Option.bind_some, trimmedNonEmpty, if_neg hid]
  rfl

theorem laneOf_lt (payload : Json) : o.laneOf payload < claudeStdoutWorkerLaneCount := by
  rw [Outside.laneOf, Outside.laneOfKey, stdoutWorkerLaneIndex, if_neg (by decide)]
  exact Nat.mod_lt _ (by decide)

end

/-! ## What a step does -/

namespace Stdout

def checked (s : Stdout) : List BridgeEvent := s.lanes.taken.filterMap readEvent

end Stdout

structure NoCheck (s s' : Stdout) : Prop where
  taken : s'.lanes.taken = s.lanes.taken
  table : s'.lastEventSeqBySession = s.lastEventSeqBySession
  refused : s'.refused = s.refused
  closed : s'.closed = false → s.closed = false

structure ReadLine (o : Outside) (line : Line) (rest : List Line) (s s' : Stdout) : Prop extends NoCheck s s' where
  before : s.input = line :: rest
  after : s'.input = rest
  lanes : s'.lanes = (eventLine line).elim s.lanes fun payload => s.lanes.push (o.laneOf payload) payload
  reading : s'.reading = false → s.reading = false ∨ s'.closed = true

def Handling.left : Handling → ℕ
  | .checked _ => 6
  | .found _ _ => 5
  | .changing _ changes => 1 + changes.length

/-- Lane `i` has gone on with what it is at. -/
structure Handled (i : ℕ) (before : Handling) (s s' : Stdout) : Prop extends NoCheck s s' where
  input : s'.input = s.input
  reading : s'.reading = s.reading
  closed' : s'.closed = s.closed
  lanes : s'.lanes = s.lanes.finish i ∨ ∃ after, after.left < before.left ∧ s'.lanes = s.lanes.goOn i after

section

variable {o : Outside} {s s' : Stdout}

theorem closed_fail (message : String) (s : Stdout) : (s.fail message).closed = true := by
  simp [Stdout.fail, Stdout.closed]

theorem readLine_of_read (h : s.read o = some s') : ∃ line rest, ReadLine o line rest s s' := by
  unfold Stdout.read at h
  split at h
  · cases h
  · next error rest hinput =>
    obtain rfl := Option.some.inj h
    refine ⟨_, rest, ⟨rfl, rfl, rfl, fun hopen => ?_⟩, hinput, rfl, rfl, fun _ => .inr (closed_fail _ s)⟩
    exact absurd hopen (by rw [Stdout.stopReading]; exact Bool.not_eq_false _ ▸ closed_fail _ s)
  · next rest hinput =>
    obtain rfl := Option.some.inj h
    exact ⟨_, rest, ⟨rfl, rfl, rfl, id⟩, hinput, rfl, rfl, .inl⟩
  · next payload rest hinput =>
    split at h
    · next hevent =>
      simp only [Option.ite_none_right_eq_some, Option.some.injEq] at h
      obtain ⟨-, rfl⟩ := h
      refine ⟨_, rest, ⟨rfl, rfl, rfl, id⟩, hinput, rfl, ?_, .inl⟩
      rw [eventLine, if_pos hevent]
      rfl
    · next hevent =>
      split at h
      · obtain rfl := Option.some.inj h
        refine ⟨_, rest, ⟨rfl, rfl, rfl, id⟩, hinput, rfl, ?_, .inl⟩
        rw [eventLine, if_neg hevent]
        rfl
      · obtain rfl := Option.some.inj h
        refine ⟨_, rest, ⟨rfl, rfl, rfl, fun hopen => ?_⟩, hinput, rfl, ?_, fun _ => .inr (closed_fail _ s)⟩
        · exact absurd hopen (by rw [Stdout.stopReading]; exact Bool.not_eq_false _ ▸ closed_fail _ s)
        · rw [eventLine, if_neg hevent]
          rfl

theorem length_changesOf_le (e : BridgeEvent) (runtimeSessionId : String) (turnId : Option String) :
    (changesOf e runtimeSessionId turnId).length ≤ 3 := by
  unfold changesOf
  split
  · simp only [List.length_append, Option.length_toList]
    have hone : ∀ x : Option Change, (if x.isSome = true then 1 else 0) ≤ 1 := fun x => by split <;> omega
    have h1 := hone (((e.body.get? "providerSessionRef").bind Json.asStr).map Change.setRef)
    have h2 := hone ((((e.body.get? "claudeCanonicalSessionRef").bind Json.asStr).bind trimmedNonEmpty).map
      Change.setCanonical)
    omega
  · cases turnId <;> simp
  · cases turnId <;> simp [settled]
  · cases turnId <;> simp [settled]
  · exact Nat.zero_le 3

/-- Lane `i` has received its next event and checked it. -/
structure TakenUp (i : ℕ) (payload : Json) (rest : List Json) (s s' : Stdout) : Prop where
  input : s'.input = s.input
  reading : s'.reading = s.reading
  closed : s.closed = true → s'.closed = true
  lanes : s'.lanes = (s.lanes.take i payload rest (.changing 0 [])).finish i ∨
    ∃ e, s'.lanes = s.lanes.take i payload rest (.checked e)

theorem takenUp_takeUp (o : Outside) (i : ℕ) (payload : Json) (rest : List Json) (s : Stdout) :
    TakenUp i payload rest s (s.takeUp o i payload rest) := by
  rw [Stdout.takeUp]
  split
  · exact ⟨rfl, rfl, fun _ => closed_fail _ s, .inl rfl⟩
  · next e _ =>
    split
    · exact ⟨rfl, rfl, fun _ => closed_fail _ s, .inl rfl⟩
    · exact ⟨rfl, rfl, id, .inr ⟨e, rfl⟩⟩

theorem handled_handle (i : ℕ) (s : Stdout) (before : Handling) : Handled i before s (s.handle i before) := by
  cases before with
  | checked e =>
    rw [Stdout.handle]
    split
    · exact ⟨⟨rfl, rfl, rfl, id⟩, rfl, rfl, rfl, .inl rfl⟩
    · next session _ =>
      exact ⟨⟨rfl, rfl, rfl, id⟩, rfl, rfl, rfl, .inr ⟨.found e session, Nat.lt_succ_self 5, rfl⟩⟩
  | found e session =>
    refine ⟨⟨rfl, rfl, rfl, id⟩, rfl, rfl, rfl, .inr ⟨_, ?_, rfl⟩⟩
    have h := length_changesOf_le e (s.sessions session).runtimeSessionId (Stdout.turnOf (s.sessions session) e)
    simp only [Handling.left]
    omega
  | changing session changes =>
    cases changes with
    | nil => exact ⟨⟨rfl, rfl, rfl, id⟩, rfl, rfl, rfl, .inl rfl⟩
    | cons change changes =>
      exact ⟨⟨rfl, rfl, rfl, id⟩, rfl, rfl, rfl, .inr ⟨.changing session changes, Nat.lt_succ_self _, rfl⟩⟩

end

/-! ## The check -/

structure Sequenced (s : Stdout) : Prop where
  below : ∀ d ∈ s.checked, d.seq ≤ s.lastSeq d.sessionId
  reached : ∀ id, s.lastSeq id = 0 ∨ ∃ d ∈ s.checked, d.sessionId = id ∧ d.seq = s.lastSeq id
  rising : s.closed = false → ∀ id,
    (s.checked.filter fun e => decide (e.sessionId = id)).Pairwise fun d e => d.seq < e.seq
  refused : ∀ e ∈ s.refused, ∃ before after, s.checked = before ++ e :: after ∧
    (e.seq = 0 ∨ ∃ d ∈ before, d.sessionId = e.sessionId ∧ e.seq ≤ d.seq)

section

variable {o : Outside} {s s' : Stdout}

theorem Sequenced.noCheck (h : Sequenced s) (hsame : NoCheck s s') : Sequenced s' := by
  have hchecked : s'.checked = s.checked := congrArg (List.filterMap readEvent) hsame.taken
  have hlast : ∀ id, s'.lastSeq id = s.lastSeq id := fun id => by rw [Stdout.lastSeq, hsame.table]; rfl
  constructor
  · simpa only [hchecked, hlast] using h.below
  · simpa only [hchecked, hlast] using h.reached
  · intro hopen
    rw [hchecked]
    exact h.rising (hsame.closed hopen)
  · rw [hchecked, hsame.refused]
    exact h.refused

theorem checked_take (s : Stdout) (i : ℕ) (payload : Json) (rest : List Json) (h : Handling) :
    (s.lanes.take i payload rest h).taken.filterMap readEvent = s.checked ++ (readEvent payload).toList := by
  rw [Lanes.take, List.filterMap_append, Stdout.checked]
  cases he : readEvent payload <;> simp [he]

theorem Sequenced.reject (h : Sequenced s) {i : ℕ} {payload : Json} {rest : List Json}
    (hread : readEvent payload = none) : Sequenced (s.reject o i payload rest) := by
  have hchecked : (s.reject o i payload rest).checked = s.checked := by
    have htake := checked_take s i payload rest (.changing 0 [])
    rw [hread, Option.toList_none, List.append_nil] at htake
    exact htake
  constructor
  · rw [hchecked]
    exact h.below
  · rw [hchecked]
    exact h.reached
  · intro hopen
    exact absurd hopen (by rw [Stdout.reject]; exact Bool.not_eq_false _ ▸ closed_fail _ s)
  · rw [hchecked]
    exact h.refused

theorem Sequenced.refuse (h : Sequenced s) {i : ℕ} {payload : Json} {rest : List Json} {e : BridgeEvent}
    (hread : readEvent payload = some e) (hle : e.seq ≤ s.lastSeq e.sessionId) :
    Sequenced (s.refuse i payload rest e) := by
  have hchecked : (s.refuse i payload rest e).checked = s.checked ++ [e] := by
    have htake := checked_take s i payload rest (.changing 0 [])
    rw [hread] at htake
    exact htake
  constructor
  · intro d hd
    rw [hchecked, List.mem_append, List.mem_singleton] at hd
    rcases hd with hd | rfl
    · exact h.below d hd
    · exact hle
  · intro id
    refine (h.reached id).imp_right fun ⟨d, hd, hid⟩ => ⟨d, ?_, hid⟩
    rw [hchecked]
    exact List.mem_append_left _ hd
  · intro hopen
    exact absurd hopen (by rw [Stdout.refuse]; exact Bool.not_eq_false _ ▸ closed_fail _ s)
  · intro x hx
    rw [hchecked]
    rcases List.mem_append.mp hx with hx | hx
    · obtain ⟨before, after, hsplit, hbefore⟩ := h.refused x hx
      exact ⟨before, after ++ [e], by rw [hsplit, List.append_assoc, List.cons_append], hbefore⟩
    · obtain rfl := List.mem_singleton.mp hx
      refine ⟨s.checked, [], rfl, ?_⟩
      rcases h.reached x.sessionId with hzero | ⟨d, hd, hid, hseq⟩
      · exact .inl (Nat.le_zero.mp (hzero ▸ hle))
      · exact .inr ⟨d, hd, hid, hseq ▸ hle⟩

theorem lastSeq_accept (s : Stdout) (i : ℕ) (payload : Json) (rest : List Json) (e : BridgeEvent) (id : String) :
    (s.accept i payload rest e).lastSeq id = if id = e.sessionId then e.seq else s.lastSeq id := by
  rw [Stdout.lastSeq, Stdout.accept]
  split
  · next hid =>
    rw [hid, AList.lookup_insert]
    rfl
  · next hid =>
    rw [AList.lookup_insert_ne hid]
    rfl

theorem Sequenced.accept (h : Sequenced s) {i : ℕ} {payload : Json} {rest : List Json} {e : BridgeEvent}
    (hread : readEvent payload = some e) (hlt : s.lastSeq e.sessionId < e.seq) :
    Sequenced (s.accept i payload rest e) := by
  have hchecked : (s.accept i payload rest e).checked = s.checked ++ [e] := by
    have htake := checked_take s i payload rest (.checked e)
    rw [hread] at htake
    exact htake
  have hlast := lastSeq_accept s i payload rest e
  have hless : ∀ d ∈ s.checked, d.sessionId = e.sessionId → d.seq < e.seq := fun d hd hid =>
    (h.below d hd).trans_lt (hid ▸ hlt)
  constructor
  · intro d hd
    rw [hchecked, List.mem_append, List.mem_singleton] at hd
    rw [hlast]
    rcases hd with hd | rfl
    · split
      · next hid => exact (hless d hd hid).le
      · exact h.below d hd
    · rw [if_pos rfl]
  · intro id
    rw [hchecked, hlast]
    split
    · next hid => exact .inr ⟨e, by simp, hid.symm, rfl⟩
    · exact (h.reached id).imp_right fun ⟨d, hd, hid⟩ => ⟨d, List.mem_append_left _ hd, hid⟩
  · intro hopen id
    rw [hchecked, List.filter_append, List.pairwise_append]
    refine ⟨h.rising hopen id, ?_, ?_⟩
    · by_cases hid : e.sessionId = id <;> simp [hid]
    · intro d hd x hx
      obtain ⟨hx, hxid⟩ := List.mem_filter.mp hx
      obtain ⟨hd, hdid⟩ := List.mem_filter.mp hd
      obtain rfl := List.mem_singleton.mp hx
      exact hless d hd ((of_decide_eq_true hdid).trans (of_decide_eq_true hxid).symm)
  · intro x hx
    obtain ⟨before, after, hsplit, hbefore⟩ := h.refused x hx
    exact ⟨before, after ++ [e], by rw [hchecked, hsplit, List.append_assoc, List.cons_append], hbefore⟩

theorem Sequenced.takeUp (h : Sequenced s) (i : ℕ) (payload : Json) (rest : List Json) :
    Sequenced (s.takeUp o i payload rest) := by
  rw [Stdout.takeUp]
  split
  · next hread => exact h.reject hread
  · next e hread =>
    split
    · next hle => exact h.refuse hread hle
    · next hnot => exact h.accept hread (Nat.lt_of_not_le hnot)

end

/-! ## The lanes -/

/-- What the reader has handed on is with the lanes, each session's events in one of them. -/
structure Routed (o : Outside) (written : List Line) (s : Stdout) : Prop where
  within : ∀ i, claudeStdoutWorkerLaneCount ≤ i → s.lanes.queue i = [] ∧ s.lanes.current i = none
  ordered : ∃ given, events written = given ++ events s.input ∧
    ∀ id, trim id ≠ "" → s.lanes.Ordered (ofSession id) (o.laneOfSession id) given
  stopped : s.reading = false → s.closed = true

section

variable {o : Outside} {written : List Line} {s s' : Stdout}

theorem Routed.readLine (h : Routed o written s) {line : Line} {rest : List Line} (hread : ReadLine o line rest s s') :
    Routed o written s' := by
  obtain ⟨given, hgiven, hordered⟩ := h.ordered
  rw [hread.before, events_cons] at hgiven
  have hlanes := hread.lanes
  have hstopped : s'.reading = false → s'.closed = true := by
    intro hstop
    rcases hread.reading hstop with hbefore | hclosed
    · by_contra hopen
      have hstill := hread.closed (Bool.eq_false_iff.mpr hopen)
      rw [h.stopped hbefore] at hstill
      cases hstill
    · exact hclosed
  cases hevent : eventLine line with
  | none =>
    rw [hevent] at hlanes hgiven
    refine ⟨by rw [hlanes]; exact h.within, ⟨given, ?_, by rw [hlanes]; exact hordered⟩, hstopped⟩
    rw [hread.after]
    exact hgiven
  | some payload =>
    rw [hevent] at hlanes hgiven
    change s'.lanes = s.lanes.push (o.laneOf payload) payload at hlanes
    refine ⟨fun i hi => ?_, ⟨given ++ [payload], ?_, fun id hid => ?_⟩, hstopped⟩
    · have hne : i ≠ o.laneOf payload := fun he => absurd (laneOf_lt payload) (Nat.not_lt.mpr (he ▸ hi))
      rw [hlanes]
      exact ⟨(Function.update_of_ne hne ..).trans (h.within i hi).1, (h.within i hi).2⟩
    · rw [hread.after, List.append_assoc]
      exact hgiven
    · rw [hlanes]
      exact (hordered id hid).push fun hp => laneOf_eq hid hp

theorem Routed.handled (h : Routed o written s) {i : ℕ} {work : Json × Handling} {before : Handling}
    (hcurrent : s.lanes.current i = some work) (hdone : Handled i before s s') : Routed o written s' := by
  obtain ⟨given, hgiven, hordered⟩ := h.ordered
  have hne : ∀ j, claudeStdoutWorkerLaneCount ≤ j → j ≠ i := by
    rintro j hj rfl
    rw [(h.within j hj).2] at hcurrent
    cases hcurrent
  have hstopped : s'.reading = false → s'.closed = true := by
    rw [hdone.reading, hdone.closed']
    exact h.stopped
  rcases hdone.lanes with hlanes | ⟨after, -, hlanes⟩
  · refine ⟨fun j hj => ?_, ⟨given, by rw [hdone.input]; exact hgiven, fun id hid => ?_⟩, hstopped⟩
    · rw [hlanes]
      exact ⟨(h.within j hj).1, (Function.update_of_ne (hne j hj) ..).trans (h.within j hj).2⟩
    · rw [hlanes]
      exact (hordered id hid).finish
  · refine ⟨fun j hj => ?_, ⟨given, by rw [hdone.input]; exact hgiven, fun id hid => ?_⟩, hstopped⟩
    · rw [hlanes]
      exact ⟨(h.within j hj).1, (Function.update_of_ne (hne j hj) ..).trans (h.within j hj).2⟩
    · rw [hlanes]
      exact (hordered id hid).goOn

theorem Routed.takenUp (h : Routed o written s) {i : ℕ} {payload : Json} {rest : List Json}
    (hidle : s.lanes.current i = none) (hqueue : s.lanes.queue i = payload :: rest)
    (htaken : TakenUp i payload rest s s') : Routed o written s' := by
  obtain ⟨given, hgiven, hordered⟩ := h.ordered
  have hne : ∀ j, claudeStdoutWorkerLaneCount ≤ j → j ≠ i := by
    rintro j hj rfl
    rw [(h.within j hj).1] at hqueue
    cases hqueue
  have hwithin : ∀ point : Handling, ∀ j, claudeStdoutWorkerLaneCount ≤ j →
      (s.lanes.take i payload rest point).queue j = [] ∧ (s.lanes.take i payload rest point).current j = none :=
    fun _ j hj => ⟨(Function.update_of_ne (hne j hj) ..).trans (h.within j hj).1,
      (Function.update_of_ne (hne j hj) ..).trans (h.within j hj).2⟩
  have hstopped : s'.reading = false → s'.closed = true := fun hstop =>
    htaken.closed (h.stopped (htaken.reading ▸ hstop))
  rcases htaken.lanes with hlanes | ⟨e, hlanes⟩
  · refine ⟨fun j hj => ?_, ⟨given, by rw [htaken.input]; exact hgiven, fun id hid => ?_⟩, hstopped⟩
    · rw [hlanes]
      exact ⟨(hwithin (.changing 0 []) j hj).1,
        (Function.update_of_ne (hne j hj) ..).trans (hwithin (.changing 0 []) j hj).2⟩
    · rw [hlanes]
      exact ((hordered id hid).take hidle hqueue).finish
  · refine ⟨fun j hj => ?_, ⟨given, by rw [htaken.input]; exact hgiven, fun id hid => ?_⟩, hstopped⟩
    · rw [hlanes]
      exact hwithin _ j hj
    · rw [hlanes]
      exact (hordered id hid).take hidle hqueue

end

/-! ## Every run -/

/-- What holds in every state of a run on the lines `written`. -/
structure Kept (o : Outside) (written : List Line) (s : Stdout) : Prop where
  routed : Routed o written s
  sequenced : Sequenced s

def Stdout.left (s : Stdout) : ℕ := 9 * s.input.length + s.lanes.left claudeStdoutWorkerLaneCount 8 Handling.left

section

variable {o : Outside} {written : List Line} {s s' : Stdout}

theorem lane_step {i : ℕ} (hstep : Stdout.step o (.lane i) s = some s') :
    (∃ payload before, s.lanes.current i = some (payload, before) ∧ s' = s.handle i before) ∨
      ∃ payload rest, s.lanes.current i = none ∧ s.lanes.queue i = payload :: rest ∧
        s' = s.takeUp o i payload rest := by
  rw [Stdout.step] at hstep
  cases hcurrent : s.lanes.current i with
  | some work =>
    rw [hcurrent] at hstep
    exact .inl ⟨work.1, work.2, rfl, (Option.some.inj hstep).symm⟩
  | none =>
    cases hqueue : s.lanes.queue i with
    | nil =>
      rw [hcurrent, hqueue] at hstep
      cases hstep
    | cons payload rest =>
      rw [hcurrent, hqueue] at hstep
      exact .inr ⟨payload, rest, rfl, rfl, (Option.some.inj hstep).symm⟩

theorem Kept.step (h : Kept o written s) {l : Label} (hstep : Stdout.step o l s = some s') : Kept o written s' := by
  cases l with
  | read =>
    simp only [Stdout.step, Option.ite_none_right_eq_some] at hstep
    obtain ⟨line, rest, hread⟩ := readLine_of_read hstep.2
    exact ⟨h.routed.readLine hread, h.sequenced.noCheck hread.toNoCheck⟩
  | lane i =>
    rcases lane_step hstep with ⟨payload, before, hcurrent, rfl⟩ | ⟨payload, rest, hidle, hqueue, rfl⟩
    · have hdone := handled_handle i s before
      exact ⟨h.routed.handled hcurrent hdone, h.sequenced.noCheck hdone.toNoCheck⟩
    · exact ⟨h.routed.takenUp hidle hqueue (takenUp_takeUp o i payload rest s),
        h.sequenced.takeUp i payload rest⟩
  | fail message =>
    obtain rfl := Option.some.inj hstep
    have hclosed := closed_fail message s
    refine ⟨⟨h.routed.within, h.routed.ordered, fun _ => hclosed⟩, h.sequenced.noCheck ⟨rfl, rfl, rfl, fun hopen => ?_⟩⟩
    rw [hclosed] at hopen
    cases hopen
  | elsewhere sessionsByBridgeKey sessions =>
    obtain rfl := Option.some.inj hstep
    exact ⟨⟨h.routed.within, h.routed.ordered, h.routed.stopped⟩, h.sequenced.noCheck ⟨rfl, rfl, rfl, id⟩⟩

theorem kept_start (o : Outside) (instanceId : ℕ) (written : List Line) (sessionsByBridgeKey : Table String ℕ)
    (sessions : ℕ → BridgedSession) : Kept o written (.start instanceId written sessionsByBridgeKey sessions) where
  routed := ⟨fun _ _ => ⟨rfl, rfl⟩, ⟨[], rfl, fun _ _ => .empty⟩, nofun⟩
  sequenced := ⟨nofun, fun _ => .inl rfl, fun _ _ => .nil, nofun⟩

theorem kept_of_reaches {instanceId : ℕ} {sessionsByBridgeKey : Table String ℕ} {sessions : ℕ → BridgedSession}
    (hs : Reaches (Stdout.step o) (fun _ _ => True) (.start instanceId written sessionsByBridgeKey sessions) s) :
    Kept o written s :=
  hs.invariant (kept_start o instanceId written sessionsByBridgeKey sessions) fun _ _ _ h _ hstep => h.step hstep

/-! ## The end of a run -/

theorem Kept.left_lt (h : Kept o written s) {l : Label} (hown : l.own) (hstep : Stdout.step o l s = some s') :
    s'.left < s.left := by
  cases l with
  | read =>
    simp only [Stdout.step, Option.ite_none_right_eq_some] at hstep
    obtain ⟨line, rest, hread⟩ := readLine_of_read hstep.2
    have hlanes := hread.lanes
    rw [Stdout.left, Stdout.left, hread.before, hread.after, List.length_cons]
    cases hevent : eventLine line with
    | none =>
      rw [hevent] at hlanes
      change s'.lanes = s.lanes at hlanes
      rw [hlanes]
      omega
    | some payload =>
      rw [hevent] at hlanes
      change s'.lanes = s.lanes.push (o.laneOf payload) payload at hlanes
      rw [hlanes, Lanes.left_push (laneOf_lt payload)]
      omega
  | lane i =>
    rcases lane_step hstep with ⟨payload, before, hcurrent, rfl⟩ | ⟨payload, rest, hidle, hqueue, rfl⟩
    · have hi : i < claudeStdoutWorkerLaneCount := by
        by_contra hi
        rw [(h.routed.within i (Nat.le_of_not_lt hi)).2] at hcurrent
        cases hcurrent
      have hdone := handled_handle i s before
      rw [Stdout.left, Stdout.left, hdone.input]
      rcases hdone.lanes with hlanes | ⟨after, hlt, hlanes⟩
      · have hleft := Lanes.left_finish (c := 8) (w := Handling.left) hi hcurrent
        have hpos : 0 < before.left := by
          cases before <;> simp only [Handling.left] <;> omega
        rw [hlanes]
        omega
      · have hleft := Lanes.left_goOn (c := 8) (w := Handling.left) hi hcurrent after
        rw [hlanes]
        omega
    · have hi : i < claudeStdoutWorkerLaneCount := by
        by_contra hi
        rw [(h.routed.within i (Nat.le_of_not_lt hi)).1] at hqueue
        cases hqueue
      have htaken := takenUp_takeUp o i payload rest s
      rw [Stdout.left, Stdout.left, htaken.input]
      rcases htaken.lanes with hlanes | ⟨e, hlanes⟩
      · have hleft := Lanes.left_take (c := 8) (w := Handling.left) hi hidle hqueue (.changing 0 [])
        have hover :=
          Lanes.left_finish (l := s.lanes.take i payload rest (.changing 0 [])) (c := 8) (w := Handling.left) hi
          (Function.update_self ..)
        rw [hlanes]
        simp only [Handling.left, List.length_nil] at hleft hover
        omega
      · have hleft := Lanes.left_take (c := 8) (w := Handling.left) hi hidle hqueue (.checked e)
        rw [hlanes]
        simp only [Handling.left] at hleft
        omega
  | fail | elsewhere => exact hown.elim

theorem Kept.all_taken (h : Kept o written s) (hopen : s.closed = false)
    (hstuck : ∀ l, l.own → Stdout.step o l s = none) {id : String} (hid : trim id ≠ "") :
    eventsOf id s.lanes.taken = eventsOf id (events written) := by
  have hqueue : ∀ i, s.lanes.queue i = [] := by
    intro i
    have hlane := hstuck (.lane i) trivial
    rw [Stdout.step] at hlane
    split at hlane
    · cases hlane
    · cases hlane
    · next hqueue => exact hqueue
  have hreading : s.reading = true := by
    by_contra hstop
    rw [h.routed.stopped (Bool.eq_false_iff.mpr hstop)] at hopen
    cases hopen
  have hinput : s.input = [] := by
    have hread := hstuck .read trivial
    rw [Stdout.step, if_pos hreading, Stdout.read] at hread
    split at hread
    · next hinput => exact hinput
    · cases hread
    · cases hread
    · rw [hqueue] at hread
      simp [claudeStdoutWorkerQueueCapacity] at hread
      split at hread
      · cases hread
      · split at hread <;> cases hread
  obtain ⟨given, hgiven, hordered⟩ := h.routed.ordered
  have htaken := (hordered id hid).taken
  rw [hqueue, List.filter_nil, List.append_nil] at htaken
  rw [hinput] at hgiven
  rw [hgiven, show events [] = [] from rfl, List.append_nil, eventsOf, eventsOf, htaken]

/-! ## The order of a session -/

theorem Kept.inOrder (h : Kept o written s) {id : String} (hid : trim id ≠ "") :
    InOrder id (events written) s.lanes := by
  obtain ⟨given, hgiven, hordered⟩ := h.routed.ordered
  have ho := hordered id hid
  constructor
  · rw [hgiven, eventsOf_append]
    refine List.IsPrefix.trans ?_ (List.prefix_append _ _)
    rw [eventsOf, eventsOf, ho.taken, List.filterMap_append]
    exact List.prefix_append _ _
  · refine ⟨eventsOf id (s.lanes.working (o.laneOfSession id)), ?_, ?_⟩
    · exact (List.length_filterMap_le ..).trans
        ((List.length_filter_le ..).trans (Lanes.length_working_le _ _))
    · rw [eventsOf, ho.done, List.filterMap_append]
      rfl

theorem Kept.checked_prefix (h : Kept o written s) {id : String} (hid : trim id ≠ "") :
    (s.checked.filter fun e => decide (e.sessionId = id)) <+: eventsOf id (events written) := by
  rw [Stdout.checked, ← eventsOf_eq_filter]
  exact (h.inOrder hid).taken

theorem Kept.not_refused (h : Kept o written s) {id : String} (hid : trim id ≠ "")
    (hrising : Rising (eventsOf id (events written))) {e : BridgeEvent} (he : e ∈ s.refused) : e.sessionId ≠ id := by
  intro hsession
  have hearlier := h.checked_prefix hid
  -- what is checked of the session rises, too
  have hpairs := hrising.1.sublist hearlier.sublist
  obtain ⟨before, after, hsplit, hzero | ⟨d, hd, hdid, hle⟩⟩ := h.sequenced.refused e he
  · have hmem : e ∈ s.checked := by
      rw [hsplit]
      exact List.mem_append_right _ List.mem_cons_self
    have hpos := hrising.2 e (hearlier.subset (List.mem_filter.mpr ⟨hmem, decide_eq_true hsession⟩))
    omega
  · rw [hsplit, List.filter_append, List.pairwise_append] at hpairs
    have hlt := hpairs.2.2 d (List.mem_filter.mpr ⟨hd, decide_eq_true (hdid.trans hsession)⟩) e
      (List.mem_filter.mpr ⟨List.mem_cons_self, decide_eq_true hsession⟩)
    omega

theorem Kept.certain_closed (h : Kept o written s) {id : String} (hid : trim id ≠ "")
    {before after : List BridgeEvent} {e : BridgeEvent} (hwritten : eventsOf id (events written) = before ++ e :: after)
    (hfalls : ∃ d ∈ before, e.seq ≤ d.seq) :
    Certain (Stdout.step o) (fun l _ => l.own) (fun t => t.closed = true) s := by
  refine Certain.of_measure (Kept o written) Stdout.left ?_ ?_ h
  · intro t ht hopen
    by_contra hnone
    have hstuck : ∀ l : Label, l.own → Stdout.step o l t = none := by
      intro l hl
      by_contra hsome
      obtain ⟨u, hu⟩ := Option.ne_none_iff_exists'.mp hsome
      exact hnone ⟨l, u, hl, hu⟩
    have hopen := Bool.eq_false_iff.mpr hopen
    have hall := ht.all_taken hopen hstuck hid
    have hrising := ht.sequenced.rising hopen id
    rw [Stdout.checked, ← eventsOf_eq_filter, hall, hwritten, List.pairwise_append] at hrising
    obtain ⟨d, hd, hle⟩ := hfalls
    have hlt := hrising.2.2 d hd e List.mem_cons_self
    omega
  · intro t l u ht _ hown hstep
    exact ⟨ht.step hstep, ht.left_lt hown hstep⟩

theorem Kept.next_up (h : Kept o written s) {id : String} (hid : trim id ≠ "") {i : ℕ} {payload : Json}
    {rest : List Json} {e : BridgeEvent} (hqueue : s.lanes.queue i = payload :: rest)
    (hread : readEvent payload = some e) (hsession : e.sessionId = id) :
    ∃ after, eventsOf id (events written) = eventsOf id s.lanes.taken ++ e :: after := by
  obtain ⟨given, hgiven, hordered⟩ := h.routed.ordered
  have ho := hordered id hid
  have hp := (ofSession_of_readEvent hread).mpr hsession
  have hlane : i = o.laneOfSession id := by
    by_contra hne
    have hnone := (ho.elsewhere i hne).1
    rw [hqueue, List.filter_cons_of_pos hp] at hnone
    cases hnone
  have htaken := ho.taken
  rw [← hlane, hqueue, List.filter_cons_of_pos hp] at htaken
  refine ⟨eventsOf id rest ++ eventsOf id (events s.input), ?_⟩
  rw [hgiven, eventsOf_append]
  conv_lhs => rw [eventsOf, htaken, List.filterMap_append, List.filterMap_cons_some hread]
  rw [List.append_assoc, List.cons_append]
  rfl

theorem Kept.refuses (h : Kept o written s) {i : ℕ} {payload : Json} {rest : List Json} {e : BridgeEvent}
    (hidle : s.lanes.current i = none) (hqueue : s.lanes.queue i = payload :: rest)
    (hread : readEvent payload = some e) (hfalls : ∃ d ∈ eventsOf e.sessionId s.lanes.taken, e.seq ≤ d.seq) :
    Stdout.step o (.lane i) s = some (s.refuse i payload rest e) := by
  obtain ⟨d, hd, hle⟩ := hfalls
  rw [eventsOf_eq_filter] at hd
  obtain ⟨hd, hdid⟩ := List.mem_filter.mp hd
  have hbelow := h.sequenced.below d hd
  rw [of_decide_eq_true hdid] at hbelow
  rw [Stdout.step, hidle, hqueue]
  show some (s.takeUp o i payload rest) = _
  rw [Stdout.takeUp, hread]
  show some (if _ then _ else _) = _
  rw [if_pos (hle.trans hbelow)]

/-- In every run the events of a session with a name are handled in the order written. If their numbers rise none fails
the check; one whose number does not go up closes the bridge and does nothing else. -/
theorem lanes_keep_order {instanceId : ℕ} {sessionsByBridgeKey : Table String ℕ} {sessions : ℕ → BridgedSession}
    (hs : Reaches (Stdout.step o) (fun _ _ => True) (.start instanceId written sessionsByBridgeKey sessions) s)
    {id : String} (hid : trim id ≠ "") :
    InOrder id (events written) s.lanes ∧
      (Rising (eventsOf id (events written)) → ∀ e ∈ s.refused, e.sessionId ≠ id) ∧
        ∀ before e after, eventsOf id (events written) = before ++ e :: after → (∃ d ∈ before, e.seq ≤ d.seq) →
          Certain (Stdout.step o) (fun l _ => l.own) (fun t => t.closed = true) s ∧
            ∀ i payload rest x, s.lanes.current i = none → s.lanes.queue i = payload :: rest →
              readEvent payload = some x → x.sessionId = id → eventsOf id s.lanes.taken = before →
                Stdout.step o (.lane i) s = some (s.refuse i payload rest e) := by
  have hkept := kept_of_reaches hs
  refine ⟨hkept.inOrder hid, fun hrising e he => hkept.not_refused hid hrising he, ?_⟩
  intro before e after hwritten hfalls
  refine ⟨hkept.certain_closed hid hwritten hfalls, ?_⟩
  intro i payload rest x hidle hqueue hread hsession htaken
  obtain ⟨after', hnext⟩ := hkept.next_up hid hqueue hread hsession
  rw [hwritten, htaken] at hnext
  obtain rfl : e = x := (List.cons.inj (List.append_cancel_left hnext)).1
  refine hkept.refuses hidle hqueue hread ?_
  rw [hsession, htaken]
  exact hfalls

end

/-! ## Behind the sidecar -/

theorem asU64_natCast {n : ℕ} (hlt : n < 2 ^ 64) : asU64 (.int n) = some n := by
  have hrange : (0 : ℤ) ≤ n ∧ (n : ℤ) < 2 ^ 64 := by omega
  rw [asU64, if_pos hrange, Int.toNat_natCast]

theorem readEvent_send {nextSeq : ℕ} (hlt : nextSeq < 2 ^ 64) (event : ClientEvent) :
    readEvent (send nextSeq event) = some ⟨event.event, nextSeq, event.sessionId,
      (turnIdOf (send nextSeq event)).or (turnIdOf event.payload), event.payload⟩ := by
  have hseq := asU64_natCast hlt
  simp only [readEvent, Option.bind_eq_bind, Option.bind_eq_some_iff, Option.pure_def, Option.some.injEq]
  exact ⟨event.event, ⟨_, rfl, rfl⟩, nextSeq, ⟨_, rfl, hseq⟩, event.sessionId, ⟨_, rfl, rfl⟩, rfl⟩

theorem rising_of_all {payloads : List Json} (h : Rising (payloads.filterMap readEvent)) (id : String) :
    Rising (eventsOf id payloads) := by
  rw [eventsOf_eq_filter]
  exact ⟨h.1.filter _, fun e he => h.2 e (List.mem_of_mem_filter he)⟩

theorem rising_sendAll {nextSeq : ℕ} (hpos : 0 < nextSeq) (es : List ClientEvent)
    (hlt : nextSeq + es.length ≤ 2 ^ 53) :
    Rising ((sendAll nextSeq es).filterMap readEvent) ∧
      ∀ e ∈ (sendAll nextSeq es).filterMap readEvent, nextSeq ≤ e.seq := by
  induction es generalizing nextSeq with
  | nil => exact ⟨⟨.nil, nofun⟩, nofun⟩
  | cons event es ih =>
    rw [List.length_cons] at hlt
    have hone : nextSeq < 2 ^ 64 := by omega
    obtain ⟨⟨hpairs, hall⟩, hfrom⟩ := ih (Nat.succ_pos nextSeq) (by omega)
    rw [sendAll, List.filterMap_cons_some (readEvent_send hone event)]
    refine ⟨⟨List.pairwise_cons.mpr ⟨fun d hd => Nat.lt_of_succ_le (hfrom d hd), hpairs⟩, ?_⟩, ?_⟩
    · intro d hd
      rcases List.mem_cons.mp hd with rfl | hd
      · exact hpos
      · exact hall d hd
    · intro d hd
      rcases List.mem_cons.mp hd with rfl | hd
      · exact Nat.le_refl nextSeq
      · exact (Nat.le_succ nextSeq).trans (hfrom d hd)

theorem sidecar_not_refused {o : Outside} {written : List Line} {s : Stdout} {es : List ClientEvent}
    (hes : events written = sendAll 1 es) (hlt : es.length < 2 ^ 53) (h : Kept o written s) {e : BridgeEvent}
    (he : e ∈ s.refused) : trim e.sessionId = "" := by
  by_contra hid
  have hrising := (rising_sendAll Nat.one_pos es (by omega)).1
  exact h.not_refused hid (hes ▸ rising_of_all hrising e.sessionId) he rfl

/-- Whatever the sidecar sends, as long as it counts exactly, and however the lanes take turns. -/
theorem sidecar_events_pass {o : Outside} {written : List Line} {s : Stdout} {es : List ClientEvent} {instanceId : ℕ}
    {sessionsByBridgeKey : Table String ℕ} {sessions : ℕ → BridgedSession} (hes : events written = sendAll 1 es)
    (hlt : es.length < 2 ^ 53)
    (hs : Reaches (Stdout.step o) (fun _ _ => True) (.start instanceId written sessionsByBridgeKey sessions) s) :
    (∀ e ∈ s.refused, trim e.sessionId = "") ∧
      ∀ id, trim id ≠ "" → eventsOf id s.lanes.taken <+: eventsOf id (sendAll 1 es) := by
  have hkept := kept_of_reaches hs
  exact ⟨fun e he => sidecar_not_refused hes hlt hkept he, fun id hid => hes ▸ (hkept.inOrder hid).taken⟩

/-! ## Runs on two lines -/

def runOutside : Outside where
  hash key :=
    if key = "turn:turn_1" then 749713972165629794
    else if key = "turn:turn_2" then 11301146078606852838
    else if key = "session:claude_sess_1" then 12748976114877348427
    else 0
  print _ := "null"

def startedEvent (sessionId turnId : String) : ClientEvent := ⟨"turn.started", sessionId, some turnId, .null⟩

def startedLine (seq : ℕ) (sessionId turnId : String) : Line := .ok (some (send seq (startedEvent sessionId turnId)))

def twoLines (seq : ℕ) (sessionId : String) : List Line :=
  [startedLine seq sessionId "turn_1", startedLine (seq + 1) sessionId "turn_2"]

def startOn (written : List Line) : Stdout :=
  .start 1 written ∅ fun _ => ⟨"", "", none, ⟨none, ∅, ∅, ∅⟩⟩

def seqs (s : Stdout) : List ℕ × List ℕ := (s.checked.map BridgeEvent.seq, s.refused.map BridgeEvent.seq)

theorem lanes_keep_order_named : ∃ s : Stdout, seqs s = ([1, 2], []) ∧
    InOrder "claude_sess_1" (events (twoLines 1 "claude_sess_1")) s.lanes ∧
      (Rising (eventsOf "claude_sess_1" (events (twoLines 1 "claude_sess_1"))) →
        ∀ e ∈ s.refused, e.sessionId ≠ "claude_sess_1") := by
  obtain ⟨s, hs, he⟩ := exists_reaches_of_runAll (Stdout.step runOutside) (fun _ _ => true)
    [.read, .read, .lane 11, .lane 11, .lane 11] seqs ([1, 2], []) (s := startOn (twoLines 1 "claude_sess_1"))
    (by decide +kernel)
  have hid : trim "claude_sess_1" ≠ "" := by decide +kernel
  have h := lanes_keep_order (hs.mono fun _ _ _ => trivial) hid
  exact ⟨s, he, h.1, h.2.1⟩

theorem sidecar_events_pass_named : ∃ s : Stdout, seqs s = ([1, 2], []) ∧
    eventsOf "claude_sess_1" s.lanes.taken <+: eventsOf "claude_sess_1"
      (sendAll 1 [startedEvent "claude_sess_1" "turn_1", startedEvent "claude_sess_1" "turn_2"]) := by
  obtain ⟨s, hs, he⟩ := exists_reaches_of_runAll (Stdout.step runOutside) (fun _ _ => true)
    [.read, .read, .lane 11, .lane 11, .lane 11] seqs ([1, 2], []) (s := startOn (twoLines 1 "claude_sess_1"))
    (by decide +kernel)
  exact ⟨s, he, (sidecar_events_pass rfl (by decide) (hs.mono fun _ _ _ => trivial)).2 _ (by decide +kernel)⟩

/-- Events whose session has no name go to the lanes of their turns, where the second may be first; and a session may
not begin with the number 0. -/
theorem not_lanes_keep_order :
    (¬ ∀ (o : Outside) (instanceId : ℕ) (written : List Line) (sessionsByBridgeKey : Table String ℕ)
      (sessions : ℕ → BridgedSession) (s : Stdout),
        Reaches (Stdout.step o) (fun _ _ => True) (.start instanceId written sessionsByBridgeKey sessions) s →
          (∀ id, Rising (eventsOf id (events written))) →
            (∀ id, InOrder id (events written) s.lanes) ∧ s.refused = []) ∧
      ¬ ∀ (o : Outside) (instanceId : ℕ) (written : List Line) (sessionsByBridgeKey : Table String ℕ)
        (sessions : ℕ → BridgedSession) (s : Stdout),
          Reaches (Stdout.step o) (fun _ _ => True) (.start instanceId written sessionsByBridgeKey sessions) s →
            (∀ id, (eventsOf id (events written)).Pairwise fun d e => d.seq < e.seq) →
              (∀ id, eventsOf id (events written) ≠ [] → trim id ≠ "") → s.refused = [] := by
  constructor
  · intro hall
    obtain ⟨s, hs, he⟩ := exists_reaches_of_runAll (Stdout.step runOutside) (fun _ _ => true)
      [.read, .read, .lane 6, .lane 2] seqs ([2, 1], [1]) (s := startOn (twoLines 1 "")) (by decide +kernel)
    have hrising : Rising ((events (twoLines 1 "")).filterMap readEvent) :=
      (rising_sendAll Nat.one_pos [startedEvent "" "turn_1", startedEvent "" "turn_2"] (by decide)).1
    obtain ⟨-, hrefused⟩ := hall _ _ _ _ _ s (hs.mono fun _ _ _ => trivial) (rising_of_all hrising)
    rw [seqs, hrefused] at he
    cases (Prod.mk.inj he).2
  · intro hall
    obtain ⟨s, hs, he⟩ := exists_reaches_of_runAll (Stdout.step runOutside) (fun _ _ => true)
      [.read, .lane 11] seqs ([0], [0]) (s := startOn [startedLine 0 "claude_sess_1" "turn_1"]) (by decide +kernel)
    have hread := readEvent_send (Nat.two_pow_pos 64) (startedEvent "claude_sess_1" "turn_1")
    have hevents : (events [startedLine 0 "claude_sess_1" "turn_1"]).filterMap readEvent = [_] :=
      List.filterMap_cons_some hread
    have hrefused := hall _ _ _ _ _ s (hs.mono fun _ _ _ => trivial) ?_ ?_
    · rw [seqs, hrefused] at he
      cases (Prod.mk.inj he).2
    · intro id
      rw [eventsOf_eq_filter, hevents]
      exact (List.pairwise_singleton _ _).filter _
    · intro id hsome
      rw [eventsOf_eq_filter, hevents] at hsome
      obtain ⟨e, he⟩ := List.exists_mem_of_ne_nil _ hsome
      obtain ⟨he, hid⟩ := List.mem_filter.mp he
      obtain rfl := List.mem_singleton.mp he
      rw [← of_decide_eq_true hid]
      decide +kernel

end Gooselake.Providers.BridgeLanes
