import Gooselake.TeamComms.FailedSends

/-!
The task that replays deferred deliveries. It reads the session manager's broadcast channel and resumes
the deferred deliveries of a session whose turn has ended. Its loop goes on while `recv` returns an event.
-/

namespace Gooselake.TeamComms

open Gooselake.Core Data Library Library.Exec

set_option autoImplicit false

/-! ## The channel -/

/-- What `recv` returns. -/
inductive Received where
  | event (e : RuntimeEventRecord)
  | lagged (skipped : ℕ)
  | closed
  deriving DecidableEq, Repr

/-- A broadcast channel for a receiver that has gone past `next` values: a receiver that lags is told how
many values the channel no longer holds; none while there is nothing to receive. -/
def recv (sent : List RuntimeEventRecord) (closed : Bool) (capacity next : ℕ) : Option Received :=
  if next + capacity < sent.length then some (.lagged (sent.length - capacity - next))
  else match sent[next]? with
    | some e => some (.event e)
    | none => if closed then some .closed else none

def wokenBy (e : RuntimeEventRecord) : Option String :=
  if e.kind = "turn.completed" ∨ e.kind = "turn.interrupted" ∨ e.kind = "turn.failed" then e.sessionId else none

/-! ## The task -/

inductive ReplayTask where
  | receiving
  /-- at its call `i` of `resume_deferred_for_recipient` -/
  | resuming (i : ℕ)
  | ended
  deriving DecidableEq, Repr

/-- The service with its replay task; `received` and `resumed` are what the task has got and the sessions it
has resumed. -/
structure Replaying where
  service : Service
  sent : List RuntimeEventRecord
  capacity : ℕ
  next : ℕ
  closed : Bool
  task : ReplayTask
  received : List RuntimeEventRecord
  resumed : List String

inductive ReplayLabel where
  | others (l : Label)
  /-- `append_event` sends the record it has stored -/
  | send (e : RuntimeEventRecord)
  /-- the session manager is dropped -/
  | close
  /-- the task receives, and calls `resume_deferred_for_recipient` as call `i` -/
  | receive (i : ℕ)

namespace Replaying

/-- `subscribe_events`: the receiver gets what is sent from now on; the channel holds at least 128 values. -/
def start (c : Comms) (liveEventCapacity : ℕ) : Replaying where
  service := .start c
  sent := []
  capacity := max liveEventCapacity 128
  next := 0
  closed := false
  task := .receiving
  received := []
  resumed := []

/-- The task awaits `recv`. -/
def awaitsEvent (s : Replaying) : Bool :=
  match s.task with
  | .receiving => true
  | .resuming i => i ∉ s.service.calls
  | .ended => false

def recv (s : Replaying) : Option Received := TeamComms.recv s.sent s.closed s.capacity s.next

/-- One round of the loop `while let Ok(event) = receiver.recv().await`. -/
def round (i : ℕ) (s : Replaying) : Option Replaying := do
  match ← s.recv with
  | .lagged _ | .closed => some { s with task := .ended }
  | .event e =>
    let s := { s with next := s.next + 1, received := s.received ++ [e] }
    match wokenBy e with
    | none => some { s with task := .receiving }
    | some sessionId =>
      let service ← s.service.step (.start i (.resumeDeferredForRecipient sessionId))
      some { s with service := service, task := .resuming i, resumed := s.resumed ++ [sessionId] }

def startsReplay : Label → Bool
  | .start _ (.resumeDeferredForRecipient _) => true
  | _ => false

def step : ReplayLabel → Replaying → Option Replaying
  | .others l, s =>
    if startsReplay l then none else (s.service.step l).map fun service => { s with service := service }
  | .send e, s => if s.closed then none else some { s with sent := s.sent ++ [e] }
  | .close, s => some { s with closed := true }
  | .receive i, s => if s.awaitsEvent then s.round i else none

/-- The property: the task runs until `recv` says that the channel is closed, and each end of a turn it got
resumed the session's deferred deliveries. -/
structure Wakes (s : Replaying) : Prop where
  runs : s.task = .ended → s.closed = true ∧ s.sent.length ≤ s.next
  resumed : s.resumed = s.received.filterMap wokenBy

/-- The subscriber is not further behind than the channel holds. -/
def keepsUp : ReplayLabel → Replaying → Bool
  | .receive _, s => s.sent.length ≤ s.next + s.capacity
  | _, _ => true

/-! ## Steps -/

variable {s s' : Replaying}

theorem Wakes.round (h : s.Wakes) (hkeeps : s.sent.length ≤ s.next + s.capacity) {i : ℕ}
    (hs : s.round i = some s') : s'.Wakes := by
  unfold Replaying.round at hs
  simp only [Option.bind_eq_bind, Option.bind_eq_some_iff] at hs
  obtain ⟨r, hr, hs⟩ := hs
  unfold Replaying.recv TeamComms.recv at hr
  rw [if_neg (by omega)] at hr
  cases hnext : s.sent[s.next]? with
  | none =>
    have hend : s.sent.length ≤ s.next := List.getElem?_eq_none_iff.mp hnext
    rw [hnext] at hr
    dsimp only at hr
    split at hr
    · next hclosed =>
      obtain rfl := Option.some.inj hr
      obtain rfl := Option.some.inj hs
      exact ⟨fun _ => ⟨hclosed, hend⟩, h.resumed⟩
    · cases hr
  | some e =>
    rw [hnext] at hr
    obtain rfl := Option.some.inj hr
    dsimp only at hs
    cases hwoken : wokenBy e with
    | none =>
      rw [hwoken] at hs
      obtain rfl := Option.some.inj hs
      refine ⟨fun he => (by cases he), ?_⟩
      simp only [List.filterMap_append, List.filterMap_cons, hwoken, List.filterMap_nil, List.append_nil]
      exact h.resumed
    | some sessionId =>
      simp only [hwoken, Option.bind_eq_some_iff] at hs
      obtain ⟨service, -, hs⟩ := hs
      obtain rfl := Option.some.inj hs
      refine ⟨fun he => (by cases he), ?_⟩
      simp only [List.filterMap_append, List.filterMap_cons, hwoken, List.filterMap_nil]
      rw [h.resumed]

theorem Wakes.step (h : s.Wakes) {l : ReplayLabel} (hcond : keepsUp l s = true) (hs : Replaying.step l s = some s') :
    s'.Wakes := by
  cases l with
  | others l =>
    simp only [Replaying.step] at hs
    split at hs
    · cases hs
    · obtain ⟨service, -, rfl⟩ := Option.map_eq_some_iff.mp hs
      exact ⟨h.runs, h.resumed⟩
  | send e =>
    simp only [Replaying.step] at hs
    split at hs
    · cases hs
    · next hopen =>
      obtain rfl := Option.some.inj hs
      exact ⟨fun he => absurd (h.runs he).1 hopen, h.resumed⟩
  | close =>
    obtain rfl := Option.some.inj hs
    exact ⟨fun he => ⟨rfl, (h.runs he).2⟩, h.resumed⟩
  | receive i =>
    simp only [Replaying.step] at hs
    split at hs
    · exact h.round (of_decide_eq_true hcond) hs
    · cases hs

end Replaying

/-! ## The task in every run -/

def turnEvent (kind : String) : RuntimeEventRecord where
  eventId := "evt_session_1"
  scope := .session
  scopeId := "sess_codex_0_1"
  sessionId := some "sess_codex_0_1"
  teamId := none
  turnId := some "turn_codex_0_1"
  kind := kind
  criticality := .critical
  payload := .null
  provider := none
  providerSeq := none
  createdAt := 0
  rowId := 1
  seq := 1

end Gooselake.TeamComms
