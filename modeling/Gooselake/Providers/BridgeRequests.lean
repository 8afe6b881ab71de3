import Mathlib.Data.List.Perm.Subperm
import Gooselake.Core.Records
import Gooselake.Library.Runs
import Gooselake.Library.Slots
import Gooselake.Library.Table

/-!
The requests to one Claude bridge, from `send_bridge_request` to the sidecar and back. The calls, the writer and the
reader of the adapter, the ways in which the bridge can fail, and the sidecar, which serves the requests it has read side
by side, take turns. The numbers of the requests are counted over all bridges, and are written as texts.
-/

namespace Gooselake.Providers.BridgeRequests

open Gooselake.Core Data Library

set_option autoImplicit false

/-! ## The calls -/

/-- Where a `send_bridge_request` stands. -/
inductive Point where
  /-- before the test of `closed` -/
  | testing
  /-- before `fetch_add` -/
  | numbering
  /-- before it looks at the process -/
  | checking
  | registering
  /-- before the line goes to the writer -/
  | queueing
  /-- the writer is gone, before the entry is taken back -/
  | retracting
  /-- in a `fail_bridge` of its own -/
  | failing (k : ℕ)
  | waiting
  /-- the time is up, before the entry is taken back -/
  | expiring
  | returned (outcome : Except RuntimeError Json)
  deriving DecidableEq

structure Call where
  method : String
  params : Json
  id : Option ℕ
  point : Point
  reply : Option (Except RuntimeError Json)

structure BridgeRequest where
  id : ℕ
  method : String
  params : Json
  deriving DecidableEq

/-- Where a `fail_bridge` stands. -/
inductive Failing where
  | starting (message : String)
  | draining (message : String)
  | ended
  deriving DecidableEq

def mapBridgeError (error : Json) : RuntimeError :=
  let code := ((error.get? "code").bind Json.asStr).getD "INTERNAL_ERROR"
  let message := ((error.get? "message").bind Json.asStr).getD "Claude bridge request failed"
  let message := s!"claude bridge {code}: {message}"
  if code ∈ ["SESSION_NOT_FOUND", "TURN_NOT_FOUND", "APPROVAL_NOT_FOUND"] then .notFound message
  else if code ∈ ["BAD_REQUEST", "TURN_IN_PROGRESS", "TURN_NOT_IN_PROGRESS"] then .invalidState message
  else if code = "PROTOCOL_VIOLATION" then .protocolViolation message
  else if code = "UNAUTHORIZED" then .configuration message
  else if code ∈ ["PROVIDER_PROCESS_EXITED", "INTERNAL_ERROR"] then .io message
  else .invalidState message

/-- What a response carries besides its id: a `result`, or an `error` object. -/
abbrev Answer : Type := Except Json Json

structure BridgeLink where
  nextRequestId : ℕ
  calls : List Call
  closed : Bool
  /-- `process.closed`. -/
  processClosed : Bool
  pendingRequests : Table ℕ ℕ
  writerOpen : Bool
  /-- The lines that the writer has not written. -/
  outbound : List BridgeRequest
  failings : List Failing
  stdin : List BridgeRequest
  alive : Bool
  running : List BridgeRequest
  stdout : List (ℕ × Answer)
  /-- History: the lines that went to the writer, those that the sidecar has read, and what it has answered. -/
  queued : List BridgeRequest
  taken : List BridgeRequest
  served : List (BridgeRequest × Answer)

namespace BridgeLink

def spawned (nextRequestId : ℕ) : BridgeLink :=
  ⟨nextRequestId, [], false, false, ∅, true, [], [], [], true, [], [], [], [], []⟩

def notRunning : RuntimeError := .io "Claude bridge process is not running"

def putCall (i : ℕ) (c : Call) (s : BridgeLink) : BridgeLink := { s with calls := s.calls.set i c }

def putPoint (i : ℕ) (c : Call) (point : Point) (s : BridgeLink) : BridgeLink := s.putCall i { c with point := point }

/-- The next section of call `i`. -/
def goOn (i : ℕ) (s : BridgeLink) : Option BridgeLink :=
  match s.calls[i]? with
  | none => none
  | some c =>
    match c.point, c.id with
    | .testing, _ =>
      some (s.putPoint i c (if s.closed then .returned (.error notRunning) else .numbering))
    | .numbering, _ =>
      some { s.putCall i { c with point := .checking, id := some s.nextRequestId } with
        nextRequestId := s.nextRequestId + 1 }
    | .checking, _ =>
      if s.processClosed then some { s.putPoint i c (.returned (.error notRunning)) with closed := true }
      else some (s.putPoint i c .registering)
    | .registering, some id =>
      some { s.putPoint i c .queueing with pendingRequests := s.pendingRequests.insert id i }
    | .queueing, some id =>
      if s.writerOpen then
        let line : BridgeRequest := ⟨id, c.method, c.params⟩
        some { s.putPoint i c .waiting with outbound := s.outbound ++ [line], queued := s.queued ++ [line] }
      else some (s.putPoint i c .retracting)
    | .retracting, some id =>
      some { s.putPoint i c (.failing s.failings.length) with
        pendingRequests := s.pendingRequests.erase id
        failings := s.failings ++ [.starting "Claude bridge stdin writer task closed unexpectedly"] }
    | .failing k, _ =>
      if s.failings[k]? = some .ended then
        some (s.putPoint i c (.returned (.error (.io
          s!"failed writing request to Claude bridge for method {c.method}"))))
      else none
    | .waiting, some id =>
      match c.reply with
      | some outcome => some (s.putPoint i c (.returned outcome))
      | none =>
        if s.pendingRequests.lookup id = some i then none
        else some (s.putPoint i c (.returned (.error (.io
          s!"Claude bridge response channel closed for method {c.method}"))))
    | .expiring, some id =>
      some { s.putPoint i c (.returned (.error (.invalidState
        s!"timed out waiting for Claude bridge response to {c.method}"))) with
        pendingRequests := s.pendingRequests.erase id }
    | _, _ => none

def expire (i : ℕ) (s : BridgeLink) : Option BridgeLink :=
  match s.calls[i]? with
  | none => none
  | some c => if c.point = .waiting ∧ c.reply.isNone then some (s.putPoint i c .expiring) else none

/-! ## The bridge -/

/-- The next section of a `fail_bridge`, up to the drain of the requests. -/
def fail (k : ℕ) (s : BridgeLink) : Option BridgeLink :=
  match s.failings[k]? with
  | some (.starting message) =>
    if s.processClosed then some { s with failings := s.failings.set k .ended }
    else some { s with
      processClosed := true, closed := true, alive := false, failings := s.failings.set k (.draining message) }
  | some (.draining message) =>
    some { s with
      pendingRequests := ∅
      calls := s.calls.mapIdx fun i c =>
        if c.id.any fun id => s.pendingRequests.lookup id = some i then { c with reply := some (.error (.io message)) }
        else c
      failings := s.failings.set k .ended }
  | some .ended | none => none

def write (s : BridgeLink) : Option BridgeLink :=
  match s.outbound with
  | [] => none
  | line :: rest => if s.writerOpen then some { s with outbound := rest, stdin := s.stdin ++ [line] } else none

def isRecord : Json → Bool
  | .obj _ | .arr _ => true
  | _ => false

def take (s : BridgeLink) : Option BridgeLink :=
  match s.stdin with
  | [] => none
  | line :: rest =>
    if s.alive then some { s with
      stdin := rest
      taken := s.taken ++ [line]
      running := if isRecord line.params then s.running ++ [line] else s.running }
    else none

def serve (k : ℕ) (answer : Answer) (s : BridgeLink) : Option BridgeLink :=
  match s.running[k]? with
  | none => none
  | some line =>
    if s.alive then some { s with
      running := s.running.eraseIdx k
      stdout := s.stdout ++ [(line.id, answer)]
      served := s.served ++ [(line, answer)]
      alive := !(line.method = "bridge.shutdown" && answer.toBool) }
    else none

/-- `handle_bridge_response` -/
def read (s : BridgeLink) : Option BridgeLink :=
  match s.stdout with
  | [] => none
  | (id, answer) :: rest =>
    match (s.pendingRequests.lookup id).bind fun i => s.calls[i]?.map fun c => (i, c) with
    | none => some { s with stdout := rest, pendingRequests := s.pendingRequests.erase id }
    | some (i, c) => some { s.putCall i { c with reply := some (answer.mapError mapBridgeError) } with
        stdout := rest, pendingRequests := s.pendingRequests.erase id }

inductive Label where
  /-- a call of `send_bridge_request` -/
  | call (method : String) (params : Json)
  | goOn (i : ℕ)
  | expire (i : ℕ)
  /-- a request to another bridge takes a number -/
  | elsewhere
  | write
  | writerEnds
  | take
  | serve (k : ℕ) (answer : Answer)
  | read
  /-- a task of the adapter finds that the bridge has failed -/
  | fails (message : String)
  | fail (k : ℕ)

def step (l : Label) (s : BridgeLink) : Option BridgeLink :=
  match l with
  | .call method params => some { s with calls := s.calls ++ [⟨method, params, none, .testing, none⟩] }
  | .goOn i => s.goOn i
  | .expire i => s.expire i
  | .elsewhere => some { s with nextRequestId := s.nextRequestId + 1 }
  | .write => s.write
  | .writerEnds => some { s with writerOpen := false }
  | .take => s.take
  | .serve k answer => s.serve k answer
  | .read => s.read
  | .fails message => some { s with failings := s.failings ++ [.starting message] }
  | .fail k => s.fail k

end BridgeLink

/-! ## What holds in every run -/

@[simp] def Point.isSent : Point → Bool
  | .waiting | .expiring | .returned _ => true
  | _ => false

@[simp] def Point.isRegistered : Point → Bool
  | .queueing | .retracting | .waiting | .expiring => true
  | _ => false

@[simp] def Point.isAwaited : Point → Bool
  | .queueing | .waiting => true
  | _ => false

@[simp] def Point.isBare : Point → Bool
  | .testing | .numbering => true
  | _ => false

@[simp] def Point.isFresh : Point → Bool
  | .testing | .numbering | .checking | .registering => true
  | _ => false

namespace BridgeLink

/-- The property: a call that succeeds has the result of its own request, which the sidecar has served once and which no
other call has sent; requests are read in the order in which they went to the writer; a call that waits has its reply or
its entry, and no entry is left behind by a call that has returned. -/
structure AnswersItsOwn (s : BridgeLink) : Prop where
  own : ∀ (i : ℕ) (c : Call) (result : Json), s.calls[i]? = some c → c.point = .returned (.ok result) →
    ∃ id, c.id = some id ∧ (⟨id, c.method, c.params⟩, .ok result) ∈ s.served
  once : ((s.served.map Prod.fst ++ s.running).map BridgeRequest.id).Nodup
  sent : ∀ line ∈ s.served.map Prod.fst ++ s.running, ∃ (i : ℕ) (c : Call), s.calls[i]? = some c ∧
    c.id = some line.id ∧ c.method = line.method ∧ c.params = line.params
  inOrder : s.taken <+: s.queued
  awaited : ∀ (i : ℕ) (c : Call), s.calls[i]? = some c → c.point = .waiting → c.reply = none →
    ∃ id, c.id = some id ∧ s.pendingRequests.lookup id = some i
  noneLeft : ∀ id i, s.pendingRequests.lookup id = some i →
    ∃ c : Call, s.calls[i]? = some c ∧ c.id = some id ∧ c.point.isRegistered = true ∧ c.reply = none

/-- What is known of call `i`. -/
structure CallSound (s : BridgeLink) (i : ℕ) (c : Call) : Prop where
  below : ∀ id, c.id = some id → id < s.nextRequestId
  bare : c.point.isBare = true → c.id = none
  fresh : c.point.isFresh = true → c.reply = none
  awaited : c.point.isAwaited = true → c.reply = none → ∃ id, c.id = some id ∧ s.pendingRequests.lookup id = some i
  reply : ∀ result, c.reply = some (.ok result) → ∃ line, c.id = some line.id ∧ (line, .ok result) ∈ s.served
  returned : ∀ result, c.point = .returned (.ok result) → c.reply = some (.ok result)

structure Sound (s : BridgeLink) : Prop where
  each : ∀ (i : ℕ) (c : Call), s.calls[i]? = some c → CallSound s i c
  apart : ∀ (i j : ℕ) (c c' : Call) (id : ℕ), s.calls[i]? = some c → s.calls[j]? = some c' → c.id = some id →
    c'.id = some id → i = j
  entry : ∀ id i, s.pendingRequests.lookup id = some i →
    ∃ c : Call, s.calls[i]? = some c ∧ c.id = some id ∧ c.point.isRegistered = true ∧ c.reply = none
  lines : s.queued = s.taken ++ (s.stdin ++ s.outbound)
  distinct : (s.queued.map BridgeRequest.id).Nodup
  sent : ∀ line ∈ s.queued, ∃ (i : ℕ) (c : Call), s.calls[i]? = some c ∧ c.id = some line.id ∧
    c.method = line.method ∧ c.params = line.params ∧ c.point.isSent = true
  once : (s.served.map Prod.fst ++ s.running).Subperm s.taken
  answered : ∀ p ∈ s.stdout, ∃ line, (line, p.2) ∈ s.served ∧ line.id = p.1

variable {s s' : BridgeLink} {i : ℕ} {c c' : Call}

theorem Sound.answersItsOwn (h : Sound s) : AnswersItsOwn s := by
  have hqueued : ∀ line ∈ s.served.map Prod.fst ++ s.running, line ∈ s.queued := fun line hline =>
    h.lines ▸ List.mem_append_left _ (h.once.subset hline)
  refine ⟨fun i c result hc hpoint => ?_, ?_, fun line hline => ?_, ⟨_, h.lines.symm⟩, fun i c hc hpoint hr => ?_,
    h.entry⟩
  · have hcall := h.each i c hc
    obtain ⟨⟨id, method, params⟩, hid, hserved⟩ := hcall.reply result (hcall.returned result hpoint)
    obtain ⟨j, c', hc', hid', hmethod, hparams, -⟩ :=
      h.sent _ (hqueued _ (List.mem_append_left _ (List.mem_map_of_mem hserved)))
    obtain rfl := h.apart i j c c' id hc hc' hid hid'
    obtain rfl := Option.some.inj (hc.symm.trans hc')
    exact ⟨id, hid, by rw [hmethod, hparams]; exact hserved⟩
  · have hdistinct := h.distinct
    rw [h.lines, List.map_append] at hdistinct
    obtain ⟨l, hperm, hsub⟩ := h.once
    exact (hperm.map BridgeRequest.id).nodup_iff.mp ((hsub.map _).nodup (List.nodup_append.mp hdistinct).1)
  · obtain ⟨i, c, hc, hid, hmethod, hparams, -⟩ := h.sent line (hqueued line hline)
    exact ⟨i, c, hc, hid, hmethod, hparams⟩
  · exact (h.each i c hc).awaited (by rw [hpoint]; rfl) hr

theorem sound_spawned (n : ℕ) : Sound (spawned n) := by
  have hlookup : ∀ id : ℕ, (∅ : Table ℕ ℕ).lookup id = none := fun id => AList.lookup_empty id
  constructor <;> simp [spawned, hlookup]

theorem CallSound.frame (h : CallSound s i c) (hnext : s.nextRequestId ≤ s'.nextRequestId)
    (hserved : ∀ p ∈ s.served, p ∈ s'.served)
    (hentry : ∀ id, c.id = some id → s.pendingRequests.lookup id = some i → s'.pendingRequests.lookup id = some i) :
    CallSound s' i c := by
  refine ⟨fun id hid => (h.below id hid).trans_le hnext, h.bare, h.fresh, fun hp hr => ?_, fun result hr => ?_,
    h.returned⟩
  · obtain ⟨id, hid, hi⟩ := h.awaited hp hr
    exact ⟨id, hid, hentry id hid hi⟩
  · obtain ⟨line, hid, hline⟩ := h.reply result hr
    exact ⟨line, hid, hserved _ hline⟩

/-! ## A section of a call -/

/-- What call `i` does when it goes on. -/
structure Moves (i : ℕ) (c c' : Call) (s s' : BridgeLink) : Prop where
  found : s.calls[i]? = some c
  calls : s'.calls = s.calls.set i c'
  same : c'.method = c.method ∧ c'.params = c.params
  number : c'.id = c.id ∧ s'.nextRequestId = s.nextRequestId ∨
    c.id = none ∧ c'.id = some s.nextRequestId ∧ s'.nextRequestId = s.nextRequestId + 1
  sound : CallSound s' i c'
  entries : ∀ id j, s'.pendingRequests.lookup id = some j → s.pendingRequests.lookup id = some j ∧ j ≠ i ∨
    j = i ∧ c'.id = some id ∧ c'.point.isRegistered = true ∧ c'.reply = none
  others : ∀ id j, j ≠ i → s.pendingRequests.lookup id = some j → s'.pendingRequests.lookup id = some j
  sent : c.point.isSent = true → c'.point.isSent = true
  queue : s'.queued = s.queued ∧ s'.outbound = s.outbound ∨
    ∃ line, s'.queued = s.queued ++ [line] ∧ s'.outbound = s.outbound ++ [line] ∧ c'.id = some line.id ∧
      c'.method = line.method ∧ c'.params = line.params ∧ c.point.isSent = false ∧ c'.point.isSent = true
  rest : s'.taken = s.taken ∧ s'.stdin = s.stdin ∧ s'.running = s.running ∧ s'.stdout = s.stdout ∧ s'.served = s.served

theorem Sound.moves (h : Sound s) (hm : Moves i c c' s s') : Sound s' := by
  obtain ⟨hmethod, hparams⟩ := hm.same
  obtain ⟨htaken, hstdin, hrunning, hstdout, hserved⟩ := hm.rest
  have hcall : ∀ {j : ℕ} {d : Call}, s'.calls[j]? = some d → j = i ∧ d = c' ∨ j ≠ i ∧ s.calls[j]? = some d :=
    fun hd => of_getElem?_set (hm.calls ▸ hd)
  have hfound : s'.calls[i]? = some c' := hm.calls ▸ getElem?_set_of_some hm.found
  have hother : ∀ {j : ℕ} {d : Call}, j ≠ i → s.calls[j]? = some d → s'.calls[j]? = some d := fun hj hd =>
    hm.calls ▸ (List.getElem?_set_ne (Ne.symm hj)).trans hd
  have hnext : s.nextRequestId ≤ s'.nextRequestId := by
    rcases hm.number with ⟨-, hnext⟩ | ⟨-, -, hnext⟩ <;> omega
  -- no other call has the number that call `i` has now
  have hapart : ∀ (j : ℕ) (d : Call) (id : ℕ), s.calls[j]? = some d → d.id = some id → c'.id = some id → j = i := by
    intro j d id hd hid hid'
    rcases hm.number with ⟨hsame, -⟩ | ⟨-, hnew, -⟩
    · exact h.apart j i d c id hd hm.found hid (hsame ▸ hid')
    · have hlt := (h.each j d hd).below id hid
      rw [hnew] at hid'
      exact absurd (Option.some.inj hid') (Nat.ne_of_gt hlt)
  have hsent : ∀ line ∈ s.queued, ∃ (j : ℕ) (d : Call), s'.calls[j]? = some d ∧ d.id = some line.id ∧
      d.method = line.method ∧ d.params = line.params ∧ d.point.isSent = true := by
    intro line hline
    obtain ⟨j, d, hd, hid, hmethod', hparams', hpoint⟩ := h.sent line hline
    by_cases hj : j = i
    · subst hj
      obtain rfl := Option.some.inj (hd.symm.trans hm.found)
      rcases hm.number with ⟨hsame, -⟩ | ⟨hnone, -⟩
      · exact ⟨j, c', hfound, hsame.trans hid, hmethod.trans hmethod', hparams.trans hparams', hm.sent hpoint⟩
      · cases hnone.symm.trans hid
    · exact ⟨j, d, hother hj hd, hid, hmethod', hparams', hpoint⟩
  refine ⟨fun j d hd => ?_, fun j k d e id hd he hid hid' => ?_, fun id j hj => ?_, ?_, ?_, fun line hline => ?_, ?_, ?_⟩
  · obtain ⟨rfl, rfl⟩ | ⟨hne, hd⟩ := hcall hd
    · exact hm.sound
    · exact (h.each j d hd).frame hnext (fun p hp => hserved ▸ hp) fun id _ hj => hm.others id j hne hj
  · obtain ⟨rfl, rfl⟩ | ⟨-, hd⟩ := hcall hd <;> obtain ⟨rfl, rfl⟩ | ⟨-, he⟩ := hcall he
    · rfl
    · exact (hapart k e id he hid' hid).symm
    · exact hapart j d id hd hid hid'
    · exact h.apart j k d e id hd he hid hid'
  · obtain ⟨hj, hne⟩ | ⟨rfl, hid⟩ := hm.entries id j hj
    · obtain ⟨d, hd, hrest⟩ := h.entry id j hj
      exact ⟨d, hother hne hd, hrest⟩
    · exact ⟨c', hfound, hid⟩
  · rw [htaken, hstdin]
    rcases hm.queue with ⟨hq, ho⟩ | ⟨line, hq, ho, -⟩
    · rw [hq, ho, h.lines]
    · rw [hq, ho, h.lines, List.append_assoc, List.append_assoc]
  · rcases hm.queue with ⟨hq, -⟩ | ⟨line, hq, -, hid, -, -, hnot, -⟩
    · rw [hq]; exact h.distinct
    · rw [hq, List.map_append, List.nodup_append]
      refine ⟨h.distinct, by simp, fun a ha b hb => ?_⟩
      obtain ⟨line', hline', rfl⟩ := List.mem_map.mp ha
      obtain rfl : b = line.id := by simpa using hb
      rintro heq
      obtain ⟨j, d, hd, hid', -, -, hpoint⟩ := h.sent line' hline'
      obtain rfl := hapart j d line'.id hd hid' (hid.trans (congrArg some heq.symm))
      obtain rfl := Option.some.inj (hd.symm.trans hm.found)
      cases hpoint.symm.trans hnot
  · rcases hm.queue with ⟨hq, -⟩ | ⟨line', hq, -, hid, hmethod', hparams', -, hpoint⟩
    · exact hsent line (hq ▸ hline)
    · rw [hq] at hline
      rcases List.mem_append.mp hline with hline | hline
      · exact hsent line hline
      · obtain rfl := List.mem_singleton.mp hline
        exact ⟨i, c', hfound, hid, hmethod', hparams', hpoint⟩
  · rw [hserved, hrunning, htaken]; exact h.once
  · rw [hstdout, hserved]; exact h.answered

/-- The entries of a call are under its number. -/
theorem Sound.entry_id (h : Sound s) (hc : s.calls[i]? = some c) {id : ℕ} (hi : s.pendingRequests.lookup id = some i) :
    c.id = some id ∧ c.point.isRegistered = true ∧ c.reply = none := by
  obtain ⟨d, hd, hentry⟩ := h.entry id i hi
  exact Option.some.inj (hd.symm.trans hc) ▸ hentry

theorem Sound.ne_of_entry (h : Sound s) (hc : s.calls[i]? = some c) {id id' j : ℕ} (hid : c.id = some id) (hne : j ≠ i)
    (hj : s.pendingRequests.lookup id' = some j) : id' ≠ id := by
  rintro rfl
  obtain ⟨d, hd, hid', -⟩ := h.entry id' j hj
  exact hne (h.apart j i d c id' hd hc hid' hid)

/-- The call goes to another point; it may take its entry back. -/
theorem Sound.movesTo (h : Sound s) (hc : s.calls[i]? = some c) {point : Point} {closed : Bool}
    {failings : List Failing} {table : Table ℕ ℕ} (hbare : point.isBare = true → c.point.isBare = true)
    (hfresh : point.isFresh = true → c.point.isFresh = true) (hsent : c.point.isSent = true → point.isSent = true)
    (hreturned : ∀ result, point = .returned (.ok result) → c.reply = some (.ok result))
    (htable : table = s.pendingRequests ∧ (point.isAwaited = true → c.point.isAwaited = true) ∧
        (point.isRegistered = true ∨ ∀ id, c.id = some id → c.reply = none → s.pendingRequests.lookup id ≠ some i ∨
          c.point.isRegistered = false) ∨
      ∃ id, c.id = some id ∧ table = s.pendingRequests.erase id ∧ point.isAwaited = false) :
    Sound { s.putPoint i c point with closed := closed, failings := failings, pendingRequests := table } := by
  have hold := h.each i c hc
  refine h.moves {
    found := hc
    calls := rfl
    same := ⟨rfl, rfl⟩
    number := .inl ⟨rfl, rfl⟩
    sound := ⟨hold.below, fun hp => hold.bare (hbare hp), fun hp => hold.fresh (hfresh hp), fun hp hr => ?_, hold.reply,
      hreturned⟩
    entries := fun id j hj => ?_
    others := fun id j hne hj => ?_
    sent := hsent
    queue := .inl ⟨rfl, rfl⟩
    rest := ⟨rfl, rfl, rfl, rfl, rfl⟩ }
  · rcases htable with ⟨rfl, haw, -⟩ | ⟨-, -, -, hno⟩
    · exact hold.awaited (haw hp) hr
    · cases hp.symm.trans hno
  · rcases htable with ⟨rfl, -, hreg⟩ | ⟨id', hid', rfl, -⟩
    · by_cases hne : j = i
      · subst hne
        obtain ⟨hid, hregc, hreply⟩ := h.entry_id hc hj
        rcases hreg with hreg | hreg
        · exact .inr ⟨rfl, hid, hreg, hreply⟩
        · rcases hreg id hid hreply with hno | hno
          · exact absurd hj hno
          · cases hregc.symm.trans hno
      · exact .inl ⟨hj, hne⟩
    · obtain ⟨hne, hj'⟩ := Table.of_lookup_erase hj
      refine .inl ⟨hj', ?_⟩
      rintro rfl
      exact hne (Option.some.inj ((h.entry_id hc hj').1.symm.trans hid'))
  · rcases htable with ⟨rfl, -⟩ | ⟨id', hid', rfl, -⟩
    · exact hj
    · rw [Table.lookup_erase, if_neg (h.ne_of_entry hc hid' hne hj)]
      exact hj

theorem Sound.goOn (h : Sound s) (hs : s.goOn i = some s') : Sound s' := by
  unfold BridgeLink.goOn at hs
  split at hs
  · cases hs
  next c hc =>
  have hold := h.each i c hc
  have hnoEntry : c.point.isRegistered = false → ∀ id j, s.pendingRequests.lookup id = some j → j ≠ i := by
    rintro hp id j hj rfl
    cases (h.entry_id hc hj).2.1.symm.trans hp
  split at hs
  case h_1 hp =>
    obtain rfl := Option.some.inj hs
    refine h.movesTo hc ?_ ?_ ?_ ?_ (.inl ⟨rfl, ?_⟩) <;> split <;> simp [hp]
  case h_2 hp =>
    obtain rfl := Option.some.inj hs
    have hreply := hold.fresh (by rw [hp]; rfl)
    exact h.moves {
      found := hc
      calls := rfl
      same := ⟨rfl, rfl⟩
      number := .inr ⟨hold.bare (by rw [hp]; rfl), rfl, rfl⟩
      sound := ⟨fun id hid => Option.some.inj hid ▸ Nat.lt_succ_self _, nofun, fun _ => hreply, nofun,
        by simp [hreply], nofun⟩
      entries := fun id j hj => .inl ⟨hj, hnoEntry (by rw [hp]; rfl) id j hj⟩
      others := fun _ _ _ hj => hj
      sent := by simp [hp]
      queue := .inl ⟨rfl, rfl⟩
      rest := ⟨rfl, rfl, rfl, rfl, rfl⟩ }
  case h_3 hp =>
    split at hs <;> obtain rfl := Option.some.inj hs <;>
    · refine h.movesTo hc ?_ ?_ ?_ ?_ (.inl ⟨rfl, ?_⟩) <;> simp [hp]
  case h_4 id hp hid =>
    obtain rfl := Option.some.inj hs
    have hreply := hold.fresh (by rw [hp]; rfl)
    refine h.moves {
      found := hc
      calls := rfl
      same := ⟨rfl, rfl⟩
      number := .inl ⟨rfl, rfl⟩
      sound := ⟨hold.below, nofun, nofun, fun _ _ => ⟨id, hid, by rw [Table.lookup_insert, if_pos rfl]⟩, hold.reply, nofun⟩
      entries := fun id' j hj => ?_
      others := fun id' j hne hj => ?_
      sent := by simp [hp]
      queue := .inl ⟨rfl, rfl⟩
      rest := ⟨rfl, rfl, rfl, rfl, rfl⟩ }
    · obtain ⟨rfl, hji⟩ | hj := Table.of_lookup_insert hj
      · exact .inr ⟨hji, hid, rfl, hreply⟩
      · exact .inl ⟨hj, hnoEntry (by rw [hp]; rfl) id' j hj⟩
    · rw [Table.lookup_insert, if_neg (h.ne_of_entry hc hid hne hj)]
      exact hj
  case h_5 id hp hid =>
    split at hs <;> obtain rfl := Option.some.inj hs
    · refine h.moves {
        found := hc
        calls := rfl
        same := ⟨rfl, rfl⟩
        number := .inl ⟨rfl, rfl⟩
        sound := ⟨hold.below, nofun, nofun, fun _ hr => hold.awaited (by rw [hp]; rfl) hr, hold.reply, nofun⟩
        entries := fun id' j hj => ?_
        others := fun _ _ _ hj => hj
        sent := fun _ => rfl
        queue := .inr ⟨_, rfl, rfl, hid, rfl, rfl, by rw [hp]; rfl, rfl⟩
        rest := ⟨rfl, rfl, rfl, rfl, rfl⟩ }
      by_cases hne : j = i
      · subst hne
        obtain ⟨hid', -, hreply⟩ := h.entry_id hc hj
        exact .inr ⟨rfl, hid', rfl, hreply⟩
      · exact .inl ⟨hj, hne⟩
    · refine h.movesTo hc ?_ ?_ ?_ ?_ (.inl ⟨rfl, ?_⟩) <;> simp [hp]
  case h_6 id hp hid =>
    obtain rfl := Option.some.inj hs
    refine h.movesTo hc ?_ ?_ ?_ ?_ (.inr ⟨id, hid, rfl, ?_⟩) <;> simp [hp]
  case h_7 hp =>
    split at hs
    · obtain rfl := Option.some.inj hs
      refine h.movesTo hc ?_ ?_ ?_ ?_ (.inl ⟨rfl, ?_⟩) <;> simp [hp]
    · cases hs
  case h_8 id hp hid =>
    split at hs
    · next outcome hr =>
      obtain rfl := Option.some.inj hs
      refine h.movesTo hc ?_ ?_ ?_ ?_ (.inl ⟨rfl, ?_⟩) <;> simp [hp, hr]
    · split at hs
      · cases hs
      · next hno =>
        obtain rfl := Option.some.inj hs
        refine h.movesTo hc ?_ ?_ ?_ ?_
          (.inl ⟨rfl, ?_, .inr fun id' hid' _ => .inl (Option.some.inj (hid.symm.trans hid') ▸ hno)⟩) <;> simp [hp]
  case h_9 id hp hid =>
    obtain rfl := Option.some.inj hs
    refine h.movesTo hc ?_ ?_ ?_ ?_ (.inr ⟨id, hid, rfl, ?_⟩) <;> simp [hp]
  case h_10 => cases hs

theorem Sound.expire (h : Sound s) (hs : s.expire i = some s') : Sound s' := by
  unfold BridgeLink.expire at hs
  split at hs
  · cases hs
  next c hc =>
  split at hs
  · next hp =>
    obtain rfl := Option.some.inj hs
    refine h.movesTo hc ?_ ?_ ?_ ?_ (.inl ⟨rfl, ?_⟩) <;> simp
  · cases hs

/-! ## The bridge answers -/

/-- Some calls lose their entries and have a reply instead. -/
structure Replies (s s' : BridgeLink) : Prop where
  back : ∀ (j : ℕ) (d' : Call), s'.calls[j]? = some d' → ∃ d, s.calls[j]? = some d ∧
    (d' = d ∧ (∀ id, d.id = some id → s.pendingRequests.lookup id = some j → s'.pendingRequests.lookup id = some j) ∨
      ∃ id outcome, s.pendingRequests.lookup id = some j ∧ d' = { d with reply := some outcome } ∧
        ∀ result, outcome = .ok result → ∃ line : BridgeRequest, line.id = id ∧ (line, .ok result) ∈ s.served)
  forth : ∀ (j : ℕ) (d : Call), s.calls[j]? = some d → ∃ d', s'.calls[j]? = some d' ∧ d'.id = d.id ∧
    d'.method = d.method ∧ d'.params = d.params ∧ d'.point = d.point
  entries : ∀ id j, s'.pendingRequests.lookup id = some j →
    s.pendingRequests.lookup id = some j ∧ s'.calls[j]? = s.calls[j]?
  number : s'.nextRequestId = s.nextRequestId
  queue : s'.queued = s.queued ∧ s'.outbound = s.outbound ∧ s'.taken = s.taken ∧ s'.stdin = s.stdin
  rest : s'.running = s.running ∧ s'.served = s.served ∧ ∀ p ∈ s'.stdout, p ∈ s.stdout

theorem Sound.replies (h : Sound s) (hm : Replies s s') : Sound s' := by
  obtain ⟨hqueued, houtbound, htaken, hstdin⟩ := hm.queue
  obtain ⟨hrunning, hserved, hstdout⟩ := hm.rest
  have hback : ∀ (j : ℕ) (d' : Call), s'.calls[j]? = some d' → ∃ d, s.calls[j]? = some d ∧ d'.id = d.id := by
    intro j d' hd'
    obtain ⟨d, hd, ⟨rfl, -⟩ | ⟨-, -, -, rfl, -⟩⟩ := hm.back j d' hd' <;> exact ⟨_, hd, rfl⟩
  refine ⟨fun j d hd => ?_, fun j k d e id hd he hid hid' => ?_, fun id j hj => ?_, ?_, ?_, fun line hline => ?_, ?_,
    fun p hp => ?_⟩
  · obtain ⟨d₀, hd₀, ⟨rfl, hstays⟩ | ⟨id, outcome, hj, rfl, houtcome⟩⟩ := hm.back j d hd
    · exact (h.each j _ hd₀).frame hm.number.ge (fun p hp => hserved ▸ hp) hstays
    · obtain ⟨hid, hreg, -⟩ := h.entry_id hd₀ hj
      have hold := h.each j d₀ hd₀
      refine ⟨hm.number ▸ hold.below, hold.bare, fun hfresh => ?_, nofun, fun result hr => ?_, fun result hp => ?_⟩
      · cases hp : d₀.point <;> simp [hp] at hfresh hreg
      · obtain ⟨line, rfl, hline⟩ := houtcome result (Option.some.inj hr)
        exact ⟨line, hid, hserved ▸ hline⟩
      · have hpoint : d₀.point = .returned (.ok result) := hp
        simp [hpoint] at hreg
  · obtain ⟨d₀, hd₀, hsame⟩ := hback j d hd
    obtain ⟨e₀, he₀, hsame'⟩ := hback k e he
    exact h.apart j k d₀ e₀ id hd₀ he₀ (hsame ▸ hid) (hsame' ▸ hid')
  · obtain ⟨hj', hcall⟩ := hm.entries id j hj
    rw [hcall]
    exact h.entry id j hj'
  · rw [hqueued, htaken, hstdin, houtbound]; exact h.lines
  · rw [hqueued]; exact h.distinct
  · obtain ⟨j, d, hd, hid, hmethod, hparams, hpoint⟩ := h.sent line (hqueued ▸ hline)
    obtain ⟨d', hd', hid', hmethod', hparams', hpoint'⟩ := hm.forth j d hd
    exact ⟨j, d', hd', hid'.trans hid, hmethod'.trans hmethod, hparams'.trans hparams, hpoint' ▸ hpoint⟩
  · rw [hserved, hrunning, htaken]; exact h.once
  · rw [hserved]; exact h.answered p (hstdout p hp)

theorem Sound.read (h : Sound s) (hs : s.read = some s') : Sound s' := by
  unfold BridgeLink.read at hs
  split at hs
  · cases hs
  next id answer rest hout =>
  have hrest : ∀ p ∈ rest, p ∈ s.stdout := fun p hp => hout ▸ List.mem_cons_of_mem _ hp
  split at hs
  · next hnone =>
    obtain rfl := Option.some.inj hs
    refine h.replies ⟨fun j d hd => ⟨d, hd, .inl ⟨rfl, fun id' _ hj => ?_⟩⟩, fun j d hd => ⟨d, hd, rfl, rfl, rfl, rfl⟩,
      fun id' j hj => ⟨(Table.of_lookup_erase hj).2, rfl⟩, rfl, ⟨rfl, rfl, rfl, rfl⟩, ⟨rfl, rfl, hrest⟩⟩
    rw [Table.lookup_erase, if_neg]
    · exact hj
    · rintro rfl
      obtain ⟨d, hd, -⟩ := h.entry id' j hj
      simp [hj, hd] at hnone
  · next i c hsome =>
    obtain rfl := Option.some.inj hs
    obtain ⟨i', hi, hmap⟩ := Option.bind_eq_some_iff.mp hsome
    obtain ⟨c', hc, heq⟩ := Option.map_eq_some_iff.mp hmap
    obtain ⟨rfl, rfl⟩ := Prod.mk.inj heq
    refine h.replies ⟨fun j d hd => ?_, fun j d hd => ?_, fun id' j hj => ?_, rfl, ⟨rfl, rfl, rfl, rfl⟩,
      ⟨rfl, rfl, hrest⟩⟩
    · obtain ⟨rfl, rfl⟩ | ⟨hj, hd⟩ := of_getElem?_set hd
      · refine ⟨c', hc, .inr ⟨id, _, hi, rfl, fun result hok => ?_⟩⟩
        obtain ⟨line, hline, hid⟩ := h.answered (id, answer) (hout ▸ List.mem_cons_self)
        cases answer with
        | ok value => exact ⟨line, hid, by simpa [Except.mapError] using (Except.ok.inj hok) ▸ hline⟩
        | error => cases hok
      · refine ⟨d, hd, .inl ⟨rfl, fun id' _ hj' => ?_⟩⟩
        rw [Table.lookup_erase, if_neg (h.ne_of_entry hc (h.entry_id hc hi).1 hj hj')]
        exact hj'
    · by_cases hj : j = i'
      · subst hj
        obtain rfl := Option.some.inj (hd.symm.trans hc)
        exact ⟨_, getElem?_set_of_some hc, rfl, rfl, rfl, rfl⟩
      · exact ⟨d, (List.getElem?_set_ne (Ne.symm hj)).trans hd, rfl, rfl, rfl, rfl⟩
    · obtain ⟨hne, hj⟩ := Table.of_lookup_erase hj
      refine ⟨hj, List.getElem?_set_ne ?_⟩
      rintro rfl
      exact hne (Option.some.inj ((h.entry_id hc hj).1.symm.trans (h.entry_id hc hi).1))

/-- The drain of the requests in a `fail_bridge`. -/
theorem Sound.drain {k : ℕ} {message : String} (h : Sound s) (hk : s.failings[k]? = some (.draining message))
    (hs : s.fail k = some s') : Sound s' := by
  simp only [BridgeLink.fail, hk] at hs
  obtain rfl := Option.some.inj hs
  have hlookup : ∀ id : ℕ, (∅ : Table ℕ ℕ).lookup id = none := fun id => AList.lookup_empty id
  refine h.replies ⟨fun j d' hd => ?_, fun j d hd => ?_, fun id j hj => by simp [hlookup] at hj, rfl,
    ⟨rfl, rfl, rfl, rfl⟩, ⟨rfl, rfl, fun _ hp => hp⟩⟩
  · rw [List.getElem?_mapIdx] at hd
    obtain ⟨d, hd₀, rfl⟩ := Option.map_eq_some_iff.mp hd
    refine ⟨d, hd₀, ?_⟩
    split
    · next hany =>
      obtain ⟨id, -, hj⟩ := Option.any_eq_true _ _ |>.mp hany
      exact .inr ⟨id, _, by simpa using hj, rfl, fun result hok => by cases hok⟩
    · next hno =>
      refine .inl ⟨rfl, fun id hid hj => ?_⟩
      simp [hid, hj] at hno
  · rw [List.getElem?_mapIdx, hd]
    refine ⟨_, rfl, ?_⟩
    dsimp only
    split <;> exact ⟨rfl, rfl, rfl, rfl⟩

/-! ## Runs -/

/-- A step that leaves the calls and their entries. -/
theorem Sound.aside (h : Sound s) (hcalls : s'.calls = s.calls)
    (htable : s'.pendingRequests = s.pendingRequests) (hnext : s.nextRequestId ≤ s'.nextRequestId)
    (hqueued : s'.queued = s.queued) (hlines : s.queued = s'.taken ++ (s'.stdin ++ s'.outbound))
    (honce : (s'.served.map Prod.fst ++ s'.running).Subperm s'.taken) (hserved : ∀ p ∈ s.served, p ∈ s'.served)
    (hanswered : ∀ p ∈ s'.stdout, ∃ line, (line, p.2) ∈ s'.served ∧ line.id = p.1) : Sound s' := by
  refine ⟨fun j d hd => ?_, hcalls ▸ h.apart, ?_, hqueued ▸ hlines, hqueued ▸ h.distinct, ?_, honce, hanswered⟩
  · exact (h.each j d (hcalls ▸ hd)).frame hnext hserved fun id _ hj => htable ▸ hj
  · rw [htable, hcalls]; exact h.entry
  · rw [hqueued, hcalls]; exact h.sent

theorem Sound.call (h : Sound s) (method : String) (params : Json) :
    Sound { s with calls := s.calls ++ [⟨method, params, none, .testing, none⟩] } := by
  refine ⟨fun j d hd => ?_, fun j k d e id hd he hid hid' => ?_, fun id j hj => ?_, h.lines, h.distinct,
    fun line hline => ?_, h.once, h.answered⟩
  · obtain hd | rfl := of_getElem?_concat hd
    · exact (h.each j d hd).frame le_rfl (fun _ hp => hp) fun _ _ hj => hj
    · exact ⟨nofun, fun _ => rfl, fun _ => rfl, nofun, nofun, nofun⟩
  · obtain hd | rfl := of_getElem?_concat hd
    · obtain he | rfl := of_getElem?_concat he
      · exact h.apart j k d e id hd he hid hid'
      · cases hid'
    · cases hid
  · obtain ⟨d, hd, hrest⟩ := h.entry id j hj
    exact ⟨d, getElem?_concat_of_some hd, hrest⟩
  · obtain ⟨j, d, hd, hrest⟩ := h.sent line hline
    exact ⟨j, d, getElem?_concat_of_some hd, hrest⟩

theorem Sound.serve {k : ℕ} {answer : Answer} (h : Sound s) (hs : s.serve k answer = some s') :
    Sound s' := by
  unfold BridgeLink.serve at hs
  split at hs
  · cases hs
  next line hk =>
  split at hs
  · obtain rfl := Option.some.inj hs
    obtain ⟨hlt, hline⟩ := List.getElem?_eq_some_iff.mp hk
    refine h.aside rfl rfl le_rfl rfl h.lines ?_ (fun p hp => List.mem_append_left _ hp) fun p hp => ?_
    · have hperm : (s.served.map Prod.fst ++ s.running).Perm
          ((s.served ++ [(line, answer)]).map Prod.fst ++ s.running.eraseIdx k) := by
        rw [List.map_append, List.append_assoc]
        exact (hline ▸ List.getElem_cons_eraseIdx_perm hlt).symm.append_left _
      exact hperm.symm.subperm.trans h.once
    · rcases List.mem_append.mp hp with hp | hp
      · obtain ⟨line', hline', hid⟩ := h.answered p hp
        exact ⟨line', List.mem_append_left _ hline', hid⟩
      · obtain rfl := List.mem_singleton.mp hp
        exact ⟨line, List.mem_append_right _ (List.mem_singleton.mpr rfl), rfl⟩
  · cases hs

theorem Sound.take (h : Sound s) (hs : s.take = some s') : Sound s' := by
  unfold BridgeLink.take at hs
  split at hs
  · cases hs
  next line rest hstdin =>
  split at hs
  · obtain rfl := Option.some.inj hs
    refine h.aside rfl rfl le_rfl rfl ?_ ?_ (fun _ hp => hp) h.answered
    · rw [h.lines, hstdin]
      simp only [List.append_assoc, List.cons_append, List.nil_append]
    · dsimp only
      split
      · rw [← List.append_assoc]
        exact (List.subperm_append_right [line]).mpr h.once
      · exact h.once.trans (List.sublist_append_left _ _).subperm
  · cases hs

theorem Sound.write (h : Sound s) (hs : s.write = some s') : Sound s' := by
  unfold BridgeLink.write at hs
  split at hs
  · cases hs
  next line rest hout =>
  split at hs
  · obtain rfl := Option.some.inj hs
    refine h.aside rfl rfl le_rfl rfl ?_ h.once (fun _ hp => hp) h.answered
    rw [h.lines, hout]
    simp only [List.append_assoc, List.cons_append, List.nil_append]
  · cases hs

theorem Sound.fail {k : ℕ} (h : Sound s) (hs : s.fail k = some s') : Sound s' := by
  cases hk : s.failings[k]? with
  | none => simp [BridgeLink.fail, hk] at hs
  | some failing =>
    cases failing with
    | starting message =>
      simp only [BridgeLink.fail, hk] at hs
      split at hs <;> obtain rfl := Option.some.inj hs <;>
        exact h.aside rfl rfl le_rfl rfl h.lines h.once (fun _ hp => hp) h.answered
    | draining message => exact h.drain hk hs
    | ended => simp [BridgeLink.fail, hk] at hs

theorem Sound.step {l : Label} (h : Sound s) (hs : step l s = some s') : Sound s' := by
  cases l with
  | call method params => exact Option.some.inj hs ▸ h.call method params
  | goOn => exact h.goOn hs
  | expire => exact h.expire hs
  | elsewhere =>
    exact Option.some.inj hs ▸ h.aside rfl rfl (Nat.le_succ _) rfl h.lines h.once (fun _ hp => hp) h.answered
  | write => exact h.write hs
  | writerEnds => exact Option.some.inj hs ▸ h.aside rfl rfl le_rfl rfl h.lines h.once (fun _ hp => hp) h.answered
  | take => exact h.take hs
  | serve => exact h.serve hs
  | read => exact h.read hs
  | fails => exact Option.some.inj hs ▸ h.aside rfl rfl le_rfl rfl h.lines h.once (fun _ hp => hp) h.answered
  | fail => exact h.fail hs

/-- In every order of the steps of the calls, the adapter's tasks and the sidecar. -/
theorem answersItsOwn_of_reaches {n : ℕ} (hrun : Reaches step (fun _ _ => True) (spawned n) s) :
    AnswersItsOwn s :=
  (hrun.invariant (sound_spawned n) fun _ _ _ hs _ hstep => hs.step hstep).answersItsOwn

/-- Two calls whose answers cross, and a third whose time is up before it has one. -/
def crossedAnswers : List Label :=
  [.call "turn.wait" (.obj []), .call "turn.interrupt" (.obj []), .call "model.list" (.obj []),
    .goOn 0, .goOn 1, .goOn 1, .goOn 0, .goOn 0, .goOn 1, .goOn 1, .goOn 0, .goOn 0, .goOn 1,
    .goOn 2, .goOn 2, .goOn 2, .goOn 2, .goOn 2,
    .write, .take, .write, .take, .serve 1 (.ok (.str "interrupted")), .write, .take,
    .serve 0 (.ok (.str "waited")), .expire 2, .read, .goOn 2, .serve 0 (.ok (.str "listed")), .read, .read,
    .goOn 0, .goOn 1]

theorem answersItsOwn_crossed : ∃ s, AnswersItsOwn s ∧ (s.served.map fun p => p.1.id, s.calls.map Call.point) =
    ([1, 2, 3], [.returned (.ok (.str "waited")), .returned (.ok (.str "interrupted")),
      .returned (.error (.invalidState "timed out waiting for Claude bridge response to model.list"))]) :=
  (exists_reaches_of_runAll step (fun _ _ => true) crossedAnswers _ _ (by decide +kernel)).imp fun _ ⟨hrun, hs⟩ =>
    ⟨answersItsOwn_of_reaches (n := 1) (hrun.mono fun _ _ _ => trivial), hs⟩

end BridgeLink

end Gooselake.Providers.BridgeRequests
