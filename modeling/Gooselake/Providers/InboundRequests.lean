import Gooselake.Library.Numbered
import Gooselake.Library.Runs
import Gooselake.Providers.Connection

/-!
What the reader of an ACP connection does with the messages of the agent: the JSON of a line, the method that decides
where it goes, the answer that is written back and the request that it resolves. The rest of the connection is that of
`Connection`.
-/

namespace Gooselake.Providers.Acp.Connection

open Gooselake.Core Data Library

set_option autoImplicit false

/-! ## Messages -/

def methodOf (message : Json) : Option String := (message.get? "method").bind Json.asStr

/-- `shown` is the text that `serde_json` writes for a value. -/
def messageIdKey (shown : Json → String) (message : Json) : Option String :=
  match message.get? "id" with
  | some (.str value) => some value
  | some (.int n) => some (toString n)
  | some (.float bits) => some (shown (.float bits))
  | _ => none

def jsonrpcErrorMessage (shown : Json → String) (error : Json) : String :=
  ((error.get? "message").bind Json.asStr).getD (shown error)

def replyOf (shown : Json → String) (message : Json) : Reply :=
  match message.get? "error", message.get? "result" with
  | some error, _ => .error (jsonrpcErrorMessage shown error)
  | none, some result => .result result
  | none, none => .neither

def sessionIdOf (message : Json) : Option String :=
  ((message.get? "params").bind fun params => params.get? "sessionId").bind Json.asStr

def updateOf (message : Json) : Option Json := (message.get? "params").bind fun params => params.get? "update"

def cancelledAnswer (requestId : Json) : Json :=
  .obj [("jsonrpc", .str "2.0"), ("id", requestId),
    ("result", .obj [("outcome", .obj [("outcome", .str "cancelled")])])]

/-! ## The reader -/

structure Handled where
  message : Json
  /-- Written to the agent. -/
  answers : List Json
  /-- The requests that it resolved. -/
  resolved : List ℕ
  /-- The update that a session was given. -/
  applied : Option (String × Json)
  /-- The session whose turn was failed. -/
  failed : Option String
  deriving DecidableEq

def Handled.skipped (message : Json) : Handled := ⟨message, [], [], none, none⟩

structure Inbound where
  connection : State
  handled : List Handled

def Inbound.spawned : Inbound := ⟨State.spawned, []⟩

namespace State

def named (key : String) (s : State) : Option ℕ := s.pendingRequests.keys.find? fun id => toString id = key

def addressed (shown : Json → String) (message : Json) (s : State) : Option ℕ :=
  (messageIdKey shown message).bind fun key => s.named key

end State

namespace Inbound

def takeResponse (shown : Json → String) (h : Handled) (s : Inbound) : Inbound :=
  match s.connection.addressed shown h.message with
  | some id =>
    ⟨s.connection.respond id (replyOf shown h.message), s.handled ++ [{ h with resolved := [id] }]⟩
  | none => { s with handled := s.handled ++ [h] }

def appliedUpdate (message : Json) : Option (String × Json) :=
  (sessionIdOf message).bind fun sessionId => (updateOf message).map fun update => (sessionId, update)

/-- `written` tells whether the agent's input takes an answer. -/
def requestPermission (message : Json) (written : Bool) (s : Inbound) : Inbound :=
  { s with
    handled := s.handled ++ [
      { Handled.skipped message with
        answers := if written then ((message.get? "id").map cancelledAnswer).toList else []
        failed := sessionIdOf message }] }

def dispatch (shown : Json → String) (message : Json) (written : Bool) (s : Inbound) : Inbound :=
  match methodOf message with
  | some "session/update" =>
    s.takeResponse shown { Handled.skipped message with applied := appliedUpdate message }
  | some "session/request_permission" => s.requestPermission message written
  | some _ => { s with handled := s.handled ++ [Handled.skipped message] }
  | none => s.takeResponse shown (Handled.skipped message)

def line (fromStr : String → Except String Json) (shown : Json → String) (text : String) (written : Bool)
    (s : Inbound) : Option Inbound :=
  match fromStr text with
  | .ok message =>
    if s.connection.reading then some (s.dispatch shown message written)
    else some { s with handled := s.handled ++ [Handled.skipped message] }
  | .error error =>
    if s.connection.reading then (s.connection.read (.malformed error)).map fun connection => { s with connection }
    else some s

end Inbound

/-! ## The system -/

def State.Event.isLine : State.Event → Bool
  | .read (.response _ _) | .read .other | .read (.malformed _) => true
  | _ => false

inductive InboundEvent where
  | line (text : String) (written : Bool)
  | rest (e : State.Event)

def Inbound.step (fromStr : String → Except String Json) (shown : Json → String) (e : InboundEvent) (s : Inbound) :
    Option Inbound :=
  match e with
  | .line text written => s.line fromStr shown text written
  | .rest e => if e.isLine then none else (s.connection.step e).map fun connection => { s with connection }

theorem Inbound.dispatch_reads (shown : Json → String) (message : Json) (written : Bool) (s : Inbound)
    (hreading : s.connection.reading = true) :
    ∃ incoming, s.connection.read incoming = some (s.dispatch shown message written).connection := by
  have hother : s.connection.read .other = some s.connection := by rw [State.read, if_pos hreading]
  have hresponse : ∀ h : Handled,
      ∃ incoming, s.connection.read incoming = some (s.takeResponse shown h).connection := by
    intro h
    unfold takeResponse
    split
    · next id _ =>
      refine ⟨.response id (replyOf shown h.message), ?_⟩
      rw [State.read, if_pos hreading]
    · exact ⟨.other, hother⟩
  unfold dispatch
  split
  · exact hresponse _
  · exact ⟨.other, hother⟩
  · exact ⟨.other, hother⟩
  · exact hresponse _

/-! ## What is done about a message -/

def wellFormed (message : Json) : Bool :=
  decide (message.get? "jsonrpc" = some (.str "2.0")) &&
    match message.get? "id" with
    | some (.str _) | some (.int _) | some (.float _) | some .null => true
    | _ => false

def asks (message : Json) : Bool := wellFormed message && (methodOf message).isSome

structure AnswersTo (id answer : Json) : Prop where
  id : answer.get? "id" = some id
  noMethod : answer.get? "method" = none
  outcome : (answer.get? "result").isSome = true ∨ (answer.get? "error").isSome = true

structure Answered (h : Handled) : Prop where
  request : asks h.message = true →
    ∃ id answer, h.message.get? "id" = some id ∧ h.answers = [answer] ∧ AnswersTo id answer
  response : methodOf h.message = none →
    h.resolved.length ≤ 1 ∧ ∀ request ∈ h.resolved, h.message.get? "id" = some (.int request)
  apart : ((methodOf h.message).isSome = true → h.resolved = []) ∧ (methodOf h.message = none → h.answers = [])

def canAnswer (message : Json) (written : Bool) (s : State) : Bool :=
  !asks message || s.reading && decide (methodOf message = some "session/request_permission") && written

/-- What would be taken for a response has no method, and it names a request by a whole number or none at all. -/
def namesRightly (shown : Json → String) (message : Json) (s : State) : Bool :=
  match methodOf message, message.get? "id" with
  | none, some (.int _) => true
  | none, _ => (s.addressed shown message).isNone
  | some method, _ => decide (method ≠ "session/update") || (s.addressed shown message).isNone

/-- What asks for an answer is a permission request that can be given one, and responses name requests rightly. -/
def answerable (fromStr : String → Except String Json) (shown : Json → String) (e : InboundEvent) (s : Inbound) :
    Bool :=
  match e with
  | .rest _ => true
  | .line text written =>
    match fromStr text with
    | .error _ => true
    | .ok message =>
      canAnswer message written s.connection && (!s.connection.reading || namesRightly shown message s.connection)

/-! ## One message -/

section

variable (shown : Json → String)

inductive Dispatched (message : Json) (written : Bool) (s : Inbound) (h : Handled) : Prop
  | response (hmethod : methodOf message = none ∨ methodOf message = some "session/update") (ha : h.answers = [])
      (hr : h.resolved = (s.connection.addressed shown message).toList)
  | permission (hmethod : methodOf message = some "session/request_permission")
      (ha : h.answers = if written then ((message.get? "id").map cancelledAnswer).toList else []) (hr : h.resolved = [])
  | aside (method : String) (hmethod : methodOf message = some method) (hupdate : method ≠ "session/update")
      (hpermission : method ≠ "session/request_permission") (ha : h.answers = []) (hr : h.resolved = [])

theorem takeResponse_handled (h : Handled) (hr : h.resolved = []) (s : Inbound) :
    (s.takeResponse shown h).handled =
      s.handled ++ [{ h with resolved := (s.connection.addressed shown h.message).toList }] := by
  unfold Inbound.takeResponse
  cases s.connection.addressed shown h.message with
  | some id => rfl
  | none =>
    change s.handled ++ [h] = s.handled ++ [{ h with resolved := [] }]
    rw [← hr]

theorem dispatch_handled (message : Json) (written : Bool) (s : Inbound) :
    ∃ h, (s.dispatch shown message written).handled = s.handled ++ [h] ∧ h.message = message ∧
      Dispatched shown message written s h := by
  unfold Inbound.dispatch
  split
  · next hm => exact ⟨_, takeResponse_handled shown _ rfl s, rfl, .response (.inr hm) rfl rfl⟩
  · next hm => exact ⟨_, rfl, rfl, .permission hm rfl rfl⟩
  · next method hupdate hpermission hm =>
    refine ⟨_, rfl, rfl, .aside method hm ?_ ?_ rfl rfl⟩
    · exact fun he => hupdate (by rw [he])
    · exact fun he => hpermission (by rw [he])
  · next hm => exact ⟨_, takeResponse_handled shown _ rfl s, rfl, .response (.inl hm) rfl rfl⟩

theorem eq_of_toString_eq {z : ℤ} {n : ℕ} (h : toString n = toString z) : z = n := by
  have hn : (toString n).toList = Nat.toDigits 10 n := by simp
  cases z with
  | ofNat m =>
    have hm : (toString (Int.ofNat m)).toList = Nat.toDigits 10 m := by
      change (toString m).toList = _
      simp
    have hdigits : Nat.toDigits 10 n = Nat.toDigits 10 m := by rw [← hn, h, hm]
    rw [toDigits_inj hdigits]
    rfl
  | negSucc m =>
    have hm : '-' ∈ (toString (Int.negSucc m)).toList := by
      change '-' ∈ ("-" ++ toString (m + 1)).toList
      simp
    rw [← h, hn] at hm
    exact absurd (isDigit_of_mem hm) (by decide)

theorem named_toString {s : State} {z : ℤ} {request : ℕ} (h : s.named (toString z) = some request) :
    z = request := by
  have hkey := List.find?_some h
  exact eq_of_toString_eq (of_decide_eq_true hkey)

theorem addressed_iff {message : Json} {s : State} {request : ℕ} (h : s.addressed shown message = some request) :
    message.get? "id" = some (.int request) ↔ ∃ z, message.get? "id" = some (.int z) := by
  constructor
  · intro hid
    exact ⟨request, hid⟩
  · rintro ⟨z, hz⟩
    have hkey : messageIdKey shown message = some (toString z) := by simp only [messageIdKey, hz]
    rw [State.addressed, hkey, Option.bind_some] at h
    rw [hz, named_toString h]

theorem answersTo_cancelledAnswer (id : Json) : AnswersTo id (cancelledAnswer id) where
  id := rfl
  noMethod := rfl
  outcome := .inl rfl

theorem namesRightly_of_no_method {message : Json} {s : State} (hm : methodOf message = none) :
    namesRightly shown message s = true ↔
      ∀ request, s.addressed shown message = some request → ∃ z, message.get? "id" = some (.int z) := by
  unfold namesRightly
  rw [hm]
  split
  · next _ z _ hz => exact ⟨fun _ _ _ => ⟨z, hz⟩, fun _ => rfl⟩
  · next hnot =>
    rw [Option.isNone_iff_eq_none]
    constructor
    · intro hnone request hsome
      rw [hnone] at hsome
      cases hsome
    · intro h
      cases ha : s.addressed shown message with
      | none => rfl
      | some request =>
        obtain ⟨z, hz⟩ := h request ha
        exact absurd hz (hnot z)
  · next _ _ hmethod => cases hmethod

theorem namesRightly_of_method {message : Json} {s : State} {method : String} (hm : methodOf message = some method) :
    namesRightly shown message s = true ↔ method = "session/update" → s.addressed shown message = none := by
  unfold namesRightly
  rw [hm]
  by_cases hupdate : method = "session/update" <;> simp [hupdate]

theorem asks_of_no_method {message : Json} (hm : methodOf message = none) : asks message = false := by
  rw [asks, hm]
  exact Bool.and_false _

theorem id_of_asks {message : Json} (h : asks message = true) : ∃ id, message.get? "id" = some id := by
  rw [asks, wellFormed, Bool.and_eq_true, Bool.and_eq_true] at h
  cases hid : message.get? "id" with
  | some id => exact ⟨id, rfl⟩
  | none =>
    rw [hid] at h
    exact absurd h.1.2 (by decide)

theorem answered_iff_of_silent {h : Handled} (ha : h.answers = []) : Answered h ↔ ¬asks h.message = true ∧
    (methodOf h.message = none →
      h.resolved.length ≤ 1 ∧ ∀ request ∈ h.resolved, h.message.get? "id" = some (.int request)) ∧
    ((methodOf h.message).isSome = true → h.resolved = []) := by
  constructor
  · intro hanswered
    refine ⟨?_, hanswered.response, hanswered.apart.1⟩
    intro hasks
    obtain ⟨id, answer, -, hone, -⟩ := hanswered.request hasks
    rw [ha] at hone
    cases hone
  · rintro ⟨hnot, hresponse, hapart⟩
    exact ⟨fun hasks => absurd hasks hnot, hresponse, hapart, fun _ => ha⟩

theorem answered_iff {message : Json} {written : Bool} {s : Inbound} {h : Handled}
    (hreading : s.connection.reading = true) (hmessage : h.message = message)
    (hd : Dispatched shown message written s h) : Answered h ↔
      canAnswer message written s.connection = true ∧ namesRightly shown message s.connection = true := by
  subst hmessage
  rw [canAnswer, hreading, Bool.true_and, Bool.or_eq_true, Bool.not_eq_true', Bool.and_eq_true, decide_eq_true_eq,
    ← Bool.not_eq_true]
  cases hd with
  | response hmethod ha hr =>
    have hnever : ¬methodOf h.message = some "session/request_permission" := by
      rcases hmethod with hm | hm <;> rw [hm] <;> decide
    rw [answered_iff_of_silent ha]
    rcases hmethod with hm | hm
    · rw [namesRightly_of_no_method shown hm, asks_of_no_method hm, hm, hr]
      constructor
      · rintro ⟨-, hresponse, -⟩
        refine ⟨.inl (by decide), fun request hsome => ?_⟩
        rw [← addressed_iff shown hsome]
        exact (hresponse rfl).2 request (by rw [hsome]; exact List.mem_singleton_self _)
      · rintro ⟨-, hnames⟩
        refine ⟨by decide, fun _ => ?_, nofun⟩
        cases haddr : s.connection.addressed shown h.message with
        | none => exact ⟨Nat.zero_le _, fun _ hmem => by cases hmem⟩
        | some request =>
          refine ⟨Nat.le_refl _, fun request' hmem => ?_⟩
          obtain rfl := List.mem_singleton.mp hmem
          exact (addressed_iff shown haddr).mpr (hnames request' haddr)
    · rw [namesRightly_of_method shown hm, hm, hr]
      constructor
      · rintro ⟨hasks, -, hapart⟩
        exact ⟨.inl hasks, fun _ => Option.toList_eq_nil_iff.mp (hapart rfl)⟩
      · rintro ⟨hasks | ⟨hpermission, -⟩, hnames⟩
        · refine ⟨hasks, nofun, fun _ => ?_⟩
          rw [hnames rfl]
          rfl
        · exact absurd hpermission (by decide)
  | permission hmethod ha hr =>
    have hnames : namesRightly shown h.message s.connection = true :=
      (namesRightly_of_method shown hmethod).mpr fun hupdate => absurd hupdate (by decide)
    rw [hnames]
    cases written with
    | false =>
      rw [answered_iff_of_silent ha, hmethod, hr]
      simp
    | true =>
      simp only [hmethod, and_self, or_true, iff_true]
      refine ⟨fun hasks => ?_, fun hnone => ?_, fun _ => hr, fun hnone => ?_⟩
      · obtain ⟨id, hid⟩ := id_of_asks hasks
        refine ⟨id, cancelledAnswer id, hid, ?_, answersTo_cancelledAnswer id⟩
        rw [ha, hid]
        rfl
      · rw [hmethod] at hnone
        cases hnone
      · rw [hmethod] at hnone
        cases hnone
  | aside method hmethod hupdate hpermission ha hr =>
    have hnames : namesRightly shown h.message s.connection = true :=
      (namesRightly_of_method shown hmethod).mpr fun he => absurd he hupdate
    rw [answered_iff_of_silent ha, hnames, hmethod, hr]
    simp [hpermission]

end

/-! ## Runs -/

/-- Every message is answered as it should be. -/
def Inbound.AllAnswered (s : Inbound) : Prop := ∀ h ∈ s.handled, Answered h

theorem allAnswered_concat {s s' : Inbound} {h : Handled} (hs : s'.handled = s.handled ++ [h]) :
    s'.AllAnswered ↔ s.AllAnswered ∧ Answered h := by
  rw [Inbound.AllAnswered, hs]
  constructor
  · intro hall
    refine ⟨fun h' hmem => hall h' (List.mem_append_left _ hmem), ?_⟩
    exact hall h (List.mem_append_right _ (List.mem_singleton_self _))
  · rintro ⟨hall, hlast⟩ h' hmem
    rcases List.mem_append.mp hmem with hmem | hmem
    · exact hall h' hmem
    · obtain rfl := List.mem_singleton.mp hmem
      exact hlast

section

variable (fromStr : String → Except String Json) (shown : Json → String)

/-- A step keeps everything answered just when it is answerable. -/
theorem step_allAnswered_iff (e : InboundEvent) (s s' : Inbound) (h : Inbound.step fromStr shown e s = some s') :
    s'.AllAnswered ↔ s.AllAnswered ∧ answerable fromStr shown e s = true := by
  cases e with
  | rest e =>
    simp only [Inbound.step, Option.ite_none_left_eq_some] at h
    obtain ⟨connection, -, rfl⟩ := Option.map_eq_some_iff.mp h.2
    simp [Inbound.AllAnswered, answerable]
  | line text written =>
    simp only [Inbound.step, Inbound.line] at h
    simp only [answerable]
    cases hparsed : fromStr text with
    | error error =>
      simp only [hparsed] at h
      have hsame : s'.handled = s.handled := by
        split at h
        · obtain ⟨connection, -, rfl⟩ := Option.map_eq_some_iff.mp h
          rfl
        · obtain rfl := Option.some.inj h
          rfl
      simp [Inbound.AllAnswered, hsame]
    | ok message =>
      simp only [hparsed] at h
      by_cases hreading : s.connection.reading = true
      · rw [if_pos hreading] at h
        obtain rfl := Option.some.inj h
        obtain ⟨done, hdone, hmessage, hd⟩ := dispatch_handled shown message written s
        rw [allAnswered_concat hdone, answered_iff shown hreading hmessage hd, hreading]
        simp
      · rw [if_neg hreading] at h
        obtain rfl := Option.some.inj h
        have hskipped : Answered (Handled.skipped message) ↔ ¬asks message = true := by
          rw [answered_iff_of_silent rfl]
          simp [Handled.skipped]
        rw [allAnswered_concat rfl, hskipped]
        simp [canAnswer, hreading]

/-- In a run every message is handled rightly just when every line of it is answerable. -/
theorem inbound_allAnswered_iff (events : List InboundEvent) (s : Inbound)
    (h : runAll (Inbound.step fromStr shown) events .spawned = some s) :
    s.AllAnswered ↔
      runAll (guarded (Inbound.step fromStr shown) (answerable fromStr shown)) events .spawned = some s :=
  runAll_guarded_iff (step_allAnswered_iff fromStr shown) (fun _ hmem => by cases hmem) h

end

def agentRequest (method : String) : Json :=
  .obj [("jsonrpc", .str "2.0"), ("id", .int 1), ("method", .str method), ("params", .obj [("sessionId", .str "s")])]

def agentLine (method : String) : String :=
  "\x7b\"jsonrpc\":\"2.0\",\"id\":1,\"method\":\"" ++ method ++
    "\",\"params\":\x7b\"sessionId\":\"s\"\x7d\x7d"

def agentLines (methods : List String) (text : String) : Except String Json :=
  match methods.find? fun method => agentLine method = text with
  | some method => .ok (agentRequest method)
  | none => .error "expected value at line 1 column 1"

theorem inbound_allAnswered_permission :
    ∃ s, runAll (Inbound.step (agentLines ["session/request_permission"]) fun _ => "")
        [.line (agentLine "session/request_permission") true] .spawned = some s ∧
      s.handled.length = 1 ∧ s.AllAnswered := by
  refine ⟨Inbound.spawned.requestPermission (agentRequest "session/request_permission") true, rfl, rfl, ?_⟩
  apply (inbound_allAnswered_iff (agentLines ["session/request_permission"]) (fun _ => "")
    [.line (agentLine "session/request_permission") true] _ rfl).mpr
  rfl

/-- A request for a file is passed over. -/
theorem not_inbound_allAnswered : ¬∀ (fromStr : String → Except String Json) (shown : Json → String)
    (events : List InboundEvent) (s : Inbound),
    runAll (Inbound.step fromStr shown) events .spawned = some s → s.AllAnswered := by
  intro h
  have hall := h (agentLines ["fs/read_text_file"]) (fun _ => "") [.line (agentLine "fs/read_text_file") true]
    ⟨State.spawned, [Handled.skipped (agentRequest "fs/read_text_file")]⟩ rfl
  obtain ⟨-, answer, -, hone, -⟩ := (hall _ (List.mem_singleton_self _)).request (by decide +kernel)
  cases hone

end Gooselake.Providers.Acp.Connection
