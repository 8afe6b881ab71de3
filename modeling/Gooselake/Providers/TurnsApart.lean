import Gooselake.Providers.TurnOutput

/-!
Every section of the ACP adapter keeps its turns apart when it is careful: what the result of a turn reports is
output of the turn's own prompt. Without care, the output of a turn that was ended early ends up in the result
of the next one.
-/

namespace Gooselake.Providers.Acp

open Gooselake.Core Data Library

set_option autoImplicit false

section

variable {p : AcpProvider}

/-! ## The sections -/

theorem TurnSound.replied {turn : Turn} (h : TurnSound p turn) (reply : Option (Except RuntimeError Json)) :
    TurnSound p { turn with reply := reply } := ⟨h.prompt, h.collected, h.found, h.reported⟩

theorem TurnSound.cancel {turn : Turn} (h : TurnSound p turn) : TurnSound p { turn with cancelled := true } :=
  ⟨h.prompt, h.collected, h.found, h.reported⟩

theorem ConnectionSound.requests {c : ℕ} {connection : AcpConnection} (h : ConnectionSound p c connection)
    (closed : Bool) (n : ℕ) (pending : Table ℕ ℕ) : ConnectionSound p c
      { connection with closed := closed, nextRequestId := n, pendingRequests := pending } :=
  ⟨h.opened, h.inFlight, h.applying⟩

theorem Sound.reader (h : Sound p) (c : ℕ) {reader : AcpConnection → Reader}
    (hreader : ∀ connection i u, reader connection ≠ .applying i u) :
    Sound (p.onConnection c fun connection => { connection with reader := reader connection }) :=
  h.onConnection fun connection hconn => ⟨fun _ hu => hu, (h.connections c connection hconn).opened,
    (h.connections c connection hconn).inFlight, fun i u hr => absurd hr (hreader connection i u)⟩

theorem Sound.drain (h : Sound p) (c : ℕ) (e : RuntimeError) : Sound (p.drain c e) := by
  unfold AcpProvider.drain
  split
  · exact h
  · next connection hc =>
    have hclosed : Sound (p.onConnection c
        fun connection => { connection with closed := true, pendingRequests := ∅ }) :=
      h.onConnection fun connection hc => ⟨fun _ hu => hu, (h.connections c connection hc).requests _ _ _⟩
    refine hclosed.putTurns List.length_mapIdx fun i turn turn' hi hi' => ?_
    rw [List.getElem?_mapIdx] at hi'
    have hold : p.turns[i]? = some turn := hi
    rw [hold] at hi'
    obtain rfl := Option.some.inj hi'
    split
    · exact ⟨⟨rfl, rfl, rfl, fun _ hp => hp⟩, .inr ((hclosed.turns i turn hi).replied _)⟩
    · exact ⟨.refl turn, .inl rfl⟩

theorem Sound.markClosed (h : Sound p) (c : ℕ) (e : RuntimeError) : Sound (p.markClosed c e) := by
  unfold AcpProvider.markClosed
  split
  · exact h
  · exact h.drain c e

theorem Sound.shutdown (h : Sound p) : Sound p.shutdownConnection := by
  unfold AcpProvider.shutdownConnection
  split
  · exact h
  · exact (h.drain _ _).slot none

theorem Sound.ensure (h : Sound p) (world : AcpProvider.World) : Sound (p.ensureConnection world).2 := by
  unfold AcpProvider.ensureConnection
  split
  · exact h
  · exact h
  · exact (h.addConnection false).slot _
  · exact h.addConnection true

theorem Sound.complete (h : Sound p) {runtimeSessionId turnId : String} {result : ProviderTurnResult}
    (hresult : hasResult p runtimeSessionId turnId = false → FromOwnPrompt p runtimeSessionId turnId result) :
    Sound (p.completeTurn runtimeSessionId turnId result) := by
  unfold AcpProvider.completeTurn
  split
  · exact h
  · next session hs =>
    split
    · exact h
    · next hnone =>
      have hold := h.sessions runtimeSessionId session hs
      refine h.putSession ⟨fun active ha => ?_, fun turnId' result' hr => ?_⟩ fun old hold' turnId' hr => ?_
      · exact hold.active active (Option.filter_eq_some_iff.mp ha).1
      · simp only [AcpProvider.completedState, Table.lookup_insert] at hr
        split at hr
        · next he =>
          obtain rfl := Option.some.inj hr
          exact he ▸ hresult (by simpa [hasResult, hs] using hnone)
        · exact hold.completed turnId' result' hr
      · obtain rfl : session = old := Option.some.inj (hs.symm.trans hold')
        simp only [AcpProvider.completedState, Table.isSome_insert]
        exact .inr hr

theorem fromOwnPrompt_message (p : AcpProvider) (runtimeSessionId turnId : String) (status : ProviderTurnStatus)
    (message : String) :
    FromOwnPrompt p runtimeSessionId turnId (messageResult runtimeSessionId turnId status message) :=
  .inl rfl

/-! ## The calls -/

theorem Sound.reserve (h : Sound p) {p' : AcpProvider} {runtimeSessionId : String}
    (hp : p.reserveSessionSlot runtimeSessionId = .ok p') : Sound p' := by
  unfold AcpProvider.reserveSessionSlot at hp
  split at hp
  · cases hp
    exact h
  · next hnone =>
    split at hp
    · cases hp
    · cases hp
      refine h.putSession ⟨fun _ ha => (by cases ha), fun _ _ hr => ?_⟩ fun old hold _ _ => ?_
      · rw [AcpSessionState.default, AList.lookup_empty] at hr
        cases hr
      · rw [hold] at hnone
        exact absurd rfl hnone

theorem Sound.activate (h : Sound p) {p' : AcpProvider} {runtimeSessionId ref : String}
    (hp : p.activateReservedSession runtimeSessionId ref = .ok p') : Sound p' := by
  unfold AcpProvider.activateReservedSession at hp
  split at hp
  · cases hp
  · next session hs =>
    cases hp
    have hold := h.sessions runtimeSessionId session hs
    refine h.putSession ⟨hold.active, hold.completed⟩ fun old hold' turnId hr => ?_
    obtain rfl : session = old := Option.some.inj (hs.symm.trans hold')
    exact hr

theorem getSession_ok {runtimeSessionId : String} {session : AcpSessionState}
    (hp : p.getSession runtimeSessionId = .ok session) : p.sessions.lookup runtimeSessionId = some session := by
  unfold AcpProvider.getSession at hp
  split at hp
  · cases hp
  · next hs =>
    cases hp
    exact hs

theorem idleSession_ok {runtimeSessionId : String} {session : AcpSessionState}
    (hp : p.idleSession runtimeSessionId = .ok session) : p.sessions.lookup runtimeSessionId = some session := by
  unfold AcpProvider.idleSession at hp
  obtain ⟨found, hs, hp⟩ := Exec.bind_eq_ok hp
  split at hp
  · cases hp
  · cases hp
    exact getSession_ok hs

theorem turnSound_new (p : AcpProvider) (runtimeSessionId turnId ref : String) :
    TurnSound p ⟨runtimeSessionId, turnId, ref, false, .empty, none, none, .connecting⟩ :=
  ⟨rfl, ⟨[], fun _ hu => (by cases hu), rfl⟩, fun _ hf => (by cases hf), trivial⟩

theorem Sound.activates (h : Sound p) {runtimeSessionId : String} {session : AcpSessionState} {active : ActiveTurn}
    (hs : p.sessions.lookup runtimeSessionId = some session) (hactive : Belongs p runtimeSessionId active) :
    Sound (p.putSession runtimeSessionId { session with activeTurn := some active }) := by
  have hold := h.sessions runtimeSessionId session hs
  refine h.putSession ⟨fun active' ha => ?_, hold.completed⟩ fun old hold' turnId hr => ?_
  · obtain rfl := Option.some.inj ha
    exact hactive
  · obtain rfl : session = old := Option.some.inj (hs.symm.trans hold')
    exact hr

theorem Sound.execute (h : Sound p) {p' : AcpProvider} {runtimeSessionId turnId : String}
    (hp : p.executeTurn runtimeSessionId turnId = .ok p') : Sound p' := by
  unfold AcpProvider.executeTurn at hp
  obtain ⟨session, hs, hp⟩ := Exec.bind_eq_ok hp
  cases hp
  have hl := idleSession_ok hs
  have hnew := h.addTurn (turnSound_new p runtimeSessionId turnId session.providerSessionRef)
  exact hnew.activates hl ⟨_, List.getElem?_concat_length, rfl, rfl⟩

theorem Sound.cancel (h : Sound p) {p' : AcpProvider} {runtimeSessionId turnId : String}
    (hp : p.cancelActive runtimeSessionId turnId = .ok p') : Sound p' := by
  unfold AcpProvider.cancelActive at hp
  obtain ⟨session, -, hp⟩ := Exec.bind_eq_ok hp
  split at hp
  · cases hp
  · split at hp
    · cases hp
    · cases hp
      exact h.onTurn fun turn hi => ⟨⟨rfl, rfl, rfl, fun _ hp => hp⟩, (h.turns _ turn hi).cancel⟩

theorem Sound.approvals (h : Sound p) {runtimeSessionId : String} {session : AcpSessionState}
    (hs : p.sessions.lookup runtimeSessionId = some session) (pending : Table String PendingApprovalTurn) :
    Sound (p.putSession runtimeSessionId { session with pendingApprovals := pending }) := by
  have hold := h.sessions runtimeSessionId session hs
  refine h.putSession ⟨hold.active, hold.completed⟩ fun old hold' turnId hr => ?_
  obtain rfl : session = old := Option.some.inj (hs.symm.trans hold')
  exact hr

inductive Begun (p : AcpProvider) : AcpProvider → Prop where
  | same : Begun p p
  | reserved {runtimeSessionId : String} {p' : AcpProvider}
      (reserves : p.reserveSessionSlot runtimeSessionId = .ok p') : Begun p p'
  | cancelled {runtimeSessionId turnId : String} {p' : AcpProvider}
      (cancels : p.cancelActive runtimeSessionId turnId = .ok p') : Begun p p'
  | approvals {runtimeSessionId : String} {session : AcpSessionState}
      (found : p.sessions.lookup runtimeSessionId = some session) (pending : Table String PendingApprovalTurn) :
      Begun p (p.putSession runtimeSessionId { session with pendingApprovals := pending })

theorem begun_of_sendTurn {p' : AcpProvider} {call : Call} {req : ProviderSendTurnRequest}
    (hp : p.sendTurn req = .ok (p', call)) : Begun p p' := by
  unfold AcpProvider.sendTurn at hp
  obtain ⟨session, hs, hp⟩ := Exec.bind_eq_ok hp
  split at hp
  · cases hp
    exact .same
  · cases hp
    exact .approvals (idleSession_ok hs) _

theorem begun_of_respondApproval {p' : AcpProvider} {call : Call} {req : ProviderApprovalResponseRequest}
    (hp : p.respondApproval req = .ok (p', call)) : Begun p p' := by
  unfold AcpProvider.respondApproval at hp
  obtain ⟨decision, -, hp⟩ := Exec.bind_eq_ok hp
  obtain ⟨session, hs, hp⟩ := Exec.bind_eq_ok hp
  simp only [bind, Except.bind] at hp
  split at hp
  · cases hp
  · split at hp
    · cases hp
    · cases decision <;> cases hp <;> exact .approvals (getSession_ok hs) _

theorem begun_of_begin {p' : AcpProvider} {call : Call} {request : Request}
    (hp : p.begin request = .ok (p', call)) : Begun p p' := by
  cases request with
  | createSession runtimeSessionId | resumeSession runtimeSessionId ref =>
    obtain ⟨q, hr, hp⟩ := Exec.bind_eq_ok hp
    cases hp
    exact .reserved hr
  | sendTurn req => exact begun_of_sendTurn hp
  | interruptTurn req =>
    obtain ⟨q, hr, hp⟩ := Exec.bind_eq_ok hp
    cases hp
    exact .cancelled hr
  | respondApproval req => exact begun_of_respondApproval hp
  | closeSession req =>
    obtain ⟨call, -, hp⟩ := Exec.bind_eq_ok hp
    cases hp
    exact .same

theorem Sound.begin (h : Sound p) {p' : AcpProvider} {call : Call} {request : Request}
    (hp : p.begin request = .ok (p', call)) : Sound p' := by
  cases begun_of_begin hp with
  | same => exact h
  | reserved reserves => exact h.reserve reserves
  | cancelled cancels => exact h.cancel cancels
  | approvals found pending => exact h.approvals found pending

def Call.releases : Call → Option String
  | .releasing runtimeSessionId _ | .removing runtimeSessionId => some runtimeSessionId
  | _ => none

theorem Sound.goOn (h : Sound p) {call : Call} (world : AcpProvider.World) (answer : Except RuntimeError String)
    (hc : ∀ runtimeSessionId, call.releases = some runtimeSessionId →
      ∀ turn ∈ p.turns, turn.runtimeSessionId = runtimeSessionId → turn.readsAnother = false) :
    Sound (p.goOn call world answer).1 := by
  cases call with
  | reserved runtimeSessionId resumes =>
    have hensure := h.ensure world
    simp only [AcpProvider.goOn]
    split
    · next he => rw [he] at hensure; exact hensure
    · next he => rw [he] at hensure; exact hensure
  | connected runtimeSessionId resumes =>
    simp only [AcpProvider.goOn]
    split
    · exact h
    · split
      · exact h
      · next hp => exact h.activate hp
  | resuming runtimeSessionId => cases answer <;> exact h
  | releasing runtimeSessionId e => exact h.release (hc runtimeSessionId rfl)
  | executing runtimeSessionId turnId =>
    simp only [AcpProvider.goOn]
    split
    · exact h
    · next hp => exact h.execute hp
  | declining runtimeSessionId turnId => exact h.complete fun _ => fromOwnPrompt_message _ _ _ _ _
  | cancelling runtimeSessionId turnId closes => cases closes <;> exact h.ensure world
  | closing runtimeSessionId turnId reason =>
    simp only [AcpProvider.goOn]
    split
    · exact h
    · next hp => exact h.cancel hp
  | ending runtimeSessionId turnId reason => exact h.complete fun _ => fromOwnPrompt_message _ _ _ _ _
  | removing runtimeSessionId => exact h.release (hc runtimeSessionId rfl)
  | leaving => exact h
  | shutting => exact h.shutdown
  | answered outcome => exact h

/-! ## The task of a turn -/

theorem Sound.readFound {α : Type} (h : Sound p) {runtimeSessionId : String} {found : Option ActiveTurn}
    (hfound : ∀ active, found = some active → Belongs p runtimeSessionId active) (f : Collected → α) :
    ReadFrom p runtimeSessionId found fun c => f c = p.readFound found f (f .empty) := by
  cases found with
  | none => rfl
  | some active =>
    obtain ⟨turn, hi, hsession, hid⟩ := hfound active rfl
    obtain ⟨us, hus, he⟩ := (h.turns _ turn hi).collected
    refine ⟨us, fun u hu => ⟨_, turn, hi, hsession, hid, hus u hu⟩, ?_⟩
    simp only [AcpProvider.readFound, hi, Option.map_some, Option.getD_some, he]

theorem Sound.atPoint (h : Sound p) {i : ℕ} {turn : Turn} (hi : p.turns[i]? = some turn) {point : Point}
    (hprompt : PromptSound turn.prompt point)
    (hfound : ∀ active, point.found = some active → Belongs p turn.runtimeSessionId active ∧
      (active.runtimeTurnId = turn.runtimeTurnId ∨ hasResult p turn.runtimeSessionId turn.runtimeTurnId = true))
    (hreported : Reported p turn.runtimeSessionId turn.runtimeTurnId point) : Sound (p.atPoint i point) := by
  refine h.onTurn fun turn' hi' => ⟨⟨rfl, rfl, rfl, fun _ hp => hp⟩, ?_⟩
  obtain rfl : turn = turn' := Option.some.inj (hi.symm.trans hi')
  exact ⟨hprompt, (h.turns i turn hi).collected, hfound, hreported⟩

theorem Sound.failed (h : Sound p) {i : ℕ} {turn : Turn} (hi : p.turns[i]? = some turn) {result : ProviderTurnResult}
    (hresult : result.usage = none) : Sound (p.atPoint i (.completing result none)) :=
  h.atPoint hi trivial (fun _ hf => (by cases hf)) (.inl hresult)

theorem ensure_turns (p : AcpProvider) (world : AcpProvider.World) : (p.ensureConnection world).2.turns = p.turns := by
  unfold AcpProvider.ensureConnection
  split <;> rfl

theorem complete_turns (p : AcpProvider) (runtimeSessionId turnId : String) (result : ProviderTurnResult) :
    (p.completeTurn runtimeSessionId turnId result).turns = p.turns := by
  unfold AcpProvider.completeTurn
  split
  · rfl
  · split <;> rfl

theorem TurnSound.recorded {turn : Turn} (h : TurnSound p turn) {result : ProviderTurnResult}
    {found : Option ActiveTurn} (hpoint : turn.point = .completing result found)
    (hnone : hasResult p turn.runtimeSessionId turn.runtimeTurnId = false) :
    FromOwnPrompt p turn.runtimeSessionId turn.runtimeTurnId result := by
  have hreported : Reported p turn.runtimeSessionId turn.runtimeTurnId (.completing result found) :=
    hpoint ▸ h.reported
  have hown : ∀ P, ReadFrom p turn.runtimeSessionId found P →
      Collects p turn.runtimeSessionId turn.runtimeTurnId P := by
    intro P hP
    cases hfound : found with
    | none =>
      rw [hfound] at hP
      exact ⟨[], fun _ hu => (by cases hu), hP⟩
    | some active =>
      rw [hfound] at hP hpoint
      have hid := (h.found active (by rw [hpoint]; rfl)).2
      rw [hnone] at hid
      rw [← hid.resolve_right (by simp)]
      exact hP
  refine hreported.imp id fun hreported => ?_
  obtain ⟨payload, text, usageUpdate, toolCalls, htext, husage, htools, he⟩ := hreported
  exact ⟨payload, text, usageUpdate, toolCalls, hown _ htext, hown _ husage, hown _ htools, he⟩

theorem Sound.advance (h : Sound p) {p' : AcpProvider} {i : ℕ} {turn : Turn} (hi : p.turns[i]? = some turn)
    {world : AcpProvider.World}
    (hc : turn.answered = true → hasResult p turn.runtimeSessionId turn.runtimeTurnId = true ∨
      ∀ active, p.activeTurn turn.runtimeSessionId = some active → active.runtimeTurnId = turn.runtimeTurnId)
    (hp : p.advance i turn world = some p') : Sound p' := by
  have hturn := h.turns i turn hi
  have hprompt := hturn.prompt
  have hfound := hturn.found
  have hreported := hturn.reported
  unfold AcpProvider.advance at hp
  split at hp
  -- a connection
  · next hpoint =>
    have hensure := h.ensure world
    have hi' : (p.ensureConnection world).2.turns[i]? = some turn := by rw [ensure_turns]; exact hi
    split at hp
    · next he =>
      rw [he] at hensure hi'
      obtain rfl := Option.some.inj hp
      rw [hpoint] at hprompt
      exact hensure.atPoint hi' hprompt (fun _ hf => (by cases hf)) trivial
    · next he =>
      rw [he] at hensure hi'
      obtain rfl := Option.some.inj hp
      exact hensure.failed hi' rfl
  · next c hpoint =>
    obtain ⟨connection, hconn, rfl⟩ := Option.map_eq_some_iff.mp hp
    split
    · exact h.failed hi rfl
    · rw [hpoint] at hprompt
      exact h.atPoint hi hprompt (fun _ hf => (by cases hf)) trivial
  -- the prompt gets its number
  · next c hpoint =>
    obtain ⟨connection, hconn, rfl⟩ := Option.map_eq_some_iff.mp hp
    have hregistered := h.onConnection (c := c) (f := fun connection => { connection with
      nextRequestId := connection.nextRequestId + 1
      pendingRequests := connection.pendingRequests.insert connection.nextRequestId i })
      fun connection hc => ⟨fun _ hu => hu, (h.connections c connection hc).requests _ _ _⟩
    refine hregistered.onTurn fun turn' hi' => ?_
    obtain rfl : turn = turn' := Option.some.inj (hi.symm.trans hi')
    rw [hpoint] at hprompt
    have hnone : turn.prompt = none := hprompt
    have honward : turn.Onward { turn with prompt := some (c, connection.nextRequestId),
                                           point := .registered c connection.nextRequestId } :=
      ⟨rfl, rfl, rfl, fun _ he => by rw [hnone] at he; cases he⟩
    refine ⟨honward, rfl, ?_, fun _ hf => (by cases hf), trivial⟩
    obtain ⟨us, hus, he⟩ := (hregistered.turns i turn hi').collected
    exact ⟨us, fun u hu => (hus u hu).mono (.refl _) honward, he⟩
  -- the prompt is written
  · next c request hpoint =>
    rw [hpoint] at hprompt
    have hopened : Sound (p.onConnection c fun connection => { connection with
        openPrompts := connection.openPrompts ++ [(request, turn.providerSessionRef)] }) := by
      refine h.onConnection fun connection hconn => ⟨fun _ hu => hu, ?_⟩
      have hold := h.connections c connection hconn
      refine ⟨fun prompt hmem => ?_, hold.inFlight.more _, hold.applying⟩
      rcases List.mem_append.mp hmem with hmem | hmem
      · exact hold.opened prompt hmem
      · obtain rfl := List.mem_singleton.mp hmem
        exact ⟨i, turn, hi, hprompt, rfl⟩
    have herased : Sound (p.onConnection c fun connection => { connection with
        pendingRequests := connection.pendingRequests.erase request }) :=
      h.onConnection fun connection hc => ⟨fun _ hu => hu, (h.connections c connection hc).requests _ _ _⟩
    split at hp
    · obtain rfl := Option.some.inj hp
      exact hopened.atPoint hi trivial (fun _ hf => (by cases hf)) trivial
    · obtain rfl := Option.some.inj hp
      exact herased.failed hi rfl
    · obtain rfl := Option.some.inj hp
      exact herased.failed hi rfl
  -- the answer arrives
  · next c request hpoint =>
    obtain ⟨reply, hreply, rfl⟩ := Option.map_eq_some_iff.mp hp
    cases reply with
    | error e => exact h.failed hi rfl
    | ok payload =>
      have hanswered : turn.answered = true := by simp [Turn.answered, hpoint, hreply]
      refine h.atPoint hi trivial (fun active hf => ?_) trivial
      have hactive : p.activeTurn turn.runtimeSessionId = some active := hf
      obtain ⟨session, hs, ha⟩ := Option.bind_eq_some_iff.mp hactive
      refine ⟨(h.sessions _ session hs).active active ha, ?_⟩
      exact (hc hanswered).symm.imp (fun hid => hid active hactive) id
  -- the result is put together
  · next payload found hpoint =>
    obtain rfl := Option.some.inj hp
    rw [hpoint] at hfound
    exact h.atPoint hi trivial hfound (h.readFound (fun active hf => (hfound active hf).1) _)
  · next payload found text hpoint =>
    obtain rfl := Option.some.inj hp
    rw [hpoint] at hfound hreported
    exact h.atPoint hi trivial hfound ⟨hreported, h.readFound (fun active hf => (hfound active hf).1) _⟩
  · next payload found text usageUpdate hpoint =>
    obtain rfl := Option.some.inj hp
    rw [hpoint] at hfound hreported
    have htools := h.readFound (fun active hf => (hfound active hf).1) Collected.toolCallValues
    exact h.atPoint hi trivial hfound (.inr ⟨payload, text, usageUpdate, _, hreported.1, hreported.2, htools, rfl⟩)
  · next result found hpoint =>
    obtain rfl := Option.some.inj hp
    have hcomplete := h.complete fun hnone => hturn.recorded hpoint hnone
    have hi' : (p.completeTurn turn.runtimeSessionId turn.runtimeTurnId result).turns[i]? = some turn := by
      rw [complete_turns]
      exact hi
    exact hcomplete.atPoint hi' trivial (fun _ hf => (by cases hf)) trivial
  · cases hp

/-! ## The reader and the agent -/

theorem ConnectionSound.arrives {c : ℕ} {connection : AcpConnection} (h : ConnectionSound p c connection)
    (hconn : p.connections[c]? = some connection) {u : Update} {lines : List Line}
    (hstream : connection.stream = .update u :: lines) (houtput : isOutput u.body = true) {i : ℕ}
    (hduring : u.outputOf ∈ u.during) (halone : alone p c connection u.ref i = true) :
    ∃ turn : Turn, p.turns[i]? = some turn ∧ Own p turn u := by
  have hflight := h.inFlight
  rw [hstream] at hflight
  obtain ⟨⟨hsent, j, turn, hj, hprompt, href⟩, hopen⟩ := hflight.1 u rfl (by simp [Update.timely, houtput, hduring])
  have hout : outstanding connection u.outputOf = true := by
    simp only [outstanding, hstream, List.any_cons, Bool.or_eq_true]
    exact hopen.imp id .inr
  have hentry := List.all_eq_true.mp halone (turn, j) (List.mem_zipIdx_iff_getElem?.mpr hj)
  have hij : j = i := by simpa [href, hprompt, hout] using hentry
  exact ⟨turn, hij ▸ hj, c, connection, hprompt, hconn, hsent, hduring⟩

theorem ConnectionSound.rest {c : ℕ} {connection : AcpConnection} (h : ConnectionSound p c connection) :
    ConnectionSound p c (AcpProvider.rest connection) := by
  refine ⟨h.opened, ?_, h.applying⟩
  have hflight := h.inFlight
  cases hstream : connection.stream with
  | nil => simp only [AcpProvider.rest, hstream, List.tail_nil]; trivial
  | cons line lines =>
    rw [hstream] at hflight
    simp only [AcpProvider.rest, hstream, List.tail_cons]
    exact hflight.2

theorem Sound.readLine (h : Sound p) {p' : AcpProvider} {c : ℕ} {connection : AcpConnection}
    (hconn : p.connections[c]? = some connection) {line : Line} {lines : List Line}
    (hstream : connection.stream = line :: lines) {found : Option String}
    (hc : ∀ u active, line = .update u → found.bind p.activeTurn = some active → isOutput u.body = true →
      u.outputOf ∈ u.during ∧ alone p c connection u.ref active.turn = true)
    (hp : p.readLine c connection line found = some p') : Sound p' := by
  have hrest : Sound (p.onConnection c AcpProvider.rest) :=
    h.onConnection fun connection hconn => ⟨fun _ hu => hu, (h.connections c connection hconn).rest⟩
  cases line with
  | update u =>
    simp only [AcpProvider.readLine] at hp
    split at hp
    · split at hp
      · obtain rfl := Option.some.inj hp
        exact hrest
      · next active hactive =>
        obtain rfl := Option.some.inj hp
        refine hrest.onConnection fun connection' hconn' => ⟨fun _ hu => hu, ?_⟩
        have hold := hrest.connections c connection' hconn'
        refine ⟨hold.opened, hold.inFlight, fun i u' hr houtput => ?_⟩
        obtain ⟨rfl, rfl⟩ := Reader.applying.inj hr
        obtain ⟨hduring, halone⟩ := hc u active rfl hactive houtput
        obtain ⟨turn, hi, hown⟩ := (h.connections c connection hconn).arrives hconn hstream houtput hduring halone
        refine ⟨turn, hi, hown.mono ?_ (.refl turn)⟩
        refine ⟨fun _ turn hi => ⟨turn, hi, .refl turn⟩, fun d connection hd => ?_⟩
        by_cases hcd : c = d
        · subst hcd
          exact ⟨AcpProvider.rest connection, by simp [AcpProvider.onConnection, hd], fun _ hu => hu⟩
        · exact ⟨connection, by simp [AcpProvider.onConnection, hcd, hd], fun _ hu => hu⟩
    · cases hp
  | requestPermission ref =>
    cases ref with
    | none =>
      obtain rfl := Option.some.inj hp
      exact hrest
    | some ref =>
      simp only [AcpProvider.readLine] at hp
      split at hp
      · split at hp
        · obtain rfl := Option.some.inj hp
          exact hrest
        · obtain rfl := Option.some.inj hp
          exact hrest.reader c fun _ _ _ h => by cases h
      · cases hp
  | response request reply =>
    simp only [AcpProvider.readLine] at hp
    split at hp
    · obtain rfl := Option.some.inj hp
      exact hrest
    · obtain rfl := Option.some.inj hp
      have herased := hrest.onConnection (c := c) (f := fun connection => { connection with
        pendingRequests := connection.pendingRequests.erase request })
        fun connection hconn => ⟨fun _ hu => hu, (hrest.connections c connection hconn).requests _ _ _⟩
      exact herased.onTurn fun turn hi => ⟨⟨rfl, rfl, rfl, fun _ hp => hp⟩, (herased.turns _ turn hi).replied _⟩
  | other =>
    obtain rfl := Option.some.inj hp
    exact hrest
  | broken e =>
    obtain rfl := Option.some.inj hp
    exact (hrest.markClosed c e).reader c fun _ _ _ h => by cases h

theorem Sound.read (h : Sound p) {p' : AcpProvider} {c : ℕ} {found : Option String}
    (hc : careful (.read c found) p = true) (hp : p.read c found = some p') : Sound p' := by
  obtain ⟨connection, hconn, hp⟩ := Option.bind_eq_some_iff.mp hp
  split at hp
  · next hreader =>
    split at hp
    · cases hp
    · next line lines hstream =>
      refine h.readLine hconn hstream (fun u active hline hactive houtput => ?_) hp
      subst hline
      simp only [careful, hconn, hactive, arriving, hreader, hstream, Option.all_some, houtput] at hc
      simpa using hc
  · next i u hreader =>
    obtain rfl := Option.some.inj hp
    have happlied : Sound (p.onTurn i fun turn => { turn with collected := turn.collected.apply u.body }) := by
      refine h.onTurn fun turn hi => ⟨⟨rfl, rfl, rfl, fun _ hp => hp⟩, ?_⟩
      have hturn := h.turns i turn hi
      refine ⟨hturn.prompt, ?_, hturn.found, hturn.reported⟩
      obtain ⟨us, hus, he⟩ := hturn.collected
      cases houtput : isOutput u.body with
      | false => exact ⟨us, hus, (turn.collected.apply_of_not_output houtput).trans he⟩
      | true =>
        obtain ⟨turn', hi', hown⟩ := (h.connections c connection hconn).applying i u hreader houtput
        obtain rfl : turn = turn' := Option.some.inj (hi.symm.trans hi')
        refine ⟨us ++ [u], fun u' hu' => ?_, ?_⟩
        · rcases List.mem_append.mp hu' with hu' | hu'
          · exact hus u' hu'
          · obtain rfl := List.mem_singleton.mp hu'
            exact hown
        · rw [List.map_append, collect, List.foldl_append, he]
          rfl
    exact happlied.reader c fun _ _ _ => nofun
  · obtain rfl := Option.some.inj hp
    exact (h.complete fun _ => fromOwnPrompt_message _ _ _ _ _).reader c fun _ _ _ => nofun
  · obtain rfl := Option.some.inj hp
    exact h.reader c fun _ _ _ => by split <;> nofun
  · obtain rfl := Option.some.inj hp
    exact h.shutdown.reader c fun _ _ _ => nofun
  · cases hp

theorem ConnectionSound.line {c : ℕ} {connection : AcpConnection} (h : ConnectionSound p c connection) {line : Line}
    (hline : ∀ u, line ≠ .update u) : ConnectionSound p c { connection with stream := connection.stream ++ [line] } :=
  ⟨h.opened, h.inFlight.snoc (fun _ hr => .inl hr) fun u hu => absurd hu (hline u), h.applying⟩

theorem ConnectionSound.writes {c : ℕ} {connection : AcpConnection} (h : ConnectionSound p c connection)
    (output : AcpProvider.Output) : ConnectionSound p c (AcpProvider.writes output connection) := by
  cases output with
  | update ref body outputOf =>
    have hflight : InFlight (fun u => u ∈ connection.sent ++ [⟨ref, body, outputOf,
        AcpProvider.promptsOf ref connection⟩] ∧ Prompted p c (u.outputOf, u.ref)) connection.openPrompts
          connection.stream :=
      h.inFlight.mono fun u hu => ⟨List.mem_append_left _ hu.1, hu.2⟩
    refine ⟨h.opened, hflight.snoc (fun _ hr => .inl hr) fun u hu htimely => ?_, h.applying⟩
    cases hu
    have hduring : outputOf ∈ AcpProvider.promptsOf ref connection := by
      simp only [Update.timely, Bool.and_eq_true, decide_eq_true_eq] at htimely
      exact htimely.2
    obtain ⟨prompt, hprompt, he⟩ := List.mem_map.mp hduring
    obtain ⟨hmem, href⟩ := List.mem_filter.mp hprompt
    rw [decide_eq_true_eq] at href
    have hp : prompt = (outputOf, ref) := Prod.ext he href
    refine ⟨⟨List.mem_append_right _ (List.mem_singleton.mpr rfl), hp ▸ h.opened prompt hmem⟩, ?_⟩
    exact List.any_eq_true.mpr ⟨prompt, hmem, by simpa using he⟩
  | requestPermission ref => exact h.line fun _ => nofun
  | response request reply =>
    refine ⟨fun prompt hp => h.opened prompt (List.mem_filter.mp hp).1, ?_, h.applying⟩
    refine h.inFlight.snoc (fun r hr => ?_) fun u hu => nomatch hu
    obtain ⟨prompt, hmem, he⟩ := List.any_eq_true.mp hr
    rw [decide_eq_true_eq] at he
    by_cases hrequest : request = r
    · exact .inr (by simpa [Line.answers] using hrequest)
    · refine .inl (List.any_eq_true.mpr ⟨prompt, List.mem_filter.mpr ⟨hmem, ?_⟩, by simpa using he⟩)
      have hne : prompt.1 ≠ request := fun h => hrequest (h.symm.trans he)
      simpa using hne
  | other => exact h.line fun _ => nofun
  | broken e => exact h.line fun _ => nofun

/-! ## Runs -/

theorem Sound.step (h : Sound p) {p' : AcpProvider} {event : AcpProvider.Event} (hc : careful event p = true)
    (hp : AcpProvider.step event p = some p') : Sound p' := by
  cases event with
  | call request =>
    simp only [AcpProvider.step] at hp
    split at hp
    · obtain rfl := Option.some.inj hp
      exact h.calls _
    · next hbegin =>
      obtain rfl := Option.some.inj hp
      exact (h.begin hbegin).calls _
  | goOn i world answer =>
    obtain ⟨call, hcall, rfl⟩ := Option.map_eq_some_iff.mp hp
    refine Sound.calls (h.goOn world answer fun runtimeSessionId hr turn hmem he => ?_) _
    have hall : (p.turns.all fun turn => turn.runtimeSessionId ≠ runtimeSessionId || !turn.readsAnother) = true := by
      cases call <;> cases hr <;> simpa only [careful, hcall] using hc
    simpa [he] using List.all_eq_true.mp hall turn hmem
  | task i world =>
    obtain ⟨turn, hi, hp⟩ := Option.bind_eq_some_iff.mp hp
    refine h.advance hi (fun hanswered => ?_) hp
    simp only [careful, hi, Option.all_some, hanswered, Bool.not_true, Bool.false_or, Bool.or_eq_true] at hc
    refine hc.imp id fun hc active ha => ?_
    simpa [ha] using hc
  | read c found => exact h.read hc hp
  | agent c output =>
    simp only [AcpProvider.step] at hp
    split at hp
    · obtain rfl := Option.some.inj hp
      refine h.onConnection fun connection hconn => ⟨fun u hu => ?_, (h.connections c connection hconn).writes output⟩
      cases output with
      | update ref body outputOf => exact List.mem_append_left _ hu
      | _ => exact hu
    · cases hp

theorem sound_new (maxInstances maxSessionsPerInstance : ℕ) : Sound (.new maxInstances maxSessionsPerInstance) :=
  ⟨fun _ _ hi => (by cases hi), fun _ _ hc => (by cases hc), fun _ _ hs => (by cases hs)⟩

end

/-- Whatever the calls, the tasks, the readers and the agents do in turns: results report what the turn's own
prompt has put out. -/
theorem turns_apart (maxInstances maxSessionsPerInstance : ℕ) {p : AcpProvider}
    (h : Reaches AcpProvider.step (fun event p => careful event p = true)
      (.new maxInstances maxSessionsPerInstance) p) :
    TurnsApart p := by
  have hsound : Sound p := h.invariant (sound_new maxInstances maxSessionsPerInstance)
    fun _ _ _ hI hc hp => hI.step hc hp
  exact fun runtimeSessionId session turnId result hs hr =>
    (hsound.sessions runtimeSessionId session hs).completed turnId result hr

/-! ## A run with two turns -/

/-- The session `s` is created, and its first turn is ended by a request for a permission. -/
def endsEarly : List AcpProvider.Event :=
  [.call (.createSession "s"), .goOn 0 .fine (.ok ""), .goOn 0 .fine (.ok "r"),
    .call (.sendTurn ⟨"s", "t1", [], none, none, none⟩), .goOn 1 .fine (.ok ""),
    .task 0 .fine, .task 0 .fine, .task 0 .fine, .task 0 .fine,
    .agent 0 (.requestPermission (some "r")), .read 0 (some "s"), .read 0 none]

def answersFirst : List AcpProvider.Event :=
  [.agent 0 (.response 2 (.result (.obj [("stopReason", .str "cancelled")]))), .read 0 none,
    .task 0 .fine, .task 0 .fine, .task 0 .fine, .task 0 .fine, .task 0 .fine]

/-- A second turn, during which the agent says `x` for the prompt `outputOf`. -/
def secondTurn (outputOf : ℕ) : List AcpProvider.Event :=
  [.call (.sendTurn ⟨"s", "t2", [], none, none, none⟩), .goOn 2 .fine (.ok ""),
    .task 1 .fine, .task 1 .fine, .task 1 .fine, .task 1 .fine,
    .agent 0 (.update "r" (.obj [("sessionUpdate", .str "agent_message_chunk"),
      ("content", .obj [("type", .str "text"), ("text", .str "x")])]) outputOf),
    .read 0 (some "s"), .read 0 none,
    .agent 0 (.response 3 (.result (.obj [("stopReason", .str "end_turn")]))), .read 0 none,
    .task 1 .fine, .task 1 .fine, .task 1 .fine, .task 1 .fine, .task 1 .fine]

/-- The text that the result of turn `turnId` of session `s` reports. -/
def textOf (p : AcpProvider) (turnId : String) : Option Json :=
  (((p.sessions.lookup "s").bind fun session => session.completedTurns.lookup turnId).bind fun result =>
    result.usage).bind (Json.get? "assistant_text")

theorem turns_apart_second : ∃ p, textOf p "t2" = some (.str "x") ∧ TurnsApart p := by
  obtain ⟨p, hp, he⟩ := exists_reaches_of_runAll AcpProvider.step careful (endsEarly ++ answersFirst ++ secondTurn 3)
    (s := .new 1 1) (fun p => textOf p "t2") (some (.str "x")) (by decide +kernel)
  exact ⟨p, he, turns_apart 1 1 hp⟩

def sentNothing (p : AcpProvider) (runtimeSessionId turnId : String) : Bool :=
  p.turns.all fun turn => turn.runtimeSessionId ≠ runtimeSessionId || turn.runtimeTurnId ≠ turnId ||
    turn.prompt.all fun prompt => (p.connections[prompt.1]?).all fun connection =>
      connection.sent.all fun u => u.outputOf ≠ prompt.2

theorem not_outputOf_of_sentNothing {p : AcpProvider} {runtimeSessionId turnId : String}
    (h : sentNothing p runtimeSessionId turnId = true) (u : Update) : ¬ OutputOf p runtimeSessionId turnId u := by
  rintro ⟨i, turn, hi, hsession, hid, c, connection, hprompt, hconn, hsent, _⟩
  have hturn := List.all_eq_true.mp h turn (List.mem_of_getElem? hi)
  simp only [hsession, hid, hprompt, hconn, Option.all_some, ne_eq, not_true, decide_false, Bool.false_or] at hturn
  simpa using List.all_eq_true.mp hturn u hsent

theorem FromOwnPrompt.no_text {p : AcpProvider} {runtimeSessionId turnId : String} {result : ProviderTurnResult}
    (h : FromOwnPrompt p runtimeSessionId turnId result) (hnone : sentNothing p runtimeSessionId turnId = true) :
    result.usage.bind (Json.get? "assistant_text") = none := by
  rcases h with h | ⟨payload, text, usageUpdate, toolCalls, ⟨us, hus, htext⟩, _, _, rfl⟩
  · rw [h]
    rfl
  · have hempty : us = [] := List.eq_nil_iff_forall_not_mem.mpr fun u hu =>
      not_outputOf_of_sentNothing hnone u (hus u hu)
    rw [hempty] at htext
    obtain rfl : none = text := htext
    simp only [promptResult]
    split
    · rfl
    · cases (payload.get? "stopReason").bind Json.asStr <;> cases usageUpdate <;> by_cases htools : toolCalls = [] <;>
        simp [promptUsage, Json.get?, Json.fieldOf, htools]

/-- The text that the agent still sends for the first turn is reported as the second turn's. -/
theorem not_turns_apart : ¬ ∀ (maxInstances maxSessionsPerInstance : ℕ) (p : AcpProvider),
    Reaches AcpProvider.step (fun _ _ => True) (.new maxInstances maxSessionsPerInstance) p → TurnsApart p := by
  intro h
  obtain ⟨p, hp, he⟩ := exists_reaches_of_runAll AcpProvider.step (fun _ _ => true) (endsEarly ++ secondTurn 2)
    (s := .new 1 1) (fun p => (sentNothing p "s" "t2", textOf p "t2")) (true, some (.str "x")) (by decide +kernel)
  obtain ⟨hnone, htext⟩ := Prod.mk.inj he
  have hapart := h 1 1 p (hp.mono fun _ _ _ => trivial)
  obtain ⟨result, hresult, htext⟩ := Option.bind_eq_some_iff.mp htext
  obtain ⟨completed, hcompleted, hresult⟩ := Option.bind_eq_some_iff.mp hresult
  obtain ⟨session, hs, hcompleted⟩ := Option.bind_eq_some_iff.mp hcompleted
  have hsilent := (hapart "s" session "t2" completed hs hcompleted).no_text hnone
  rw [hresult] at hsilent
  rw [Option.bind_some] at hsilent
  rw [hsilent] at htext
  cases htext

end Gooselake.Providers.Acp
