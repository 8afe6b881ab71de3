import Gooselake.Providers.Acp

/-!
What the result of an ACP turn reports is output of the turn's own prompt as long as no update arrives for a
turn that shares its session with another unanswered prompt, and no answer is turned into a result from the
output of another turn.
-/

namespace Gooselake.Providers.Acp

open Gooselake.Core Data Library

set_option autoImplicit false

/-! ## Output of a turn -/

def Own (p : AcpProvider) (turn : Turn) (u : Update) : Prop :=
  ∃ (c : ℕ) (connection : AcpConnection), turn.prompt = some (c, u.outputOf) ∧ p.connections[c]? = some connection ∧
    u ∈ connection.sent ∧ u.outputOf ∈ u.during

/-- Output of a prompt of turn `turnId`. -/
def OutputOf (p : AcpProvider) (runtimeSessionId turnId : String) (u : Update) : Prop :=
  ∃ (i : ℕ) (turn : Turn), p.turns[i]? = some turn ∧ turn.runtimeSessionId = runtimeSessionId ∧
    turn.runtimeTurnId = turnId ∧
    Own p turn u

/-- Updates of the turn amount to something that `P` holds of. -/
def Collects (p : AcpProvider) (runtimeSessionId turnId : String) (P : Collected → Prop) : Prop :=
  ∃ us : List Update, (∀ u ∈ us, OutputOf p runtimeSessionId turnId u) ∧ P (collect (us.map Update.body))

/-- The text, the usage and the tool calls of the result come from output of the turn's own prompt. -/
def FromOwnPrompt (p : AcpProvider) (runtimeSessionId turnId : String) (result : ProviderTurnResult) : Prop :=
  result.usage = none ∨ ∃ payload text usageUpdate toolCalls,
    Collects p runtimeSessionId turnId (fun c => c.assistantText = text) ∧
    Collects p runtimeSessionId turnId (fun c => c.usageUpdate = usageUpdate) ∧
    Collects p runtimeSessionId turnId (fun c => c.toolCallValues = toolCalls) ∧
    result = promptResult runtimeSessionId turnId payload text usageUpdate toolCalls

/-- What a turn has completed with comes from its own prompt. -/
def TurnsApart (p : AcpProvider) : Prop :=
  ∀ runtimeSessionId session turnId result, p.sessions.lookup runtimeSessionId = some session →
    session.completedTurns.lookup turnId = some result → FromOwnPrompt p runtimeSessionId turnId result

/-! ## The condition on steps -/

def Line.answers (request : ℕ) : Line → Bool
  | .response request' _ => request' = request
  | _ => false

def outstanding (connection : AcpConnection) (request : ℕ) : Bool :=
  (connection.openPrompts.any fun prompt => prompt.1 = request) || connection.stream.any (Line.answers request)

def alone (p : AcpProvider) (c : ℕ) (connection : AcpConnection) (ref : String) (i : ℕ) : Bool :=
  p.turns.zipIdx.all fun entry => entry.2 = i || entry.1.providerSessionRef ≠ ref ||
    !entry.1.prompt.any fun prompt => prompt.1 = c && outstanding connection prompt.2

def arriving (connection : AcpConnection) : Option Update :=
  match connection.reader, connection.stream with
  | .idle, .update u :: _ => some u
  | _, _ => none

def hasResult (p : AcpProvider) (runtimeSessionId turnId : String) : Bool :=
  (p.sessions.lookup runtimeSessionId).any fun session => (session.completedTurns.lookup turnId).isSome

def Point.found : Point → Option ActiveTurn
  | .located _ found | .textRead _ found _ | .usageRead _ found _ _ | .completing _ found => found
  | _ => none

def Turn.readsAnother (turn : Turn) : Bool :=
  turn.point.found.any fun active => active.runtimeTurnId ≠ turn.runtimeTurnId

def Turn.answered (turn : Turn) : Bool :=
  match turn.point, turn.reply with
  | .waiting _ _, some (.ok _) => true
  | _, _ => false

/-- Output that arrives for an active turn was sent for a prompt that the agent had not answered, and finds no other
prompt of the session outstanding. When an answer is turned into a result, no other turn is active or the turn has its
result already; and no session is given up while a result is built from another turn of it. -/
def careful (event : AcpProvider.Event) (p : AcpProvider) : Bool :=
  match event with
  | .read c found =>
    match p.connections[c]?, found.bind p.activeTurn with
    | some connection, some active => (arriving connection).all fun u =>
      !isOutput u.body || (u.outputOf ∈ u.during && alone p c connection u.ref active.turn)
    | _, _ => true
  | .task i _ => p.turns[i]?.all fun turn => !turn.answered || hasResult p turn.runtimeSessionId turn.runtimeTurnId ||
      (p.activeTurn turn.runtimeSessionId).all fun active => active.runtimeTurnId = turn.runtimeTurnId
  | .goOn i _ _ =>
    match p.calls[i]? with
    | some (.releasing runtimeSessionId _) | some (.removing runtimeSessionId) =>
      p.turns.all fun turn => turn.runtimeSessionId ≠ runtimeSessionId || !turn.readsAnother
    | _ => true
  | _ => true

/-! ## The invariant -/

def Prompted (p : AcpProvider) (c : ℕ) (prompt : ℕ × String) : Prop :=
  ∃ (i : ℕ) (turn : Turn), p.turns[i]? = some turn ∧ turn.prompt = some (c, prompt.1) ∧
    turn.providerSessionRef = prompt.2

/-- The update is output of a prompt that was open when the agent sent it. -/
def Update.timely (u : Update) : Bool := isOutput u.body && decide (u.outputOf ∈ u.during)

/-- Timely output in the stream meets `P`, and its prompt is open or answered further on. -/
def InFlight (P : Update → Prop) (openPrompts : List (ℕ × String)) : List Line → Prop
  | [] => True
  | line :: rest => (∀ u, line = .update u → u.timely = true →
      P u ∧ ((openPrompts.any fun prompt => prompt.1 = u.outputOf) = true ∨
        rest.any (Line.answers u.outputOf) = true)) ∧
      InFlight P openPrompts rest

structure ConnectionSound (p : AcpProvider) (c : ℕ) (connection : AcpConnection) : Prop where
  opened : ∀ prompt ∈ connection.openPrompts, Prompted p c prompt
  inFlight : InFlight (fun u => u ∈ connection.sent ∧ Prompted p c (u.outputOf, u.ref)) connection.openPrompts
    connection.stream
  applying : ∀ i u, connection.reader = .applying i u → isOutput u.body = true →
    ∃ turn : Turn, p.turns[i]? = some turn ∧ Own p turn u

def Belongs (p : AcpProvider) (runtimeSessionId : String) (active : ActiveTurn) : Prop :=
  ∃ turn : Turn, p.turns[active.turn]? = some turn ∧ turn.runtimeSessionId = runtimeSessionId ∧
    turn.runtimeTurnId = active.runtimeTurnId

structure SessionSound (p : AcpProvider) (runtimeSessionId : String) (session : AcpSessionState) : Prop where
  active : ∀ active, session.activeTurn = some active → Belongs p runtimeSessionId active
  completed : ∀ turnId result, session.completedTurns.lookup turnId = some result →
    FromOwnPrompt p runtimeSessionId turnId result

def ReadFrom (p : AcpProvider) (runtimeSessionId : String) (found : Option ActiveTurn) (P : Collected → Prop) : Prop :=
  match found with
  | none => P .empty
  | some active => Collects p runtimeSessionId active.runtimeTurnId P

def Reported (p : AcpProvider) (runtimeSessionId turnId : String) : Point → Prop
  | .textRead _ found text => ReadFrom p runtimeSessionId found fun c => c.assistantText = text
  | .usageRead _ found text usageUpdate =>
    ReadFrom p runtimeSessionId found (fun c => c.assistantText = text) ∧
      ReadFrom p runtimeSessionId found fun c => c.usageUpdate = usageUpdate
  | .completing result found => result.usage = none ∨ ∃ payload text usageUpdate toolCalls,
      ReadFrom p runtimeSessionId found (fun c => c.assistantText = text) ∧
      ReadFrom p runtimeSessionId found (fun c => c.usageUpdate = usageUpdate) ∧
      ReadFrom p runtimeSessionId found (fun c => c.toolCallValues = toolCalls) ∧
      result = promptResult runtimeSessionId turnId payload text usageUpdate toolCalls
  | _ => True

def PromptSound (prompt : Option (ℕ × ℕ)) : Point → Prop
  | .connecting | .connected _ | .unclosed _ => prompt = none
  | .registered c request => prompt = some (c, request)
  | _ => True

structure TurnSound (p : AcpProvider) (turn : Turn) : Prop where
  prompt : PromptSound turn.prompt turn.point
  collected : ∃ us : List Update, (∀ u ∈ us, Own p turn u) ∧ turn.collected = collect (us.map Update.body)
  found : ∀ active, turn.point.found = some active → Belongs p turn.runtimeSessionId active ∧
    (active.runtimeTurnId = turn.runtimeTurnId ∨ hasResult p turn.runtimeSessionId turn.runtimeTurnId = true)
  reported : Reported p turn.runtimeSessionId turn.runtimeTurnId turn.point

structure Sound (p : AcpProvider) : Prop where
  turns : ∀ (i : ℕ) (turn : Turn), p.turns[i]? = some turn → TurnSound p turn
  connections : ∀ (c : ℕ) (connection : AcpConnection), p.connections[c]? = some connection →
    ConnectionSound p c connection
  sessions : ∀ runtimeSessionId session, p.sessions.lookup runtimeSessionId = some session →
    SessionSound p runtimeSessionId session

/-! ## Later states -/

structure Turn.Onward (turn turn' : Turn) : Prop where
  session : turn'.runtimeSessionId = turn.runtimeSessionId
  id : turn'.runtimeTurnId = turn.runtimeTurnId
  ref : turn'.providerSessionRef = turn.providerSessionRef
  prompt : ∀ prompt, turn.prompt = some prompt → turn'.prompt = some prompt

theorem Turn.Onward.refl (turn : Turn) : turn.Onward turn := ⟨rfl, rfl, rfl, fun _ h => h⟩

structure Grows (p p' : AcpProvider) : Prop where
  turns : ∀ (i : ℕ) (turn : Turn), p.turns[i]? = some turn → ∃ turn' : Turn, p'.turns[i]? = some turn' ∧
    turn.Onward turn'
  sent : ∀ (c : ℕ) (connection : AcpConnection), p.connections[c]? = some connection →
    ∃ connection' : AcpConnection, p'.connections[c]? = some connection' ∧ ∀ u ∈ connection.sent, u ∈ connection'.sent

section

variable {p p' : AcpProvider} {runtimeSessionId turnId : String} {turn turn' : Turn} {u : Update}

theorem Own.mono (h : Own p turn u) (hg : Grows p p') (ht : turn.Onward turn') : Own p' turn' u := by
  obtain ⟨c, connection, hprompt, hc, hsent, hduring⟩ := h
  obtain ⟨connection', hc', hkept⟩ := hg.sent c connection hc
  exact ⟨c, connection', ht.prompt _ hprompt, hc', hkept u hsent, hduring⟩

theorem OutputOf.mono (h : OutputOf p runtimeSessionId turnId u) (hg : Grows p p') :
    OutputOf p' runtimeSessionId turnId u := by
  obtain ⟨i, turn, hi, hsession, hid, hown⟩ := h
  obtain ⟨turn', hi', ht⟩ := hg.turns i turn hi
  exact ⟨i, turn', hi', ht.session.trans hsession, ht.id.trans hid, hown.mono hg ht⟩

theorem Collects.mono {P : Collected → Prop} (h : Collects p runtimeSessionId turnId P) (hg : Grows p p') :
    Collects p' runtimeSessionId turnId P := by
  obtain ⟨us, hus, hP⟩ := h
  exact ⟨us, fun u hu => (hus u hu).mono hg, hP⟩

theorem FromOwnPrompt.mono {result : ProviderTurnResult} (h : FromOwnPrompt p runtimeSessionId turnId result)
    (hg : Grows p p') : FromOwnPrompt p' runtimeSessionId turnId result := by
  refine h.imp id fun h => ?_
  obtain ⟨payload, text, usageUpdate, toolCalls, htext, husage, htools, he⟩ := h
  exact ⟨payload, text, usageUpdate, toolCalls, htext.mono hg, husage.mono hg, htools.mono hg, he⟩

theorem Prompted.mono {c : ℕ} {prompt : ℕ × String} (h : Prompted p c prompt) (hg : Grows p p') :
    Prompted p' c prompt := by
  obtain ⟨i, turn, hi, hprompt, href⟩ := h
  obtain ⟨turn', hi', ht⟩ := hg.turns i turn hi
  exact ⟨i, turn', hi', ht.prompt _ hprompt, ht.ref.trans href⟩

theorem Belongs.mono {active : ActiveTurn} (h : Belongs p runtimeSessionId active) (hg : Grows p p') :
    Belongs p' runtimeSessionId active := by
  obtain ⟨turn, hi, hsession, hid⟩ := h
  obtain ⟨turn', hi', ht⟩ := hg.turns _ turn hi
  exact ⟨turn', hi', ht.session.trans hsession, ht.id.trans hid⟩

theorem InFlight.mono {P Q : Update → Prop} {openPrompts : List (ℕ × String)} {stream : List Line}
    (h : InFlight P openPrompts stream) (hPQ : ∀ u, P u → Q u) : InFlight Q openPrompts stream := by
  induction stream with
  | nil => exact h
  | cons line rest ih => exact ⟨fun u hu ho => (h.1 u hu ho).imp (hPQ u) id, ih h.2⟩

theorem InFlight.snoc {P : Update → Prop} {openPrompts openPrompts' : List (ℕ × String)} {stream : List Line}
    (h : InFlight P openPrompts stream) {line : Line}
    (hopen : ∀ request : ℕ, (openPrompts.any fun prompt => prompt.1 = request) = true →
      (openPrompts'.any fun prompt => prompt.1 = request) = true ∨ line.answers request = true)
    (hline : ∀ u, line = .update u → u.timely = true →
      P u ∧ (openPrompts'.any fun prompt => prompt.1 = u.outputOf) = true) :
    InFlight P openPrompts' (stream ++ [line]) := by
  induction stream with
  | nil => exact ⟨fun u hu ho => (hline u hu ho).imp id .inl, trivial⟩
  | cons first rest ih =>
    refine ⟨fun u hu ho => ?_, ih h.2⟩
    obtain ⟨hP, hprompt⟩ := h.1 u hu ho
    refine ⟨hP, ?_⟩
    change _ ∨ (rest ++ [line]).any (Line.answers u.outputOf) = true
    rw [List.any_append, Bool.or_eq_true]
    rcases hprompt with hprompt | hanswer
    · rcases hopen u.outputOf hprompt with hstill | hanswers
      · exact .inl hstill
      · exact .inr (.inr (by simpa using hanswers))
    · exact .inr (.inl hanswer)

theorem InFlight.more {P : Update → Prop} {openPrompts : List (ℕ × String)} {stream : List Line}
    (h : InFlight P openPrompts stream) (prompt : ℕ × String) : InFlight P (openPrompts ++ [prompt]) stream := by
  induction stream with
  | nil => exact h
  | cons line rest ih =>
    refine ⟨fun u hu ho => (h.1 u hu ho).imp id (Or.imp_left fun hprompt => ?_), ih h.2⟩
    rw [List.any_append, hprompt, Bool.true_or]

theorem ConnectionSound.mono {c : ℕ} {connection : AcpConnection} (h : ConnectionSound p c connection)
    (hg : Grows p p') : ConnectionSound p' c connection where
  opened prompt hp := (h.opened prompt hp).mono hg
  inFlight := h.inFlight.mono fun u hu => ⟨hu.1, hu.2.mono hg⟩
  applying i u hr ho := by
    obtain ⟨turn, hi, hown⟩ := h.applying i u hr ho
    obtain ⟨turn', hi', ht⟩ := hg.turns i turn hi
    exact ⟨turn', hi', hown.mono hg ht⟩

theorem SessionSound.mono {session : AcpSessionState} (h : SessionSound p runtimeSessionId session)
    (hg : Grows p p') : SessionSound p' runtimeSessionId session :=
  ⟨fun active ha => (h.active active ha).mono hg, fun turnId result hr => (h.completed turnId result hr).mono hg⟩

theorem ReadFrom.mono {found : Option ActiveTurn} {P : Collected → Prop} (h : ReadFrom p runtimeSessionId found P)
    (hg : Grows p p') : ReadFrom p' runtimeSessionId found P := by
  cases found with
  | none => exact h
  | some active => exact Collects.mono h hg

theorem Reported.mono {point : Point} (h : Reported p runtimeSessionId turnId point) (hg : Grows p p') :
    Reported p' runtimeSessionId turnId point := by
  cases point with
  | textRead payload found text =>
    have hread : ReadFrom p runtimeSessionId found fun c => c.assistantText = text := h
    exact hread.mono hg
  | usageRead payload found text usageUpdate => exact ⟨h.1.mono hg, h.2.mono hg⟩
  | completing result found =>
    refine h.imp id fun h => ?_
    obtain ⟨payload, text, usageUpdate, toolCalls, htext, husage, htools, he⟩ := h
    exact ⟨payload, text, usageUpdate, toolCalls, htext.mono hg, husage.mono hg, htools.mono hg, he⟩
  | _ => trivial

theorem TurnSound.mono (h : TurnSound p turn) (hg : Grows p p') (hkept : turn.readsAnother = true →
    hasResult p turn.runtimeSessionId turn.runtimeTurnId = true →
    hasResult p' turn.runtimeSessionId turn.runtimeTurnId = true) : TurnSound p' turn where
  prompt := h.prompt
  collected := by
    obtain ⟨us, hus, he⟩ := h.collected
    exact ⟨us, fun u hu => (hus u hu).mono hg (.refl turn), he⟩
  found active hf := by
    obtain ⟨hbelongs, hid⟩ := h.found active hf
    refine ⟨hbelongs.mono hg, ?_⟩
    by_cases he : active.runtimeTurnId = turn.runtimeTurnId
    · exact .inl he
    · have hreads : turn.readsAnother = true := by simp [Turn.readsAnother, hf, he]
      exact .inr (hkept hreads (hid.resolve_left he))
  reported := h.reported.mono hg

theorem Sound.next (h : Sound p) (hg : Grows p p')
    (hkept : ∀ (i : ℕ) (turn : Turn), p.turns[i]? = some turn → turn.readsAnother = true →
      hasResult p turn.runtimeSessionId turn.runtimeTurnId = true →
      hasResult p' turn.runtimeSessionId turn.runtimeTurnId = true)
    (hturns : ∀ (i : ℕ) (turn : Turn), p'.turns[i]? = some turn → p.turns[i]? = some turn ∨ TurnSound p' turn)
    (hconnections : ∀ (c : ℕ) (connection : AcpConnection), p'.connections[c]? = some connection →
      p.connections[c]? = some connection ∨ ConnectionSound p' c connection)
    (hsessions : ∀ runtimeSessionId session, p'.sessions.lookup runtimeSessionId = some session →
      p.sessions.lookup runtimeSessionId = some session ∨ SessionSound p' runtimeSessionId session) : Sound p' where
  turns i turn hi := (hturns i turn hi).elim (fun hi => (h.turns i turn hi).mono hg (hkept i turn hi)) id
  connections c connection hc :=
    (hconnections c connection hc).elim (fun hc => (h.connections c connection hc).mono hg) id
  sessions sid session hs := (hsessions sid session hs).elim (fun hs => (h.sessions sid session hs).mono hg) id

end

/-! ## Changes of one part -/

section

variable {p : AcpProvider}

theorem Grows.refl (p : AcpProvider) : Grows p p :=
  ⟨fun _ turn hi => ⟨turn, hi, .refl turn⟩, fun _ connection hc => ⟨connection, hc, fun _ hu => hu⟩⟩

theorem Sound.calls (h : Sound p) (calls : List Call) : Sound { p with calls := calls } :=
  h.next ⟨fun _ turn hi => ⟨turn, hi, .refl turn⟩, fun _ connection hc => ⟨connection, hc, fun _ hu => hu⟩⟩
    (fun _ _ _ _ hr => hr) (fun _ _ hi => .inl hi) (fun _ _ hc => .inl hc) fun _ _ hs => .inl hs

theorem Sound.slot (h : Sound p) (connection : Option ℕ) : Sound { p with connection := connection } :=
  h.next ⟨fun _ turn hi => ⟨turn, hi, .refl turn⟩, fun _ connection hc => ⟨connection, hc, fun _ hu => hu⟩⟩
    (fun _ _ _ _ hr => hr) (fun _ _ hi => .inl hi) (fun _ _ hc => .inl hc) fun _ _ hs => .inl hs

theorem Sound.putTurns (h : Sound p) {turns : List Turn} (hlength : turns.length = p.turns.length)
    (hturns : ∀ (i : ℕ) (turn turn' : Turn), p.turns[i]? = some turn → turns[i]? = some turn' →
      turn.Onward turn' ∧ (turn' = turn ∨ TurnSound p turn')) : Sound { p with turns := turns } := by
  have hg : Grows p { p with turns := turns } := by
    refine ⟨fun i turn hi => ?_, fun _ connection hc => ⟨connection, hc, fun _ hu => hu⟩⟩
    have hlt : i < turns.length := hlength ▸ (List.getElem?_eq_some_iff.mp hi).1
    exact ⟨turns[i], List.getElem?_eq_getElem hlt, (hturns i turn _ hi (List.getElem?_eq_getElem hlt)).1⟩
  refine h.next hg (fun _ _ _ _ hr => hr) (fun i turn' hi => ?_) (fun _ _ hc => .inl hc) fun _ _ hs => .inl hs
  have hlt : i < p.turns.length := hlength ▸ (List.getElem?_eq_some_iff.mp hi).1
  have hold : p.turns[i]? = some p.turns[i] := List.getElem?_eq_getElem hlt
  rcases (hturns i _ turn' hold hi).2 with he | hsound
  · exact .inl (he ▸ hold)
  · exact .inr (hsound.mono hg fun _ hr => hr)

theorem Sound.onTurn (h : Sound p) {i : ℕ} {f : Turn → Turn} (hf : ∀ turn : Turn, p.turns[i]? = some turn →
    turn.Onward (f turn) ∧ TurnSound p (f turn)) : Sound (p.onTurn i f) := by
  refine h.putTurns (List.length_modify _ _ _) fun j turn turn' hj hj' => ?_
  by_cases hij : i = j
  · subst hij
    rw [List.getElem?_modify_eq, hj] at hj'
    obtain rfl := Option.some.inj hj'
    exact ⟨(hf turn hj).1, .inr (hf turn hj).2⟩
  · rw [List.getElem?_modify_ne _ _ hij, hj] at hj'
    obtain rfl := Option.some.inj hj'
    exact ⟨.refl turn, .inl rfl⟩

theorem Sound.onConnection (h : Sound p) {c : ℕ} {f : AcpConnection → AcpConnection}
    (hf : ∀ connection : AcpConnection, p.connections[c]? = some connection →
      (∀ u ∈ connection.sent, u ∈ (f connection).sent) ∧ ConnectionSound p c (f connection)) :
    Sound (p.onConnection c f) := by
  have hg : Grows p (p.onConnection c f) := by
    refine ⟨fun _ turn hi => ⟨turn, hi, .refl turn⟩, fun d connection hd => ?_⟩
    by_cases hcd : c = d
    · subst hcd
      exact ⟨f connection, by simp [AcpProvider.onConnection, hd], (hf connection hd).1⟩
    · exact ⟨connection, by simp [AcpProvider.onConnection, hcd, hd], fun _ hu => hu⟩
  refine h.next hg (fun _ _ _ _ hr => hr) (fun _ _ hi => .inl hi) (fun d connection' hd => ?_) fun _ _ hs => .inl hs
  simp only [AcpProvider.onConnection] at hd
  by_cases hcd : c = d
  · subst hcd
    rw [List.getElem?_modify_eq] at hd
    obtain ⟨connection, hc, rfl⟩ := Option.map_eq_some_iff.mp hd
    exact .inr ((hf connection hc).2.mono hg)
  · rw [List.getElem?_modify_ne _ _ hcd] at hd
    exact .inl hd

theorem Sound.putSession (h : Sound p) {runtimeSessionId : String} {session : AcpSessionState}
    (hs : SessionSound p runtimeSessionId session)
    (hkept : ∀ old, p.sessions.lookup runtimeSessionId = some old → ∀ turnId,
      (old.completedTurns.lookup turnId).isSome = true → (session.completedTurns.lookup turnId).isSome = true) :
    Sound (p.putSession runtimeSessionId session) := by
  have hg : Grows p (p.putSession runtimeSessionId session) :=
    ⟨fun _ turn hi => ⟨turn, hi, .refl turn⟩, fun _ connection hc => ⟨connection, hc, fun _ hu => hu⟩⟩
  refine h.next hg (fun i turn _ _ hr => ?_) (fun _ _ hi => .inl hi) (fun _ _ hc => .inl hc) fun sid session' hl => ?_
  · simp only [hasResult, AcpProvider.putSession, Table.lookup_insert] at hr ⊢
    split
    · next he =>
      rw [he] at hr
      obtain ⟨old, hold, hr⟩ := (Option.any_eq_true _ _).mp hr
      exact hkept old hold _ hr
    · exact hr
  · simp only [AcpProvider.putSession, Table.lookup_insert] at hl
    split at hl
    · next he =>
      obtain rfl := Option.some.inj hl
      exact .inr (he ▸ hs.mono hg)
    · exact .inl hl

theorem Sound.release (h : Sound p) {runtimeSessionId : String}
    (hc : ∀ turn ∈ p.turns, turn.runtimeSessionId = runtimeSessionId → turn.readsAnother = false) :
    Sound (p.releaseSessionSlot runtimeSessionId) := by
  refine h.next ⟨fun _ turn hi => ⟨turn, hi, .refl turn⟩, fun _ connection hc => ⟨connection, hc, fun _ hu => hu⟩⟩
    (fun i turn hi hreads hr => ?_) (fun _ _ hi => .inl hi) (fun _ _ hc => .inl hc) fun sid session' hl => ?_
  · have hne : turn.runtimeSessionId ≠ runtimeSessionId := fun he => by
      rw [hc turn (List.mem_of_getElem? hi) he] at hreads
      cases hreads
    simp only [hasResult, AcpProvider.releaseSessionSlot, Table.lookup_erase, if_neg hne]
    exact hr
  · simp only [AcpProvider.releaseSessionSlot, Table.lookup_erase] at hl
    split at hl
    · cases hl
    · exact .inl hl

theorem Sound.addTurn (h : Sound p) {turn : Turn} (ht : TurnSound p turn) :
    Sound { p with turns := p.turns ++ [turn] } := by
  have hg : Grows p { p with turns := p.turns ++ [turn] } := by
    refine ⟨fun i turn' hi => ⟨turn', ?_, .refl turn'⟩, fun _ connection hc => ⟨connection, hc, fun _ hu => hu⟩⟩
    exact (List.getElem?_append_left (List.getElem?_eq_some_iff.mp hi).1).trans hi
  refine h.next hg (fun _ _ _ _ hr => hr) (fun i turn' hi => ?_) (fun _ _ hc => .inl hc) fun _ _ hs => .inl hs
  rcases Nat.lt_or_ge i p.turns.length with hlt | hge
  · exact .inl ((List.getElem?_append_left hlt).symm.trans hi)
  · refine .inr ?_
    have hmem : turn' ∈ [turn] := by
      have hi' := hi
      simp only [List.getElem?_append_right hge] at hi'
      exact List.mem_of_getElem? hi'
    rw [List.mem_singleton.mp hmem]
    exact ht.mono hg fun _ hr => hr

theorem connectionSound_spawned (p : AcpProvider) (c : ℕ) (closed : Bool) :
    ConnectionSound p c (.spawned closed) :=
  ⟨fun _ hp => (by cases hp), trivial, fun _ _ hr => (by cases hr)⟩

theorem Sound.addConnection (h : Sound p) (closed : Bool) :
    Sound { p with connections := p.connections ++ [.spawned closed] } := by
  have hg : Grows p { p with connections := p.connections ++ [.spawned closed] } := by
    refine ⟨fun _ turn hi => ⟨turn, hi, .refl turn⟩, fun c connection hc => ⟨connection, ?_, fun _ hu => hu⟩⟩
    exact (List.getElem?_append_left (List.getElem?_eq_some_iff.mp hc).1).trans hc
  refine h.next hg (fun _ _ _ _ hr => hr) (fun _ _ hi => .inl hi) (fun c connection hc => ?_) fun _ _ hs => .inl hs
  rcases Nat.lt_or_ge c p.connections.length with hlt | hge
  · exact .inl ((List.getElem?_append_left hlt).symm.trans hc)
  · refine .inr ?_
    have hmem : connection ∈ [AcpConnection.spawned closed] := by
      have hc' := hc
      simp only [List.getElem?_append_right hge] at hc'
      exact List.mem_of_getElem? hc'
    rw [List.mem_singleton.mp hmem]
    exact connectionSound_spawned _ c closed

end

end Gooselake.Providers.Acp
