import Gooselake.Library.Registers
import Gooselake.Providers.Codex

/-!
The task that follows a `codex` process: it folds the lines of the standard output into what it keeps of them, and makes
the turn's result of that, of the way the process ended and of the file with the last message.
-/

namespace Gooselake.Providers.Codex

open Gooselake.Core Data Library Library.Exec

set_option autoImplicit false

/-! ## The lines -/

structure TurnFold where
  threadId : Option String
  terminalStatus : Option ProviderTurnStatus
  usagePayload : Option Json
  errorPayload : Option Json
  lastMessage : Option String
  deriving DecidableEq

def TurnFold.start : TurnFold := ⟨none, none, none, none, none⟩

def eventType (event : Json) : Option String := (event.get? "type").bind Json.asStr

def isAgentMessage (item : Json) : Bool := decide ((item.get? "type").bind Json.asStr = some "agent_message")

def itemText (item : Json) : Option String := ((item.get? "text").bind Json.asStr).bind trimmedNonEmpty

def TurnFold.itemCompleted (item : Option Json) (f : TurnFold) : TurnFold :=
  match item with
  | none => f
  | some item => if isAgentMessage item then { f with lastMessage := itemText item } else f

def TurnFold.event (f : TurnFold) (event : Json) : TurnFold :=
  match eventType event with
  | some "thread.started" => { f with threadId := (event.get? "thread_id").bind Json.asStr }
  | some "item.completed" => f.itemCompleted (event.get? "item")
  | some "turn.completed" =>
    { f with terminalStatus := some .completed, usagePayload := event.get? "usage" }
  | some "turn.interrupted" =>
    { f with
      terminalStatus := some .interrupted
      usagePayload := event.get? "usage"
      errorPayload := event.get? "error" }
  | some "turn.failed" =>
    { f with
      terminalStatus := some .failed
      usagePayload := event.get? "usage"
      errorPayload := event.get? "error" }
  | _ => f

/-- What reading the output gave, piece by piece: a line, or an error such as a line that is not UTF-8, after which
nothing is read. `fromStr` is the JSON parser. -/
def readLines (fromStr : String → Option Json) : List (Option String) → TurnFold → TurnFold
  | [], f => f
  | none :: _, f => f
  | some line :: rest, f =>
    match fromStr line with
    | none => readLines fromStr rest f
    | some event => readLines fromStr rest (f.event event)

/-! ## The result -/

structure ExitStatus where
  success : Bool
  shown : String
  deriving DecidableEq

/-- What a turn's process leaves: its output, how waiting for it ended, whether an interrupt was asked for by then, the
last-message file if it could be read, and the text of the error output. -/
structure TurnOutput where
  lines : List (Option String)
  exit : Except String ExitStatus
  interruptRequested : Bool
  lastMessageFile : Option String
  stderr : String

def TurnOutput.endedStatus (o : TurnOutput) : ProviderTurnStatus :=
  match o.exit with
  | .ok status =>
    if status.success then .completed else if o.interruptRequested then .interrupted else .failed
  | .error _ => if o.interruptRequested then .interrupted else .failed

def TurnOutput.fileMessage (o : TurnOutput) : Option String := o.lastMessageFile.bind trimmedNonEmpty

def TurnOutput.errorMessage (turnId : String) (o : TurnOutput) : String :=
  match o.exit with
  | .ok exit => s!"codex turn process exited unsuccessfully for {turnId} (exit_status={exit.shown})"
  | .error error => s!"failed waiting for codex turn process for {turnId}: {error}"

def TurnOutput.errorPayload (turnId : String) (o : TurnOutput) : Json :=
  .obj [("message", .str (o.errorMessage turnId)), ("stderr", .str o.stderr)]

def withLastMessage (usage : Option Json) : Option String → Option Json
  | none => usage
  | some lastMessage =>
    match usage with
    | some (.obj fields) => some (.obj (Json.setField "last_message" (.str lastMessage) fields))
    | some value => some (.obj [("raw_usage", value), ("last_message", .str lastMessage)])
    | none => some (.obj [("last_message", .str lastMessage)])

def TurnFold.result (runtimeSessionId turnId : String) (o : TurnOutput) (f : TurnFold) : ProviderTurnResult :=
  let status := f.terminalStatus.getD o.endedStatus
  { runtimeSessionId := runtimeSessionId
    turnId := turnId
    status := status
    usage := withLastMessage f.usagePayload (f.lastMessage.or o.fileMessage)
    error := if f.errorPayload = none ∧ status = .failed then some (o.errorPayload turnId) else f.errorPayload }

def foldOf (fromStr : String → Option Json) (o : TurnOutput) : TurnFold := readLines fromStr o.lines TurnFold.start

def reportOf (fromStr : String → Option Json) (runtimeSessionId turnId : String) (o : TurnOutput) :
    ProviderTurnResult :=
  (foldOf fromStr o).result runtimeSessionId turnId o

/-- The end of the task of process `n`. -/
def taskEnds (fromStr : String → Option Json) (n : ℕ) (process : CodexProcess) (o : TurnOutput) : CodexM Unit :=
  processEnds n process (foldOf fromStr o).threadId (reportOf fromStr process.runtimeSessionId process.turnId o)

theorem taskEnds_keeps (fromStr : String → Option Json) (n : ℕ) (process : CodexProcess) (o : TurnOutput)
    (c : Codex) {session : CodexSessionState} (hs : c.sessions.lookup process.runtimeSessionId = some session) :
    After (taskEnds fromStr n process o) c fun _ c' =>
      ((c'.sessions.lookup process.runtimeSessionId).bind fun session => session.completedTurns.lookup process.turnId) =
        some (reportOf fromStr process.runtimeSessionId process.turnId o) := by
  simp only [taskEnds, processEnds, completeTurn, putSession, after_bind_iff, after_modify, after_get, hs, after_pure]
  rw [Table.lookup_insert, if_pos rfl, Option.bind_some]
  change (session.completedTurns.insert _ _).lookup _ = _
  rw [Table.lookup_insert, if_pos rfl]

/-! ## The kinds of events -/

def eventStatus (event : Json) : Option ProviderTurnStatus :=
  match eventType event with
  | some "turn.completed" => some .completed
  | some "turn.interrupted" => some .interrupted
  | some "turn.failed" => some .failed
  | _ => none

def endsTurn (event : Json) : Bool := (eventStatus event).isSome

def breaksTurn (event : Json) : Bool :=
  decide (eventStatus event = some .interrupted ∨ eventStatus event = some .failed)

def speaks (event : Json) : Bool :=
  decide (eventType event = some "item.completed") && (event.get? "item").any isAgentMessage

def spokenText (event : Json) : Option String := (event.get? "item").bind itemText

def speaksText (event : Json) : Bool := speaks event && (spokenText event).isSome

inductive EventDoes (e : Json) (f : TurnFold) : Prop
  | completes (hs : eventStatus e = some .completed) (hq : speaks e = false)
      (he : f.event e = { f with terminalStatus := some .completed, usagePayload := e.get? "usage" })
  | breaks (status : ProviderTurnStatus) (hs : eventStatus e = some status) (hb : breaksTurn e = true)
      (hq : speaks e = false)
      (he : f.event e =
        { f with terminalStatus := some status, usagePayload := e.get? "usage", errorPayload := e.get? "error" })
  | speaks (hs : eventStatus e = none) (hq : speaks e = true)
      (he : f.event e = { f with lastMessage := spokenText e })
  | aside (threadId : Option String) (hs : eventStatus e = none) (hq : speaks e = false)
      (he : f.event e = { f with threadId := threadId })

theorem event_does (e : Json) (f : TurnFold) : EventDoes e f := by
  have hitem : ∀ t, eventType e = some t → t ≠ "item.completed" → speaks e = false := by
    intro t ht hne
    simp [Codex.speaks, ht, hne]
  by_cases hcompleted : eventType e = some "turn.completed"
  · apply EventDoes.completes
    · simp only [eventStatus, hcompleted]
    · exact hitem _ hcompleted (by decide)
    · simp only [TurnFold.event, hcompleted]
  by_cases hinterrupted : eventType e = some "turn.interrupted"
  · have hs : eventStatus e = some .interrupted := by simp only [eventStatus, hinterrupted]
    apply EventDoes.breaks .interrupted hs
    · simp [breaksTurn, hs]
    · exact hitem _ hinterrupted (by decide)
    · simp only [TurnFold.event, hinterrupted]
  by_cases hfailed : eventType e = some "turn.failed"
  · have hs : eventStatus e = some .failed := by simp only [eventStatus, hfailed]
    apply EventDoes.breaks .failed hs
    · simp [breaksTurn, hs]
    · exact hitem _ hfailed (by decide)
    · simp only [TurnFold.event, hfailed]
  have hs : eventStatus e = none := by simp [eventStatus]
  by_cases hspoken : eventType e = some "item.completed"
  · have hevent : f.event e = f.itemCompleted (e.get? "item") := by simp only [TurnFold.event, hspoken]
    cases hi : e.get? "item" with
    | none =>
      apply EventDoes.aside f.threadId hs
      · simp [Codex.speaks, hi]
      · rw [hevent, hi]
        rfl
    | some item =>
      by_cases ha : isAgentMessage item = true
      · apply EventDoes.speaks hs
        · simp [Codex.speaks, hspoken, hi, ha]
        · rw [hevent, hi, spokenText, hi]
          simp only [TurnFold.itemCompleted, ha, if_true, Option.bind_some]
      · apply EventDoes.aside f.threadId hs
        · simp [Codex.speaks, hi, ha]
        · rw [hevent, hi]
          simp only [TurnFold.itemCompleted, ha]
          rfl
  by_cases hstarted : eventType e = some "thread.started"
  · apply EventDoes.aside ((e.get? "thread_id").bind Json.asStr) hs
    · exact hitem _ hstarted (by decide)
    · simp only [TurnFold.event, hstarted]
  · apply EventDoes.aside f.threadId hs
    · simp [Codex.speaks, hspoken]
    · simp [TurnFold.event]

theorem endsTurn_of_status {e : Json} {status : ProviderTurnStatus} (h : eventStatus e = some status) :
    endsTurn e = true := by
  rw [endsTurn, h]
  rfl

theorem not_endsTurn {e : Json} (h : eventStatus e = none) : ¬endsTurn e = true := by
  rw [endsTurn, h]
  decide

theorem not_breaksTurn {e : Json} (h : eventStatus e = none ∨ eventStatus e = some .completed) :
    ¬breaksTurn e = true := by
  rw [breaksTurn, decide_eq_true_eq]
  rcases h with h | h <;> simp [h]

theorem event_terminalStatus (f : TurnFold) (e : Json) :
    (f.event e).terminalStatus = if endsTurn e then eventStatus e else f.terminalStatus := by
  cases event_does e f with
  | completes hs _ he => rw [he, if_pos (endsTurn_of_status hs), hs]
  | breaks status hs _ _ he => rw [he, if_pos (endsTurn_of_status hs), hs]
  | speaks hs _ he => rw [he, if_neg (not_endsTurn hs)]
  | aside _ hs _ he => rw [he, if_neg (not_endsTurn hs)]

theorem event_usagePayload (f : TurnFold) (e : Json) :
    (f.event e).usagePayload = if endsTurn e then e.get? "usage" else f.usagePayload := by
  cases event_does e f with
  | completes hs _ he => rw [he, if_pos (endsTurn_of_status hs)]
  | breaks status hs _ _ he => rw [he, if_pos (endsTurn_of_status hs)]
  | speaks hs _ he => rw [he, if_neg (not_endsTurn hs)]
  | aside _ hs _ he => rw [he, if_neg (not_endsTurn hs)]

theorem event_errorPayload (f : TurnFold) (e : Json) :
    (f.event e).errorPayload = if breaksTurn e then e.get? "error" else f.errorPayload := by
  cases event_does e f with
  | completes hs _ he => rw [he, if_neg (not_breaksTurn (.inr hs))]
  | breaks status _ hb _ he => rw [he, if_pos hb]
  | speaks hs _ he => rw [he, if_neg (not_breaksTurn (.inl hs))]
  | aside _ hs _ he => rw [he, if_neg (not_breaksTurn (.inl hs))]

theorem event_lastMessage (f : TurnFold) (e : Json) :
    (f.event e).lastMessage = if speaks e then spokenText e else f.lastMessage := by
  cases event_does e f with
  | completes _ hq he => simp [he, hq]
  | breaks _ _ _ hq he => simp [he, hq]
  | speaks _ hq he => rw [he, if_pos hq]
  | aside _ _ hq he => simp [he, hq]

/-! ## What is left of the lines -/

def heard (fromStr : String → Option Json) : List (Option String) → List Json
  | [] => []
  | none :: _ => []
  | some line :: rest =>
    match fromStr line with
    | none => heard fromStr rest
    | some event => event :: heard fromStr rest

theorem readLines_eq (fromStr : String → Option Json) (lines : List (Option String)) (f : TurnFold) :
    readLines fromStr lines f = (heard fromStr lines).foldl TurnFold.event f := by
  induction lines generalizing f with
  | nil => rfl
  | cons read rest ih =>
    cases read with
    | none => rfl
    | some line =>
      cases hl : fromStr line with
      | none => simp only [readLines, heard, hl, ih]
      | some event => simp only [readLines, heard, hl, ih, List.foldl_cons]

section

variable (fromStr : String → Option Json) (o : TurnOutput)

def decider : Option Json := latest endsTurn (heard fromStr o.lines)

def latestBreak : Option Json := latest breaksTurn (heard fromStr o.lines)

def latestWord : Option Json := latest speaks (heard fromStr o.lines)

def latestText : Option String := (latest speaksText (heard fromStr o.lines)).bind spokenText

theorem foldOf_terminalStatus : (foldOf fromStr o).terminalStatus = (decider fromStr o).bind eventStatus := by
  rw [foldOf, readLines_eq, register_foldl TurnFold.terminalStatus _ _ _ event_terminalStatus, decider]
  cases latest endsTurn (heard fromStr o.lines) <;> rfl

theorem foldOf_usagePayload :
    (foldOf fromStr o).usagePayload = (decider fromStr o).bind fun e => e.get? "usage" := by
  rw [foldOf, readLines_eq, register_foldl TurnFold.usagePayload _ _ _ event_usagePayload, decider]
  cases latest endsTurn (heard fromStr o.lines) <;> rfl

theorem foldOf_errorPayload :
    (foldOf fromStr o).errorPayload = (latestBreak fromStr o).bind fun e => e.get? "error" := by
  rw [foldOf, readLines_eq, register_foldl TurnFold.errorPayload _ _ _ event_errorPayload, latestBreak]
  cases latest breaksTurn (heard fromStr o.lines) <;> rfl

theorem foldOf_lastMessage : (foldOf fromStr o).lastMessage = (latestWord fromStr o).bind spokenText := by
  rw [foldOf, readLines_eq, register_foldl TurnFold.lastMessage _ _ _ event_lastMessage, latestWord]
  cases latest speaks (heard fromStr o.lines) <;> rfl

/-! ## What a result has to be -/

def decidedError (event : Json) : Option Json :=
  if eventStatus event = some .completed then none else event.get? "error"

def lastMessageOf : Option String := (latestText fromStr o).or o.fileMessage

/-- A result in which status, usage and error are of one event, the last that ends the turn, and the last message is
the last one that was said. A turn that failed without an error is given one. -/
structure FromOneEvent (result : ProviderTurnResult) : Prop where
  status : ∀ event, decider fromStr o = some event → eventStatus event = some result.status
  usage : result.usage =
    withLastMessage ((decider fromStr o).bind fun event => event.get? "usage") (lastMessageOf fromStr o)
  error : ∀ event, decider fromStr o = some event →
    result.error = decidedError event ∨ decidedError event = none ∧ result.status = .failed
  completed : result.status = .completed → result.error = none
  failed : result.status = .failed → result.error.isSome = true

/-- When the last event that ends the turn completes it, the latest one before that did not brought no error. -/
def NothingStale : Prop :=
  ∀ event, decider fromStr o = some event → eventStatus event = some .completed →
    ∀ earlier, latestBreak fromStr o = some earlier → earlier.get? "error" = none

/-- When the last agent message is blank and an earlier one is not, the file has the text of the latest of these, or it
is blank and the usage has that text already. -/
def NothingUnsaid : Prop :=
  ∀ word text, latestWord fromStr o = some word → spokenText word = none → latestText fromStr o = some text →
    o.fileMessage = some text ∨
      o.fileMessage = none ∧ ((decider fromStr o).bind fun event => event.get? "usage").bind
        (Json.get? "last_message") = some (.str text)

end

theorem get?_withLastMessage (usage : Option Json) (text : String) :
    (withLastMessage usage (some text)).bind (Json.get? "last_message") = some (.str text) := by
  cases usage with
  | none => rfl
  | some value =>
    cases value with
    | obj fields => exact Json.fieldOf_setField_self _ _ _
    | _ => rfl

theorem withLastMessage_of_get? {usage : Option Json} {text : String}
    (h : usage.bind (Json.get? "last_message") = some (.str text)) :
    withLastMessage usage (some text) = usage := by
  cases usage with
  | none => cases h
  | some value =>
    cases value with
    | obj fields => exact congrArg (fun fields => some (Json.obj fields)) (Json.setField_of_fieldOf h)
    | _ => cases h

/-! ## The report -/

section

variable (fromStr : String → Option Json) (runtimeSessionId turnId : String) (o : TurnOutput)

theorem reportOf_status : (reportOf fromStr runtimeSessionId turnId o).status =
    ((decider fromStr o).bind eventStatus).getD o.endedStatus := by
  rw [← foldOf_terminalStatus]
  rfl

theorem reportOf_usage : (reportOf fromStr runtimeSessionId turnId o).usage =
    withLastMessage ((decider fromStr o).bind fun event => event.get? "usage")
      (((latestWord fromStr o).bind spokenText).or o.fileMessage) := by
  rw [← foldOf_usagePayload, ← foldOf_lastMessage]
  rfl

/-- The error is that of the latest break, unless the turn failed without one. -/
theorem reportOf_error {error : Option Json}
    (h : ((latestBreak fromStr o).bind fun event => event.get? "error") = error) :
    (reportOf fromStr runtimeSessionId turnId o).error = error ∧
        (error = none → (reportOf fromStr runtimeSessionId turnId o).status ≠ .failed) ∨
      error = none ∧ (reportOf fromStr runtimeSessionId turnId o).status = .failed ∧
        (reportOf fromStr runtimeSessionId turnId o).error = some (o.errorPayload turnId) := by
  rw [← foldOf_errorPayload] at h
  have herror : (reportOf fromStr runtimeSessionId turnId o).error =
      if (foldOf fromStr o).errorPayload = none ∧ (reportOf fromStr runtimeSessionId turnId o).status = .failed
      then some (o.errorPayload turnId) else (foldOf fromStr o).errorPayload := rfl
  rw [h] at herror
  by_cases hmade : error = none ∧ (reportOf fromStr runtimeSessionId turnId o).status = .failed
  · rw [if_pos hmade] at herror
    exact .inr ⟨hmade.1, hmade.2, herror⟩
  · rw [if_neg hmade] at herror
    exact .inl ⟨herror, fun hnone hfailed => hmade ⟨hnone, hfailed⟩⟩

theorem reportOf_status_of_decider (event : Json) (h : decider fromStr o = some event) :
    eventStatus event = some (reportOf fromStr runtimeSessionId turnId o).status := by
  obtain ⟨-, hends⟩ := latest_meets h
  obtain ⟨status, hs⟩ := Option.isSome_iff_exists.mp hends
  rw [reportOf_status, h, Option.bind_some, hs]
  rfl

theorem endsTurn_of_breaksTurn (event : Json) (h : breaksTurn event = true) : endsTurn event = true := by
  rw [breaksTurn, decide_eq_true_eq] at h
  rcases h with h | h <;> exact endsTurn_of_status h

theorem eventStatus_ne_inProgress (event : Json) : eventStatus event ≠ some .inProgress := by
  unfold eventStatus
  split <;> decide

theorem latestBreak_of_decider {event : Json} (h : decider fromStr o = some event)
    (hne : eventStatus event ≠ some .completed) : latestBreak fromStr o = some event := by
  apply latest_of_latest endsTurn_of_breaksTurn h
  obtain ⟨-, hends⟩ := latest_meets h
  obtain ⟨status, hs⟩ := Option.isSome_iff_exists.mp hends
  rw [breaksTurn, decide_eq_true_eq]
  cases status with
  | completed => exact absurd hs hne
  | inProgress => exact absurd hs (eventStatus_ne_inProgress event)
  | interrupted => exact .inl hs
  | failed => exact .inr hs

theorem latestBreak_of_no_decider (h : decider fromStr o = none) : latestBreak fromStr o = none := by
  apply latest_eq_none.mpr
  intro event hmem hbreaks
  exact latest_eq_none.mp h event hmem (endsTurn_of_breaksTurn event hbreaks)

theorem latestText_of_latestWord {word : Json} {text : String} (h : latestWord fromStr o = some word)
    (ht : spokenText word = some text) : latestText fromStr o = some text := by
  obtain ⟨-, hspeaks⟩ := latest_meets h
  have hlatest : latest speaksText (heard fromStr o.lines) = some word := by
    apply latest_of_latest _ h
    · simp [speaksText, hspeaks, ht]
    · intro e he
      exact (Bool.and_eq_true_iff.mp he).1
  rw [latestText, hlatest, Option.bind_some, ht]

theorem latestText_of_no_word (h : latestWord fromStr o = none) : latestText fromStr o = none := by
  have hlatest : latest speaksText (heard fromStr o.lines) = none := by
    apply latest_eq_none.mpr
    intro e hmem he
    exact latest_eq_none.mp h e hmem (Bool.and_eq_true_iff.mp he).1
  rw [latestText, hlatest]
  rfl

theorem usage_iff_nothingUnsaid : (reportOf fromStr runtimeSessionId turnId o).usage =
      withLastMessage ((decider fromStr o).bind fun event => event.get? "usage") (lastMessageOf fromStr o) ↔
    NothingUnsaid fromStr o := by
  rw [reportOf_usage, lastMessageOf]
  generalize hu : ((decider fromStr o).bind fun event => event.get? "usage") = usage
  cases hw : latestWord fromStr o with
  | none =>
    rw [latestText_of_no_word fromStr o hw]
    exact ⟨fun _ word _ hword => (by rw [hw] at hword; cases hword), fun _ => rfl⟩
  | some word =>
    cases hs : spokenText word with
    | some text =>
      rw [latestText_of_latestWord fromStr o hw hs, Option.bind_some, hs]
      refine ⟨fun _ word' _ hword hblank => ?_, fun _ => rfl⟩
      rw [hw] at hword
      obtain rfl := Option.some.inj hword
      rw [hs] at hblank
      cases hblank
    | none =>
      rw [Option.bind_some, hs, Option.none_or]
      cases ht : latestText fromStr o with
      | none => exact ⟨fun _ _ _ _ _ hword => (by rw [ht] at hword; cases hword), fun _ => rfl⟩
      | some text =>
        rw [Option.some_or]
        constructor
        · intro h word' text' _ _ htext
          rw [ht] at htext
          obtain rfl := Option.some.inj htext
          have hget := get?_withLastMessage usage text
          cases hf : o.fileMessage with
          | none =>
            rw [hf] at h
            rw [← h] at hget
            exact .inr ⟨rfl, hu ▸ hget⟩
          | some said =>
            rw [hf] at h
            rw [← h, get?_withLastMessage] at hget
            exact .inl (congrArg some (Json.str.inj (Option.some.inj hget)))
        · intro h
          rcases h word text hw hs ht with hf | ⟨hf, hget⟩
          · rw [hf]
          · rw [hf, withLastMessage_of_get? (hu ▸ hget)]
            rfl

/-- The report is of one event just when neither an error nor a message of an earlier event is left in it. -/
theorem report_fromOneEvent_iff : FromOneEvent fromStr o (reportOf fromStr runtimeSessionId turnId o) ↔
    NothingStale fromStr o ∧ NothingUnsaid fromStr o := by
  constructor
  · intro h
    refine ⟨?_, (usage_iff_nothingUnsaid fromStr runtimeSessionId turnId o).mp h.usage⟩
    intro event hd hcompleted earlier hb
    have hstatus : (reportOf fromStr runtimeSessionId turnId o).status = .completed := by
      have hs := reportOf_status_of_decider fromStr runtimeSessionId turnId o event hd
      rw [hcompleted] at hs
      exact (Option.some.inj hs).symm
    have hbind : ((latestBreak fromStr o).bind fun event => event.get? "error") = earlier.get? "error" := by
      rw [hb, Option.bind_some]
    rcases reportOf_error fromStr runtimeSessionId turnId o hbind with ⟨herror, -⟩ | ⟨hnone, -, -⟩
    · rw [← herror]
      exact h.completed hstatus
    · exact hnone
  · rintro ⟨hstale, hunsaid⟩
    have hs := reportOf_status_of_decider fromStr runtimeSessionId turnId o
    -- a report that is completed has no break with an error behind it
    have hcompleted : (reportOf fromStr runtimeSessionId turnId o).status = .completed →
        ((latestBreak fromStr o).bind fun event => event.get? "error") = none := by
      intro hc
      cases hd : decider fromStr o with
      | none =>
        rw [latestBreak_of_no_decider fromStr o hd]
        rfl
      | some event =>
        cases hb : latestBreak fromStr o with
        | none => rfl
        | some earlier => exact hstale event hd (hc ▸ hs event hd) earlier hb
    refine ⟨hs, (usage_iff_nothingUnsaid fromStr runtimeSessionId turnId o).mpr hunsaid, ?_, ?_, ?_⟩
    · intro event hd
      by_cases hc : eventStatus event = some .completed
      · have hstatus : (reportOf fromStr runtimeSessionId turnId o).status = .completed :=
          Option.some.inj ((hs event hd).symm.trans hc)
        rcases reportOf_error fromStr runtimeSessionId turnId o (hcompleted hstatus) with
          ⟨herror, -⟩ | ⟨-, hfailed, -⟩
        · exact .inl (herror.trans (if_pos hc).symm)
        · rw [hstatus] at hfailed
          cases hfailed
      · have hdecided : decidedError event = event.get? "error" := if_neg hc
        have hbind : ((latestBreak fromStr o).bind fun event => event.get? "error") = event.get? "error" := by
          rw [latestBreak_of_decider fromStr o hd hc, Option.bind_some]
        rw [hdecided]
        rcases reportOf_error fromStr runtimeSessionId turnId o hbind with ⟨herror, -⟩ | ⟨hnone, hfailed, -⟩
        · exact .inl herror
        · exact .inr ⟨hnone, hfailed⟩
    · intro hc
      rcases reportOf_error fromStr runtimeSessionId turnId o (hcompleted hc) with ⟨herror, -⟩ | ⟨-, hfailed, -⟩
      · exact herror
      · rw [hc] at hfailed
        cases hfailed
    · intro hf
      rcases reportOf_error fromStr runtimeSessionId turnId o rfl with ⟨herror, hne⟩ | ⟨-, -, hmade⟩
      · rw [herror, Option.isSome_iff_ne_none]
        exact fun hnone => hne hnone hf
      · rw [hmade]
        rfl

end

/-! ## A turn that failed before it completed -/

def reconnectedLines (line : String) : Option Json :=
  if line = "\x7b\"type\":\"turn.failed\",\"error\":\x7b\"message\":\"stream disconnected\"\x7d\x7d" then
    some (.obj [("type", .str "turn.failed"), ("error", .obj [("message", .str "stream disconnected")])])
  else if line = "\x7b\"type\":\"turn.completed\"\x7d" then some (.obj [("type", .str "turn.completed")])
  else none

def reconnected : TurnOutput where
  lines := [
    some "\x7b\"type\":\"turn.failed\",\"error\":\x7b\"message\":\"stream disconnected\"\x7d\x7d",
    some "\x7b\"type\":\"turn.completed\"\x7d"]
  exit := .ok ⟨true, "exit status: 0"⟩
  interruptRequested := false
  lastMessageFile := none
  stderr := ""

theorem not_report_fromOneEvent :
    ¬∀ (fromStr : String → Option Json) (runtimeSessionId turnId : String) (o : TurnOutput),
      FromOneEvent fromStr o (reportOf fromStr runtimeSessionId turnId o) := by
  intro h
  have hcompleted := (h reconnectedLines "session_1" "turn_1" reconnected).completed
  have hstatus : (reportOf reconnectedLines "session_1" "turn_1" reconnected).status = .completed := by decide +kernel
  have herror : (reportOf reconnectedLines "session_1" "turn_1" reconnected).error ≠ none := by decide +kernel
  exact herror (hcompleted hstatus)

end Gooselake.Providers.Codex
