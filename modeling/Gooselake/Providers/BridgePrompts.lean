import Gooselake.Data.Json
import Gooselake.Library.Runs
import Gooselake.Providers.BridgeClient
import Gooselake.Providers.ClaudeBridge

/-!
The prompt stream of a turn. Inputs are pushed as user messages, the SDK reads them with calls of `next`, and the turn
closes the stream. The reader is an async generator: it goes from one `yield` or `await` to the next, and is woken by the
waiter that it has left.
-/

namespace Gooselake.Providers.BridgePrompts

open Gooselake.Data Library
open Gooselake.Providers.BridgeClient (isJsWhitespace)

set_option autoImplicit false

/-! ## Input items -/

structure ClaudeInputItem where
  type : String
  text : Option String
  data : Option String
  mediaType : Option String
  deriving DecidableEq, Repr

/-- What `ensureString` makes of a field. -/
def ensureString (value : Option Json) (field : String) : Except BridgeError String :=
  match value with
  | some (.str s) =>
    if s = "" then .error ⟨.badRequest, s!"Invalid or missing string field: {field}"⟩ else .ok s
  | _ => .error ⟨.badRequest, s!"Invalid or missing string field: {field}"⟩

def asOptionalString (value : Option Json) : Option String := (value.bind Json.asStr).filter (· ≠ "")

def isRecord : Json → Bool
  | .obj _ | .arr _ => true
  | .null | .bool _ | .int _ | .float _ | .str _ => false

def asInputItem (item : Json) : Except BridgeError ClaudeInputItem := do
  if !isRecord item then throw ⟨.badRequest, "Invalid input item"⟩
  let type ← ensureString (item.get? "type") "input.type"
  if type = "text" then
    let text ← ensureString (item.get? "text") "input.text"
    return ⟨type, some text, none, none⟩
  return ⟨type, asOptionalString (item.get? "text"), asOptionalString (item.get? "data"),
    asOptionalString (item.get? "mediaType")⟩

def asInputItems (value : Option Json) : Except BridgeError (List ClaudeInputItem) :=
  match value with
  | some (.arr items) => items.mapM asInputItem
  | _ => .error ⟨.badRequest, "Expected input[]"⟩

/-! ## Messages -/

inductive SdkUserContentBlock where
  | text (text : String)
  | image (mediaType data : String)
  deriving DecidableEq, Repr

structure SdkUserMessage where
  sessionId : String
  content : List SdkUserContentBlock
  deriving DecidableEq, Repr

/-- `String.prototype.trim` -/
def jsTrim (s : String) : String := trimBy isJsWhitespace s

def normalizeClaudeVisionMediaType (mediaType : Option String) : Option String :=
  let lower := toAsciiLowercase (jsTrim (mediaType.getD ""))
  let normalized := jsTrim (String.ofList (lower.toList.takeWhile (· ≠ ';')))
  if normalized = "image/jpg" then some "image/jpeg"
  else if normalized ∈ ["image/jpeg", "image/png", "image/gif", "image/webp"] then some normalized
  else none

/-- What stands after `head`, whose letters may be capitals. -/
def afterHead (head : String) (cs : List Char) : Option (List Char) :=
  if (cs.take head.length).map Char.toLower = head.toList then some (cs.drop head.length) else none

/-- The text without a first match of `/^data:[^;]+;base64,/i`. -/
def withoutDataUrlHead (s : String) : String :=
  match afterHead "data:" s.toList with
  | none => s
  | some rest =>
    match rest.takeWhile (· ≠ ';'), afterHead ";base64," (rest.dropWhile (· ≠ ';')) with
    | _ :: _, some payload => String.ofList payload
    | _, _ => s

def normalizeBase64Payload (data : Option String) : Option String :=
  some (withoutDataUrlHead (jsTrim (data.getD ""))) |>.filter (· ≠ "")

def blockOf (item : ClaudeInputItem) : Option SdkUserContentBlock :=
  if item.type = "text" then ((item.text.map jsTrim).filter (· ≠ "")).map .text
  else if item.type ≠ "image" then none
  else
    let fallbackLabel := ((item.mediaType.map jsTrim).filter (· ≠ "")).getD "unknown"
    match normalizeClaudeVisionMediaType item.mediaType, normalizeBase64Payload item.data with
    | some mediaType, some data => some (.image mediaType data)
    | _, _ => some (.text s!"[Attached image: {fallbackLabel}]")

def buildSdkPromptContentBlocks (input : List ClaudeInputItem) : List SdkUserContentBlock := input.filterMap blockOf

structure SessionRefs where
  sdkSessionRef : Option String
  providerSessionRef : String
  deriving DecidableEq, Repr

def buildSdkUserMessage (refs : SessionRefs) (input : List ClaudeInputItem) : Option SdkUserMessage :=
  match buildSdkPromptContentBlocks input with
  | [] => none
  | blocks => some ⟨refs.sdkSessionRef.getD refs.providerSessionRef, blocks⟩

example : buildSdkPromptContentBlocks [⟨"text", some " describe ", none, none⟩,
    ⟨"image", none, some "DATA:image/png;base64,AQID", some "image/PNG; q=1"⟩] =
    [.text "describe", .image "image/png" "AQID"] := by decide +kernel

/-! ## The stream -/

inductive ReaderPoint where
  /-- before its loop or at a `yield` -/
  | suspended
  /-- at the `await` of a promise that is not resolved -/
  | waiting (promise : ℕ)
  /-- the promise is resolved, and the reader has not gone on yet -/
  | woken
  | ended
  deriving DecidableEq, Repr

structure PromptStream where
  queue : List SdkUserMessage
  /-- The promises whose `resolve` the stream holds. -/
  waiters : List ℕ
  closed : Bool
  reader : ReaderPoint
  /-- The calls of `next` that are not answered. -/
  asked : ℕ
  nextPromise : ℕ
  /-- What the calls of `next` were answered with. -/
  received : List SdkUserMessage
  deriving DecidableEq, Repr

namespace PromptStream

def empty : PromptStream := ⟨[], [], false, .suspended, 0, 0, []⟩

def notifyWaiter (s : PromptStream) : PromptStream :=
  match s.waiters with
  | [] => s
  | promise :: waiters =>
    { s with waiters := waiters, reader := if s.reader = .waiting promise then .woken else s.reader }

def notifyTimes : ℕ → PromptStream → PromptStream
  | 0, s => s
  | n + 1, s => notifyTimes n s.notifyWaiter

def pushInput (refs : SessionRefs) (input : List ClaudeInputItem) (s : PromptStream) : PromptStream :=
  match buildSdkUserMessage refs input with
  | none => s
  | some message => { s with queue := s.queue ++ [message] }.notifyWaiter

def close (s : PromptStream) : PromptStream :=
  if s.closed then s else notifyTimes s.waiters.length { s with closed := true }

def createTurnPromptStream (refs : SessionRefs) (initialInput : List ClaudeInputItem) : PromptStream :=
  empty.pushInput refs initialInput

def next (s : PromptStream) : PromptStream := if s.reader = .ended then s else { s with asked := s.asked + 1 }

def runnable (s : PromptStream) : Bool :=
  match s.reader with
  | .suspended => 0 < s.asked
  | .woken => true
  | .waiting _ | .ended => false

/-- The reader goes from the head of its loop to the next `yield` or `await`, or to its end. -/
def goOn (s : PromptStream) : PromptStream :=
  match s.queue with
  | message :: queue =>
    { s with queue := queue, reader := .suspended, asked := s.asked - 1, received := s.received ++ [message] }
  | [] =>
    if s.closed then { s with reader := .ended, asked := 0 }
    else { s with
      waiters := s.waiters ++ [s.nextPromise]
      reader := .waiting s.nextPromise
      nextPromise := s.nextPromise + 1 }

inductive Label where
  | push (refs : SessionRefs) (input : List ClaudeInputItem)
  | close
  | next
  | run

def step (l : Label) (s : PromptStream) : Option PromptStream :=
  match l with
  | .push refs input => some (s.pushInput refs input)
  | .close => some s.close
  | .next => some s.next
  | .run => if s.runnable then some s.goOn else none

end PromptStream

/-! ## What is promised -/

def messagesOf (pushed : List (SessionRefs × List ClaudeInputItem)) : List SdkUserMessage :=
  pushed.filterMap fun push => buildSdkUserMessage push.1 push.2

def PromptStream.Label.pushed? : PromptStream.Label → Option (SessionRefs × List ClaudeInputItem)
  | .push refs input => some (refs, input)
  | .close | .next | .run => none

/-- The inputs of a turn, the first one and those pushed later. -/
def pushedIn (refs : SessionRefs) (input : List ClaudeInputItem) (labels : List PromptStream.Label) :
    List (SessionRefs × List ClaudeInputItem) := (refs, input) :: labels.filterMap PromptStream.Label.pushed?

open PromptStream in
/-- The state `s` after the steps `labels` of a turn's stream. -/
structure Delivered (refs : SessionRefs) (input : List ClaudeInputItem) (labels : List Label) (s : PromptStream) :
    Prop where
  inOrder : s.reader ≠ .ended → s.received ++ s.queue = messagesOf (pushedIn refs input labels)
  /-- The reader has ended after the close of the stream, with an empty queue, and has read all that was pushed before. -/
  whole : s.reader = .ended → ∃ before after u, labels = before ++ .run :: after ∧
    runAll step before (createTurnPromptStream refs input) = some u ∧ u.reader ≠ .ended ∧ u.closed = true ∧ u.queue = [] ∧
    s.received = messagesOf (pushedIn refs input before)
  wakes : s.reader ≠ .ended → 0 < s.asked → s.queue ≠ [] ∨ s.closed = true → s.runnable = true
  /-- Every input has its message. -/
  yields : ∀ pushed ∈ pushedIn refs input labels, (buildSdkUserMessage pushed.1 pushed.2).isSome = true
  /-- The first call of `next` does not wait. -/
  starts : ∃ message, (runAll step [.next, .run] (createTurnPromptStream refs input)).map received = some [message]

/-- The item becomes a block of the prompt. -/
def GivesBlock (item : ClaudeInputItem) : Prop :=
  item.type = "image" ∨ item.type = "text" ∧ ∃ text, item.text = some text ∧ jsTrim text ≠ ""

/-! ## Blocks -/

theorem isSome_blockOf_iff (item : ClaudeInputItem) : (blockOf item).isSome = true ↔ GivesBlock item := by
  rw [blockOf, GivesBlock]
  by_cases htext : item.type = "text"
  · rw [if_pos htext, htext]
    cases item.text with
    | none => simp
    | some text => simp [Option.filter]
  · rw [if_neg htext]
    by_cases himage : item.type = "image"
    · rw [if_neg (not_not.mpr himage)]
      dsimp only
      refine ⟨fun _ => .inl himage, fun _ => ?_⟩
      split <;> rfl
    · rw [if_pos himage]
      simp [htext, himage]

theorem isSome_buildSdkUserMessage_iff (refs : SessionRefs) (input : List ClaudeInputItem) :
    (buildSdkUserMessage refs input).isSome = true ↔ ∃ item ∈ input, GivesBlock item := by
  simp only [← isSome_blockOf_iff]
  rw [buildSdkUserMessage]
  cases hblocks : buildSdkPromptContentBlocks input with
  | nil =>
    have hnone := List.filterMap_eq_nil_iff.mp hblocks
    refine ⟨nofun, ?_⟩
    rintro ⟨item, hitem, hblock⟩
    rw [hnone item hitem] at hblock
    cases hblock
  | cons block blocks =>
    refine ⟨fun _ => ?_, fun _ => rfl⟩
    have hmem : block ∈ input.filterMap blockOf := by
      rw [← buildSdkPromptContentBlocks, hblocks]
      exact List.mem_cons_self
    obtain ⟨item, hitem, hblock⟩ := List.mem_filterMap.mp hmem
    exact ⟨item, hitem, by rw [hblock]; rfl⟩

/-! ## What holds of a stream -/

namespace PromptStream

structure Attended (s : PromptStream) : Prop where
  waits : ∀ promise, s.reader = .waiting promise → s.waiters = [promise]
  goes : (∀ promise, s.reader ≠ .waiting promise) → s.waiters = []

/-- Moreover a reader waits only when there is nothing for it to do, and it was asked. -/
structure Live (s : PromptStream) : Prop extends Attended s where
  quiet : ∀ promise, s.reader = .waiting promise → s.queue = [] ∧ s.closed = false
  asked : (∃ promise, s.reader = .waiting promise) ∨ s.reader = .woken → 0 < s.asked

def wake (s : PromptStream) : PromptStream :=
  match s.reader with
  | .waiting _ => { s with waiters := [], reader := .woken }
  | .suspended | .woken | .ended => s

variable {s s' : PromptStream}

theorem wake_of_waiters (h : Attended s) (hnone : s.waiters = []) : s.wake = s := by
  rw [wake]
  split
  · next promise hreader =>
    rw [h.waits promise hreader] at hnone
    cases hnone
  all_goals rfl

theorem notifyWaiter_eq (h : Attended s) : s.notifyWaiter = s.wake := by
  rw [notifyWaiter]
  cases hwaiters : s.waiters with
  | nil => exact (wake_of_waiters h hwaiters).symm
  | cons promise waiters =>
    cases hreader : s.reader with
    | waiting other =>
      obtain ⟨rfl, rfl⟩ := List.cons.inj (hwaiters.symm.trans (h.waits other hreader))
      rw [wake, hreader]
      dsimp only
      rw [if_pos rfl]
    | _ =>
      have hnone := h.goes (by rw [hreader]; exact nofun)
      rw [hwaiters] at hnone
      cases hnone

theorem notifyTimes_eq (h : Attended s) : notifyTimes s.waiters.length s = s.wake := by
  cases hwaiters : s.waiters with
  | nil => exact (wake_of_waiters h hwaiters).symm
  | cons promise waiters =>
    have hone : waiters = [] := by
      cases hreader : s.reader with
      | waiting other => exact (List.cons.inj (hwaiters.symm.trans (h.waits other hreader))).2
      | _ =>
        have hnone := h.goes (by rw [hreader]; exact nofun)
        rw [hwaiters] at hnone
        cases hnone
    rw [hone]
    exact notifyWaiter_eq h

theorem live_wake (h : Attended s) (hasked : (∃ promise, s.reader = .waiting promise) ∨ s.reader = .woken → 0 < s.asked) :
    Live s.wake := by
  rw [wake]
  split
  · next promise hreader =>
    refine ⟨⟨nofun, fun _ => rfl⟩, nofun, fun _ => hasked (.inl ⟨promise, hreader⟩)⟩
  all_goals
    next hreader =>
      refine ⟨h, fun promise hwait => ?_, hasked⟩
      rw [hreader] at hwait
      cases hwait

theorem Live.pushInput (h : Live s) (refs : SessionRefs) (input : List ClaudeInputItem) :
    Live (s.pushInput refs input) := by
  rw [PromptStream.pushInput]
  split
  · exact h
  · next message _ =>
    have hattended : Attended { s with queue := s.queue ++ [message] } := ⟨h.waits, h.goes⟩
    rw [notifyWaiter_eq hattended]
    exact live_wake hattended h.asked

theorem Live.close (h : Live s) : Live s.close := by
  rw [PromptStream.close]
  split
  · exact h
  · have hattended : Attended { s with closed := true } := ⟨h.waits, h.goes⟩
    rw [notifyTimes_eq hattended]
    exact live_wake hattended h.asked

theorem Live.goOn (h : Live s) (hruns : s.runnable = true) : Live s.goOn := by
  have hnone : s.waiters = [] := by
    apply h.goes
    intro promise hreader
    rw [runnable, hreader] at hruns
    cases hruns
  rw [PromptStream.goOn]
  split
  · exact ⟨⟨nofun, fun _ => hnone⟩, nofun, by rintro (⟨_, h⟩ | h) <;> cases h⟩
  · next hqueue =>
    split
    · exact ⟨⟨nofun, fun _ => hnone⟩, nofun, by rintro (⟨_, h⟩ | h) <;> cases h⟩
    · next hopen =>
      refine ⟨⟨fun promise hp => ?_, fun hp => absurd rfl (hp _)⟩, fun _ _ => ?_, fun _ => ?_⟩
      · cases hp
        rw [hnone]
        rfl
      · exact ⟨hqueue, Bool.eq_false_iff.mpr hopen⟩
      · cases hreader : s.reader with
        | woken => exact h.asked (.inr hreader)
        | suspended =>
          rw [runnable, hreader] at hruns
          exact of_decide_eq_true hruns
        | _ =>
          rw [runnable, hreader] at hruns
          cases hruns

theorem Live.step {l : Label} (h : Live s) (hs : PromptStream.step l s = some s') : Live s' := by
  cases l with
  | push refs input =>
    obtain rfl := Option.some.inj hs
    exact h.pushInput refs input
  | close =>
    obtain rfl := Option.some.inj hs
    exact h.close
  | next =>
    obtain rfl := Option.some.inj hs
    rw [PromptStream.next]
    split
    · exact h
    · exact ⟨⟨h.waits, h.goes⟩, h.quiet, fun _ => Nat.succ_pos _⟩
  | run =>
    simp only [PromptStream.step, Option.ite_none_right_eq_some, Option.some.injEq] at hs
    obtain ⟨hruns, rfl⟩ := hs
    exact h.goOn hruns

theorem live_empty : Live empty := ⟨⟨nofun, fun _ => rfl⟩, nofun, by rintro (⟨_, h⟩ | h) <;> cases h⟩

theorem live_createTurnPromptStream (refs : SessionRefs) (input : List ClaudeInputItem) :
    Live (createTurnPromptStream refs input) := live_empty.pushInput refs input

theorem Live.runnable (h : Live s) (hgoing : s.reader ≠ .ended) (hasked : 0 < s.asked)
    (hwork : s.queue ≠ [] ∨ s.closed = true) : s.runnable = true := by
  rw [PromptStream.runnable]
  cases hreader : s.reader with
  | suspended => exact decide_eq_true hasked
  | woken => rfl
  | ended => exact absurd hreader hgoing
  | waiting promise =>
    obtain ⟨hqueue, hopen⟩ := h.quiet promise hreader
    rcases hwork with hne | hclosed
    · exact absurd hqueue hne
    · rw [hopen] at hclosed
      cases hclosed

/-! ## Order -/

structure Adds (messages : List SdkUserMessage) (s s' : PromptStream) : Prop where
  queue : s'.queue = s.queue ++ messages
  received : s'.received = s.received
  ended : s'.reader = .ended ↔ s.reader = .ended

theorem adds_wake (s : PromptStream) : Adds [] s s.wake := by
  rw [wake]
  split
  · next promise hreader => exact ⟨(List.append_nil _).symm, rfl, by rw [hreader]; exact ⟨nofun, nofun⟩⟩
  all_goals exact ⟨(List.append_nil _).symm, rfl, Iff.rfl⟩

theorem messagesOf_singleton (refs : SessionRefs) (input : List ClaudeInputItem) :
    messagesOf [(refs, input)] = (buildSdkUserMessage refs input).toList := by
  rw [messagesOf, List.filterMap_cons]
  cases buildSdkUserMessage refs input <;> rfl

theorem adds_pushInput (h : Attended s) (refs : SessionRefs) (input : List ClaudeInputItem) :
    Adds (messagesOf [(refs, input)]) s (s.pushInput refs input) := by
  rw [messagesOf_singleton, pushInput]
  cases buildSdkUserMessage refs input with
  | none => exact ⟨(List.append_nil _).symm, rfl, Iff.rfl⟩
  | some message =>
    have hattended : Attended { s with queue := s.queue ++ [message] } := ⟨h.waits, h.goes⟩
    obtain ⟨hqueue, hreceived, hended⟩ := adds_wake { s with queue := s.queue ++ [message] }
    dsimp only
    rw [notifyWaiter_eq hattended]
    exact ⟨hqueue.trans (List.append_nil _), hreceived, hended⟩

theorem adds_close (h : Attended s) : Adds [] s s.close := by
  rw [close]
  split
  · exact ⟨(List.append_nil _).symm, rfl, Iff.rfl⟩
  · have hattended : Attended { s with closed := true } := ⟨h.waits, h.goes⟩
    obtain ⟨hqueue, hreceived, hended⟩ := adds_wake { s with closed := true }
    rw [notifyTimes_eq hattended]
    exact ⟨hqueue, hreceived, hended⟩

theorem adds_step {l : Label} (h : Attended s) (hl : l ≠ .run) (hs : step l s = some s') :
    Adds (messagesOf l.pushed?.toList) s s' := by
  cases l with
  | push refs input =>
    obtain rfl := Option.some.inj hs
    exact adds_pushInput h refs input
  | close =>
    obtain rfl := Option.some.inj hs
    exact adds_close h
  | next =>
    obtain rfl := Option.some.inj hs
    rw [next]
    split <;> exact ⟨(List.append_nil _).symm, rfl, Iff.rfl⟩
  | run => exact absurd rfl hl

theorem pushedIn_concat (refs : SessionRefs) (input : List ClaudeInputItem) (labels : List Label) (l : Label) :
    pushedIn refs input (labels ++ [l]) = pushedIn refs input labels ++ l.pushed?.toList := by
  have hone : [l].filterMap Label.pushed? = l.pushed?.toList := by cases l <;> rfl
  rw [pushedIn, List.filterMap_append, hone, pushedIn]
  rfl

theorem messagesOf_append (x y : List (SessionRefs × List ClaudeInputItem)) :
    messagesOf (x ++ y) = messagesOf x ++ messagesOf y := List.filterMap_append

/-- What the reader has received, and how it has ended. -/
theorem ordered_of_run {refs : SessionRefs} {input : List ClaudeInputItem} {labels : List Label}
    (hrun : runAll step labels (createTurnPromptStream refs input) = some s) : Live s ∧
      (s.reader ≠ .ended → s.received ++ s.queue = messagesOf (pushedIn refs input labels)) ∧
      (s.reader = .ended → ∃ before after u, labels = before ++ .run :: after ∧
        runAll step before (createTurnPromptStream refs input) = some u ∧ u.reader ≠ .ended ∧ u.closed = true ∧
        u.queue = [] ∧ s.received = messagesOf (pushedIn refs input before)) := by
  induction labels using List.reverseRecOn generalizing s with
  | nil =>
    obtain rfl := Option.some.inj hrun
    obtain ⟨hqueue, hreceived, hended⟩ := adds_pushInput live_empty.toAttended refs input
    refine ⟨live_createTurnPromptStream refs input, fun _ => ?_, fun hdone => ?_⟩
    · rw [createTurnPromptStream, hqueue, hreceived]
      rfl
    · cases hended.mp hdone
  | append_singleton labels l ih =>
    rw [runAll_append, Option.bind_eq_some_iff] at hrun
    obtain ⟨u, hu, hlast⟩ := hrun
    rw [runAll, Option.bind_eq_some_iff] at hlast
    obtain ⟨_, hstep, ⟨⟩⟩ := hlast
    obtain ⟨hlive, horder, hend⟩ := ih hu
    refine ⟨hlive.step hstep, ?_⟩
    rw [pushedIn_concat, messagesOf_append]
    by_cases hl : l = .run
    · subst hl
      simp only [step, Option.ite_none_right_eq_some, Option.some.injEq] at hstep
      obtain ⟨hruns, rfl⟩ := hstep
      have hgoing : u.reader ≠ .ended := by
        intro hended
        rw [PromptStream.runnable, hended] at hruns
        cases hruns
      have hsofar := horder hgoing
      rw [goOn]
      split
      · next message queue hqueue =>
        refine ⟨fun _ => ?_, fun h => by cases h⟩
        rw [hqueue] at hsofar
        rw [List.append_assoc]
        exact hsofar.trans (List.append_nil _).symm
      · next hqueue =>
        rw [hqueue, List.append_nil] at hsofar
        split
        · next hclosed =>
          exact ⟨fun hne => absurd rfl hne, fun _ => ⟨labels, [], u, rfl, hu, hgoing, hclosed, hqueue, hsofar⟩⟩
        · refine ⟨fun _ => ?_, fun h => by cases h⟩
          change u.received ++ u.queue = _ ++ []
          rw [hqueue, List.append_nil, List.append_nil, hsofar]
    · obtain ⟨hqueue, hreceived, hended⟩ := adds_step hlive.toAttended hl hstep
      refine ⟨fun hgoing => ?_, fun hdone => ?_⟩
      · rw [hqueue, hreceived, ← List.append_assoc, horder (mt hended.mpr hgoing)]
      · obtain ⟨before, after, v, hlabels, hv, hrest⟩ := hend (hended.mp hdone)
        refine ⟨before, after ++ [l], v, by rw [hlabels]; exact List.append_assoc _ _ _, hv, ?_⟩
        rw [hreceived]
        exact hrest

/-- The first call of `next` is answered when the initial input has a message. -/
theorem starts_of_message {refs : SessionRefs} {input : List ClaudeInputItem} {message : SdkUserMessage}
    (h : buildSdkUserMessage refs input = some message) :
    (runAll step [.next, .run] (createTurnPromptStream refs input)).map received = some [message] := by
  rw [createTurnPromptStream, pushInput, h]
  rfl

end PromptStream

open PromptStream in
/-- In a run the stream delivers what it should just when every input that is pushed has an image or a text that is not
blank. -/
theorem prompt_delivery_iff {refs : SessionRefs} {input : List ClaudeInputItem} {labels : List Label} {s : PromptStream}
    (hrun : runAll step labels (createTurnPromptStream refs input) = some s) :
    Delivered refs input labels s ↔ ∀ pushed ∈ pushedIn refs input labels, ∃ item ∈ pushed.2, GivesBlock item := by
  obtain ⟨hlive, horder, hend⟩ := ordered_of_run hrun
  constructor
  · intro h pushed hpushed
    exact (isSome_buildSdkUserMessage_iff pushed.1 pushed.2).mp (h.yields pushed hpushed)
  · intro h
    have hyields : ∀ pushed ∈ pushedIn refs input labels, (buildSdkUserMessage pushed.1 pushed.2).isSome = true :=
      fun pushed hpushed => (isSome_buildSdkUserMessage_iff _ _).mpr (h pushed hpushed)
    obtain ⟨message, hmessage⟩ := Option.isSome_iff_exists.mp (hyields (refs, input) List.mem_cons_self)
    exact ⟨horder, hend, hlive.runnable, hyields, message, starts_of_message hmessage⟩

open PromptStream in
/-- An input is read, another one is pushed while the reader waits, and the stream is closed before it is read. -/
theorem prompt_delivery_iff_steered :
    Delivered ⟨none, "session"⟩ [⟨"text", some "hello", none, none⟩]
      [.next, .run, .next, .run, .push ⟨some "sdk", "session"⟩ [⟨"image", none, none, none⟩], .close, .run, .next, .run]
      ⟨[], [], true, .ended, 0, 1, [⟨"session", [.text "hello"]⟩, ⟨"sdk", [.text "[Attached image: unknown]"]⟩]⟩ := by
  refine (prompt_delivery_iff (by decide +kernel)).mpr ?_
  intro pushed hpushed
  simp only [pushedIn, List.filterMap_cons, List.filterMap_nil, Label.pushed?, List.mem_cons, List.not_mem_nil,
    or_false] at hpushed
  rcases hpushed with rfl | rfl
  · exact ⟨_, List.mem_cons_self, .inr ⟨rfl, "hello", rfl, by decide +kernel⟩⟩
  · exact ⟨_, List.mem_cons_self, .inl rfl⟩

open PromptStream in
/-- A text of one blank is accepted, and the turn starts with a reader that waits. -/
theorem not_prompt_delivery : ¬ ∀ (raw : Json) (refs : SessionRefs) (input : List ClaudeInputItem),
    asInputItems (some raw) = .ok input → input ≠ [] → Delivered refs input [] (createTurnPromptStream refs input) := by
  intro h
  have hdelivered := h (.arr [.obj [("type", .str "text"), ("text", .str " ")]]) ⟨none, "session"⟩
    [⟨"text", some " ", none, none⟩] (by decide +kernel) (List.cons_ne_nil _ _)
  obtain ⟨message, hmessage⟩ := hdelivered.starts
  exact absurd hmessage (by
    have hnone : (runAll step [.next, .run]
        (createTurnPromptStream ⟨none, "session"⟩ [⟨"text", some " ", none, none⟩])).map received = some [] := by
      decide +kernel
    rw [hnone]
    exact nofun)

end Gooselake.Providers.BridgePrompts
