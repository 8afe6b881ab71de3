import Gooselake.Library.Stripping
import Gooselake.Providers.BridgeClient

/-!
The text of a turn of the Claude bridge: what the turn loop takes from the messages of the SDK, what of it is emitted
while the turn runs and what the completed turn reports. The loop is followed up to the completion of the turn; what it
does with tools, reasoning, usage and the ids of messages is left out.
-/

namespace Gooselake.Providers.AssistantText

open Data Library BridgeClient

set_option autoImplicit false

/-! ## Messages of the SDK -/

def getOptionalRecord : Option Json → Option Json
  | some (.obj fields) => some (.obj fields)
  | some (.arr items) => some (.arr items)
  | _ => none

def getOptionalString : Option Json → Option String
  | some (.str value) => if value = "" then none else some value
  | _ => none

/-- `value?.key`. -/
def member (key : String) (value : Option Json) : Option Json := value.bind (Json.get? key)

def messageType (message : Json) : Option String := getOptionalString (message.get? "type")

def isText (item : Json) : Bool := decide (getOptionalString (member "type" (getOptionalRecord item)) = some "text")

def extractAssistantDeltas (message : Json) : List String :=
  match member "content" (getOptionalRecord (member "message" (getOptionalRecord message))) with
  | some (.arr content) =>
    (content.filter isText).filterMap fun item => getOptionalString (member "text" (getOptionalRecord item))
  | _ => []

def deltaText (delta : Option Json) : Option String :=
  (getOptionalString (member "text" delta)).filter fun _ =>
    (getOptionalString (member "type" delta)).all fun type => type = "text_delta"

/-- The `delta` of `extractContentBlockDeltaPayload`. -/
def contentBlockDelta (event : Json) : Option Json :=
  if getOptionalString (event.get? "type") = some "content_block_delta" then getOptionalRecord (event.get? "delta")
  else
    (getOptionalRecord (event.get? "content_block_delta")).bind fun block =>
      (getOptionalRecord (block.get? "delta")).or (some block)

def extractStreamDelta (message : Json) : Option String :=
  (getOptionalRecord (member "event" (getOptionalRecord message))).bind fun event =>
    (deltaText (getOptionalRecord (event.get? "delta"))).or
      ((deltaText (contentBlockDelta event)).or
        (getOptionalString (member "text" (getOptionalRecord (event.get? "message_delta")))))

def extractSdkResultText (message : Json) : Option String :=
  getOptionalString (member "result" (getOptionalRecord message))

/-! ## The loop -/

/-- What the loop keeps of the text, with the payloads of the `message.delta` events it has emitted. -/
structure TurnText where
  emittedMessageDelta : Bool
  assistantTextFragments : List String
  deltas : List String

def TurnText.start : TurnText := ⟨false, [], []⟩

def TurnText.assistant (assistantText : List String) (t : TurnText) : TurnText where
  emittedMessageDelta := t.emittedMessageDelta || !assistantText.isEmpty
  assistantTextFragments := t.assistantTextFragments ++ assistantText
  deltas := if t.emittedMessageDelta then t.deltas else t.deltas ++ assistantText

def TurnText.streamEvent (streamDelta : Option String) (t : TurnText) : TurnText :=
  match streamDelta with
  | none => t
  | some delta => ⟨true, t.assistantTextFragments ++ [delta], t.deltas ++ [delta]⟩

def TurnText.result (resultText : Option String) (t : TurnText) : TurnText :=
  match resultText with
  | none => t
  | some text =>
    if t.emittedMessageDelta then t
    else { t with emittedMessageDelta := true, deltas := t.deltas ++ [text] }

/-- `text.trim() || undefined`. -/
def trimmed (text : String) : Option String :=
  let t := trimBy isJsWhitespace text
  if t = "" then none else some t

structure Reported where
  deltas : List String
  status : TurnTerminalStatus
  assistantText : Option String
  deriving DecidableEq

def resolveSdkResultStatus (message : Json) (interrupted : Bool) : TurnTerminalStatus :=
  if interrupted then .interrupted
  else if getOptionalString (message.get? "subtype") = some "success" then .completed else .failed

def completeWithResult (message : Json) (interrupted : Bool) (t : TurnText) : Reported where
  deltas := (t.result (extractSdkResultText message)).deltas
  status := resolveSdkResultStatus message interrupted
  assistantText :=
    ((extractSdkResultText message).bind trimmed).or (trimmed (String.join t.assistantTextFragments))

def completeWithoutResult (interrupted thrown : Bool) (t : TurnText) : Reported where
  deltas := t.deltas
  status := if interrupted then .interrupted else if thrown then .failed else .completed
  assistantText := trimmed (String.join t.assistantTextFragments)

/-- The messages of the query, after which it ends or throws. `interrupted` tells whether the turn was interrupted by
the time it is completed. -/
def runTurnWithSdk (interrupted thrown : Bool) : List Json → TurnText → Reported
  | [], t => completeWithoutResult interrupted thrown t
  | message :: messages, t =>
    match messageType message with
    | some "assistant" => runTurnWithSdk interrupted thrown messages (t.assistant (extractAssistantDeltas message))
    | some "stream_event" => runTurnWithSdk interrupted thrown messages (t.streamEvent (extractStreamDelta message))
    | some "result" => completeWithResult message interrupted t
    | _ => runTurnWithSdk interrupted thrown messages t

/-! ## What the assistant said -/

inductive Heard where
  | streamed (delta : String)
  | message (texts : List String)

def heardOf (message : Json) : Option Heard :=
  match messageType message with
  | some "assistant" =>
    if extractAssistantDeltas message = [] then none else some (.message (extractAssistantDeltas message))
  | some "stream_event" => (extractStreamDelta message).map .streamed
  | _ => none

def heard : List Json → List Heard
  | [] => []
  | message :: messages =>
    if messageType message = some "result" then [] else (heardOf message).toList ++ heard messages

def resultText : List Json → Option String
  | [] => none
  | message :: messages =>
    if messageType message = some "result" then extractSdkResultText message else resultText messages

inductive Said where
  | streamed
  /-- by the message that is heard first -/
  | first
  /-- by a message with text that was streamed before -/
  | again
  /-- by a later message, and not streamed -/
  | late
  deriving DecidableEq

/-- What follows the first place where `block` stands in the text. -/
def textAfter (block : List Char) : List Char → Option (List Char)
  | [] => none
  | c :: text => if block <+: c :: text then some ((c :: text).drop block.length) else textAfter block text

/-- The text blocks of a message, each looked for in the streamed text that no block before it has accounted for. -/
def saidBlocks (started : Bool) : List Char → List String → List (Said × String) × List Char
  | pending, [] => ([], pending)
  | pending, block :: blocks =>
    match textAfter block.toList pending with
    | some rest => ((.again, block) :: (saidBlocks started rest blocks).1, (saidBlocks started rest blocks).2)
    | none =>
      ((if started then .late else .first, block) :: (saidBlocks started pending blocks).1,
        (saidBlocks started pending blocks).2)

/-- `pending` is the streamed text that no block of a message has accounted for yet. -/
def said (started : Bool) (pending : List Char) : List Heard → List (Said × String)
  | [] => []
  | .streamed delta :: rest => (.streamed, delta) :: said true (pending ++ delta.toList) rest
  | .message texts :: rest =>
    (saidBlocks started pending texts).1 ++ said true (saidBlocks started pending texts).2 rest

/-- What was said in the turn. -/
def saidIn (messages : List Json) : List (Said × String) := said false [] (heard messages)

def textOf (items : List (Said × String)) : String := String.join (items.map Prod.snd)

/-- The text of the turn: what was streamed, and the blocks that were not. -/
def spoken (items : List (Said × String)) : String := textOf (items.filter fun item => item.1 ≠ .again)

def blocksOf : List Heard → List String
  | [] => []
  | .streamed _ :: rest => blocksOf rest
  | .message texts :: rest => texts ++ blocksOf rest

/-- The blocks stand in the text one after the other. -/
def InOrder : List String → List Char → Prop
  | [], _ => True
  | block :: blocks, text => ∃ before after, text = before ++ (block.toList ++ after) ∧ InOrder blocks after

/-- Every block is in the emitted text, in order, and that is the text of the turn and no more, or the text of the
result when nothing was said; the completed turn has the emitted text unless the result brought one of its own. -/
structure TextReported (messages : List Json) (r : Reported) : Prop where
  blocks : InOrder (blocksOf (heard messages)) (String.join r.deltas).toList
  deltas : String.join r.deltas =
    if spoken (saidIn messages) = "" then (resultText messages).getD "" else spoken (saidIn messages)
  assistantText : (resultText messages).bind trimmed = none → r.assistantText = trimmed (String.join r.deltas)

/-- Every block of a message after the first text heard was streamed. -/
def NothingLate (items : List (Said × String)) : Prop := ∀ item ∈ items, item.1 ≠ .late

def BlankText (s : String) : Prop := ∀ c ∈ s.toList, isJsWhitespace c = true

/-- A block that was streamed is blank, and so is all the text before it or all the text after it. -/
def NothingTwice (items : List (Said × String)) : Prop :=
  ∀ before text after, items = before ++ (.again, text) :: after →
    BlankText text ∧ (BlankText (textOf before) ∨ BlankText (textOf after))

/-! ## The loop and what it hears -/

def TurnText.hear (t : TurnText) : Heard → TurnText
  | .streamed delta => t.streamEvent (some delta)
  | .message texts => t.assistant texts

theorem assistant_nil (t : TurnText) : t.assistant [] = t := by
  cases t
  simp [TurnText.assistant]

theorem runTurnWithSdk_eq (interrupted thrown : Bool) (messages : List Json) (t : TurnText) :
    (runTurnWithSdk interrupted thrown messages t).deltas =
        (((heard messages).foldl TurnText.hear t).result (resultText messages)).deltas ∧
      (runTurnWithSdk interrupted thrown messages t).assistantText =
        ((resultText messages).bind trimmed).or
          (trimmed (String.join ((heard messages).foldl TurnText.hear t).assistantTextFragments)) := by
  induction messages generalizing t with
  | nil =>
    rw [runTurnWithSdk, completeWithoutResult, heard, resultText, Option.bind_none, Option.none_or, List.foldl_nil]
    exact ⟨rfl, rfl⟩
  | cons message messages ih =>
    rw [runTurnWithSdk]
    split
    · next hm =>
      have hnot : ¬messageType message = some "result" := by rw [hm]; decide
      rw [heard, resultText, if_neg hnot, if_neg hnot, List.foldl_append]
      have hhear : (heardOf message).toList.foldl TurnText.hear t = t.assistant (extractAssistantDeltas message) := by
        simp only [heardOf, hm]
        split
        · next hnil => rw [hnil, assistant_nil]; rfl
        · rfl
      rw [hhear]
      exact ih _
    · next hm =>
      have hnot : ¬messageType message = some "result" := by rw [hm]; decide
      rw [heard, resultText, if_neg hnot, if_neg hnot, List.foldl_append]
      have hhear : (heardOf message).toList.foldl TurnText.hear t = t.streamEvent (extractStreamDelta message) := by
        simp only [heardOf, hm]
        cases extractStreamDelta message <;> rfl
      rw [hhear]
      exact ih _
    · next hm =>
      rw [heard, resultText, if_pos hm, if_pos hm]
      exact ⟨rfl, rfl⟩
    · next hassistant hstream hresult =>
      rw [heard, resultText, if_neg hresult, if_neg hresult, List.foldl_append]
      have hhear : heardOf message = none := by simp [heardOf]
      rw [hhear]
      exact ih _

/-! ## No text is empty -/

def Heard.Proper : Heard → Prop
  | .streamed delta => delta ≠ ""
  | .message texts => texts ≠ [] ∧ ∀ text ∈ texts, text ≠ ""

theorem getOptionalString_ne {value : Option Json} {text : String} (h : getOptionalString value = some text) :
    text ≠ "" := by
  unfold getOptionalString at h
  split at h
  · split at h
    · cases h
    · next hne =>
      obtain rfl := Option.some.inj h
      exact hne
  · cases h

theorem deltaText_ne {delta : Option Json} {text : String} (h : deltaText delta = some text) : text ≠ "" :=
  getOptionalString_ne (Option.filter_eq_some_iff.mp h).1

theorem extractStreamDelta_ne {message : Json} {delta : String} (h : extractStreamDelta message = some delta) :
    delta ≠ "" := by
  obtain ⟨event, -, h⟩ := Option.bind_eq_some_iff.mp h
  rcases Option.or_eq_some_iff.mp h with h | ⟨-, h⟩
  · exact deltaText_ne h
  · rcases Option.or_eq_some_iff.mp h with h | ⟨-, h⟩
    · exact deltaText_ne h
    · exact getOptionalString_ne h

theorem extractAssistantDeltas_ne {message : Json} {text : String} (h : text ∈ extractAssistantDeltas message) :
    text ≠ "" := by
  unfold extractAssistantDeltas at h
  split at h
  · obtain ⟨item, -, hitem⟩ := List.mem_filterMap.mp h
    exact getOptionalString_ne hitem
  · cases h

theorem heard_proper {messages : List Json} {h : Heard} (hmem : h ∈ heard messages) : h.Proper := by
  induction messages with
  | nil => cases hmem
  | cons message messages ih =>
    rw [heard] at hmem
    split at hmem
    · cases hmem
    · rcases List.mem_append.mp hmem with hmem | hmem
      · have hsome := Option.mem_toList.mp hmem
        unfold heardOf at hsome
        split at hsome
        · split at hsome
          · cases hsome
          · next hne =>
            obtain rfl := Option.some.inj hsome
            exact ⟨hne, fun text => extractAssistantDeltas_ne⟩
        · obtain ⟨delta, hdelta, rfl⟩ := Option.map_eq_some_iff.mp hsome
          exact extractStreamDelta_ne hdelta
        · cases hsome
      · exact ih hmem

/-! ## Blocks and the streamed text -/

theorem textAfter_spec {block text rest : List Char} (h : textAfter block text = some rest) :
    ∃ before, text = before ++ (block ++ rest) := by
  induction text with
  | nil => cases h
  | cons c text ih =>
    rw [textAfter] at h
    split at h
    · next hprefix =>
      obtain rfl := Option.some.inj h
      refine ⟨[], ?_⟩
      rw [List.nil_append, List.prefix_iff_eq_append.mp hprefix]
    · obtain ⟨before, rfl⟩ := ih h
      exact ⟨c :: before, rfl⟩

theorem saidBlocks_texts (started : Bool) (pending : List Char) (blocks : List String) :
    (saidBlocks started pending blocks).1.map Prod.snd = blocks := by
  induction blocks generalizing pending with
  | nil => rfl
  | cons block blocks ih =>
    rw [saidBlocks]
    split <;> rw [List.map_cons, ih]

theorem saidBlocks_first (blocks : List String) :
    saidBlocks false [] blocks = (blocks.map fun block => (.first, block), []) := by
  induction blocks with
  | nil => rfl
  | cons block blocks ih => simp [saidBlocks, textAfter, ih]

theorem said_texts (started : Bool) (pending : List Char) {pieces : List Heard} (hproper : ∀ h ∈ pieces, h.Proper) :
    ∀ item ∈ said started pending pieces, item.2 ≠ "" := by
  induction pieces generalizing started pending with
  | nil => exact nofun
  | cons piece pieces ih =>
    have hrest := fun started pending => ih started pending fun h hmem => hproper h (List.mem_cons_of_mem _ hmem)
    have hpiece := hproper piece List.mem_cons_self
    cases piece with
    | streamed delta => exact List.forall_mem_cons.mpr ⟨hpiece, hrest _ _⟩
    | message texts =>
      refine List.forall_mem_append.mpr ⟨fun item hitem => hpiece.2 _ ?_, hrest _ _⟩
      have hmem : item.2 ∈ (saidBlocks started pending texts).1.map Prod.snd := List.mem_map_of_mem hitem
      rwa [saidBlocks_texts] at hmem

@[simp] theorem textOf_append (items items' : List (Said × String)) :
    textOf (items ++ items') = textOf items ++ textOf items' := by
  simp [textOf, String.join_append]

theorem spoken_append (items items' : List (Said × String)) : spoken (items ++ items') = spoken items ++ spoken items' := by
  simp [spoken]

theorem spoken_cons (kind : Said) (text : String) (items : List (Said × String)) :
    spoken ((kind, text) :: items) = (if kind = .again then "" else text) ++ spoken items := by
  unfold spoken textOf
  by_cases hk : kind = .again
  · rw [List.filter_cons_of_neg (by simp [hk]), if_pos hk, String.empty_append]
  · rw [List.filter_cons_of_pos (by simp [hk]), if_neg hk, List.map_cons, String.join_cons]

theorem inOrder_blocks {started : Bool} {more : List String} {tail : List Char} (blocks : List String)
    (pending : List Char) (hfirst : started = false → pending = [])
    (hlate : NothingLate (saidBlocks started pending blocks).1)
    (hmore : InOrder more ((saidBlocks started pending blocks).2 ++ tail)) :
    InOrder (blocks ++ more) (pending ++ ((spoken (saidBlocks started pending blocks).1).toList ++ tail)) := by
  induction blocks generalizing pending with
  | nil => exact hmore
  | cons block blocks ih =>
    rw [saidBlocks] at hlate hmore ⊢
    cases hafter : textAfter block.toList pending with
    | some rest =>
      rw [hafter] at hlate hmore
      obtain ⟨before, hpending⟩ := textAfter_spec hafter
      refine ⟨before, _, ?_, ih rest (fun hnot => ?_) (fun item hitem => hlate item (List.mem_cons_of_mem _ hitem)) hmore⟩
      · dsimp only
        rw [spoken_cons, if_pos rfl, String.empty_append, hpending, List.append_assoc, List.append_assoc]
      · rw [hfirst hnot] at hafter
        cases hafter
    | none =>
      rw [hafter] at hlate hmore
      cases started with
      | true => exact absurd rfl (hlate _ List.mem_cons_self)
      | false =>
        obtain rfl := hfirst rfl
        refine ⟨[], _, ?_, ih [] (fun _ => rfl) (fun item hitem => hlate item (List.mem_cons_of_mem _ hitem)) hmore⟩
        dsimp only
        rw [spoken_cons, if_neg (by decide), String.toList_append, List.nil_append, List.nil_append, List.append_assoc,
          List.nil_append]

/-- The blocks stand in order in the text of a turn in which nothing is late. -/
theorem inOrder_spoken (pieces : List Heard) (started : Bool) (pending : List Char)
    (hfirst : started = false → pending = []) (hlate : NothingLate (said started pending pieces)) :
    InOrder (blocksOf pieces) (pending ++ (spoken (said started pending pieces)).toList) := by
  induction pieces generalizing started pending with
  | nil => trivial
  | cons piece pieces ih =>
    cases piece with
    | streamed delta =>
      have h := ih true (pending ++ delta.toList) nofun fun item hitem => hlate item (List.mem_cons_of_mem _ hitem)
      rw [said, spoken_cons, if_neg (by decide), String.toList_append, ← List.append_assoc]
      exact h
    | message texts =>
      rw [said, spoken_append, String.toList_append]
      refine inOrder_blocks texts pending hfirst (fun item hitem => hlate item (List.mem_append_left _ hitem)) ?_
      exact ih true _ nofun fun item hitem => hlate item (List.mem_append_right _ hitem)

/-! ## What the loop makes of it -/

def emittedText (items : List (Said × String)) : String :=
  textOf (items.filter fun item => item.1 = .streamed ∨ item.1 = .first)

theorem emittedText_append (items items' : List (Said × String)) :
    emittedText (items ++ items') = emittedText items ++ emittedText items' := by
  simp [emittedText]

theorem emittedText_cons (kind : Said) (text : String) (items : List (Said × String)) :
    emittedText ((kind, text) :: items) = (if kind = .streamed ∨ kind = .first then text else "") ++ emittedText items := by
  unfold emittedText textOf
  by_cases hk : kind = .streamed ∨ kind = .first
  · rw [List.filter_cons_of_pos (by simp [hk]), if_pos hk, List.map_cons, String.join_cons]
  · rw [List.filter_cons_of_neg (by simp [hk]), if_neg hk, String.empty_append]

theorem emittedText_started (pending : List Char) (blocks : List String) :
    emittedText (saidBlocks true pending blocks).1 = "" := by
  induction blocks generalizing pending with
  | nil => rfl
  | cons block blocks ih =>
    rw [saidBlocks]
    split <;> dsimp only <;> rw [emittedText_cons, ih] <;> rfl

theorem emittedText_first (blocks : List String) : emittedText (saidBlocks false [] blocks).1 = String.join blocks := by
  rw [saidBlocks_first]
  simp [emittedText, textOf, Function.comp_def, List.filter_map]

theorem hears {pieces : List Heard} (hproper : ∀ h ∈ pieces, h.Proper) (pending : List Char) (t : TurnText)
    (hfirst : t.emittedMessageDelta = false → pending = []) :
    String.join (pieces.foldl TurnText.hear t).deltas =
        String.join t.deltas ++ emittedText (said t.emittedMessageDelta pending pieces) ∧
      String.join (pieces.foldl TurnText.hear t).assistantTextFragments =
        String.join t.assistantTextFragments ++ textOf (said t.emittedMessageDelta pending pieces) ∧
      (pieces.foldl TurnText.hear t).emittedMessageDelta = (t.emittedMessageDelta || !pieces.isEmpty) := by
  induction pieces generalizing pending t with
  | nil => simp [said, emittedText, textOf, String.join_nil]
  | cons piece pieces ih =>
    have hrest := ih fun h hmem => hproper h (List.mem_cons_of_mem _ hmem)
    rw [List.foldl_cons]
    cases piece with
    | streamed delta =>
      obtain ⟨hdeltas, hfragments, hemitted⟩ := hrest (pending ++ delta.toList) (t.streamEvent (some delta)) nofun
      refine ⟨hdeltas.trans ?_, hfragments.trans ?_, hemitted.trans ?_⟩
      · rw [said, emittedText_cons]
        simp [TurnText.streamEvent, String.join_append, String.join_cons, String.join_nil, String.append_assoc]
      · simp [TurnText.streamEvent, said, textOf, String.join_append, String.join_cons, String.join_nil,
          String.append_assoc]
      · simp [TurnText.streamEvent]
    | message texts =>
      have htexts : texts ≠ [] := (hproper _ List.mem_cons_self).1
      have hflag : (t.assistant texts).emittedMessageDelta = true := by simp [TurnText.assistant, htexts]
      obtain ⟨hdeltas, hfragments, hemitted⟩ := hrest (saidBlocks t.emittedMessageDelta pending texts).2
        (t.assistant texts) fun hnot => by rw [hflag] at hnot; cases hnot
      rw [hflag] at hdeltas hfragments hemitted
      refine ⟨hdeltas.trans ?_, hfragments.trans ?_, hemitted.trans ?_⟩
      · rw [said, emittedText_append, ← String.append_assoc]
        congr 1
        cases hold : t.emittedMessageDelta with
        | true => simp [TurnText.assistant, hold, emittedText_started]
        | false =>
          rw [hfirst hold, emittedText_first]
          simp [TurnText.assistant, hold, String.join_append]
      · have hblocks : textOf (saidBlocks t.emittedMessageDelta pending texts).1 = String.join texts := by
          rw [textOf, saidBlocks_texts]
        rw [said, textOf_append, hblocks, ← String.append_assoc]
        simp [TurnText.assistant, String.join_append]
      · simp

/-! ## What is emitted of what was said -/

theorem length_emittedText_le (items : List (Said × String)) : (emittedText items).length ≤ (spoken items).length := by
  induction items with
  | nil => exact Nat.le_refl _
  | cons item items ih =>
    obtain ⟨kind, text⟩ := item
    rw [spoken_cons, emittedText_cons]
    cases kind <;> simp <;> omega

theorem emittedText_iff {items : List (Said × String)} (hne : ∀ item ∈ items, item.2 ≠ "") :
    emittedText items = spoken items ↔ NothingLate items := by
  induction items with
  | nil => exact ⟨fun _ => nofun, fun _ => rfl⟩
  | cons item items ih =>
    have hrest := ih fun item hmem => hne item (List.mem_cons_of_mem _ hmem)
    obtain ⟨kind, text⟩ := item
    rw [NothingLate, List.forall_mem_cons]
    change _ ↔ _ ∧ NothingLate items
    rw [← hrest, spoken_cons, emittedText_cons]
    cases kind with
    | streamed | first => simp
    | again => simp
    | late =>
      constructor
      · intro h
        have hlength := congrArg String.length h
        have hle := length_emittedText_le items
        have hpos : text.length ≠ 0 := fun h => hne (.late, text) List.mem_cons_self (String.length_eq_zero_iff.mp h)
        simp only [reduceCtorEq, or_self, if_false, String.empty_append, String.length_append] at hlength
        omega
      · rintro ⟨hnot, -⟩
        exact absurd rfl hnot

theorem spoken_ne {pieces : List Heard} (hproper : ∀ h ∈ pieces, h.Proper) (hsome : pieces ≠ []) :
    spoken (said false [] pieces) ≠ "" := by
  obtain ⟨piece, rest, rfl⟩ := List.exists_cons_of_ne_nil hsome
  have hpiece := hproper piece List.mem_cons_self
  cases piece with
  | streamed delta =>
    have hdelta : delta ≠ "" := hpiece
    rw [said, spoken_cons, if_neg (by decide)]
    simp [hdelta]
  | message texts =>
    obtain ⟨text, texts, rfl⟩ := List.exists_cons_of_ne_nil hpiece.1
    have htext : text ≠ "" := hpiece.2 text List.mem_cons_self
    rw [said, saidBlocks_first, List.map_cons, List.cons_append, spoken_cons, if_neg (by decide)]
    simp [htext]

/-! ## What is reported -/

def pieces (items : List (Said × String)) : List (List Char × Bool) :=
  items.map fun item => (item.2.toList, decide (item.1 = .again))

theorem toList_textOf (items : List (Said × String)) : (textOf items).toList = whole (pieces items) := by
  rw [textOf, String.toList_join, whole, pieces, List.flatMap_map, List.flatMap_map]

theorem toList_spoken (items : List (Said × String)) : (spoken items).toList = kept (pieces items) := by
  induction items with
  | nil => rfl
  | cons item items ih =>
    obtain ⟨kind, text⟩ := item
    rw [spoken_cons, String.toList_append, ih]
    by_cases hk : kind = .again <;> simp [pieces, kept, hk]

theorem trimmed_inj {x y : String} :
    trimmed x = trimmed y ↔ strip isJsWhitespace x.toList = strip isJsWhitespace y.toList := by
  have htrim : trimmed x = trimmed y ↔ trimBy isJsWhitespace x = trimBy isJsWhitespace y := by
    simp only [trimmed]
    split <;> split <;> simp_all
  rw [htrim, ← String.toList_inj, toList_trimBy, toList_trimBy, strip, strip]

theorem nothingTwice_iff {items : List (Said × String)} (hne : ∀ item ∈ items, item.2 ≠ "") :
    NothingTwice items ↔ Outside isJsWhitespace (pieces items) := by
  constructor
  · intro h before piece after he _
    obtain ⟨before', rest, rfl, rfl, hrest⟩ := List.map_eq_append_iff.mp he
    obtain ⟨item, after', rfl, hitem, rfl⟩ := List.map_eq_cons_iff.mp hrest
    obtain ⟨kind, text⟩ := item
    obtain ⟨rfl, hkind⟩ := Prod.mk.inj hitem
    obtain rfl : kind = .again := of_decide_eq_true hkind
    obtain ⟨htext, hends⟩ := h before' text after' rfl
    refine ⟨htext, ?_⟩
    rw [BlankText, BlankText, toList_textOf, toList_textOf] at hends
    exact hends
  · rintro h before text after rfl
    have htext : text ≠ "" := hne (.again, text) (List.mem_append_right _ List.mem_cons_self)
    have hpieces : pieces (before ++ (.again, text) :: after) =
        pieces before ++ (text.toList, true) :: pieces after := by
      simp [pieces]
    obtain ⟨hblank, hends⟩ := h _ _ _ hpieces fun hnil => htext (String.toList_eq_nil_iff.mp hnil)
    refine ⟨hblank, ?_⟩
    rw [BlankText, BlankText, toList_textOf, toList_textOf]
    exact hends

/-- The text of a turn is reported exactly once just when every block after the first text heard was streamed, and,
unless the result has a text, nothing but blanks at the ends is said again. -/
theorem text_reported_iff (interrupted thrown : Bool) (messages : List Json) :
    TextReported messages (runTurnWithSdk interrupted thrown messages .start) ↔
      NothingLate (saidIn messages) ∧ ((resultText messages).bind trimmed = none → NothingTwice (saidIn messages)) := by
  have hproper : ∀ h ∈ heard messages, h.Proper := fun h => heard_proper
  have hne : ∀ item ∈ saidIn messages, item.2 ≠ "" := said_texts false [] hproper
  obtain ⟨hdeltas, htext⟩ := runTurnWithSdk_eq interrupted thrown messages .start
  obtain ⟨hemits, hfragments, hemitted⟩ := hears hproper [] .start fun _ => rfl
  have hstart : String.join TurnText.start.deltas = "" := rfl
  have hnone : String.join TurnText.start.assistantTextFragments = "" := rfl
  rw [hstart, String.empty_append] at hemits
  rw [hnone, String.empty_append] at hfragments
  by_cases hsilent : heard messages = []
  · -- nothing was said, so the result's text is emitted
    have hjoin : String.join (TurnText.start.result (resultText messages)).deltas = (resultText messages).getD "" := by
      cases resultText messages <;> simp [TurnText.result, TurnText.start, String.join_cons, String.join_nil]
    have hsaid : saidIn messages = [] := by rw [saidIn, hsilent, said]
    rw [hsilent, List.foldl_nil] at hdeltas htext
    rw [hsaid]
    refine ⟨fun _ => ⟨nofun, fun _ => ?_⟩, fun _ => ⟨?_, ?_, ?_⟩⟩
    · intro before text after he
      exact absurd he (by simp)
    · rw [hsilent]
      trivial
    · rw [hdeltas, hsaid, hjoin, if_pos]
      rfl
    · intro hresult
      rw [htext, hdeltas, hresult, hjoin]
      cases hr : resultText messages with
      | none => rfl
      | some text =>
        rw [hr, Option.bind_some] at hresult
        rw [Option.getD_some, hresult]
        decide
  · have hflag : ((heard messages).foldl TurnText.hear .start).emittedMessageDelta = true := by
      rw [hemitted]
      simp [hsilent]
    have hresult : ((heard messages).foldl TurnText.hear .start).result (resultText messages) =
        (heard messages).foldl TurnText.hear .start := by
      unfold TurnText.result
      split
      · rfl
      · rw [if_pos hflag]
    have hspoken : spoken (saidIn messages) ≠ "" := spoken_ne hproper hsilent
    rw [hresult] at hdeltas
    have htwice := (nothingTwice_iff hne).trans (strip_whole_eq_iff _).symm
    rw [← toList_textOf, ← toList_spoken, ← trimmed_inj] at htwice
    rw [← emittedText_iff hne, htwice]
    constructor
    · intro h
      have hall := h.deltas
      rw [if_neg hspoken, hdeltas] at hall
      refine ⟨hemits.symm.trans hall, fun hno => ?_⟩
      have hreport := h.assistantText hno
      rwa [htext, hno, Option.none_or, hdeltas, hall, hfragments] at hreport
    · rintro ⟨hall, hagain⟩
      have hemits : String.join ((heard messages).foldl TurnText.hear .start).deltas = spoken (saidIn messages) :=
        hemits.trans hall
      refine ⟨?_, ?_, fun hno => ?_⟩
      · rw [hdeltas, hemits]
        exact inOrder_spoken _ false [] (fun _ => rfl) ((emittedText_iff hne).mp hall)
      · rw [if_neg hspoken, hdeltas, hemits]
      · rw [htext, hno, Option.none_or, hdeltas, hemits, hfragments]
        exact hagain hno

/-! ## A turn that is interrupted after its first message -/

def streamedHello : Json :=
  .obj [("type", .str "stream_event"),
    ("event", .obj [("type", .str "content_block_delta"), ("index", .int 0),
      ("delta", .obj [("type", .str "text_delta"), ("text", .str "Hello")])])]

def assistantHello : Json :=
  .obj [("type", .str "assistant"),
    ("message", .obj [("role", .str "assistant"),
      ("content", .arr [.obj [("type", .str "text"), ("text", .str "Hello")]])])]

/-- The text is reported twice over. -/
theorem not_text_reported : ¬∀ (interrupted thrown : Bool) (messages : List Json),
    TextReported messages (runTurnWithSdk interrupted thrown messages .start) := by
  intro h
  have hrun : runTurnWithSdk true false [streamedHello, assistantHello] .start =
      ⟨["Hello"], .interrupted, some "HelloHello"⟩ := by decide +kernel
  have htext := (h true false [streamedHello, assistantHello]).assistantText (by decide +kernel)
  rw [hrun] at htext
  exact absurd htext (by decide +kernel)

end Gooselake.Providers.AssistantText
