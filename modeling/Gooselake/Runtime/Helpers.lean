import Gooselake.Core.Records
import Gooselake.Data.Text

/-! The pure helpers of the session manager: terminal statuses and the session transcript. -/

namespace Gooselake.Runtime

open Gooselake.Core Data

set_option autoImplicit false

def isTerminalTurnStatus : TurnStatus → Bool
  | .completed | .interrupted | .failed => true
  | .inProgress | .waitingForApproval => false

/-- The text one input item contributes: its `text` field, else the item itself. -/
def userTextLine (item : Json) : Option String :=
  match ((item.get? "text").bind Json.asStr).bind trimmedNonEmpty with
  | some text => some text
  | none => item.asStr.bind trimmedNonEmpty

def extractTurnUserText (input : Option (List Json)) : Option String :=
  match input with
  | none => none
  | some items =>
    let lines := items.filterMap userTextLine
    if lines = [] then none else some (String.intercalate "\n\n" lines)

def extractAssistantTextFromUsage (usage : Json) : Option String :=
  ((usage.get? "last_message").or ((usage.get? "lastMessage").or
    ((usage.get? "assistant_text").or (usage.get? "assistantText")))).bind fun v =>
      v.asStr.bind trimmedNonEmpty

def metadataFields : Json → List (String × Json)
  | .obj fields => fields
  | _ => []

/-- The legacy key `codex_transcript` moves to `session_transcript` when the latter is missing. -/
def migrateTranscript (fields : List (String × Json)) : List (String × Json) :=
  match Json.fieldOf "session_transcript" fields with
  | some _ => fields
  | none =>
    match Json.fieldOf "codex_transcript" fields with
    | some existing =>
      Json.setField "session_transcript" existing (Json.withoutField "codex_transcript" fields)
    | none => fields

/-- The last `n` rows. -/
def keepLast (n : ℕ) (rows : List Json) : List Json := rows.drop (rows.length - n)

def appendSessionTranscript (metadata : Json) (role text : String) : Json :=
  let fields := migrateTranscript (metadataFields metadata)
  let rows := ((Json.fieldOf "session_transcript" fields).bind Json.asArray).getD []
  let rows := rows ++ [.obj [("role", .str role), ("text", .str text)]]
  .obj (Json.setField "session_transcript" (.arr (keepLast 80 rows)) fields)

end Gooselake.Runtime
