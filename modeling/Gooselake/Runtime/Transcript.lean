import Gooselake.Library.Windows
import Gooselake.Runtime.Turns

/-!
The transcript of a session. It is the last 80 of the entries that its finished turns have appended to the transcript that
the session's metadata brought along, under its own key or, if that is absent, under the legacy one.
-/

namespace Gooselake.Runtime

open Gooselake.Core Data Library

set_option autoImplicit false

/-! ## Fields -/

section

variable {key other : String} {value : Json} {fields : List (String × Json)}

theorem fieldOf_setField (key other : String) (value : Json) (fields : List (String × Json)) :
    Json.fieldOf other (Json.setField key value fields) = if other = key then some value else Json.fieldOf other fields := by
  by_cases h : other = key
  · rw [h, Json.fieldOf_setField_self, if_pos rfl]
  · rw [if_neg h]
    induction fields with
    | nil => simp [Json.setField, Json.fieldOf, Ne.symm h]
    | cons f fields ih =>
      obtain ⟨k, v⟩ := f
      by_cases hk : k = key
      · simp [Json.setField, Json.fieldOf, hk, Ne.symm h]
      · simp [Json.setField, Json.fieldOf, hk, ih]

theorem fieldOf_withoutField (key other : String) (fields : List (String × Json)) :
    Json.fieldOf other (Json.withoutField key fields) = if other = key then none else Json.fieldOf other fields := by
  induction fields with
  | nil => simp [Json.withoutField, Json.fieldOf]
  | cons f fields ih =>
    obtain ⟨k, v⟩ := f
    rw [Json.withoutField] at ih ⊢
    by_cases hk : k = key
    · rw [List.filter_cons_of_neg (by simp [hk]), ih]
      by_cases h : other = key
      · rw [if_pos h, if_pos h]
      · rw [if_neg h, if_neg h, Json.fieldOf, if_neg (hk ▸ Ne.symm h)]
    · rw [List.filter_cons_of_pos (by simp [hk]), Json.fieldOf, Json.fieldOf, ih]
      by_cases hkey : k = other
      · rw [if_pos hkey, if_pos hkey, if_neg (hkey ▸ hk)]
      · rw [if_neg hkey, if_neg hkey]

end

/-! ## One entry -/

def transcriptRow (role text : String) : Json := .obj [("role", .str role), ("text", .str text)]

/-- The transcript that the metadata holds: an array under the current key, which goes before the legacy one. -/
def transcriptOf (metadata : Json) : List Json :=
  (((metadata.get? "session_transcript").or (metadata.get? "codex_transcript")).bind Json.asArray).getD []

theorem fieldOf_metadataFields (metadata : Json) (key : String) :
    Json.fieldOf key (metadataFields metadata) = metadata.get? key := by
  cases metadata <;> rfl

theorem fieldOf_migrateTranscript (fields : List (String × Json)) (key : String) :
    Json.fieldOf key (migrateTranscript fields) =
      if key = "session_transcript" then
        (Json.fieldOf "session_transcript" fields).or (Json.fieldOf "codex_transcript" fields)
      else if key = "codex_transcript" ∧ Json.fieldOf "session_transcript" fields = none then none
      else Json.fieldOf key fields := by
  rw [migrateTranscript]
  cases hcurrent : Json.fieldOf "session_transcript" fields with
  | some current =>
    by_cases hkey : key = "session_transcript"
    · rw [if_pos hkey, hkey]
      exact hcurrent
    · rw [if_neg hkey, if_neg (fun h => nomatch h.2)]
  | none =>
    cases hlegacy : Json.fieldOf "codex_transcript" fields with
    | some legacy =>
      dsimp only
      rw [fieldOf_setField, fieldOf_withoutField]
      by_cases hkey : key = "session_transcript"
      · rw [if_pos hkey, if_pos hkey]
        rfl
      · rw [if_neg hkey, if_neg hkey]
        simp only [and_true]
    | none =>
      dsimp only
      by_cases hkey : key = "session_transcript"
      · rw [if_pos hkey, hkey, hcurrent]
        rfl
      · rw [if_neg hkey]
        by_cases hold : key = "codex_transcript"
        · rw [if_pos ⟨hold, rfl⟩, hold, hlegacy]
        · rw [if_neg fun h => hold h.1]

theorem get?_appendSessionTranscript (metadata : Json) (role text key : String) :
    (appendSessionTranscript metadata role text).get? key =
      if key = "session_transcript" then
        some (.arr (keepLast 80 (transcriptOf metadata ++ [transcriptRow role text])))
      else if key = "codex_transcript" ∧ metadata.get? "session_transcript" = none then none
      else metadata.get? key := by
  have hrows := fieldOf_migrateTranscript (metadataFields metadata) "session_transcript"
  rw [if_pos rfl, fieldOf_metadataFields, fieldOf_metadataFields] at hrows
  rw [appendSessionTranscript, Json.get?, fieldOf_setField, hrows]
  by_cases hkey : key = "session_transcript"
  · rw [if_pos hkey, if_pos hkey]
    rfl
  · rw [if_neg hkey, if_neg hkey, fieldOf_migrateTranscript, if_neg hkey, fieldOf_metadataFields, fieldOf_metadataFields]

/-! ## Any number of entries -/

def appendAll (metadata : Json) (entries : List (String × String)) : Json :=
  entries.foldl (fun metadata entry => appendSessionTranscript metadata entry.1 entry.2) metadata

theorem keepLast_keepLast_append (n : ℕ) (rows new : List Json) :
    keepLast n (keepLast n rows ++ new) = keepLast n (rows ++ new) := by
  have hone : ∀ _ : Json, 0 < 1 := fun _ => Nat.one_pos
  have hshown := ((shows_drop n rows).append_iff hone new).mp (shows_drop n (keepLast n rows ++ new))
  exact hshown.unique hone (shows_drop n (rows ++ new))

theorem transcriptOf_appendSessionTranscript (metadata : Json) (role text : String) :
    transcriptOf (appendSessionTranscript metadata role text) =
      keepLast 80 (transcriptOf metadata ++ [transcriptRow role text]) := by
  rw [transcriptOf, get?_appendSessionTranscript, if_pos rfl]
  rfl

/-- The entries that `apply_terminal_result` appends for a turn. -/
def turnEntries (result : ProviderTurnResult) (turn : TurnRecord) : List (String × String) :=
  if result.status = .completed ∨ result.status = .interrupted then
    ((extractTurnUserText turn.input.asArray).map (Prod.mk "user")).toList ++
      ((result.usage.bind extractAssistantTextFromUsage).map (Prod.mk "assistant")).toList
  else []

theorem transcribe_foldl (turns : List (ProviderTurnResult × TurnRecord)) (metadata : Json) :
    turns.foldl (fun metadata turn => transcribe turn.1 turn.2 metadata) metadata =
      appendAll metadata (turns.flatMap fun turn => turnEntries turn.1 turn.2) := by
  have hone : ∀ result turn metadata, transcribe result turn metadata = appendAll metadata (turnEntries result turn) := by
    intro result turn metadata
    rw [transcribe, turnEntries]
    split
    · cases extractTurnUserText turn.input.asArray <;> cases result.usage.bind extractAssistantTextFromUsage <;> rfl
    · rfl
  induction turns generalizing metadata with
  | nil => rfl
  | cons turn turns ih =>
    rw [List.foldl_cons, ih, hone, List.flatMap_cons, appendAll, appendAll, appendAll, ← List.foldl_append]

/-- After any number of calls the transcript is a window over all entries, and every other key is as it was, but for a
legacy key that was moved. -/
theorem transcript_window (metadata : Json) (entry : String × String) (entries : List (String × String)) (key : String) :
    (appendAll metadata (entry :: entries)).get? key =
      if key = "session_transcript" then
        some (.arr (keepLast 80 (transcriptOf metadata ++
          (entry :: entries).map fun entry => transcriptRow entry.1 entry.2)))
      else if key = "codex_transcript" ∧ metadata.get? "session_transcript" = none then none
      else metadata.get? key := by
  induction entries generalizing metadata entry with
  | nil => exact get?_appendSessionTranscript metadata entry.1 entry.2 key
  | cons next entries ih =>
    have hpresent : (appendSessionTranscript metadata entry.1 entry.2).get? "session_transcript" ≠ none := by
      rw [get?_appendSessionTranscript, if_pos rfl]
      exact nofun
    have hrest := ih (appendSessionTranscript metadata entry.1 entry.2) next
    rw [transcriptOf_appendSessionTranscript, keepLast_keepLast_append, List.append_assoc,
      if_neg (c := key = "codex_transcript" ∧ _) (fun h => hpresent h.2)] at hrest
    change (appendAll (appendSessionTranscript metadata entry.1 entry.2) (next :: entries)).get? key = _
    rw [hrest, get?_appendSessionTranscript]
    by_cases hkey : key = "session_transcript"
    · rw [if_pos hkey, if_pos hkey]
      rfl
    · rw [if_neg hkey, if_neg hkey, if_neg hkey]

/-- An array under the legacy key is not found when there is something else under the current one. -/
theorem not_transcript_window : ¬ ∀ (metadata : Json) (rows : List Json) (role text : String),
    metadata.get? "codex_transcript" = some (.arr rows) → (∀ items, metadata.get? "session_transcript" ≠ some (.arr items)) →
      (appendSessionTranscript metadata role text).get? "session_transcript" =
        some (.arr (keepLast 80 (rows ++ [transcriptRow role text]))) := by
  intro h
  have hlost := h (.obj [("session_transcript", .null), ("codex_transcript", .arr [transcriptRow "user" "old"])])
    [transcriptRow "user" "old"] "assistant" "new" rfl nofun
  exact absurd hlost (by decide +kernel)

end Gooselake.Runtime
