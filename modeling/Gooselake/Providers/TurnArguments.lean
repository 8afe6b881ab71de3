import Gooselake.Library.CommandLine
import Gooselake.Providers.CodexLaunches

/-!
How `codex` reads the arguments of a turn. The prompt and the reference that is resumed are appended as they are, without a
`--` before them, so a text that starts with `-` is read as an option.
-/

namespace Gooselake.Providers.Codex

open Gooselake.Data Library

set_option autoImplicit false

/-- The options of `codex exec` that take a value; whether that may start with `-` is left open. -/
def argConvention (hyphenValues : Bool) : ArgConvention := ⟨fun name => name = "-o" || name = "-m", hyphenValues⟩

/-- The options and positional arguments that the command line of a turn is meant to have. -/
def meantReading (lastMessagePath : String) (resumes model permissionMode : Option String) (prompt : String) :
    ArgReading where
  options := [("--json", none), ("--skip-git-repo-check", none), ("-o", some lastMessagePath)] ++
    model.toList.map (fun model => ("-m", some model)) ++
    (permissionFlag permissionMode).toList.map fun flag => (flag, none)
  positionals := ["exec"] ++ (resumes.toList.map fun _ => "resume") ++ resumes.toList ++ [prompt]

def isNegative : Json → Bool
  | .int n => n < 0
  | .float bits => bits >>> 63 = 1
  | .null | .bool _ | .str _ | .arr _ | .obj _ => false

/-- What is assumed of how a JSON value is printed: a minus stands in front of the negative numbers only. -/
def PrintsJson (print : Json → String) : Prop := ∀ value, isOption (print value) = isNegative value

/-- The first item of the input starts with `-`: its text, or itself if it is a text or a number. -/
def opensWithDash : List Json → Bool
  | [] => false
  | item :: _ =>
    match ((item.get? "text").bind Json.asStr).bind trimmedNonEmpty with
    | some text => isOption text
    | none =>
      match (item.get? "type").bind Json.asStr, item.asStr.bind trimmedNonEmpty with
      | some _, _ => false
      | none, some raw => isOption raw
      | none, none => isNegative item

/-! ## The prompt -/

theorem isOption_append {s : String} (h : s ≠ "") (t : String) : isOption (s ++ t) = isOption s := by
  rw [isOption, isOption, String.toList_append]
  cases hs : s.toList with
  | nil => exact absurd (String.toList_inj.mp hs) h
  | cons c cs => rfl

theorem isOption_intercalate (line : String) (lines : List String) :
    isOption ("\n\n".intercalate (line :: lines)) = isOption line := by
  cases lines with
  | nil => rw [String.intercalate_singleton]
  | cons next lines =>
    rw [String.intercalate_cons_cons, String.append_assoc]
    by_cases h : line = ""
    · rw [h, String.empty_append, isOption_append (by decide)]
      decide
    · exact isOption_append h _

theorem isOption_promptLine {print : Json → String} (hprint : PrintsJson print) (item : Json) (items : List Json) :
    isOption (promptLine print item) = opensWithDash (item :: items) := by
  rw [promptLine, opensWithDash]
  cases ((item.get? "text").bind Json.asStr).bind trimmedNonEmpty with
  | some text => rfl
  | none =>
    cases (item.get? "type").bind Json.asStr with
    | some kind =>
      dsimp only [toString]
      rw [String.append_assoc, String.append_assoc, isOption_append (by decide)]
      decide
    | none =>
      cases item.asStr.bind trimmedNonEmpty with
      | some raw => rfl
      | none => exact hprint item

theorem isOption_buildTurnPrompt {print : Json → String} (hprint : PrintsJson print) (input : List Json) :
    isOption (buildTurnPrompt print input) = opensWithDash input := by
  rw [buildTurnPrompt]
  cases input with
  | nil =>
    change isOption "Continue with the latest task context." = false
    decide
  | cons item items => exact (isOption_intercalate _ _).trans (isOption_promptLine hprint item items)

/-! ## The arguments -/

section

variable {hyphenValues : Bool} {args : List String} {r : ArgReading}

theorem readArgs_permissionFlag (mode : Option String) :
    readArgs (argConvention hyphenValues) ((permissionFlag mode).toList ++ args) =
      ArgReading.append ⟨(permissionFlag mode).toList.map fun flag => (flag, none), []⟩
        (readArgs (argConvention hyphenValues) args) := by
  have hflag : permissionFlag mode = none ∨ permissionFlag mode = some "--full-auto" ∨
      permissionFlag mode = some "--dangerously-bypass-approvals-and-sandbox" := by
    unfold permissionFlag
    split
    · exact .inr (.inl rfl)
    · exact .inr (.inr rfl)
    · exact .inr (.inr rfl)
    · exact .inl rfl
  rcases hflag with h | h | h <;> rw [h]
  · rfl
  · exact readArgs_flag (by decide) (by decide) (by simp [argConvention]) args
  · exact readArgs_flag (by decide) (by decide) (by simp [argConvention]) args

theorem readArgs_modelArgs_iff (model : Option String) :
    readArgs (argConvention hyphenValues) (modelArgs model ++ args) =
        ArgReading.append ⟨model.toList.map fun model => ("-m", some model), []⟩ r ↔
      (∀ m, model = some m → hyphenValues = true ∨ isOption m = false) ∧
        readArgs (argConvention hyphenValues) args = r := by
  cases model with
  | none => exact ⟨fun h => ⟨nofun, h⟩, And.right⟩
  | some m =>
    have hvalued : readArgs (argConvention hyphenValues) ("-m" :: m :: args) =
          (ArgReading.option "-m" (some m)).append r ↔
        ((argConvention hyphenValues).hyphenValues = true ∨ isOption m = false) ∧
          readArgs (argConvention hyphenValues) args = r :=
      readArgs_valued_iff (by decide) (by decide) (by simp [argConvention])
    refine hvalued.trans (and_congr_left fun _ => ?_)
    exact ⟨fun h _ hm => Option.some.inj hm ▸ h, fun h => h m rfl⟩

theorem readArgs_turnCommandArgs_iff (lastMessagePath : String) (resumes model permissionMode : Option String)
    (prompt : String) :
    readArgs (argConvention hyphenValues) (turnCommandArgs lastMessagePath resumes model permissionMode prompt) =
        meantReading lastMessagePath resumes model permissionMode prompt ↔
      (hyphenValues = true ∨ isOption lastMessagePath = false) ∧
        (∀ m, model = some m → hyphenValues = true ∨ isOption m = false) ∧
        ∀ arg ∈ resumes.toList ++ [prompt], isOption arg = false := by
  let c := argConvention hyphenValues
  let flags : ArgReading := ⟨(permissionFlag permissionMode).toList.map fun flag => (flag, none), []⟩
  let models : ArgReading := ⟨model.toList.map fun model => ("-m", some model), []⟩
  let texts := resumes.toList ++ [prompt]
  let settings := modelArgs model ++ ((permissionFlag permissionMode).toList ++ texts)
  have hsettings : readArgs c settings = models.append (flags.append ⟨[], texts⟩) ↔
      (∀ m, model = some m → hyphenValues = true ∨ isOption m = false) ∧ ∀ arg ∈ texts, isOption arg = false := by
    rw [readArgs_modelArgs_iff, readArgs_permissionFlag, ArgReading.append_left_inj, readArgs_eq_positionals_iff]
  have hfixed : readArgs c ("--json" :: "--skip-git-repo-check" :: "-o" :: lastMessagePath :: settings) =
        (ArgReading.option "--json" none).append ((ArgReading.option "--skip-git-repo-check" none).append
          ((ArgReading.option "-o" (some lastMessagePath)).append (models.append (flags.append ⟨[], texts⟩)))) ↔
      (hyphenValues = true ∨ isOption lastMessagePath = false) ∧
        (∀ m, model = some m → hyphenValues = true ∨ isOption m = false) ∧ ∀ arg ∈ texts, isOption arg = false := by
    rw [readArgs_flag (by decide) (by decide) (by simp [c, argConvention]), ArgReading.append_left_inj,
      readArgs_flag (by decide) (by decide) (by simp [c, argConvention]), ArgReading.append_left_inj,
      readArgs_valued_iff (by decide) (by decide) (by simp [c, argConvention]), hsettings]
    exact Iff.rfl
  rw [← hfixed]
  cases resumes with
  | none =>
    have hargs : turnCommandArgs lastMessagePath none model permissionMode prompt =
        "exec" :: "--json" :: "--skip-git-repo-check" :: "-o" :: lastMessagePath :: settings := by
      simp [turnCommandArgs, settings, texts]
    have hmeant : meantReading lastMessagePath none model permissionMode prompt = (ArgReading.positional "exec").append
        ((ArgReading.option "--json" none).append ((ArgReading.option "--skip-git-repo-check" none).append
          ((ArgReading.option "-o" (some lastMessagePath)).append (models.append (flags.append ⟨[], texts⟩))))) := by
      simp [meantReading, ArgReading.append, ArgReading.option, ArgReading.positional, models, flags, texts]
    rw [hargs, hmeant, readArgs_positional (by decide), ArgReading.append_left_inj]
  | some ref =>
    have hargs : turnCommandArgs lastMessagePath (some ref) model permissionMode prompt =
        "exec" :: "resume" :: "--json" :: "--skip-git-repo-check" :: "-o" :: lastMessagePath :: settings := by
      simp [turnCommandArgs, settings, texts]
    have hmeant : meantReading lastMessagePath (some ref) model permissionMode prompt =
        (ArgReading.positional "exec").append ((ArgReading.positional "resume").append
          ((ArgReading.option "--json" none).append ((ArgReading.option "--skip-git-repo-check" none).append
            ((ArgReading.option "-o" (some lastMessagePath)).append (models.append (flags.append ⟨[], texts⟩)))))) := by
      simp [meantReading, ArgReading.append, ArgReading.option, ArgReading.positional, models, flags, texts]
    rw [hargs, hmeant, readArgs_positional (by decide), ArgReading.append_left_inj, readArgs_positional (by decide),
      ArgReading.append_left_inj]

end

/-- The arguments of a turn are read as they are meant just when neither the reference nor the prompt starts with `-`, nor,
unless a value may, the model and the path. -/
theorem prompts_are_no_options_iff {print : Json → String} (hprint : PrintsJson print) (hyphenValues : Bool)
    (lastMessagePath providerSessionRef : String) (model permissionMode : Option String) (input : List Json) :
    readArgs (argConvention hyphenValues)
        (buildTurnCommandArgs lastMessagePath providerSessionRef model permissionMode (buildTurnPrompt print input)) =
      meantReading lastMessagePath (resumedRef providerSessionRef) model permissionMode (buildTurnPrompt print input) ↔
    (hyphenValues = true ∨ isOption lastMessagePath = false) ∧
      (∀ m, model = some m → hyphenValues = true ∨ isOption m = false) ∧
      (∀ ref, resumedRef providerSessionRef = some ref → isOption ref = false) ∧ opensWithDash input = false := by
  rw [buildTurnCommandArgs, readArgs_turnCommandArgs_iff, ← isOption_buildTurnPrompt hprint input]
  refine and_congr_right fun _ => and_congr_right fun _ => ?_
  rw [List.forall_mem_append, List.forall_mem_singleton]
  exact and_congr_left fun _ => ⟨fun h ref href => h ref (by rw [href]; exact List.mem_singleton_self ref),
    fun h ref href => h ref (Option.mem_toList.mp href)⟩

/-- Prints `null`, and the sign of a number. -/
def printSign (value : Json) : String := if isNegative value then "-1" else "null"

theorem printsJson_printSign : PrintsJson printSign := by
  intro value
  rw [printSign]
  cases isNegative value <;> decide

/-- A turn of a session that has a thread already. -/
theorem prompts_are_no_options_resumed :
    readArgs (argConvention true) (buildTurnCommandArgs "/tmp/last.txt" "thread" (some "gpt-5.4") (some "full_auto")
      (buildTurnPrompt printSign [.str "continue", .null])) =
    ⟨[("--json", none), ("--skip-git-repo-check", none), ("-o", some "/tmp/last.txt"), ("-m", some "gpt-5.4"),
      ("--full-auto", none)], ["exec", "resume", "thread", "continue\n\nnull"]⟩ := by
  have hread := (prompts_are_no_options_iff printsJson_printSign true "/tmp/last.txt" "thread" (some "gpt-5.4")
    (some "full_auto") [.str "continue", .null]).mpr ⟨.inl rfl, fun _ _ => .inl rfl, fun ref href => by
      obtain rfl := Option.some.inj href
      decide, by decide⟩
  rw [hread]
  decide +kernel

/-- A text that names an option is read as that option. -/
theorem not_prompts_are_no_options : ¬ ∀ (print : Json → String) (lastMessagePath providerSessionRef : String)
    (model permissionMode : Option String) (input : List Json), PrintsJson print →
      readArgs (argConvention true)
          (buildTurnCommandArgs lastMessagePath providerSessionRef model permissionMode (buildTurnPrompt print input)) =
        meantReading lastMessagePath (resumedRef providerSessionRef) model permissionMode
          (buildTurnPrompt print input) := by
  intro h
  have hread := h printSign "/tmp/last.txt" "runtime:a" none none
    [.obj [("type", .str "text"), ("text", .str "--dangerously-bypass-approvals-and-sandbox")]] printsJson_printSign
  exact absurd hread (by decide +kernel)

end Gooselake.Providers.Codex
