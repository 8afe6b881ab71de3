import Gooselake.Data.Json
import Gooselake.Library.Recursion
import Gooselake.Providers.BridgeClient

/-!
The status of a tool, inferred from what the tool has put out: a word, the exit code of a process, flags, or any of these
within arrays, records and texts that are themselves JSON. The depth is counted from zero again in every such text.
A value that is missing is `none`.
-/

namespace Gooselake.Providers.ToolStatus

open Gooselake.Data Library
open Gooselake.Providers.BridgeClient (isJsWhitespace)

set_option autoImplicit false

/-! ## Words -/

def inProgressTokens : List String :=
  ["inprogress", "progress", "running", "pending", "queued", "starting", "processing", "working", "waiting", "polling",
    "active", "ongoing"]

def completedTokens : List String :=
  ["completed", "complete", "success", "succeeded", "ok", "done", "finished", "resolved"]

def failedTokens : List String := ["failed", "fail", "error", "errored", "timeout", "timedout"]

def interruptedTokens : List String := ["interrupted", "cancelled", "canceled", "aborted", "killed"]

def declinedTokens : List String := ["declined", "rejected", "denied"]

/-- What `toLowerCase` makes of a character, if it is one of `a-z0-9`; two capitals that are not ASCII have such a letter. -/
def lowered (c : Char) : Option Char :=
  if c.isUpper then some c.toLower
  else if c.isLower || c.isDigit then some c
  else if c.toNat = 0x212A then some 'k'
  else if c.toNat = 0x130 then some 'i'
  else none

def normalizeToolStatusToken (value : String) : Option String :=
  let normalized := String.ofList ((trimBy isJsWhitespace value).toList.filterMap lowered)
  if normalized ∈ inProgressTokens then some "in_progress"
  else if normalized ∈ completedTokens then some "completed"
  else if normalized ∈ failedTokens then some "failed"
  else if normalized ∈ interruptedTokens then some "interrupted"
  else if normalized ∈ declinedTokens then some "declined"
  else none

example : normalizeToolStatusToken " In-Progress " = some "in_progress" := by decide +kernel

/-! ## Numbers -/

/-- `Number.isFinite`, of a number that is rounded to 64 bits. -/
def isFiniteNumber : Json → Bool
  | .int n => n.natAbs < 2 ^ 1024 - 2 ^ 970
  | .float bits => bits >>> 52 &&& 0x7FF ≠ 0x7FF
  | .null | .bool _ | .str _ | .arr _ | .obj _ => false

def isZeroNumber : Json → Bool
  | .int n => n = 0
  | .float bits => bits <<< 1 = 0
  | .null | .bool _ | .str _ | .arr _ | .obj _ => false

/-! ## The inference -/

/-- The status that a search has come to, once it has returned; `none` while it runs. -/
abbrev Found := Option (Option String)

/-- The search goes on with `next` when it has found nothing. -/
def Found.orNext (found next : Found) : Found :=
  match found with
  | none => none
  | some (some status) => some (some status)
  | some none => next

def firstStatus {α : Type} (search : α → Found) : List α → Found
  | [] => some none
  | a :: as => (search a).orNext (firstStatus search as)

/-- The first flag among `keys` that decides. -/
def flagStatus (whenTrue : String) (whenFalse : Option String) (record : Json) (keys : List String) : Option String :=
  keys.findSome? fun key =>
    match record.get? key with
    | some (.bool true) => some whenTrue
    | some (.bool false) => whenFalse
    | _ => none

section

variable (parse : String → Option Json) (infer : Option Json × ℕ → Found)

def inferStatusFromScalar (value : Option Json) : Found :=
  match value with
  | some (.str text) =>
    match normalizeToolStatusToken text with
    | some status => some (some status)
    | none =>
      let trimmed := trimBy isJsWhitespace text
      if startsWith "\x7b" trimmed || startsWith "[" trimmed then
        match parse trimmed with
        | some parsed => infer (some parsed, 0)
        | none => some none
      else some none
  | some value =>
    if isFiniteNumber value then some (some (if isZeroNumber value then "completed" else "failed")) else some none
  | none => some none

def inferStatusFromRecord (record : Json) (depth : ℕ) : Found :=
  let scalarOf := fun key => inferStatusFromScalar parse infer (record.get? key)
  let nestedOf := fun key => infer (record.get? key, depth + 1)
  (firstStatus scalarOf ["status", "state", "phase", "task_status", "taskStatus"]).orNext <|
  Found.orNext (some (flagStatus "in_progress" none record ["running", "isRunning", "is_running", "active"])) <|
  Found.orNext (some (flagStatus "completed" (some "in_progress") record ["done", "isDone", "is_done", "completed"])) <|
  Found.orNext (some (flagStatus "completed" (some "failed") record ["success", "ok"])) <|
  (firstStatus scalarOf ["exitCode", "exit_code", "code"]).orNext <|
  if depth < 3 then
    firstStatus nestedOf ["result", "output", "data", "task", "task_output", "taskOutput", "details"]
  else some none

/-- `inferToolResultStatus` with `infer` for the calls of it. -/
def inferBody (call : Option Json × ℕ) : Found :=
  match call with
  | (none, _) | (some .null, _) => some none
  | (some value, depth) =>
    if 4 < depth then some none
    else
      (inferStatusFromScalar parse infer (some value)).orNext <|
      match value with
      | .arr items => firstStatus (fun item => infer (some item, depth + 1)) items
      | .obj fields => inferStatusFromRecord parse infer (.obj fields) depth
      | _ => some none

end

/-- The function itself, with its calls nested less than `fuel` deep. -/
def inferToolResultStatus (parse : String → Option Json) (fuel : ℕ) (value : Option Json) (depth : ℕ) : Found :=
  recurse (inferBody parse) fuel (value, depth)

example : inferToolResultStatus (fun _ => none) 4 (some (.arr [.str "?", .obj [("exitCode", .int 1)]])) 0 =
    some (some "failed") := by decide +kernel

/-! ## Strings -/

mutual

def strings : Json → List String
  | .null | .bool _ | .int _ | .float _ => []
  | .str s => [s]
  | .arr items => stringsOfItems items
  | .obj fields => stringsOfFields fields

def stringsOfItems : List Json → List String
  | [] => []
  | item :: items => strings item ++ stringsOfItems items

def stringsOfFields : List (String × Json) → List String
  | [] => []
  | (_, value) :: fields => strings value ++ stringsOfFields fields

end

def Within (bound : ℕ) (value : Option Json) : Prop := ∀ v, value = some v → ∀ s ∈ strings v, s.length ≤ bound

/-- What is assumed of `JSON.parse`: the strings inside a text that it parses are shorter than the text. -/
def ParsesShorter (parse : String → Option Json) : Prop :=
  ∀ text value, parse text = some value → ∀ s ∈ strings value, s.length < text.length

def longest (value : Option Json) : ℕ := ((value.elim [] strings).map String.length).foldr max 0

theorem within_longest (value : Option Json) : Within (longest value) value := by
  have hmax : ∀ (texts : List String) (s : String), s ∈ texts → s.length ≤ (texts.map String.length).foldr max 0 := by
    intro texts s hs
    induction texts with
    | nil => cases hs
    | cons t texts ih =>
      rw [List.map_cons, List.foldr_cons]
      rcases List.mem_cons.mp hs with rfl | hs
      · exact Nat.le_max_left _ _
      · exact (ih hs).trans (Nat.le_max_right _ _)
  rintro v rfl s hs
  exact hmax (strings v) s hs

section

variable {bound : ℕ} {items : List Json} {fields : List (String × Json)}

theorem mem_stringsOfItems {item : Json} (h : item ∈ items) {s : String} (hs : s ∈ strings item) :
    s ∈ stringsOfItems items := by
  induction items with
  | nil => cases h
  | cons i items ih =>
    rw [stringsOfItems, List.mem_append]
    rcases List.mem_cons.mp h with rfl | h
    · exact .inl hs
    · exact .inr (ih h)

theorem mem_stringsOfFields {key : String} {value : Json} (h : Json.fieldOf key fields = some value) {s : String}
    (hs : s ∈ strings value) : s ∈ stringsOfFields fields := by
  induction fields with
  | nil => cases h
  | cons f fields ih =>
    obtain ⟨k, v⟩ := f
    rw [Json.fieldOf] at h
    rw [stringsOfFields, List.mem_append]
    split at h
    · obtain rfl := Option.some.inj h
      exact .inl hs
    · exact .inr (ih h)

theorem Within.item (h : Within bound (some (.arr items))) {item : Json} (hitem : item ∈ items) :
    Within bound (some item) := by
  intro v hv s hs
  obtain rfl := Option.some.inj hv
  exact h _ rfl s (mem_stringsOfItems hitem hs)

theorem Within.field {record : Json} (h : Within bound (some record)) (key : String) : Within bound (record.get? key) := by
  intro v hv s hs
  cases record with
  | obj fields => exact h _ rfl s (mem_stringsOfFields hv hs)
  | _ => cases hv

end

/-! ## Results -/

def knownStatuses : List String := ["in_progress", "completed", "failed", "interrupted", "declined"]

/-- A known status, or `null`. -/
def Known (result : Option String) : Prop := ∀ status, result = some status → status ∈ knownStatuses

theorem known_none : Known none := nofun

theorem known_some {status : String} (h : status ∈ knownStatuses) : Known (some status) := by
  rintro s ⟨⟩
  exact h

theorem known_normalizeToolStatusToken (value : String) : Known (normalizeToolStatusToken value) := by
  simp only [normalizeToolStatusToken]
  split_ifs <;> first | exact known_none | exact known_some (by decide)

theorem known_flagStatus {whenTrue : String} {whenFalse : Option String} (htrue : whenTrue ∈ knownStatuses)
    (hfalse : Known whenFalse) (record : Json) (keys : List String) :
    Known (flagStatus whenTrue whenFalse record keys) := by
  intro status hstatus
  obtain ⟨key, -, hkey⟩ := List.exists_of_findSome?_eq_some hstatus
  split at hkey
  · exact known_some htrue status hkey
  · exact hfalse status hkey
  · cases hkey

/-- Two searches return the same known status, or `null`. -/
abbrev Ends (x y : Found) : Prop := BothReturn Known x y

theorem Ends.orNext {x y x' y' : Found} (h : Ends x y) (hnext : Ends x' y') : Ends (x.orNext x') (y.orNext y') := by
  obtain ⟨result, rfl, rfl, hknown⟩ := h
  cases result with
  | none => exact hnext
  | some status => exact bothReturn_some hknown

theorem ends_firstStatus {α : Type} {search search' : α → Found} {l : List α}
    (h : ∀ a ∈ l, Ends (search a) (search' a)) : Ends (firstStatus search l) (firstStatus search' l) := by
  induction l with
  | nil => exact bothReturn_some known_none
  | cons a l ih => exact (h a List.mem_cons_self).orNext (ih fun b hb => h b (List.mem_cons_of_mem _ hb))

/-! ## Ranks -/

/-- A text that is parsed makes the bound of the strings smaller, and every other call goes deeper. -/
def Ranked (call : Option Json × ℕ) (n : ℕ) : Prop := ∃ bound, Within bound call.1 ∧ n = 6 * bound + (5 - call.2)

section

variable {parse : String → Option Json} (hparse : ParsesShorter parse) {f g : Option Json × ℕ → Found} {n bound : ℕ}

include hparse

theorem inferStatusFromScalar_ends {value : Option Json} (hvalue : Within bound value) (hn : 6 * bound ≤ n)
    (hcalls : ∀ m call, m < n → Ranked call m → Ends (f call) (g call)) :
    Ends (inferStatusFromScalar parse f value) (inferStatusFromScalar parse g value) := by
  unfold inferStatusFromScalar
  split
  · next text =>
    split
    · next status htoken =>
      exact bothReturn_some (htoken ▸ known_normalizeToolStatusToken text)
    · dsimp only
      split
      · next hopens =>
        split
        · next parsed hparsed =>
          -- the bound is that of the text, and what it is parsed to has shorter strings
          have htext := hvalue _ rfl text List.mem_cons_self
          have htrim : (trimBy isJsWhitespace text).length ≤ text.length := by
            rw [← String.length_toList, ← String.length_toList, toList_trimBy]
            exact ((List.rdropWhile_prefix _ _).length_le).trans (List.dropWhile_sublist _).length_le
          have hopen : 0 < (trimBy isJsWhitespace text).length := by
            rw [← String.length_toList]
            apply List.length_pos_iff.mpr
            intro hnil
            rw [startsWith, startsWith, hnil] at hopens
            revert hopens
            decide
          refine hcalls (6 * (bound - 1) + 5) _ (by omega) ⟨bound - 1, ?_, rfl⟩
          intro v hv s hs
          obtain rfl := Option.some.inj hv
          have hshort := hparse _ _ hparsed s hs
          omega
        · exact bothReturn_some known_none
      · exact bothReturn_some known_none
  · split
    · exact bothReturn_some (known_some (by split <;> decide))
    · exact bothReturn_some known_none
  · exact bothReturn_some known_none

theorem inferStatusFromRecord_ends {record : Json} {depth : ℕ} (hrecord : Within bound (some record))
    (hn : n = 6 * bound + (5 - depth)) (hcalls : ∀ m call, m < n → Ranked call m → Ends (f call) (g call)) :
    Ends (inferStatusFromRecord parse f record depth) (inferStatusFromRecord parse g record depth) := by
  have hscalars : ∀ keys : List String,
      Ends (firstStatus (fun key => inferStatusFromScalar parse f (record.get? key)) keys)
        (firstStatus (fun key => inferStatusFromScalar parse g (record.get? key)) keys) := fun keys =>
    ends_firstStatus fun key _ => inferStatusFromScalar_ends hparse (hrecord.field key) (by omega) hcalls
  have hflags : ∀ {whenTrue : String} {whenFalse : Option String} (keys : List String), whenTrue ∈ knownStatuses →
      Known whenFalse → Ends (some (flagStatus whenTrue whenFalse record keys)) _ := fun keys htrue hfalse =>
    bothReturn_some (known_flagStatus htrue hfalse record keys)
  unfold inferStatusFromRecord
  dsimp only
  apply (hscalars _).orNext
  apply (hflags _ (by decide) known_none).orNext
  apply (hflags _ (by decide) (known_some (by decide))).orNext
  apply (hflags _ (by decide) (known_some (by decide))).orNext
  apply (hscalars _).orNext
  split
  · apply ends_firstStatus
    intro key _
    exact hcalls (6 * bound + (5 - (depth + 1))) _ (by omega) ⟨bound, hrecord.field key, rfl⟩
  · exact bothReturn_some known_none

theorem inferBody_ends {call : Option Json × ℕ} (hrank : Ranked call n)
    (hcalls : ∀ m call, m < n → Ranked call m → Ends (f call) (g call)) :
    Ends (inferBody parse f call) (inferBody parse g call) := by
  obtain ⟨bound, hbound, hn⟩ := hrank
  unfold inferBody
  split
  · exact bothReturn_some known_none
  · exact bothReturn_some known_none
  · next value depth _ =>
    split
    · exact bothReturn_some known_none
    · next hdepth =>
      apply (inferStatusFromScalar_ends hparse hbound (by omega) hcalls).orNext
      split
      · next items =>
        apply ends_firstStatus
        intro item hitem
        refine hcalls (6 * bound + (5 - (depth + 1))) _ ?_ ⟨bound, hbound.item hitem, rfl⟩
        dsimp only at hn
        omega
      · exact inferStatusFromRecord_ends hparse hbound hn hcalls
      · exact bothReturn_some known_none

end

/-! ## Termination -/

/-- All fuel from some amount on gives one result, which is a known status or `null`. -/
def Terminates (search : ℕ → Found) : Prop :=
  ∃ enough result, Known result ∧ ∀ fuel, enough ≤ fuel → search fuel = some result

theorem terminates_of_ends {search : ℕ → Found} (enough : ℕ)
    (h : ∀ k l, enough ≤ k → enough ≤ l → Ends (search k) (search l)) : Terminates search := by
  obtain ⟨result, hresult, -, hknown⟩ := h enough enough le_rfl le_rfl
  refine ⟨enough, result, hknown, fun fuel hfuel => ?_⟩
  obtain ⟨other, hother, hother', -⟩ := h enough fuel le_rfl hfuel
  rw [hother', ← hother, hresult]

/-- The three functions end on every value, at every depth, with a known status or `null`. -/
theorem inference_terminates {parse : String → Option Json} (hparse : ParsesShorter parse) (value : Option Json)
    (depth : ℕ) :
    Terminates (fun fuel => inferToolResultStatus parse fuel value depth) ∧
      Terminates (fun fuel =>
        inferStatusFromScalar parse (fun call => inferToolResultStatus parse fuel call.1 call.2) value) ∧
      ∀ record, value = some record → Terminates (fun fuel =>
        inferStatusFromRecord parse (fun call => inferToolResultStatus parse fuel call.1 call.2) record depth) := by
  have hwithin := within_longest value
  have hbody : ∀ n call f g, Ranked call n → (∀ m call, m < n → Ranked call m → Ends (f call) (g call)) →
      Ends (inferBody parse f call) (inferBody parse g call) := fun _ _ _ _ hr hc => inferBody_ends hparse hr hc
  have hcalls : ∀ k l, 6 * longest value + 6 ≤ k → 6 * longest value + 6 ≤ l → ∀ m call, m < 6 * longest value + 6 →
      Ranked call m → Ends (inferToolResultStatus parse k call.1 call.2) (inferToolResultStatus parse l call.1 call.2) := by
    intro k l hk hl m call hm hrank
    exact recurse_bothReturn hbody hrank (by omega) (by omega)
  refine ⟨?_, ?_, ?_⟩
  · apply terminates_of_ends (6 * longest value + 6)
    intro k l hk hl
    exact hcalls k l hk hl _ (value, depth) (by omega) ⟨_, hwithin, rfl⟩
  · apply terminates_of_ends (6 * longest value + 6)
    intro k l hk hl
    exact inferStatusFromScalar_ends hparse hwithin (by omega) (hcalls k l hk hl)
  · rintro record rfl
    apply terminates_of_ends (6 * longest (some record) + 6)
    intro k l hk hl
    apply inferStatusFromRecord_ends hparse hwithin rfl
    intro m call hm
    exact hcalls k l hk hl m call (by omega)

/-- A text with a text in it. -/
theorem inference_terminates_nested : ∃ parse, parse "[\"ok\"]" = some (.arr [.str "ok"]) ∧
    Terminates (fun fuel => inferToolResultStatus parse fuel (some (.str "[\"ok\"]")) 0) := by
  let parse := fun text => if text = "[\"ok\"]" then some (Json.arr [.str "ok"]) else none
  have hparse : ParsesShorter parse := by
    intro text value hvalue s hs
    simp only [parse, Option.ite_none_right_eq_some] at hvalue
    obtain ⟨rfl, hvalue⟩ := hvalue
    obtain rfl := Option.some.inj hvalue
    obtain rfl : s = "ok" := by simpa [strings, stringsOfItems] using hs
    decide
  exact ⟨parse, rfl, (inference_terminates hparse _ 0).1⟩

end Gooselake.Providers.ToolStatus
