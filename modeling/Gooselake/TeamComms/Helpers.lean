import Gooselake.Core.Records
import Gooselake.Data.Text
import Gooselake.Library.Numbered
import Gooselake.Library.Table

/-!
The pure helpers of the team service: names and policies from requests, the counters in ids, the
table of delivery transitions and the input a delivery puts before its recipient.
-/

namespace Gooselake.TeamComms

open Gooselake.Core Data Library

set_option autoImplicit false

inductive DeliveryAttemptTrigger where
  | queue
  | retry
  | turnCompletedBoundary
  | startupRecovery
  deriving DecidableEq, Repr

def DeliveryAttemptTrigger.asStr : DeliveryAttemptTrigger → String
  | .queue => "queue"
  | .retry => "retry"
  | .turnCompletedBoundary => "turncompletedboundary"
  | .startupRecovery => "startuprecovery"

/-! ## Members and indexes -/

def ensureMember (members : Option (Table String TeamMemberRecord)) (agentId teamId : String) :
    Except RuntimeError Unit :=
  if members.any fun members => (members.lookup agentId).isSome then .ok ()
  else .error (.invalidState s!"agent {agentId} is not a member of team {teamId}")

def removeDeliveryFromRecipientIndex (index : Table String (List String))
    (recipientAgentId deliveryId : String) : Table String (List String) :=
  match index.lookup recipientAgentId with
  | none => index
  | some ids =>
    let ids := ids.filter fun candidate => candidate ≠ deliveryId
    if ids = [] then index.erase recipientAgentId else index.insert recipientAgentId ids

/-- `entry(key).or_default().push(id)`. -/
def pushAt (index : Table String (List String)) (key id : String) : Table String (List String) :=
  index.insert key ((index.lookup key).getD [] ++ [id])

/-! ## Requests -/

def normalizeNonEmpty (value field : String) : Except RuntimeError String :=
  let trimmed := trim value
  if trimmed = "" then .error (.invalidState s!"{field} cannot be empty") else .ok trimmed

def normalizedNonEmpty (value : Option String) : Option String := value.bind trimmedNonEmpty

def normalizeNonEmptyInput (input : Json) : Except RuntimeError (List Json) :=
  match input with
  | .arr items =>
    if items = [] then .error (.invalidState "message input cannot be empty") else .ok items
  | _ => .error (.invalidState "message input must be an array")

def normalizeScope (scope : String) : Except RuntimeError String :=
  match toAsciiLowercase (trim scope) with
  | "direct" => .ok "direct"
  | "broadcast" => .ok "broadcast"
  | value => .error (.invalidState s!"unsupported message scope {value}")

def normalizePriority (value : String) : String :=
  let normalized := toAsciiLowercase (trim value)
  if normalized = "" then "normal" else normalized

inductive DeliveryPolicy where
  | nonInterrupting
  | interruptAfterToolBoundary
  | immediateInterrupt
  | startNewTurnOnly
  deriving DecidableEq, Repr

def DeliveryPolicy.asStr : DeliveryPolicy → String
  | .nonInterrupting => "non_interrupting"
  | .interruptAfterToolBoundary => "interrupt_after_tool_boundary"
  | .immediateInterrupt => "immediate_interrupt"
  | .startNewTurnOnly => "start_new_turn_only"

def normalizePolicy (value : String) : Except RuntimeError DeliveryPolicy :=
  match toAsciiLowercase (trim value) with
  | "non_interrupting" => .ok .nonInterrupting
  | "interrupt_after_tool_boundary" => .ok .interruptAfterToolBoundary
  | "immediate_interrupt" => .ok .immediateInterrupt
  | "start_new_turn_only" => .ok .startNewTurnOnly
  | _ => .error (.invalidState s!"unsupported delivery policy {value}")

def idempotencyIndexKey (teamId sender scope key : String) : String :=
  s!"{teamId}|{sender}|{scope}|{key}"

/-! ## Counters in ids -/

/-- Rust's `str::parse::<u64>`: decimal digits, at least one, after at most one plus sign. -/
def parseU64 (cs : List Char) : Option ℕ :=
  let digits := match cs with
    | '+' :: rest => rest
    | _ => cs
  if digits ≠ [] ∧ digits.all Char.isDigit ∧ Nat.ofDigitChars 10 digits 0 < 2 ^ 64 then
    some (Nat.ofDigitChars 10 digits 0)
  else none

theorem parseU64_digits {cs : List Char} (hne : cs ≠ []) (hall : ∀ c ∈ cs, c.isDigit = true)
    (hlt : Nat.ofDigitChars 10 cs 0 < 2 ^ 64) : parseU64 cs = some (Nat.ofDigitChars 10 cs 0) := by
  have hplus : ∀ rest, cs = '+' :: rest → False := by
    rintro rest rfl
    cases hall '+' List.mem_cons_self
  unfold parseU64
  simp only
  exact if_pos ⟨hne, List.all_eq_true.mpr hall, hlt⟩

theorem parseU64_toDigits {n : ℕ} (h : n < 2 ^ 64) : parseU64 (Nat.toDigits 10 n) = some n := by
  have hlt : Nat.ofDigitChars 10 (Nat.toDigits 10 n) 0 < 2 ^ 64 := by rwa [Nat.ofDigitChars_ten_toDigits]
  rw [parseU64_digits Nat.toDigits_ne_nil (fun c hc => isDigit_of_mem hc) hlt, Nat.ofDigitChars_ten_toDigits]

def parseCounter (value : String) : Option ℕ := parseU64 (afterLast '_' value.toList)

/-! ## Delivery statuses -/

def isTerminalStatus : DeliveryStatus → Bool
  | .injected | .failed | .cancelled => true
  | .pending | .deferred | .injecting => false

def isValidTransition : DeliveryStatus → DeliveryStatus → Bool
  | .pending, .pending => true
  | .pending, .deferred => true
  | .pending, .injecting => true
  | .pending, .cancelled => true
  | .deferred, .pending => true
  | .deferred, .deferred => true
  | .deferred, .injecting => true
  | .deferred, .cancelled => true
  | .injecting, .injected => true
  | .injecting, .failed => true
  | .injecting, .deferred => true
  | _, _ => false

theorem isValidTransition_of_terminal {current next : DeliveryStatus} (h : isTerminalStatus current = true) :
    isValidTransition current next = false := by
  cases current <;> cases next <;> first | rfl | cases h

/-! ## The injected input -/

def imageItem (path : Json) : Option Json :=
  (path.asStr.bind trimmedNonEmpty).map fun path => .obj [("type", .str "image"), ("path", .str path)]

def buildInjectedInput (message : TeamMessageRecord) (recipientAgentId : String) : List Json :=
  let scope := if message.scope = "broadcast" then "broadcast" else "dm"
  let openTag := s!"<team_msg kind=\"{scope}\" sender=\"{message.senderAgentId}\" team_id=\"{message.teamId}\">"
  [.obj [("type", .str "text"), ("text", .str openTag)]] ++ message.input.asArray.getD [] ++
    (message.imagePaths.asArray.getD []).filterMap imageItem ++
    [.obj [("type", .str "text"), ("text", .str "</team_msg>"), ("recipient", .str recipientAgentId)]]

end Gooselake.TeamComms
