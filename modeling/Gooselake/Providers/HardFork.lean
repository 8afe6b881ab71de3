import Gooselake.Data.Json
import Gooselake.Library.Positions
import Gooselake.Providers.BridgeClient

/-!
Where a hard fork of a Claude session begins. The turn loops record the ids of the messages they see; the boundary is
found in what was recorded if that is enough, else in the history that the SDK has stored. The turns that are rolled
back are pruned from the tables of the session.
-/

namespace Gooselake.Providers.HardFork

open Gooselake.Core Data Library BridgeClient

set_option autoImplicit false

/-- `String.prototype.trim`. -/
def jsTrim (s : String) : String := trimBy isJsWhitespace s

def truthy (value : Option String) : Option String := value.filter fun text => text ≠ ""

/-! ## Messages -/

inductive SdkMessageType where
  | user
  | assistant
  deriving DecidableEq, Repr

structure SdkSessionMessage where
  type : SdkMessageType
  uuid : String
  message : Json
  deriving DecidableEq

/-- `blockRecord?.type`, where it is a text. -/
def blockType (block : Json) : Option String := truthy ((block.get? "type").bind Json.asStr)

def isPromptContent (message : Json) : Bool :=
  match message.get? "content" with
  | some (.str content) => jsTrim content ≠ ""
  | some (.arr blocks) => blocks.any fun block => blockType block ≠ some "tool_result"
  | _ => false

def isSdkSessionHistoryUserPromptMessage (m : SdkSessionMessage) : Bool := m.type = .user && isPromptContent m.message

/-! ## The session -/

structure ForkSession where
  state : BridgeClient.SessionState
  turnPromptTexts : Table String String
  turnUserMessageIds : Table String (List String)
  turnAssistantMessageIds : Table String (List String)
  turnRollbackBoundaryIds : Table String String
  userMessageTurnIds : Table String String

namespace ForkSession

def recordTurnAssistantMessageUuid (turnId uuid : String) (s : ForkSession) : ForkSession :=
  let normalizedUuid := jsTrim uuid
  if normalizedUuid = "" then s
  else
    let assistantMessageIds := (s.turnAssistantMessageIds.lookup turnId).getD []
    if normalizedUuid ∈ assistantMessageIds then s
    else { s with
      turnAssistantMessageIds := s.turnAssistantMessageIds.insert turnId (assistantMessageIds ++ [normalizedUuid]) }

def recordTurnUserMessageUuid (turnId uuid : String) (s : ForkSession) : ForkSession :=
  let normalizedUuid := jsTrim uuid
  if normalizedUuid = "" then s
  else if (truthy (s.userMessageTurnIds.lookup normalizedUuid)).any fun existing => existing ≠ turnId then s
  else
    let userMessageIds := (s.turnUserMessageIds.lookup turnId).getD []
    { s with
      turnUserMessageIds :=
        if normalizedUuid ∈ userMessageIds then s.turnUserMessageIds
        else s.turnUserMessageIds.insert turnId (userMessageIds ++ [normalizedUuid])
      userMessageTurnIds := s.userMessageTurnIds.insert normalizedUuid turnId
      turnRollbackBoundaryIds :=
        if (s.turnRollbackBoundaryIds.lookup turnId).isSome then s.turnRollbackBoundaryIds
        else s.turnRollbackBoundaryIds.insert turnId normalizedUuid }

def resolveRollbackBoundaryIdForTurn (s : ForkSession) (rollbackBoundaryId : String) : String :=
  match truthy (s.turnRollbackBoundaryIds.lookup rollbackBoundaryId) with
  | some boundaryFromTurnId => boundaryFromTurnId
  | none =>
    match truthy (s.userMessageTurnIds.lookup rollbackBoundaryId) with
    | none => rollbackBoundaryId
    | some targetTurnId => (s.turnRollbackBoundaryIds.lookup targetTurnId).getD rollbackBoundaryId

end ForkSession

structure HardForkBoundary where
  predecessorAssistantUuid : Option String
  rolledBackTurnIds : List String
  deriving DecidableEq, Repr

/-! ## The boundary -/

namespace ForkSession

def resolveHardForkBoundaryFromCapturedTurns (s : ForkSession) (rollbackBoundaryId : String) :
    Option HardForkBoundary :=
  match truthy (s.userMessageTurnIds.lookup rollbackBoundaryId) with
  | none => none
  | some targetTurnId =>
    match s.state.turnOrder.idxOf? targetTurnId with
    | none => none
    | some 0 => some ⟨none, s.state.turnOrder.drop 0⟩
    | some (previous + 1) =>
      match truthy s.state.turnOrder[previous]? with
      | none => some ⟨none, s.state.turnOrder.drop (previous + 1)⟩
      | some previousTurnId =>
        match truthy ((s.turnAssistantMessageIds.lookup previousTurnId).getD []).getLast? with
        | none => none
        | some predecessorAssistantUuid =>
          some ⟨some predecessorAssistantUuid, s.state.turnOrder.drop (previous + 1)⟩

end ForkSession

def promptMessageIndexes (messages : List SdkSessionMessage) : List ℕ :=
  positions isSdkSessionHistoryUserPromptMessage messages

/-- What the map from ids to the first message with an id has for `uuid`. -/
def messageIndexByUuid (messages : List SdkSessionMessage) (uuid : String) : Option ℕ :=
  messages.findIdx? fun m => jsTrim m.uuid ≠ "" ∧ jsTrim m.uuid = uuid

def currentTurnHistoryStart (s : ForkSession) (messages : List SdkSessionMessage) : ℕ :=
  (promptMessageIndexes messages).length - s.state.turnOrder.length

def isRolledBack (s : ForkSession) (messages : List SdkSessionMessage) (targetMessageIndex : ℕ) (turnId : String) :
    Bool :=
  match truthy (s.turnRollbackBoundaryIds.lookup turnId) with
  | none => false
  | some rollbackBoundaryId =>
    (messageIndexByUuid messages rollbackBoundaryId).any fun boundaryIndex => targetMessageIndex ≤ boundaryIndex

/-- The turns of `turnOrder` that meet `p`, each one once. -/
def pushNew (p : String → Bool) (turnOrder : List String) : List String :=
  turnOrder.foldl (fun ids turnId => if p turnId ∧ turnId ∉ ids then ids ++ [turnId] else ids) []

def resolveRolledBackTurnIdsFromHistory (s : ForkSession) (messages : List SdkSessionMessage)
    (targetMessageIndex : ℕ) : List String :=
  match (promptMessageIndexes messages).idxOf? targetMessageIndex with
  | none => []
  | some targetPromptOrdinal =>
    let rolledBackTurnIds := pushNew (isRolledBack s messages targetMessageIndex) s.state.turnOrder
    if 0 < rolledBackTurnIds.length then rolledBackTurnIds
    else if s.state.turnOrder.length = 0 then []
    else if targetPromptOrdinal < currentTurnHistoryStart s messages then s.state.turnOrder
    else
      let currentTurnIndex := targetPromptOrdinal - currentTurnHistoryStart s messages
      if s.state.turnOrder.length ≤ currentTurnIndex then [] else s.state.turnOrder.drop currentTurnIndex

def predecessorAssistantUuid (before : List SdkSessionMessage) : Option String :=
  before.reverse.findSome? fun m => if m.type = .assistant then truthy (some (jsTrim m.uuid)) else none

def targetMessageIndex (s : ForkSession) (messages : List SdkSessionMessage) (rollbackBoundaryId : String) :
    Option ℕ :=
  match messages.findIdx? fun m =>
      m.type = .user && m.uuid = rollbackBoundaryId && isSdkSessionHistoryUserPromptMessage m with
  | some index => some index
  | none =>
    match s.state.turnOrder.idxOf? rollbackBoundaryId with
    | none => none
    | some targetTurnIndex => (promptMessageIndexes messages)[currentTurnHistoryStart s messages + targetTurnIndex]?

def resolveHardForkBoundaryFromHistory (s : ForkSession) (messages : List SdkSessionMessage)
    (rollbackBoundaryId : String) : Except String HardForkBoundary :=
  match targetMessageIndex s messages rollbackBoundaryId with
  | none => .error s!"Claude hard-fork boundary {rollbackBoundaryId} was not found in session history"
  | some index => .ok ⟨predecessorAssistantUuid (messages.take index),
      resolveRolledBackTurnIdsFromHistory s messages index⟩

/-! ## Pruning -/

namespace ForkSession

def pruneTurn (s : ForkSession) (turnId : String) : ForkSession :=
  { s with
    turnPromptTexts := s.turnPromptTexts.erase turnId
    turnUserMessageIds := s.turnUserMessageIds.erase turnId
    turnAssistantMessageIds := s.turnAssistantMessageIds.erase turnId
    turnRollbackBoundaryIds := s.turnRollbackBoundaryIds.erase turnId
    userMessageTurnIds := s.userMessageTurnIds.eraseAll ((s.turnUserMessageIds.lookup turnId).getD []) }

def pruneTurnStateForHardFork (rolledBackTurnIds : List String) (s : ForkSession) : ForkSession :=
  if rolledBackTurnIds.length = 0 then s
  else rolledBackTurnIds.foldl pruneTurn { s with state := Client.prunedState rolledBackTurnIds s.state }

def forked (s : ForkSession) : ForkSession :=
  { s with state := { Client.forkedState s.state with pendingApprovals := [] } }

end ForkSession

/-! ## The turns that a session has run -/

/-- A message as it is stored; `seen` if the loop of its turn saw it, with its id and not as a replay. -/
structure TurnMessage extends SdkSessionMessage where
  seen : Bool
  deriving DecidableEq

structure StoredTurn where
  id : String
  messages : List TurnMessage
  deriving DecidableEq

namespace ForkSession

def recordMessage (turnId : String) (s : ForkSession) (m : TurnMessage) : ForkSession :=
  if m.seen then
    match m.type with
    | .assistant => s.recordTurnAssistantMessageUuid turnId m.uuid
    | .user =>
      if isPromptContent m.message then s.recordTurnUserMessageUuid turnId m.uuid else s
  else s

def runTurn (s : ForkSession) (turn : StoredTurn) : ForkSession :=
  let s := turn.messages.foldl (recordMessage turn.id) s
  { s with state := { s.state with
      turnOrder := if turn.id ∈ s.state.turnOrder then s.state.turnOrder else s.state.turnOrder ++ [turn.id] } }

def afterTurns (rest : BridgeClient.SessionState) (turnPromptTexts : Table String String) (turns : List StoredTurn) :
    ForkSession :=
  turns.foldl runTurn ⟨{ rest with turnOrder := [] }, turnPromptTexts, ∅, ∅, ∅, ∅⟩

end ForkSession

def historyOf (turns : List StoredTurn) : List SdkSessionMessage :=
  turns.flatMap fun turn => turn.messages.map TurnMessage.toSdkSessionMessage

end Gooselake.Providers.HardFork
