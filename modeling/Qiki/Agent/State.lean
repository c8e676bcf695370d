import Qiki.Data.Json
import Qiki.Safety.Checker

/-! The checkpointed state of one agent thread and the updates that the nodes return. -/
namespace Qiki.Agent

/-- `HumanMessage` and `AIMessage`; no node and no caller adds other kinds. -/
inductive Message
  | human (content : Text)
  | ai (content : Text)
  deriving DecidableEq, Repr

structure ToolCallRecord where
  name : Text
  args : Json
  deriving DecidableEq

structure ToolResultRecord where
  name : Text
  ok : Bool
  result : Json
  deriving DecidableEq

structure SafetyFlags where
  isEmergency : Bool
  matchedPattern : Option Text
  deriving DecidableEq, Repr

structure RetrievedDocSummary where
  id : Text
  title : Text
  content : Text
  similarity : ℚ
  deriving DecidableEq, Repr

/-- `QikiAgentState`. A key that is missing from the checkpoint is the default that every
reader passes to `state.get`. -/
structure QikiAgentState where
  messages : List Message := []
  sessionId : Text := []
  userId : Option Text := none
  locale : Language := .vi
  confidence : Option ℚ := none
  retrievedDocs : List RetrievedDocSummary := []
  toolCalls : List ToolCallRecord := []
  toolResults : List ToolResultRecord := []
  safetyFlags : Option SafetyFlags := none
  turnCount : ℕ := 0
  llmProvider : Option Text := none
  deriving DecidableEq

/-- What a node returns: the channels it writes. -/
structure Update where
  messages : List Message := []
  confidence : Option ℚ := none
  retrievedDocs : Option (List RetrievedDocSummary) := none
  toolCalls : Option (List ToolCallRecord) := none
  toolResults : Option (List ToolResultRecord) := none
  safetyFlags : Option SafetyFlags := none
  turnCount : Option ℕ := none
  llmProvider : Option Text := none
  deriving DecidableEq

/-- The checkpoint after a node: `add_messages` appends, every other channel that is written
takes the new value and the rest keep theirs. -/
def QikiAgentState.apply (s : QikiAgentState) (u : Update) : QikiAgentState :=
  { s with
    messages := s.messages ++ u.messages
    confidence := u.confidence.or s.confidence
    retrievedDocs := u.retrievedDocs.getD s.retrievedDocs
    toolCalls := u.toolCalls.getD s.toolCalls
    toolResults := u.toolResults.getD s.toolResults
    safetyFlags := u.safetyFlags.or s.safetyFlags
    turnCount := u.turnCount.getD s.turnCount
    llmProvider := u.llmProvider.or s.llmProvider }

def Message.human? : Message → Option Text
  | .human content => some content
  | .ai _ => none

def lastHumanText (s : QikiAgentState) : Text :=
  (s.messages.reverse.findSome? Message.human?).getD []

/-- The human messages of the thread, oldest first. -/
def humanTexts (s : QikiAgentState) : List Text := s.messages.filterMap Message.human?

theorem lastHumanText_of_append (s : QikiAgentState) {before : List Message} {content : Text}
    (h : s.messages = before ++ [.human content]) : lastHumanText s = content := by
  rw [lastHumanText, h, List.reverse_append]
  rfl

end Qiki.Agent
