import AgentPlatform.Agents.Memory

/-!
# The state of a graph run

The channels of the graphs.  A node returns some of them; the three channels that
collect are appended to, any other channel keeps the value written last.  One
type serves as state and as update: a channel that an update does not write is
empty or `none` in it.
-/

namespace AgentPlatform

structure AgentGraphState where
  messages : List ChatMessage := []
  usedTools : List String := []
  toolOutputs : List ToolOutput := []
  steps : Option ℕ := none
  reply : Option String := none
  tokenUsage : Option Usage := none
  needsHumanApproval : Option Bool := none
  decision : Option (Option Dict) := none
  pendingToolCalls : Option (List ToolCall) := none
  input : Option AgentInput := none
  specialistKey : Option String := none
  delegatedTo : Option (List String) := none
  specialistReply : Option String := none
  specialistTools : Option (List String) := none
  specialistOutputs : Option (List ToolOutput) := none

namespace AgentGraphState

/-- Merge an update into a state. -/
def merge (s u : AgentGraphState) : AgentGraphState where
  messages := s.messages ++ u.messages
  usedTools := s.usedTools ++ u.usedTools
  toolOutputs := s.toolOutputs ++ u.toolOutputs
  steps := u.steps <|> s.steps
  reply := u.reply <|> s.reply
  tokenUsage := u.tokenUsage <|> s.tokenUsage
  needsHumanApproval := u.needsHumanApproval <|> s.needsHumanApproval
  decision := u.decision <|> s.decision
  pendingToolCalls := u.pendingToolCalls <|> s.pendingToolCalls
  input := u.input <|> s.input
  specialistKey := u.specialistKey <|> s.specialistKey
  delegatedTo := u.delegatedTo <|> s.delegatedTo
  specialistReply := u.specialistReply <|> s.specialistReply
  specialistTools := u.specialistTools <|> s.specialistTools
  specialistOutputs := u.specialistOutputs <|> s.specialistOutputs

/-- The tool calls that wait to be executed. -/
def pending (s : AgentGraphState) : List ToolCall := s.pendingToolCalls.getD []

@[simp] theorem empty_merge (s : AgentGraphState) : AgentGraphState.merge {} s = s := by
  cases s
  simp [merge]

@[simp] theorem merge_messages (s u : AgentGraphState) :
    (s.merge u).messages = s.messages ++ u.messages := rfl

end AgentGraphState

end AgentPlatform
