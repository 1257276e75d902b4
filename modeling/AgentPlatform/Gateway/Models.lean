import AgentPlatform.Python.Value

/-!
# Requests to a language model

The data that passes between the agents and the model gateway, and the routing
policy that picks a provider and a model for a request.
-/

namespace AgentPlatform

/-- Who wrote a message. -/
inductive Role where
  | system
  | user
  | assistant
  | tool
  deriving DecidableEq

structure ChatMessage where
  role : Role
  content : String
  toolCallId : Option String := none
  deriving DecidableEq

/-- A tool as it is offered to a model. -/
structure ToolSpec where
  name : String
  description : String
  parameters : Json

/-- A tool call a model asks for. -/
structure ToolCall where
  id : String
  name : String
  arguments : Dict

structure LLMRequest where
  model : String
  provider : String
  messages : List ChatMessage
  tools : List ToolSpec := []
  temperature : ℚ := 2 / 10
  maxTokens : ℕ := 2048
  jsonMode : Bool := false
  tenantId : Option String := none

/-- Token counts by name. -/
abbrev Usage := List (String × ℤ)

structure LLMResponse where
  text : String
  toolCalls : List ToolCall := []
  model : String
  provider : String
  usage : Usage := []
  finishReason : String := "stop"

/-! ## Routing -/

/-- How agents are run. -/
inductive Orchestrator where
  | classic
  | langgraph
  deriving DecidableEq

/-- The settings the agents read.  Of a key it matters only whether it is set. -/
structure Settings where
  openaiApiKey : Bool := false
  anthropicApiKey : Bool := false
  llmDefaultModel : String := "bfsi-mock"
  agentOrchestrator : Orchestrator := .classic

structure Route where
  provider : String
  model : String
  tier : String

/-- Is the provider configured? -/
def available (settings : Settings) (provider : String) : Bool :=
  if provider = "openai" then settings.openaiApiKey
  else if provider = "anthropic" then settings.anthropicApiKey
  else true

def tierFast : Route := ⟨"ollama", "qwen2.5:1.5b-instruct", "fast"⟩

def tierBalanced : Route := ⟨"openai", "gpt-4o-mini", "balanced"⟩

def tierStrong : Route := ⟨"openai", "gpt-4o", "strong"⟩

/-- Choose a route; a provider that is not configured degrades to the mock. -/
def routeFor (settings : Settings) (request : LLMRequest) : Route :=
  let route :=
    if !request.tools.isEmpty then tierStrong
    else if request.jsonMode then tierBalanced
    else tierFast
  if available settings route.provider then route
  else ⟨"mock", settings.llmDefaultModel, route.tier⟩

/-- The request with its provider and model filled in. -/
def LLMRequest.routed (settings : Settings) (request : LLMRequest) : LLMRequest :=
  let route := routeFor settings request
  { request with provider := route.provider, model := route.model }

@[simp] theorem LLMRequest.routed_messages (settings : Settings) (request : LLMRequest) :
    (request.routed settings).messages = request.messages := rfl

end AgentPlatform
