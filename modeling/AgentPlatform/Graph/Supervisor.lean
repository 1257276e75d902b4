import AgentPlatform.Agents.Supervisor
import AgentPlatform.Graph.Tools

/-!
# The supervisor graph

The delegation of the supervisor as a graph: route, let the specialist run under
the orchestrator that is configured, compose.
-/

namespace AgentPlatform

/-- `resolve_agent(key).invoke(inp)`: the loop or the graph, as configured. -/
def Agent.invokeResolved (env : Env) (agent : Agent) (inp : AgentInput) : Run AgentResult :=
  match env.settings.agentOrchestrator with
  | .classic => agent.invoke env inp
  | .langgraph => agent.invokeGraph env inp

/-- What holds of the loop and of the graph holds of the one that is configured. -/
theorem Agent.invokeResolved_of_both {env : Env} {agent : Agent} {inp : AgentInput}
    {P : Run AgentResult → Prop} (hclassic : P (agent.invoke env inp))
    (hgraph : P (agent.invokeGraph env inp)) : P (agent.invokeResolved env inp) := by
  unfold Agent.invokeResolved
  cases env.settings.agentOrchestrator with
  | classic => exact hclassic
  | langgraph => exact hgraph

inductive SupervisorNode where
  | route
  | invokeSpecialist
  | compose
  deriving DecidableEq

namespace SupervisorNode

variable (env : Env) (reg : AgentRegistry)

/-- Check the message and pick the specialist. -/
def routeNode (s : AgentGraphState) : Run AgentGraphState := do
  let inp ← channel "_input" s.input
  Effect.ofExcept (env.guard.guardInput inp.message)
  return { specialistKey := some (reg.specialistKey env.runtime inp.message) }

/-- Let the specialist run. -/
def invokeSpecialistNode (s : AgentGraphState) : Run AgentGraphState := do
  let inp ← channel "_input" s.input
  let key ← channel "specialist_key" s.specialistKey
  match reg.getAgent key with
  | none => Effect.raise (.runtimeError s!"specialist {key} not registered")
  | some specialist => do
    let result ← specialist.invokeResolved env inp
    return { delegatedTo := some [specialist.key]
             specialistReply := some result.reply
             specialistTools := some result.usedTools
             specialistOutputs := some result.toolOutputs
             decision := some result.decision
             needsHumanApproval := some result.needsHumanApproval }

/-- Compose the answer, record the run and remember the turn. -/
def composeNode (s : AgentGraphState) : Run AgentGraphState := do
  let inp ← channel "_input" s.input
  let key := match s.specialistKey with
    | none => "None"
    | some key => key
  let response ← env.ask (LLMRequest.routed env.settings
    { model := "", provider := ""
      messages := Supervisor.composeMessages env.runtime inp.message key
        (s.specialistReply.getD "") (s.specialistOutputs.getD []) })
  Effect.ofExcept (env.guard.guardOutput response.text)
  Env.recordTokens supervisorAgent.key response.usage
  supervisorAgent.persistRun env inp (s.specialistTools.getD []) (s.specialistOutputs.getD [])
    response.text
  Env.remember supervisorAgent.key inp response.text
  return { reply := some response.text
           tokenUsage := some response.usage
           needsHumanApproval := some (s.needsHumanApproval.getD false) }

/-- What a node does. -/
def act : SupervisorNode → AgentGraphState → Run AgentGraphState
  | route => routeNode env reg
  | invokeSpecialist => invokeSpecialistNode env reg
  | compose => composeNode env

/-- The fixed edges. -/
def next : SupervisorNode → AgentGraphState → Option SupervisorNode
  | route, _ => some invokeSpecialist
  | invokeSpecialist, _ => some compose
  | compose, _ => none

/-- What every operation of the supervisor keeps, composing keeps. -/
theorem compose_keeps {env : Env} {I : World → Prop}
    (h : ∀ inp, supervisorAgent.OperationsKeep env inp I) (s : AgentGraphState) :
    Keeps I (composeNode env s) := by
  refine Keeps.bind (channel_keeps _ _) fun inp => ?_
  refine Keeps.bind ((h inp).ask _) fun response => ?_
  refine Keeps.bind (Keeps.ofExcept _) fun _ => ?_
  refine Keeps.bind ((h inp).tokens _) fun _ => ?_
  refine Keeps.bind ((h inp).loop.run.persist _ _ _) fun _ => ?_
  exact Keeps.bind ((h inp).remember _) fun _ => Keeps.pure _

end SupervisorNode

/-- The compiled graph of the supervisor. -/
def supervisorGraph (env : Env) (reg : AgentRegistry) :
    StateGraph SupervisorNode AgentGraphState World PyErr where
  entry := .route
  merge := AgentGraphState.merge
  act := SupervisorNode.act env reg
  next := SupervisorNode.next
  outOfSteps := .graphRecursionError

/-- The node that lets the specialist run, whatever specialists do. -/
def SupervisorNode.invokeSpecialistWith (behave : Agent → AgentInput → Run AgentResult)
    (reg : AgentRegistry) (s : AgentGraphState) : Run AgentGraphState := do
  let inp ← channel "_input" s.input
  let key ← channel "specialist_key" s.specialistKey
  match reg.getAgent key with
  | none => Effect.raise (.runtimeError s!"specialist {key} not registered")
  | some specialist => do
    let result ← behave specialist inp
    return { delegatedTo := some [specialist.key]
             specialistReply := some result.reply
             specialistTools := some result.usedTools
             specialistOutputs := some result.toolOutputs
             decision := some result.decision
             needsHumanApproval := some result.needsHumanApproval }

/-- The graph of the supervisor, whatever specialists do. -/
def supervisorGraphWith (behave : Agent → AgentInput → Run AgentResult) (env : Env)
    (reg : AgentRegistry) : StateGraph SupervisorNode AgentGraphState World PyErr where
  entry := .route
  merge := AgentGraphState.merge
  act
    | .route => SupervisorNode.routeNode env reg
    | .invokeSpecialist => SupervisorNode.invokeSpecialistWith behave reg
    | .compose => SupervisorNode.composeNode env
  next := SupervisorNode.next
  outOfSteps := .graphRecursionError

/-- The graph is that of the specialists as they are resolved. -/
theorem supervisorGraph_eq (env : Env) (reg : AgentRegistry) :
    supervisorGraph env reg =
      supervisorGraphWith (fun specialist => specialist.invokeResolved env) env reg := rfl

/-- The run of the supervisor as a graph. -/
def Supervisor.invokeGraph (env : Env) (reg : AgentRegistry) (inp : AgentInput) :
    Run AgentResult :=
  LangGraph.run (supervisorGraph env reg) supervisorAgent inp

/-- The run of the supervisor as a graph, whatever specialists do. -/
def Supervisor.invokeGraphWith (behave : Agent → AgentInput → Run AgentResult) (env : Env)
    (reg : AgentRegistry) (inp : AgentInput) : Run AgentResult :=
  LangGraph.run (supervisorGraphWith behave env reg) supervisorAgent inp

theorem Supervisor.invokeGraph_eq (env : Env) (reg : AgentRegistry) (inp : AgentInput) :
    Supervisor.invokeGraph env reg inp =
      Supervisor.invokeGraphWith (fun specialist => specialist.invokeResolved env) env reg inp :=
  rfl

end AgentPlatform
