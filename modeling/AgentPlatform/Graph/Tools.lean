import AgentPlatform.Agents.Base
import AgentPlatform.Lib.StateGraph

/-!
# The tool graph

The loop of a specialist as a graph: ask the model, execute the tools it asked
for, ask again; when nothing is left to execute, finalize.  `LangGraphAgent` runs
a graph on the thread of a correlation id, on top of what the thread has saved.

* `toolGraph` — the nodes and the edges.
* `LangGraph.run` — a run of a compiled graph, with its checkpoints.
* `Agent.invokeGraph` — the run of a specialist.
-/

namespace AgentPlatform

/-- A channel that a node cannot do without. -/
def channel {α : Type} (key : String) (v : Option α) : Run α :=
  match v with
  | none => Effect.raise (.keyError key)
  | some a => pure a

theorem channel_keeps {α : Type} {I : World → Prop} (key : String) (v : Option α) :
    Keeps I (channel key v) := by
  cases v with
  | none => exact Keeps.raise _
  | some a => exact Keeps.pure _

/-! ## The nodes -/

inductive ToolNode where
  | callLlm
  | executeTools
  | finalize
  deriving DecidableEq

namespace ToolNode

variable (env : Env) (agent : Agent)

/-- Check the message, ask the model; tool calls are left pending. -/
def callLlmNode (s : AgentGraphState) : Run AgentGraphState := do
  let inp ← channel "_input" s.input
  Effect.ofExcept (env.guard.guardInput inp.message)
  let response ← agent.askModel env inp s.messages
  Env.recordTokens agent.key response.usage
  return { reply := some response.text
           tokenUsage := some response.usage
           steps := some (s.steps.getD 0)
           pendingToolCalls :=
             if response.toolCalls.isEmpty then none else some response.toolCalls }

/-- Execute tool calls, in order.  A call that raises leaves a text where a result is
expected, and reading its data raises in turn. -/
def callTools (inp : AgentInput) : List ToolCall → Run (List Settled)
  | [] => return []
  | tc :: tcs => do
    let execution ← env.callTool (inp.invocation tc)
    match execution.toExcept with
    | .error _ => Effect.raise .attributeError
    | .ok result => do
      let rest ← callTools inp tcs
      return ⟨tc, result⟩ :: rest

/-- Execute the pending tool calls. -/
def executeToolsNode (s : AgentGraphState) : Run AgentGraphState := do
  let inp ← channel "_input" s.input
  let settled ← callTools env inp s.pending
  return { usedTools := settled.map Settled.name
           toolOutputs := settled.map fun x => ⟨x.call.name, true, x.result.data⟩
           messages := settled.map (Settled.message env.runtime)
           steps := some (s.steps.getD 0 + 1) }

/-- Remember the turn and record the run. -/
def finalizeNode (s : AgentGraphState) : Run AgentGraphState := do
  let inp ← channel "_input" s.input
  Env.remember agent.key inp (s.reply.getD "")
  agent.persistRun env inp s.usedTools s.toolOutputs (s.reply.getD "")
  return { needsHumanApproval := some agent.needsHitl }

/-- What a node does. -/
def act : ToolNode → AgentGraphState → Run AgentGraphState
  | callLlm => callLlmNode env agent
  | executeTools => executeToolsNode env
  | finalize => finalizeNode env agent

/-- `_should_execute_tools` and the fixed edges. -/
def next : ToolNode → AgentGraphState → Option ToolNode
  | callLlm, s =>
    if s.pending ≠ [] ∧ s.steps.getD 0 < maxToolRounds then some executeTools else some finalize
  | executeTools, _ => some callLlm
  | finalize, _ => none

variable {env agent}

theorem callTools_keeps {I : World → Prop} {inp : AgentInput}
    (hcall : ∀ tc, Keeps I (env.callTool (inp.invocation tc))) (tcs : List ToolCall) :
    Keeps I (callTools env inp tcs) := by
  induction tcs with
  | nil => exact Keeps.pure _
  | cons tc tcs ih =>
    refine Keeps.bind (hcall tc) fun execution => ?_
    cases execution.toExcept with
    | error e => exact Keeps.raise _
    | ok result => exact Keeps.bind ih fun _ => Keeps.pure _

/-- What every operation keeps, the nodes keep. -/
theorem act_keeps {I : World → Prop} (h : ∀ inp, agent.OperationsKeep env inp I) (n : ToolNode)
    (s : AgentGraphState) : Keeps I (act env agent n s) := by
  cases n with
  | callLlm =>
    refine Keeps.bind (channel_keeps _ _) fun inp => ?_
    refine Keeps.bind (Keeps.ofExcept _) fun _ => ?_
    refine Keeps.bind ((h inp).loop.run.askModel _) fun response => ?_
    exact Keeps.bind ((h inp).tokens _) fun _ => Keeps.pure _
  | executeTools =>
    refine Keeps.bind (channel_keeps _ _) fun inp => ?_
    exact Keeps.bind (callTools_keeps (h inp).call _) fun _ => Keeps.pure _
  | finalize =>
    refine Keeps.bind (channel_keeps _ _) fun inp => ?_
    refine Keeps.bind ((h inp).remember _) fun _ => ?_
    exact Keeps.bind ((h inp).loop.run.persist _ _ _) fun _ => Keeps.pure _

end ToolNode

/-- The compiled graph of a specialist. -/
def toolGraph (env : Env) (agent : Agent) : StateGraph ToolNode AgentGraphState World PyErr where
  entry := .callLlm
  merge := AgentGraphState.merge
  act := ToolNode.act env agent
  next := ToolNode.next
  outOfSteps := .graphRecursionError

/-! ## Running a graph -/

namespace LangGraph

/-- The supersteps a run may take. -/
def recursionLimit : ℕ := 25

/-- What a run hands its graph. -/
def initial (agent : Agent) (inp : AgentInput) (w : World) : AgentGraphState where
  messages := agent.opening inp w
  steps := some 0
  reply := some ""
  tokenUsage := some []
  needsHumanApproval := some false
  decision := some none
  input := some inp
  specialistKey := some ""
  delegatedTo := some []
  specialistReply := some ""
  specialistTools := some []
  specialistOutputs := some []

/-- The result read off the final state. -/
def result (final : AgentGraphState) : AgentResult where
  reply := Agent.handedOut (final.reply.getD "")
  usedTools := final.usedTools
  toolOutputs := final.toolOutputs
  delegatedTo := final.delegatedTo.getD []
  tokenUsage := final.tokenUsage.getD []
  needsHumanApproval := final.needsHumanApproval.getD false
  decision := final.decision.getD none

/-- The world with another checkpoint for a thread of a graph. -/
def save (agentKey threadId : String) (s : AgentGraphState) (w : World) : World :=
  { w with
    checkpoints := Function.update w.checkpoints agentKey
      (Function.update (w.checkpoints agentKey) threadId s) }

/-- What a finished run hands back; the checkpoint is kept whether or not the run
raised. -/
def finished (agent : Agent) (inp : AgentInput)
    (finish : StateGraph.Finish AgentGraphState World PyErr) :
    Except PyErr AgentResult × World :=
  (match finish.outcome with
    | .error e => .error e
    | .ok final => .ok (result final),
    save agent.key inp.correlationId finish.saved finish.world)

/-- `LangGraphAgent.invoke`, for the compiled graph of an agent: the thread is the
correlation id. -/
def run {N : Type} (g : StateGraph N AgentGraphState World PyErr) (agent : Agent)
    (inp : AgentInput) : Run AgentResult := fun w =>
  finished agent inp (g.start recursionLimit (w.checkpoints agent.key inp.correlationId)
    (initial agent inp w) w)

end LangGraph

/-- The run of a specialist as a graph. -/
def Agent.invokeGraph (env : Env) (agent : Agent) (inp : AgentInput) : Run AgentResult :=
  LangGraph.run (toolGraph env agent) agent inp

end AgentPlatform
