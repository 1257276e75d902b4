import AgentPlatform.Agents.Process

/-!
# The agent loop

An agent checks the message, asks the model with the conversation so far, executes
the tools the model asks for and asks again, for a bounded number of rounds; the
first response without tool calls is the reply.  Every response is checked before
it is used, every tool call goes through the authorization boundary, and what a
tool raises is handed to the model as a failure.

* `Agent.askModel`, `Agent.callTools` — one request, one round of tool calls.
* `Agent.rounds` — the loop.
* `Agent.invoke` — the run of an agent.
-/

namespace AgentPlatform

def maxToolRounds : ℕ := 6

/-- The class attributes of an agent. -/
structure Agent where
  key : String
  name : String
  description : String
  capabilities : List String := []
  routingPriority : ℤ := 100
  version : String := "1.0.0"
  needsHitl : Bool := false
  systemPrompt : String := ""
  availableTools : List ToolClass := []
  jsonOutput : Bool := false

/-- The context of the tool calls of a run. -/
def AgentInput.toolContext (inp : AgentInput) : ToolContext where
  tenantId := inp.tenantId
  userId := inp.userId
  roles := inp.roles
  correlationId := inp.correlationId
  resourceOwnerId := inp.resourceOwnerId

/-- The invocation a tool call of a model stands for. -/
def AgentInput.invocation (inp : AgentInput) (tc : ToolCall) : ToolInvocation :=
  ⟨tc.name, inp.toolContext, tc.arguments⟩

/-- A tool call with the result the loop goes on with. -/
structure Settled where
  call : ToolCall
  result : ToolResult

namespace Settled

/-- The name that goes into the list of used tools. -/
def name (s : Settled) : String := s.call.name

def output (s : Settled) : ToolOutput := ⟨s.call.name, s.result.ok, s.result.data⟩

/-- `repr(tool_result.data)` -/
def message (rt : PyRuntime) (s : Settled) : ChatMessage :=
  ⟨.tool, rt.repr (.obj s.result.data), none⟩

end Settled

/-- The result of a call; an exception becomes a failure. -/
def Execution.settle (rt : PyRuntime) (x : Execution) : ToolResult :=
  match x.toExcept with
  | .ok result => result
  | .error e => .failure s!"{e.className}: {rt.strExc e}"

/-- Where the loop ended. -/
structure LoopEnd where
  reply : String
  usedTools : List String
  toolOutputs : List ToolOutput

namespace Agent

variable (env : Env) (agent : Agent) (inp : AgentInput)

/-- The request for a conversation, routed to a provider. -/
def request (messages : List ChatMessage) : LLMRequest :=
  LLMRequest.routed env.settings
    { model := "", provider := "", messages
      tools := agent.availableTools.map ToolClass.spec
      jsonMode := agent.jsonOutput
      tenantId := some inp.tenantId }

/-- Ask the model, and check what it wrote. -/
def askModel (messages : List ChatMessage) : Run LLMResponse := do
  let response ← env.ask (agent.request env inp messages)
  Effect.ofExcept (env.guard.guardOutput response.text)
  return response

/-- Execute the tool calls of a response, in order. -/
def callTools : List ToolCall → Run (List Settled)
  | [] => return []
  | tc :: tcs => do
    let execution ← env.callTool (inp.invocation tc)
    let rest ← callTools tcs
    return ⟨tc, execution.settle env.runtime⟩ :: rest

/-- The loop, for a number of rounds. -/
def rounds : ℕ → List ChatMessage → List String → List ToolOutput → Run LoopEnd
  | 0, _, used, outputs => return ⟨"", used, outputs⟩
  | n + 1, messages, used, outputs => do
    let response ← agent.askModel env inp messages
    if response.toolCalls.isEmpty then do
      Env.recordTokens agent.key response.usage
      return ⟨response.text, used, outputs⟩
    else do
      let settled ← callTools env inp response.toolCalls
      rounds n (messages ++ settled.map (Settled.message env.runtime))
        (used ++ settled.map Settled.name) (outputs ++ settled.map Settled.output)

/-- The conversation a run starts with. -/
def opening (w : World) : List ChatMessage :=
  ⟨.system, agent.systemPrompt, none⟩ ::
    ((w.memory agent.key).getShortTerm inp ++ [⟨.user, inp.message, none⟩])

/-- What is recorded of a run. -/
def report (used : List String) (outputs : List ToolOutput) (reply : String) (w : World) :
    RunReport :=
  ⟨inp, agent.key, agent.version, used, outputs, reply, w.lastUsage agent.key⟩

/-- `_persist_run` -/
def persistRun (used : List String) (outputs : List ToolOutput) (reply : String) : Run Unit := do
  let w ← Effect.get
  env.recordAgentRun (agent.report inp used outputs reply w)

/-- The text that is handed out for a reply. -/
def handedOut (reply : String) : String := if reply = "" then fallbackReply else reply

/-- The run of an agent. -/
def invoke : Run AgentResult := do
  Effect.ofExcept (env.guard.guardInput inp.message)
  let w ← Effect.get
  let e ← agent.rounds env inp maxToolRounds (agent.opening inp w) [] []
  Env.remember agent.key inp e.reply
  agent.persistRun env inp e.usedTools e.toolOutputs e.reply
  let w ← Effect.get
  return { reply := handedOut e.reply, usedTools := e.usedTools, toolOutputs := e.toolOutputs,
           tokenUsage := w.lastUsage agent.key, needsHumanApproval := agent.needsHitl }

/-! ## What a run keeps -/

/-- Every operation of a run keeps an invariant of the world. -/
structure OperationsKeep (env : Env) (agent : Agent) (inp : AgentInput) (I : World → Prop) :
    Prop where
  ask : ∀ request, Keeps I (env.ask request)
  call : ∀ tc, Keeps I (env.callTool (inp.invocation tc))
  tokens : ∀ usage, Keeps I (Env.recordTokens agent.key usage)
  remember : ∀ reply, Keeps I (Env.remember agent.key inp reply)
  record : ∀ report, Keeps I (env.recordAgentRun report)

/-- The same, where the model is asked only what the agent asks. -/
structure LoopKeeps (env : Env) (agent : Agent) (inp : AgentInput) (I : World → Prop) : Prop where
  ask : ∀ messages, Keeps I (env.ask (agent.request env inp messages))
  call : ∀ tc, Keeps I (env.callTool (inp.invocation tc))
  tokens : ∀ usage, Keeps I (Env.recordTokens agent.key usage)
  remember : ∀ reply, Keeps I (Env.remember agent.key inp reply)
  record : ∀ report, Keeps I (env.recordAgentRun report)

/-- The same, where a run is handed over only as the agent records it. -/
structure RunKeeps (env : Env) (agent : Agent) (inp : AgentInput) (I : World → Prop) : Prop where
  ask : ∀ messages, Keeps I (env.ask (agent.request env inp messages))
  call : ∀ tc, Keeps I (env.callTool (inp.invocation tc))
  tokens : ∀ usage, Keeps I (Env.recordTokens agent.key usage)
  remember : ∀ reply, Keeps I (Env.remember agent.key inp reply)
  persist : ∀ used outputs reply, Keeps I (agent.persistRun env inp used outputs reply)

theorem OperationsKeep.loop {env : Env} {agent : Agent} {inp : AgentInput} {I : World → Prop}
    (h : OperationsKeep env agent inp I) : LoopKeeps env agent inp I :=
  ⟨fun _ => h.ask _, h.call, h.tokens, h.remember, h.record⟩

theorem LoopKeeps.run {env : Env} {agent : Agent} {inp : AgentInput} {I : World → Prop}
    (h : LoopKeeps env agent inp I) : RunKeeps env agent inp I :=
  ⟨h.ask, h.call, h.tokens, h.remember, fun _ _ _ => Keeps.bind Keeps.get fun _ => h.record _⟩

theorem callTools_keeps {env : Env} {inp : AgentInput} {I : World → Prop}
    (hcall : ∀ tc, Keeps I (env.callTool (inp.invocation tc))) (tcs : List ToolCall) :
    Keeps I (callTools env inp tcs) := by
  induction tcs with
  | nil => exact Keeps.pure _
  | cons tc tcs ih =>
    exact Keeps.bind (hcall tc) fun _ => Keeps.bind ih fun _ => Keeps.pure _

namespace RunKeeps

variable {env : Env} {agent : Agent} {inp : AgentInput} {I : World → Prop}

theorem askModel (h : RunKeeps env agent inp I) (messages : List ChatMessage) :
    Keeps I (agent.askModel env inp messages) := by
  refine Keeps.bind (h.ask _) fun response => ?_
  exact Keeps.bind (Keeps.ofExcept _) fun _ => Keeps.pure _

theorem rounds (h : RunKeeps env agent inp I) (n : ℕ) (messages : List ChatMessage)
    (used : List String) (outputs : List ToolOutput) :
    Keeps I (agent.rounds env inp n messages used outputs) := by
  induction n generalizing messages used outputs with
  | zero => exact Keeps.pure _
  | succ n ih =>
    refine Keeps.bind (h.askModel _) fun response => ?_
    cases response.toolCalls.isEmpty with
    | true => exact Keeps.bind (h.tokens _) fun _ => Keeps.pure _
    | false => exact Keeps.bind (callTools_keeps h.call _) fun _ => ih _ _ _

/-- What comes after the rounds. -/
theorem closing (h : RunKeeps env agent inp I) (e : LoopEnd) :
    Keeps I (do
      Env.remember agent.key inp e.reply
      agent.persistRun env inp e.usedTools e.toolOutputs e.reply
      let w ← Effect.get
      return ({ reply := handedOut e.reply, usedTools := e.usedTools,
                toolOutputs := e.toolOutputs, tokenUsage := w.lastUsage agent.key,
                needsHumanApproval := agent.needsHitl } : AgentResult)) := by
  refine Keeps.bind (h.remember _) fun _ => ?_
  refine Keeps.bind (h.persist _ _ _) fun _ => ?_
  exact Keeps.bind Keeps.get fun _ => Keeps.pure _

/-- **What every operation keeps, a run keeps.** -/
theorem invoke (h : RunKeeps env agent inp I) : Keeps I (agent.invoke env inp) := by
  refine Keeps.bind (Keeps.ofExcept _) fun _ => ?_
  refine Keeps.bind Keeps.get fun _ => ?_
  exact Keeps.bind (h.rounds _ _ _ _) fun e => h.closing e

end RunKeeps

/-- The log only grows. -/
theorem operationsKeep_log (env : Env) (agent : Agent) (inp : AgentInput) (l : List Event) :
    OperationsKeep env agent inp fun w => l <+: w.log where
  ask := Env.ask_keeps_log
  call _ := Env.callTool_keeps_log _
  tokens := Env.recordTokens_keeps_log _
  remember := Env.remember_keeps_log _ _
  record := Env.recordAgentRun_keeps_log

/-- What holds of the agent's requests, of its tool calls and of every event that is neither holds
of everything a run does. -/
theorem loopKeeps_since {env : Env} {inp : AgentInput} {p : Event → Prop} (agent : Agent)
    (hasked : ∀ messages answer, p (.asked (agent.request env inp messages) answer))
    (hcalled : ∀ tc before, p (.called (inp.invocation tc)
      (env.execute before (inp.invocation tc))))
    (hrest : ∀ e : Event, e.request? = none → e.invocation? = none → p e) (w : World) :
    LoopKeeps env agent inp (w.Since p) where
  ask messages v hv := by
    unfold Env.ask
    cases env.answer v.log (agent.request env inp messages) with
    | none => exact hv.push (hasked messages _)
    | some response => exact hv.push (hasked messages _)
  call tc v hv := hv.push (hcalled tc _)
  tokens _ _ hv := hv
  remember _ _ hv := hv.push (hrest _ rfl rfl)
  record report v hv := by
    unfold Env.recordAgentRun
    split
    · exact World.Since.push (w := w) (v := { v with runs := _ }) hv (hrest _ rfl rfl)
    · exact hv

/-- A message that is refused ends the run before anything is done. -/
theorem invoke_of_refused {env : Env} {agent : Agent} {inp : AgentInput} {e : PyErr} {w : World}
    (h : env.guard.guardInput inp.message = .error e) : agent.invoke env inp w = (.error e, w) := by
  rw [invoke, h]
  rfl

end Agent

end AgentPlatform
