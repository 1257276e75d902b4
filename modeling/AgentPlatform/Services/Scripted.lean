import AgentPlatform.Gateway.Accounting
import AgentPlatform.Gateway.Providers
import AgentPlatform.Graph.Isolation
import AgentPlatform.Services.Continuity

/-!
# Tool calls behind the gateway

Behind the gateway the settings build, no provider but the script ever asks for a tool.  So the
tools run on the arguments of the script alone, whoever asks for whatever, in every conversation
and under either orchestrator.

* `Env.Scripted` — every answer of the model asks for no tool, or for the scripted one.
* `World.OnScript` — everything called so far, and everything that waits to be called in a thread,
  is in the script; **kept by every chat.**
* `chats_onScript` — **the tools run on the script's arguments only**, over every sequence of chats.
* `invoke_scripted_once` — the loop calls nothing, or the scripted tool of the message once.
* `invokeGraph_scripted_six` — the graph calls nothing, or the same tool six times.
-/

namespace AgentPlatform

/-! ## Scripted answers -/

/-- Every answer of the model asks for no tool, or for the scripted one of the last message. -/
def Env.Scripted (env : Env) : Prop :=
  ∀ log request response, env.answer log request = some response →
    response.ScriptedFor env.runtime request

/-- Behind a gateway that is deployed, every answer is scripted. -/
theorem Env.scripted_through {env : Env} {g : RoutingLLMGateway} (hg : g.Deployed env.runtime) :
    (env.through g).Scripted := by
  intro log request response h
  have hserve : (g.serve request (g.ledger (requestsIn log))).1 = some response :=
    (g.respond_concat _ _).symm.trans h
  rw [RoutingLLMGateway.serve] at hserve
  set x := g.complete ⟨request, (g.ledger (requestsIn log)).attempts,
    (g.ledger (requestsIn log)).tokensTotal, (g.ledger (requestsIn log)).llmCalls⟩ with hx
  obtain ⟨result, w⟩ := x
  cases result with
  | error e => cases hserve
  | ok response' =>
    obtain rfl : response' = response := Option.some.inj hserve
    obtain ⟨request', hanswered, hmessages, htools⟩ :=
      RoutingLLMGateway.complete_answered (congrArg Prod.fst hx.symm)
    have hscripted := hg.answered hanswered
    unfold LLMResponse.ScriptedFor at hscripted ⊢
    rw [hmessages, htools] at hscripted
    exact hscripted

/-- A tool is in the script with these arguments. -/
def InScript (name : String) (arguments : Dict) : Prop :=
  ∃ keywords, (name, keywords, arguments) ∈ MockLLMProvider.toolIntents

/-- A scripted call is in the script. -/
theorem inScript_of_scripted {rt : PyRuntime} {tools : List ToolSpec} {content : String}
    {tc : ToolCall} (h : MockLLMProvider.scripted rt tools content = some tc) :
    InScript tc.name tc.arguments := by
  obtain ⟨tool, hfind, rfl⟩ := Option.map_eq_some_iff.1 h
  have hkeyword := List.find?_some hfind
  unfold InScript MockLLMProvider.intentOf
  cases hlookup : MockLLMProvider.toolIntents.lookup tool.name with
  | none =>
    rw [MockLLMProvider.intentOf, hlookup] at hkeyword
    simp at hkeyword
  | some intent =>
    obtain ⟨earlier, later, hintents, -⟩ := List.lookup_eq_some_iff.1 hlookup
    exact ⟨intent.1, by rw [hintents]; exact List.mem_append_right _ (List.mem_cons_self ..)⟩

/-! ## Every sequence of chats -/

/-- A tool that is called is in the script with its arguments. -/
def Event.OnScript (e : Event) : Prop :=
  ∀ invocation, e.invocation? = some invocation → InScript invocation.name invocation.arguments

/-- The calls that wait in a state of a graph are in the script. -/
def AgentGraphState.OnScript (s : AgentGraphState) : Prop :=
  ∀ tc ∈ s.pending, InScript tc.name tc.arguments

/-- Everything that was called, and everything that waits in a thread, is in the script. -/
structure World.OnScript (w : World) : Prop where
  log : ∀ e ∈ w.log, e.OnScript
  threads : ∀ agentKey threadId, (w.checkpoints agentKey threadId).OnScript

theorem World.onScript_initial : World.initial.OnScript where
  log _ he := absurd he List.not_mem_nil
  threads _ _ _ htc := absurd htc List.not_mem_nil

section Keeps

variable {env : Env} {w : World}

/-- One event more, and the threads as they are. -/
theorem World.OnScript.grow (h : w.OnScript) {v : World} {e : Event} (he : e.OnScript)
    (hlog : v.log = w.log ++ [e]) (hthreads : v.checkpoints = w.checkpoints) : v.OnScript where
  log e' he' := by
    rw [hlog] at he'
    rcases List.mem_append.1 he' with hold | hnew
    · exact h.log e' hold
    · rw [List.mem_singleton.1 hnew]
      exact he
  threads agentKey threadId := by
    rw [hthreads]
    exact h.threads agentKey threadId

theorem Event.onScript_of_uncalled {e : Event} (h : e.invocation? = none) : e.OnScript := by
  intro invocation hinvocation
  rw [h] at hinvocation
  cases hinvocation

theorem ask_onScript (request : LLMRequest) : Keeps World.OnScript (env.ask request) := by
  intro v hv
  unfold Env.ask
  cases env.answer v.log request with
  | none => exact hv.grow (Event.onScript_of_uncalled rfl) rfl rfl
  | some response => exact hv.grow (Event.onScript_of_uncalled rfl) rfl rfl

theorem recordTokens_onScript (agentKey : String) (usage : Usage) :
    Keeps World.OnScript (Env.recordTokens agentKey usage) := fun _ hv => ⟨hv.log, hv.threads⟩

theorem remember_onScript (agentKey : String) (inp : AgentInput) (reply : String) :
    Keeps World.OnScript (Env.remember agentKey inp reply) := by
  intro v hv
  have huncalled : (Event.remembered agentKey inp reply).OnScript := Event.onScript_of_uncalled rfl
  exact hv.grow huncalled rfl rfl

theorem recordAgentRun_onScript (report : RunReport) :
    Keeps World.OnScript (env.recordAgentRun report) := by
  intro v hv
  unfold Env.recordAgentRun
  split
  · have huncalled : (Event.recorded report).OnScript := Event.onScript_of_uncalled rfl
    exact hv.grow huncalled rfl rfl
  · exact ⟨hv.log, hv.threads⟩

theorem persistRun_onScript (agent : Agent) (inp : AgentInput) (used : List String)
    (outputs : List ToolOutput) (reply : String) :
    Keeps World.OnScript (agent.persistRun env inp used outputs reply) :=
  Keeps.bind Keeps.get fun _ => recordAgentRun_onScript _

/-- A response asks for what is in the script. -/
theorem askModel_onScript (h : env.Scripted) (agent : Agent) (inp : AgentInput)
    (messages : List ChatMessage) : Ensures World.OnScript (agent.askModel env inp messages)
      fun response => ∀ tc ∈ response.toolCalls, InScript tc.name tc.arguments := by
  intro v hv
  rw [askModel_apply]
  have hlog : (v.withLog (exchange env agent inp messages v.log).2).OnScript := by
    rw [exchange_log]
    exact hv.grow (Event.onScript_of_uncalled rfl) rfl rfl
  cases hx : (exchange env agent inp messages v.log).1 with
  | error e => exact hlog
  | ok response =>
    refine ⟨fun tc htc => ?_, hlog⟩
    obtain hnone | ⟨last, tc', -, -, hscripted, hcalls⟩ := h _ _ _ (exchange_eq_ok hx).1
    · rw [hnone] at htc
      cases htc
    · rw [hcalls, List.mem_singleton] at htc
      rw [htc]
      exact inScript_of_scripted hscripted

/-- The call of a tool that is in the script. -/
theorem callTool_onScript {inp : AgentInput} {tc : ToolCall}
    (h : InScript tc.name tc.arguments) :
    Keeps World.OnScript (env.callTool (inp.invocation tc)) := by
  intro v hv
  refine hv.grow (fun invocation hinvocation => ?_) rfl rfl
  obtain rfl := Option.some.inj hinvocation
  exact h

theorem Agent.callTools_onScript {inp : AgentInput} {tcs : List ToolCall}
    (h : ∀ tc ∈ tcs, InScript tc.name tc.arguments) :
    Keeps World.OnScript (Agent.callTools env inp tcs) := by
  induction tcs with
  | nil => exact Keeps.pure _
  | cons tc tcs ih =>
    refine Keeps.bind (callTool_onScript (h tc (List.mem_cons_self ..))) fun _ => ?_
    exact Keeps.bind (ih fun tc' htc' => h tc' (List.mem_cons_of_mem _ htc')) fun _ => Keeps.pure _

/-- **The loop keeps to the script**, round after round. -/
theorem Agent.rounds_onScript (h : env.Scripted) (agent : Agent) (inp : AgentInput) (n : ℕ)
    (messages : List ChatMessage) (used : List String) (outputs : List ToolOutput) :
    Ensures World.OnScript (agent.rounds env inp n messages used outputs) fun _ => True := by
  induction n generalizing messages used outputs with
  | zero => exact Ensures.pure trivial
  | succ n ih =>
    refine Ensures.bind (askModel_onScript h agent inp messages) fun response hcalls => ?_
    cases response.toolCalls.isEmpty with
    | true =>
      exact Ensures.bind (Ensures.of_keeps (recordTokens_onScript _ _)) fun _ _ =>
        Ensures.pure trivial
    | false =>
      exact Ensures.bind (Ensures.of_keeps (Agent.callTools_onScript hcalls)) fun _ _ => ih _ _ _

theorem Agent.invoke_onScript (h : env.Scripted) (agent : Agent) (inp : AgentInput) :
    Ensures World.OnScript (agent.invoke env inp) fun _ => True := by
  refine Ensures.bind (Ensures.of_keeps (Keeps.ofExcept _)) fun _ _ => ?_
  refine Ensures.bind (Ensures.of_keeps Keeps.get) fun v _ => ?_
  refine Ensures.bind (agent.rounds_onScript h inp _ _ _ _) fun e _ => ?_
  refine Ensures.bind (Ensures.of_keeps (remember_onScript _ _ _)) fun _ _ => ?_
  refine Ensures.bind (Ensures.of_keeps (persistRun_onScript _ _ _ _ _)) fun _ _ => ?_
  exact Ensures.bind (Ensures.of_keeps Keeps.get) fun _ _ => Ensures.pure trivial

/-! ### The graphs -/

/-- An update that leaves the pending calls alone. -/
theorem AgentGraphState.OnScript.merge {s u : AgentGraphState} (hs : s.OnScript)
    (hu : u.pendingToolCalls = none) : (s.merge u).OnScript := by
  unfold AgentGraphState.OnScript AgentGraphState.pending at hs ⊢
  rw [show (s.merge u).pendingToolCalls = s.pendingToolCalls by
    simp [AgentGraphState.merge, hu]]
  exact hs

theorem channel_onScript {α : Type} (key : String) (v : Option α) :
    Ensures World.OnScript (channel key v) fun _ => True := Ensures.of_keeps (channel_keeps key v)

theorem ToolNode.callTools_onScript {inp : AgentInput} {tcs : List ToolCall}
    (h : ∀ tc ∈ tcs, InScript tc.name tc.arguments) :
    Keeps World.OnScript (ToolNode.callTools env inp tcs) := by
  induction tcs with
  | nil => exact Keeps.pure _
  | cons tc tcs ih =>
    refine Keeps.bind (callTool_onScript (h tc (List.mem_cons_self ..))) fun execution => ?_
    cases execution.toExcept with
    | error e => exact Keeps.raise _
    | ok result =>
      exact Keeps.bind (ih fun tc' htc' => h tc' (List.mem_cons_of_mem _ htc')) fun _ =>
        Keeps.pure _

/-- **The nodes of the tool graph keep to the script**, and leave only scripted calls pending. -/
theorem ToolNode.act_onScript (h : env.Scripted) (agent : Agent) (n : ToolNode)
    {s : AgentGraphState} (hs : s.OnScript) :
    Ensures World.OnScript (ToolNode.act env agent n s) fun u => (s.merge u).OnScript := by
  cases n with
  | callLlm =>
    refine Ensures.bind (channel_onScript _ _) fun inp _ => ?_
    refine Ensures.bind (Ensures.of_keeps (Keeps.ofExcept _)) fun _ _ => ?_
    refine Ensures.bind (askModel_onScript h agent inp s.messages) fun response hcalls => ?_
    refine Ensures.bind (Ensures.of_keeps (recordTokens_onScript _ _)) fun _ _ => ?_
    refine Ensures.pure ?_
    cases hempty : response.toolCalls.isEmpty with
    | true => exact hs.merge rfl
    | false => exact hcalls
  | executeTools =>
    refine Ensures.bind (channel_onScript _ _) fun inp _ => ?_
    refine Ensures.bind (Ensures.of_keeps (ToolNode.callTools_onScript hs)) fun settled _ => ?_
    exact Ensures.pure (hs.merge rfl)
  | finalize =>
    refine Ensures.bind (channel_onScript _ _) fun inp _ => ?_
    refine Ensures.bind (Ensures.of_keeps (remember_onScript _ _ _)) fun _ _ => ?_
    refine Ensures.bind (Ensures.of_keeps (persistRun_onScript _ _ _ _ _)) fun _ _ => ?_
    exact Ensures.pure (hs.merge rfl)

/-- A run of a graph whose nodes keep to the script does. -/
theorem LangGraph.run_onScript {N : Type} {g : StateGraph N AgentGraphState World PyErr}
    (hmerge : g.merge = AgentGraphState.merge)
    (hact : ∀ n s, s.OnScript → Ensures World.OnScript (g.act n s) fun u => (s.merge u).OnScript)
    (agent : Agent) (inp : AgentInput) :
    Ensures World.OnScript (LangGraph.run g agent inp) fun _ => True := by
  refine Ensures.of_keeps fun v hv => ?_
  have hstart : (g.merge (v.checkpoints agent.key inp.correlationId)
      (LangGraph.initial agent inp v)).OnScript := by
    rw [hmerge]
    exact (hv.threads _ _).merge rfl
  obtain ⟨hsaved, hworld⟩ := g.steps_kept (J := AgentGraphState.OnScript) (I := World.OnScript)
    (fun n s w u w' hs hw hok => hmerge ▸ Triple.of_ok (hact n s hs) hw hok)
    (fun n s w e w' hs hw herror => Triple.of_error (hact n s hs) hw herror)
    LangGraph.recursionLimit (n := g.entry) hstart hv
  refine ⟨hworld.log, fun agentKey threadId => ?_⟩
  by_cases hthread : agentKey = agent.key ∧ threadId = inp.correlationId
  · obtain ⟨rfl, rfl⟩ := hthread
    show ((LangGraph.save _ _ _ _).checkpoints _ _).OnScript
    rw [save_self]
    exact hsaved
  · show ((LangGraph.save _ _ _ _).checkpoints _ _).OnScript
    rw [save_of_ne (not_and_or.1 hthread)]
    exact hworld.threads _ _

theorem Agent.invokeGraph_onScript (h : env.Scripted) (agent : Agent) (inp : AgentInput) :
    Ensures World.OnScript (agent.invokeGraph env inp) fun _ => True :=
  LangGraph.run_onScript rfl (fun n _ hs => ToolNode.act_onScript h agent n hs) agent inp

/-- **The nodes of the supervisor** leave what is pending alone. -/
theorem SupervisorNode.act_onScript (h : env.Scripted) (reg : AgentRegistry) (n : SupervisorNode)
    {s : AgentGraphState} (hs : s.OnScript) :
    Ensures World.OnScript (SupervisorNode.act env reg n s) fun u => (s.merge u).OnScript := by
  cases n with
  | route =>
    refine Ensures.bind (channel_onScript _ _) fun inp _ => ?_
    refine Ensures.bind (Ensures.of_keeps (Keeps.ofExcept _)) fun _ _ => ?_
    exact Ensures.pure (hs.merge rfl)
  | invokeSpecialist =>
    refine Ensures.bind (channel_onScript _ _) fun inp _ => ?_
    refine Ensures.bind (channel_onScript _ _) fun key _ => ?_
    cases reg.getAgent key with
    | none => exact Ensures.raise _
    | some specialist =>
      have hspecialist : Ensures World.OnScript (specialist.invokeResolved env inp) fun _ => True :=
        Agent.invokeResolved_of_both (P := fun x => Ensures World.OnScript x fun _ => True)
          (specialist.invoke_onScript h inp) (specialist.invokeGraph_onScript h inp)
      exact Ensures.bind hspecialist fun result _ => Ensures.pure (hs.merge rfl)
  | compose =>
    refine Ensures.bind (channel_onScript _ _) fun inp _ => ?_
    refine Ensures.bind (Ensures.of_keeps (ask_onScript _)) fun response _ => ?_
    refine Ensures.bind (Ensures.of_keeps (Keeps.ofExcept _)) fun _ _ => ?_
    refine Ensures.bind (Ensures.of_keeps (recordTokens_onScript _ _)) fun _ _ => ?_
    refine Ensures.bind (Ensures.of_keeps (persistRun_onScript _ _ _ _ _)) fun _ _ => ?_
    refine Ensures.bind (Ensures.of_keeps (remember_onScript _ _ _)) fun _ _ => ?_
    exact Ensures.pure (hs.merge rfl)

theorem Supervisor.invoke_onScript (h : env.Scripted) (reg : AgentRegistry) (inp : AgentInput) :
    Ensures World.OnScript (Supervisor.invoke env reg inp) fun _ => True := by
  unfold Supervisor.invoke
  cases reg.specialist env.runtime inp.message with
  | none => exact Ensures.raise _
  | some specialist =>
    refine Ensures.bind (specialist.invoke_onScript h inp) fun result _ => ?_
    refine Ensures.bind (Ensures.of_keeps (ask_onScript _)) fun response _ => ?_
    exact Ensures.bind (Ensures.of_keeps (Keeps.ofExcept _)) fun _ _ => Ensures.pure trivial

/-- **Every path keeps to the script.** -/
theorem ExecutionPath.run_onScript (h : env.Scripted) (path : ExecutionPath) (inp : AgentInput) :
    Ensures World.OnScript (path.run env inp) fun _ => True := by
  cases path with
  | specialist agent => exact agent.invoke_onScript h inp
  | supervisor reg => exact Supervisor.invoke_onScript h reg inp
  | specialistGraph agent => exact agent.invokeGraph_onScript h inp
  | supervisorGraph reg =>
    exact LangGraph.run_onScript rfl (fun n _ hs => SupervisorNode.act_onScript h reg n hs) _ inp

end Keeps

/-- **The tools run on the script's arguments only.**  Over every sequence of chats, on whichever
paths, every tool that is called is called with the arguments the script has for it. -/
theorem chats_onScript (env : Env) (g : RoutingLLMGateway) (hg : g.Deployed env.runtime)
    (chats : List Chat) :
    (chats.foldl (Chat.after (env.through g)) World.initial).OnScript := by
  induction chats using List.reverseRecOn with
  | nil => exact World.onScript_initial
  | append_singleton chats chat ih =>
    rw [List.foldl_append]
    exact (chat.path.run_onScript (Env.scripted_through hg) chat.inp).world ih

/-- The profile question, to the script. -/
theorem profile_question_onScript :
    ([⟨.specialist customerSupportAgent, demoInput⟩].foldl
      (Chat.after ((demoEnv fun _ => none).through scriptedGateway)) World.initial).OnScript :=
  chats_onScript _ scriptedGateway scriptedGateway_deployed _

/-! ## One run -/

/-- The scripted call of an agent for a message. -/
def Agent.scriptedCall (env : Env) (agent : Agent) (inp : AgentInput) : Option ToolCall :=
  MockLLMProvider.scripted env.runtime (agent.availableTools.map ToolClass.spec) inp.message

/-- Since the world `w` the model was asked at most `k` times, and these calls were made. -/
def World.Exchanged (w : World) (k : ℕ) (calls : List ToolInvocation) (v : World) : Prop :=
  ∃ events, v.log = w.log ++ events ∧ (requestsIn events).length ≤ k ∧
    invocationsIn events = calls

namespace World.Exchanged

variable {env : Env} {w : World} {k : ℕ} {calls : List ToolInvocation}

theorem refl : w.Exchanged 0 [] w := ⟨[], (List.append_nil _).symm, Nat.le_refl 0, rfl⟩

theorem mono {v : World} (h : w.Exchanged k calls v) {k' : ℕ} (hk : k ≤ k') :
    w.Exchanged k' calls v := by
  obtain ⟨events, hlog, hrequests, hcalls⟩ := h
  exact ⟨events, hlog, hrequests.trans hk, hcalls⟩

/-- One event more. -/
theorem grow {v v' : World} (h : w.Exchanged k calls v) {e : Event}
    (hlog : v'.log = v.log ++ [e]) :
    w.Exchanged (k + (requestsIn [e]).length) (calls ++ invocationsIn [e]) v' := by
  obtain ⟨events, hevents, hrequests, hcalls⟩ := h
  refine ⟨events ++ [e], by rw [hlog, hevents, List.append_assoc], ?_, ?_⟩
  · rw [requestsIn_append, List.length_append]
    omega
  · rw [invocationsIn_append, hcalls]

/-- An event that neither asks nor calls. -/
theorem note {v v' : World} (h : w.Exchanged k calls v) {e : Event} (he : e.Noted)
    (hlog : v'.log = v.log ++ [e]) : w.Exchanged k calls v' := by
  have hgrown := h.grow hlog
  simpa [requestsIn, invocationsIn, he.1, he.2] using hgrown

theorem ask {v u : World} (h : w.Exchanged k calls v) {request : LLMRequest}
    {answer : Option LLMResponse} (hlog : u.log = v.log ++ [.asked request answer]) :
    w.Exchanged (k + 1) calls u := by
  rw [← List.append_nil calls]
  exact h.grow hlog

theorem call {v v' : World} (h : w.Exchanged k calls v) {invocation : ToolInvocation}
    {execution : Execution} (hlog : v'.log = v.log ++ [.called invocation execution]) :
    w.Exchanged k (calls ++ [invocation]) v' := h.grow hlog

theorem remember (agentKey : String) (inp : AgentInput) (reply : String) :
    Keeps (w.Exchanged k calls) (Env.remember agentKey inp reply) :=
  fun _ hv => hv.note ⟨rfl, rfl⟩ rfl

theorem persistRun (agent : Agent) (inp : AgentInput) (used : List String)
    (outputs : List ToolOutput) (reply : String) :
    Keeps (w.Exchanged k calls) (agent.persistRun env inp used outputs reply) := by
  refine Keeps.bind Keeps.get fun w' => ?_
  intro v hv
  unfold Env.recordAgentRun
  split
  · exact hv.note (e := .recorded (agent.report inp used outputs reply w')) ⟨rfl, rfl⟩ rfl
  · exact hv

theorem recordTokens (agentKey : String) (usage : Usage) :
    Keeps (w.Exchanged k calls) (Env.recordTokens agentKey usage) := fun _ hv => hv

end World.Exchanged

section Runs

variable {env : Env} {agent : Agent} {inp : AgentInput} {w : World} {k : ℕ}
  {calls : List ToolInvocation}

/-- The last message is the result of a tool. -/
def EndsWithResult (messages : List ChatMessage) : Prop :=
  ∃ last, messages.getLast? = some last ∧ last.role = .tool

/-- The last message is the one of the user. -/
def EndsWithMessage (inp : AgentInput) (messages : List ChatMessage) : Prop :=
  messages.getLast? = some ⟨.user, inp.message, none⟩

/-- A request that ends with a result is answered without a tool call. -/
theorem askModel_of_result (h : env.Scripted) {messages : List ChatMessage}
    (hlast : EndsWithResult messages) :
    Triple (w.Exchanged k calls) (agent.askModel env inp messages)
      (fun response v => response.toolCalls = [] ∧ w.Exchanged (k + 1) calls v)
      fun _ v => w.Exchanged (k + 1) calls v := by
  intro v hv
  rw [askModel_apply]
  have hlog := hv.ask (u := v.withLog (exchange env agent inp messages v.log).2)
    (exchange_log messages v.log)
  cases hx : (exchange env agent inp messages v.log).1 with
  | error e => exact hlog
  | ok response =>
    refine ⟨?_, hlog⟩
    obtain ⟨last, hgetLast, hrole⟩ := hlast
    obtain hnone | ⟨last', tc, hgetLast', hrole', -⟩ := h _ _ _ (exchange_eq_ok hx).1
    · exact hnone
    · obtain rfl := Option.some.inj (hgetLast.symm.trans hgetLast')
      exact absurd hrole hrole'

/-- One that ends with the message of the user, without one or with the scripted one. -/
theorem askModel_of_message (h : env.Scripted) {messages : List ChatMessage}
    (hlast : EndsWithMessage inp messages) :
    Triple (w.Exchanged k calls) (agent.askModel env inp messages)
      (fun response v => (response.toolCalls = [] ∨ ∃ tc, agent.scriptedCall env inp = some tc ∧
        response.toolCalls = [tc]) ∧ w.Exchanged (k + 1) calls v)
      fun _ v => w.Exchanged (k + 1) calls v := by
  intro v hv
  rw [askModel_apply]
  have hlog := hv.ask (u := v.withLog (exchange env agent inp messages v.log).2)
    (exchange_log messages v.log)
  cases hx : (exchange env agent inp messages v.log).1 with
  | error e => exact hlog
  | ok response =>
    refine ⟨?_, hlog⟩
    obtain hnone | ⟨last, tc, hgetLast, -, hscripted, hcalls⟩ := h _ _ _ (exchange_eq_ok hx).1
    · exact .inl hnone
    · obtain rfl := Option.some.inj (hlast.symm.trans hgetLast)
      exact .inr ⟨tc, hscripted, hcalls⟩

/-- After a result, the loop asks once more and calls nothing. -/
theorem rounds_of_result (h : env.Scripted) (n : ℕ) {messages : List ChatMessage}
    (hlast : EndsWithResult messages) (used : List String) (outputs : List ToolOutput) :
    Triple (w.Exchanged k calls) (agent.rounds env inp n messages used outputs)
      (fun _ v => w.Exchanged (k + 1) calls v) fun _ v => w.Exchanged (k + 1) calls v := by
  cases n with
  | zero => exact Triple.pure fun _ hv => hv.mono (Nat.le_succ k)
  | succ n =>
    refine Triple.bind (askModel_of_result h hlast) fun response => ?_
    rintro v ⟨hnone, hv⟩
    rw [hnone]
    exact hv

theorem getLast?_append_tool (messages : List ChatMessage) (rt : PyRuntime) (s : Settled) :
    EndsWithResult (messages ++ [s.message rt]) := ⟨s.message rt, List.getLast?_concat, rfl⟩

/-- The call of one tool. -/
theorem callTools_one (tc : ToolCall) {R : PyErr → World → Prop} :
    Triple (w.Exchanged k calls) (Agent.callTools env inp [tc])
      (fun settled v => (∃ s, settled = [s]) ∧ w.Exchanged k (calls ++ [inp.invocation tc]) v) R :=
  fun _ hv => ⟨⟨_, rfl⟩, hv.call rfl⟩

/-- What a run behind the script has exchanged: two requests at most, and the scripted call of
the message once, if at all. -/
def Agent.OnceAtMost (env : Env) (agent : Agent) (inp : AgentInput) (w v : World) : Prop :=
  w.Exchanged 2 [] v ∨
    ∃ tc, agent.scriptedCall env inp = some tc ∧ w.Exchanged 2 [inp.invocation tc] v

/-- **The rounds**: nothing is called, or the scripted tool once. -/
theorem rounds_of_message (h : env.Scripted) (agent : Agent) (n : ℕ) {messages : List ChatMessage}
    (hlast : EndsWithMessage inp messages) (used : List String) (outputs : List ToolOutput) :
    Triple (w.Exchanged 0 []) (agent.rounds env inp n messages used outputs)
      (fun _ v => agent.OnceAtMost env inp w v) fun _ v => agent.OnceAtMost env inp w v := by
  cases n with
  | zero => exact Triple.pure fun _ hv => .inl (hv.mono (Nat.zero_le 2))
  | succ n =>
    refine Triple.bind ((askModel_of_message h hlast).raises
      fun _ _ hv => .inl (hv.mono (Nat.le_succ 1))) fun response => ?_
    rintro v ⟨hnone | ⟨tc, hscripted, hcalls⟩, hv⟩
    · rw [hnone]
      exact .inl (hv.mono (Nat.le_succ 1))
    · rw [hcalls]
      have hcalled : Triple (w.Exchanged 1 []) (do
            let settled ← Agent.callTools env inp [tc]
            agent.rounds env inp n (messages ++ settled.map (Settled.message env.runtime))
              (used ++ settled.map Settled.name) (outputs ++ settled.map Settled.output))
          (fun _ v => w.Exchanged 2 [inp.invocation tc] v)
          fun _ v => w.Exchanged 2 [inp.invocation tc] v := by
        refine Triple.bind (callTools_one tc) fun settled => ?_
        rintro v' ⟨⟨s, rfl⟩, hv'⟩
        exact rounds_of_result h n (getLast?_append_tool _ _ _) _ _ v' hv'
      have honce : ∀ v', w.Exchanged 2 [inp.invocation tc] v' → agent.OnceAtMost env inp w v' :=
        fun v' hv' => .inr ⟨tc, hscripted, hv'⟩
      have hrest := (hcalled.weaken fun _ => honce).raises fun _ => honce
      exact hrest v hv

theorem Agent.opening_endsWithMessage (agent : Agent) (inp : AgentInput) (w : World) :
    EndsWithMessage inp (agent.opening inp w) := by
  show (_ :: (_ ++ [_])).getLast? = _
  rw [List.getLast?_cons, List.getLast?_concat]
  rfl

theorem Agent.OnceAtMost.keeps {x : Run Unit} (hx : ∀ calls, Keeps (w.Exchanged 2 calls) x) :
    Keeps (agent.OnceAtMost env inp w) x := by
  rintro v (hv | ⟨tc, hscripted, hv⟩)
  · exact .inl (hx _ v hv)
  · exact .inr ⟨tc, hscripted, hx _ v hv⟩

theorem Agent.invoke_onceAtMost (h : env.Scripted) (agent : Agent) (inp : AgentInput)
    (w : World) : Triple (fun v => v = w) (agent.invoke env inp)
      (fun _ v => agent.OnceAtMost env inp w v) fun _ v => agent.OnceAtMost env inp w v := by
  have hstart : agent.OnceAtMost env inp w w :=
    .inl (World.Exchanged.refl.mono (Nat.zero_le 2))
  refine Triple.bind (Q := fun _ v => v = w) (Triple.ofExcept (fun _ v _ hv => hv) ?_) fun _ => ?_
  · rintro _ v - rfl
    exact hstart
  refine Triple.bind (Q := fun opened v => opened = w ∧ v = w) (Triple.get fun v hv => ⟨hv, hv⟩)
    fun opened => ?_
  rintro v ⟨hopened, hv⟩
  subst hopened hv
  have hrounds := rounds_of_message (w := v) h agent maxToolRounds
    (agent.opening_endsWithMessage inp v) [] []
  refine Triple.bind (S := fun _ v' => agent.OnceAtMost env inp v v') hrounds (fun e => ?_) v
    World.Exchanged.refl
  refine Triple.bind ((Agent.OnceAtMost.keeps fun _ =>
    World.Exchanged.remember agent.key inp e.reply).triple fun _ _ hv' => hv') fun _ => ?_
  refine Triple.bind ((Agent.OnceAtMost.keeps fun _ => World.Exchanged.persistRun agent inp
    e.usedTools e.toolOutputs e.reply).triple fun _ _ hv' => hv') fun _ => ?_
  exact Triple.bind (Keeps.get.triple fun _ _ hv' => hv') fun _ => Triple.pure fun _ hv' => hv'

/-! ### The graph -/

/-- The scripted call of the message waits in a state. -/
def Agent.Waiting (env : Env) (agent : Agent) (inp : AgentInput) (tc : ToolCall)
    (s : AgentGraphState) : Prop :=
  agent.scriptedCall env inp = some tc ∧ s.pending = [tc]

/-- What holds when a node of the tool graph is about to act: nothing was called, or the same
call waits that was made in every superstep so far. -/
inductive Repeating (env : Env) (agent : Agent) (inp : AgentInput) (w : World) :
    ToolNode → AgentGraphState → World → Prop
  | first {s : AgentGraphState} {v : World} (hsteps : s.steps.getD 0 = 0)
      (hpending : s.pending = []) (hlast : EndsWithMessage inp s.messages)
      (hv : w.Exchanged 0 [] v) :
      Repeating env agent inp w .callLlm s v
  | again {s : AgentGraphState} {v : World} {k : ℕ} {tc : ToolCall} (hk : k ≤ maxToolRounds)
      (hsteps : s.steps.getD 0 = k) (hwaiting : agent.Waiting env inp tc s)
      (hlast : EndsWithResult s.messages)
      (hv : w.Exchanged k (List.replicate k (inp.invocation tc)) v) :
      Repeating env agent inp w .callLlm s v
  | calling {s : AgentGraphState} {v : World} {k : ℕ} {tc : ToolCall} (hk : k < maxToolRounds)
      (hsteps : s.steps.getD 0 = k) (hwaiting : agent.Waiting env inp tc s)
      (hv : w.Exchanged (k + 1) (List.replicate k (inp.invocation tc)) v) :
      Repeating env agent inp w .executeTools s v
  | uncalled {s : AgentGraphState} {v : World} (hv : w.Exchanged 1 [] v) :
      Repeating env agent inp w .finalize s v
  | done {s : AgentGraphState} {v : World} {tc : ToolCall}
      (hscripted : agent.scriptedCall env inp = some tc)
      (hv : w.Exchanged (maxToolRounds + 1)
        (List.replicate maxToolRounds (inp.invocation tc)) v) :
      Repeating env agent inp w .finalize s v

/-- What a run of the graph behind the script has exchanged: the scripted call of the message
`k` times, if at all. -/
def Agent.Times (env : Env) (agent : Agent) (inp : AgentInput) (w : World) (k : ℕ) (v : World) :
    Prop :=
  w.Exchanged (maxToolRounds + 1) [] v ∨ ∃ tc, agent.scriptedCall env inp = some tc ∧
    w.Exchanged (maxToolRounds + 1) (List.replicate k (inp.invocation tc)) v

/-- The same, with no more than six calls. -/
def Agent.TimesAtMost (env : Env) (agent : Agent) (inp : AgentInput) (w v : World) : Prop :=
  ∃ k ≤ maxToolRounds, agent.Times env inp w k v

theorem Agent.Times.keeps {x : Run Unit}
    (hx : ∀ calls, Keeps (w.Exchanged (maxToolRounds + 1) calls) x) :
    Keeps (agent.Times env inp w k) x := by
  rintro v (hv | ⟨tc, hscripted, hv⟩)
  · exact .inl (hx _ v hv)
  · exact .inr ⟨tc, hscripted, hx _ v hv⟩

theorem Repeating.atMost {n : ToolNode} {s : AgentGraphState} {v : World}
    (h : Repeating env agent inp w n s v) : agent.TimesAtMost env inp w v := by
  cases h with
  | first _ _ _ hv => exact ⟨0, Nat.zero_le _, .inl (hv.mono (Nat.zero_le _))⟩
  | again hk _ hwaiting _ hv =>
    exact ⟨_, hk, .inr ⟨_, hwaiting.1, hv.mono (Nat.le_succ_of_le hk)⟩⟩
  | calling hk _ hwaiting hv =>
    exact ⟨_, hk.le, .inr ⟨_, hwaiting.1, hv.mono (Nat.succ_le_succ hk.le)⟩⟩
  | uncalled hv => exact ⟨0, Nat.zero_le _, .inl (hv.mono (by simp [maxToolRounds]))⟩
  | done hscripted hv => exact ⟨_, Nat.le_refl _, .inr ⟨_, hscripted, hv⟩⟩

/-- The state after an answer that asks for nothing, or after the calls: what waited, waits. -/
theorem AgentGraphState.merge_pending {s u : AgentGraphState} (hu : u.pendingToolCalls = none) :
    (s.merge u).pending = s.pending := by
  simp [AgentGraphState.pending, AgentGraphState.merge, hu]

/-- The update of `callLlmNode` for a response. -/
def AgentGraphState.answered (s : AgentGraphState) (response : LLMResponse) : AgentGraphState where
  reply := some response.text
  tokenUsage := some response.usage
  steps := some (s.steps.getD 0)
  pendingToolCalls := if response.toolCalls.isEmpty then none else some response.toolCalls

/-- What the node that asks the model does, given what the exchange leaves. -/
theorem ToolNode.callLlm_of_askModel (agent : Agent) {s : AgentGraphState}
    (hinput : s.input = some inp) {P R : World → Prop} {Q : LLMResponse → World → Prop}
    (hstart : ∀ v, P v → R v)
    (hask : Triple P (agent.askModel env inp s.messages) Q fun _ => R)
    (htokens : ∀ response usage, Keeps (Q response) (Env.recordTokens agent.key usage))
    (hraise : ∀ response v, Q response v → R v) :
    Triple P (ToolNode.callLlmNode env agent s)
      (fun u v => ∃ response, u = s.answered response ∧ Q response v) fun _ => R := by
  unfold ToolNode.callLlmNode
  rw [hinput]
  refine Triple.bind (Triple.pure (Q := fun a v => a = inp ∧ P v) fun _ hv => ⟨rfl, hv⟩)
    fun a => ?_
  rintro v ⟨ha, hv⟩
  subst ha
  refine Triple.bind (P := P) (Q := fun _ => P) (S := fun u v => ∃ response,
    u = s.answered response ∧ Q response v) (Triple.ofExcept (fun _ _ _ hv => hv)
    fun _ v _ hv => hstart v hv) (fun _ => ?_) v hv
  refine Triple.bind hask fun response => ?_
  refine Triple.bind ((htokens response response.usage).triple fun _ => hraise response)
    fun _ => ?_
  exact Triple.pure fun v hv => ⟨response, rfl, hv⟩

theorem AgentGraphState.answered_steps (s : AgentGraphState) (response : LLMResponse) :
    (s.merge (s.answered response)).steps.getD 0 = s.steps.getD 0 := rfl

theorem AgentGraphState.answered_pending_of_nil (s : AgentGraphState) {response : LLMResponse}
    (h : response.toolCalls = []) : (s.merge (s.answered response)).pending = s.pending :=
  merge_pending (by simp [answered, h])

theorem AgentGraphState.answered_pending_of_one (s : AgentGraphState) {response : LLMResponse}
    {tc : ToolCall} (h : response.toolCalls = [tc]) :
    (s.merge (s.answered response)).pending = [tc] := by
  simp [answered, pending, merge, h]

/-- **The node that asks**: before the first result the script may ask for its tool, after it
nothing is asked for, and what waits goes on waiting. -/
theorem ToolNode.callLlm_repeating (h : env.Scripted) {s : AgentGraphState}
    (hinput : s.input = some inp) :
    Triple (Repeating env agent inp w .callLlm s) (ToolNode.callLlmNode env agent s)
      (fun u v => ∀ n', ToolNode.next .callLlm (s.merge u) = some n' →
        Repeating env agent inp w n' (s.merge u) v)
      fun _ v => agent.TimesAtMost env inp w v := by
  intro v hstart
  cases hstart with
  | first hsteps hpending hlast hv =>
    have hnothing : ∀ k ≤ 1, ∀ v', w.Exchanged k [] v' → agent.TimesAtMost env inp w v' :=
      fun k hk v' hv' => ⟨0, Nat.zero_le _, .inl (hv'.mono (hk.trans (by simp [maxToolRounds])))⟩
    have hnode := ToolNode.callLlm_of_askModel agent hinput (hnothing 0 (Nat.zero_le 1))
      ((askModel_of_message h hlast).raises fun _ => hnothing 1 (Nat.le_refl 1))
      (fun _ _ _ hv' => hv') fun _ v' hv' => hnothing 1 (Nat.le_refl 1) v' hv'.2
    refine hnode.weaken ?_ v hv
    rintro u v' ⟨response, rfl, hcalls, hv'⟩ n' hnext
    rw [ToolNode.next, AgentGraphState.answered_steps, hsteps] at hnext
    rcases hcalls with hnone | ⟨tc, hscripted, hone⟩
    · rw [s.answered_pending_of_nil hnone, hpending, if_neg (by simp)] at hnext
      obtain rfl := Option.some.inj hnext
      exact .uncalled hv'
    · have hwaiting := s.answered_pending_of_one hone
      rw [hwaiting, if_pos (by simp [maxToolRounds])] at hnext
      obtain rfl := Option.some.inj hnext
      exact .calling (k := 0) (by simp [maxToolRounds]) hsteps ⟨hscripted, hwaiting⟩ hv'
  | again hk hsteps hwaiting hlast hv =>
    rename_i k tc
    have htimes : ∀ j ≤ k + 1, ∀ v',
        w.Exchanged j (List.replicate k (inp.invocation tc)) v' → agent.TimesAtMost env inp w v' :=
      fun j hj v' hv' => ⟨k, hk, .inr ⟨tc, hwaiting.1, hv'.mono (hj.trans (Nat.succ_le_succ hk))⟩⟩
    have hnode := ToolNode.callLlm_of_askModel agent hinput (htimes k (Nat.le_succ k))
      ((askModel_of_result h hlast).raises fun _ => htimes (k + 1) (Nat.le_refl _))
      (fun _ _ _ hv' => hv') fun _ v' hv' => htimes (k + 1) (Nat.le_refl _) v' hv'.2
    refine hnode.weaken ?_ v hv
    rintro u v' ⟨response, rfl, hnone, hv'⟩ n' hnext
    have hstill : agent.Waiting env inp tc (s.merge (s.answered response)) :=
      ⟨hwaiting.1, (s.answered_pending_of_nil hnone).trans hwaiting.2⟩
    rw [ToolNode.next, AgentGraphState.answered_steps, hsteps, hstill.2] at hnext
    by_cases hlt : k < maxToolRounds
    · rw [if_pos ⟨List.cons_ne_nil _ _, hlt⟩] at hnext
      obtain rfl := Option.some.inj hnext
      exact .calling hlt hsteps hstill hv'
    · obtain rfl : k = maxToolRounds := by omega
      rw [if_neg fun hboth => hlt hboth.2] at hnext
      obtain rfl := Option.some.inj hnext
      exact .done hwaiting.1 hv'

/-- The call of one tool in a graph. -/
theorem ToolNode.callTools_one (tc : ToolCall) :
    Triple (w.Exchanged k calls) (ToolNode.callTools env inp [tc])
      (fun settled v => (∃ s, settled = [s]) ∧ w.Exchanged k (calls ++ [inp.invocation tc]) v)
      fun _ v => w.Exchanged k (calls ++ [inp.invocation tc]) v := by
  have hcall : Triple (w.Exchanged k calls) (env.callTool (inp.invocation tc))
      (fun _ => w.Exchanged k (calls ++ [inp.invocation tc]))
      fun _ => w.Exchanged k (calls ++ [inp.invocation tc]) := fun _ hv => hv.call rfl
  refine Triple.bind hcall fun execution => ?_
  cases execution.toExcept with
  | error e => exact Triple.raise fun _ hv => hv
  | ok result => exact Triple.pure fun _ hv => ⟨⟨_, rfl⟩, hv⟩

/-- **The node that executes** makes the call that waits, and leaves it waiting. -/
theorem ToolNode.executeTools_repeating {s : AgentGraphState} (hinput : s.input = some inp) :
    Triple (Repeating env agent inp w .executeTools s) (ToolNode.executeToolsNode env s)
      (fun u v => Repeating env agent inp w .callLlm (s.merge u) v)
      fun _ v => agent.TimesAtMost env inp w v := by
  intro v hstart
  cases hstart with
  | calling hk hsteps hwaiting hv =>
    rename_i k tc
    have honce : ∀ v', w.Exchanged (k + 1)
        (List.replicate k (inp.invocation tc) ++ [inp.invocation tc]) v' →
          w.Exchanged (k + 1) (List.replicate (k + 1) (inp.invocation tc)) v' := by
      intro v' hv'
      rw [List.replicate_succ']
      exact hv'
    have htimes : ∀ v', w.Exchanged (k + 1) (List.replicate (k + 1) (inp.invocation tc)) v' →
        agent.TimesAtMost env inp w v' :=
      fun v' hv' => ⟨k + 1, hk, .inr ⟨tc, hwaiting.1, hv'.mono (Nat.succ_le_succ hk.le)⟩⟩
    unfold ToolNode.executeToolsNode
    rw [hinput, hwaiting.2]
    refine Triple.bind (P := w.Exchanged (k + 1) (List.replicate k (inp.invocation tc)))
      (Q := fun a v' => a = inp ∧
        w.Exchanged (k + 1) (List.replicate k (inp.invocation tc)) v')
      (S := fun u v' => Repeating env agent inp w .callLlm (s.merge u) v')
      (Triple.pure fun _ hv' => ⟨rfl, hv'⟩) (fun a => ?_) v hv
    rintro v ⟨ha, hv⟩
    subst ha
    refine Triple.bind (S := fun u v' => Repeating env agent a w .callLlm (s.merge u) v')
      ((ToolNode.callTools_one tc).raises fun _ v' hv' => htimes v' (honce v' hv'))
      (fun settled => ?_) v hv
    refine Triple.pure ?_
    rintro v' ⟨⟨x, rfl⟩, hv'⟩
    refine .again hk ?_ ⟨hwaiting.1, (AgentGraphState.merge_pending rfl).trans hwaiting.2⟩
      (getLast?_append_tool _ _ _) (honce v' hv')
    show s.steps.getD 0 + 1 = k + 1
    rw [hsteps]

/-- The node that finalizes neither asks nor calls. -/
theorem ToolNode.finalize_keeps {P : World → Prop} (hremember : ∀ agentKey inp reply,
      Keeps P (Env.remember agentKey inp reply))
    (hpersist : ∀ inp used outputs reply,
      Keeps P (agent.persistRun env inp used outputs reply)) (s : AgentGraphState) :
    Keeps P (ToolNode.finalizeNode env agent s) := by
  refine Keeps.bind (channel_keeps _ _) fun inp => ?_
  refine Keeps.bind (hremember _ _ _) fun _ => ?_
  exact Keeps.bind (hpersist _ _ _ _) fun _ => Keeps.pure _

theorem ToolNode.finalize_repeating (s : AgentGraphState) :
    Triple (Repeating env agent inp w .finalize s) (ToolNode.finalizeNode env agent s)
      (fun _ v => agent.Times env inp w maxToolRounds v)
      fun _ v => agent.TimesAtMost env inp w v := by
  have hkeeps : Keeps (agent.Times env inp w maxToolRounds)
      (ToolNode.finalizeNode env agent s) :=
    ToolNode.finalize_keeps
      (fun _ _ _ => Agent.Times.keeps fun _ => World.Exchanged.remember _ _ _)
      (fun _ _ _ _ => Agent.Times.keeps fun _ => World.Exchanged.persistRun _ _ _ _ _) s
  have htimes : ∀ v, Repeating env agent inp w .finalize s v →
      agent.Times env inp w maxToolRounds v := by
    intro v hv
    cases hv with
    | uncalled hv => exact .inl (hv.mono (by simp [maxToolRounds]))
    | done hscripted hv => exact .inr ⟨_, hscripted, hv⟩
  exact fun v hv => hkeeps.triple (fun _ v' hv' => ⟨_, Nat.le_refl _, hv'⟩) v (htimes v hv)

/-- No node writes the input. -/
theorem ToolNode.act_input (n : ToolNode) (s : AgentGraphState) :
    Ensures (fun _ => True) (ToolNode.act env agent n s) fun u => u.input = none := by
  cases n with
  | callLlm =>
    refine Ensures.of_last fun _ => Ensures.of_last fun _ => ?_
    exact Ensures.of_last fun _ => Ensures.of_last fun _ => Ensures.pure rfl
  | executeTools => exact Ensures.of_last fun _ => Ensures.of_last fun _ => Ensures.pure rfl
  | finalize =>
    exact Ensures.of_last fun _ => Ensures.of_last fun _ => Ensures.of_last fun _ =>
      Ensures.pure rfl

/-- **One superstep** of the graph behind the script. -/
theorem ToolNode.act_repeating (h : env.Scripted) (n : ToolNode) (s : AgentGraphState) :
    Triple (fun v => s.input = some inp ∧ Repeating env agent inp w n s v)
      (ToolNode.act env agent n s)
      (fun u v => (ToolNode.next n (s.merge u) = none → agent.Times env inp w maxToolRounds v) ∧
        ∀ n', ToolNode.next n (s.merge u) = some n' →
          (s.merge u).input = some inp ∧ Repeating env agent inp w n' (s.merge u) v)
      fun _ v => agent.TimesAtMost env inp w v := by
  rintro v ⟨hinput, hv⟩
  have hnode : Triple (Repeating env agent inp w n s) (ToolNode.act env agent n s)
      (fun u v => (ToolNode.next n (s.merge u) = none → agent.Times env inp w maxToolRounds v) ∧
        ∀ n', ToolNode.next n (s.merge u) = some n' → Repeating env agent inp w n' (s.merge u) v)
      fun _ v => agent.TimesAtMost env inp w v := by
    cases n with
    | callLlm =>
      refine (ToolNode.callLlm_repeating h hinput).weaken fun u v' hv' => ⟨fun hnone => ?_, hv'⟩
      rw [ToolNode.next] at hnone
      split_ifs at hnone
    | executeTools =>
      refine (ToolNode.executeTools_repeating hinput).weaken fun u v' hv' =>
        ⟨fun hnone => (by cases hnone), fun n' hn' => ?_⟩
      obtain rfl := Option.some.inj hn'
      exact hv'
    | finalize =>
      exact (ToolNode.finalize_repeating s).weaken fun u v' hv' =>
        ⟨fun _ => hv', fun _ hn' => (by cases hn')⟩
  refine ((hnode.and_ensures (ToolNode.act_input n s)).weaken ?_) v hv
  rintro u v' ⟨⟨hend, hnext⟩, hunwritten⟩
  refine ⟨hend, fun n' hn' => ⟨?_, hnext n' hn'⟩⟩
  show (u.input <|> s.input) = some inp
  rw [hunwritten, hinput]
  rfl

theorem Agent.invokeGraph_times (h : env.Scripted) (agent : Agent) (inp : AgentInput) (w : World)
    (hfresh : (w.checkpoints agent.key inp.correlationId).pending = []) :
    Triple (fun v => v = w) (agent.invokeGraph env inp)
      (fun _ v => agent.Times env inp w maxToolRounds v)
      fun _ v => agent.TimesAtMost env inp w v := by
  have hrun := LangGraph.run_triple (g := toolGraph env agent)
    (P := fun n s v => s.input = some inp ∧ Repeating env agent inp w n s v)
    (Q := fun _ v => agent.Times env inp w maxToolRounds v)
    (R := fun v => agent.TimesAtMost env inp w v) agent inp (ToolNode.act_repeating h)
    fun _ _ _ hv => hv.2.atMost
  rintro v rfl
  have hlast : EndsWithMessage inp (startState agent inp
      (v.checkpoints agent.key inp.correlationId) v).messages := by
    rw [startState_messages, EndsWithMessage, List.getLast?_append,
      agent.opening_endsWithMessage inp v]
    rfl
  have hreturned : ∀ (r : AgentResult) v', (∃ final saved u,
      agent.Times env inp v maxToolRounds u ∧ r = LangGraph.result final ∧
        v' = LangGraph.save agent.key inp.correlationId saved u) →
      agent.Times env inp v maxToolRounds v' := by
    rintro r v' ⟨final, saved, u, htimes, rfl, rfl⟩
    exact htimes
  have hraised : ∀ v', (∃ saved u, agent.TimesAtMost env inp v u ∧
      v' = LangGraph.save agent.key inp.correlationId saved u) →
      agent.TimesAtMost env inp v v' := by
    rintro v' ⟨saved, u, hatMost, rfl⟩
    exact hatMost
  exact (hrun.weaken hreturned).raises (fun _ => hraised) v
    ⟨rfl, .first rfl (startState_pending.trans hfresh) hlast .refl⟩

end Runs

/-! ## What a message makes a tool do -/

/-- **The loop calls nothing, or the scripted tool of the message once**, and asks twice at
most. -/
theorem invoke_scripted_once (env : Env) (g : RoutingLLMGateway) (hg : g.Deployed env.runtime)
    (agent : Agent) (inp : AgentInput) (w : World) :
    agent.OnceAtMost env inp w (agent.invoke (env.through g) inp w).2 := by
  have hrun := agent.invoke_onceAtMost (Env.scripted_through hg) inp w w rfl
  cases hx : agent.invoke (env.through g) inp w with
  | mk r v =>
    rw [hx] at hrun
    cases r with
    | error e => exact hrun
    | ok r => exact hrun

theorem profile_question_once :
    customerSupportAgent.OnceAtMost (demoEnv fun _ => none) demoInput World.initial
      (customerSupportAgent.invoke ((demoEnv fun _ => none).through scriptedGateway) demoInput
        World.initial).2 :=
  invoke_scripted_once _ scriptedGateway scriptedGateway_deployed _ _ _

/-- **The graph calls nothing, or the same tool six times**, on a thread where no call waits: what
waits is never cleared, and so every answer without a call repeats the call. -/
theorem invokeGraph_scripted_six (env : Env) (g : RoutingLLMGateway) (hg : g.Deployed env.runtime)
    (agent : Agent) (inp : AgentInput) (w : World)
    (hfresh : (w.checkpoints agent.key inp.correlationId).pending = []) :
    Triple (fun v => v = w) (agent.invokeGraph (env.through g) inp)
      (fun _ v => agent.Times env inp w maxToolRounds v)
      fun _ v => agent.TimesAtMost env inp w v :=
  agent.invokeGraph_times (Env.scripted_through hg) inp w hfresh

theorem profile_question_six :
    Triple (fun v => v = World.initial)
      (customerSupportAgent.invokeGraph ((demoEnv fun _ => none).through scriptedGateway) demoInput)
      (fun _ v => customerSupportAgent.Times (demoEnv fun _ => none) demoInput World.initial
        maxToolRounds v)
      fun _ v => customerSupportAgent.TimesAtMost (demoEnv fun _ => none) demoInput World.initial
        v :=
  invokeGraph_scripted_six _ scriptedGateway scriptedGateway_deployed _ _ _ rfl

end AgentPlatform
