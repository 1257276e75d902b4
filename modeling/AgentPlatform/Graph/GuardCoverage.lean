import AgentPlatform.Graph.Delegation

/-!
# The guardrails cover every path

A request runs in one of four ways: by the loop of a specialist, by the supervisor,
or by the graph of either.  The checks sit at different places on the four of them,
so their coverage is an invariant: every reply that reaches the memory or the table
of runs has passed the output check, round after round and hand-off after hand-off.

* `CleanSince` — what was remembered and recorded since a world is clean.
* `Agent.invoke_ensures`, `Supervisor.invoke_ensures` — the loops.
* `LangGraph.run_ensures` — the graphs, from what their nodes keep.
* `guardrails_cover` — **the result**, for the four paths.
-/

namespace AgentPlatform

/-! ## Clean replies -/

/-- A reply that an event hands on is clean. -/
def Event.CleanReply (g : Guardrails) : Event → Prop
  | .remembered _ _ reply => g.Clean reply
  | .recorded report => g.Clean report.reply
  | _ => True

/-- Since the world `w`, only clean replies were remembered and recorded. -/
structure CleanSince (env : Env) (w v : World) : Prop where
  log : w.Since (Event.CleanReply env.guard) v
  /-- What an agent's memory says the assistant said, it said before or is clean. -/
  memory : ∀ agentKey k, ∀ msg ∈ (v.memory agentKey).messages k, msg.role = .assistant →
    msg ∈ (w.memory agentKey).messages k ∨ env.guard.Clean msg.content
  /-- The new rows store, masked, clean replies. -/
  runs : ∃ reports : List RunReport,
    v.runs.rows = w.runs.rows ++ reports.map (RunReport.row env.runtime) ∧
      ∀ report ∈ reports, env.guard.Clean report.reply

section Clean

variable {env : Env} {w v : World}

theorem CleanSince.refl : CleanSince env w w where
  log := World.Since.refl
  memory _ _ msg hmsg _ := Or.inl hmsg
  runs := ⟨[], by simp, by simp⟩

/-- An event that hands on a clean reply, or none. -/
theorem CleanSince.push (h : CleanSince env w v) {e : Event} (he : e.CleanReply env.guard) :
    CleanSince env w (v.push e) where
  log := h.log.push he
  memory := h.memory
  runs := h.runs

theorem ask_keeps (request : LLMRequest) : Keeps (CleanSince env w) (env.ask request) := by
  intro v hv
  unfold Env.ask
  cases env.answer v.log request with
  | none => exact hv.push trivial
  | some response => exact hv.push trivial

theorem callTool_keeps (invocation : ToolInvocation) :
    Keeps (CleanSince env w) (env.callTool invocation) := fun _ hv => hv.push trivial

theorem recordTokens_keeps (agentKey : String) (usage : Usage) :
    Keeps (CleanSince env w) (Env.recordTokens agentKey usage) :=
  fun _ hv => ⟨hv.log, hv.memory, hv.runs⟩

/-- A clean reply may be remembered. -/
theorem remember_keeps {reply : String} (hclean : env.guard.Clean reply) (agentKey : String)
    (inp : AgentInput) : Keeps (CleanSince env w) (Env.remember agentKey inp reply) := by
  intro v hv
  let memory := Function.update v.memory agentKey ((v.memory agentKey).append inp reply)
  have hevent : (Event.remembered agentKey inp reply).CleanReply env.guard := hclean
  have hmemory : ∀ agentKey' k, ∀ msg ∈ (memory agentKey').messages k, msg.role = .assistant →
      msg ∈ (w.memory agentKey').messages k ∨ env.guard.Clean msg.content := by
    intro agentKey' k msg hmsg hrole
    simp only [memory] at hmsg
    by_cases hkey : agentKey' = agentKey
    · subst hkey
      rw [Function.update_self] at hmsg
      rcases AgentMemory.mem_append hmsg with hold | rfl | rfl
      · exact hv.memory agentKey' k msg hold hrole
      · cases hrole
      · exact Or.inr hclean
    · rw [Function.update_of_ne hkey] at hmsg
      exact hv.memory agentKey' k msg hmsg hrole
  have hv' : CleanSince env w { v with memory } := ⟨hv.log, hmemory, hv.runs⟩
  exact hv'.push hevent

/-- A run with a clean reply may be recorded. -/
theorem recordAgentRun_keeps {report : RunReport} (hclean : env.guard.Clean report.reply) :
    Keeps (CleanSince env w) (env.recordAgentRun report) := by
  intro v hv
  unfold Env.recordAgentRun
  split
  · obtain ⟨reports, hruns, hreports⟩ := hv.runs
    have hevent : (Event.recorded report).CleanReply env.guard := hclean
    let runs := v.runs.taken (report.row env.runtime)
    have hv' : CleanSince env w { v with runs } := by
      refine ⟨hv.log, hv.memory, reports ++ [report], ?_, ?_⟩
      · show v.runs.rows ++ [report.row env.runtime] = _
        rw [hruns, List.map_append, List.append_assoc]
        rfl
      · intro report' hreport'
        rcases List.mem_append.1 hreport' with hold | hnew
        · exact hreports report' hold
        · rw [List.mem_singleton.1 hnew]
          exact hclean
    exact hv'.push hevent
  · exact ⟨hv.log, hv.memory, hv.runs⟩

/-- A text that passes the output check is clean. -/
theorem guardOutput_ensures (text : String) :
    Ensures (CleanSince env w) (Effect.ofExcept (env.guard.guardOutput text))
      fun _ => env.guard.Clean text :=
  Ensures.ofExcept fun _ h => env.guard.guardOutput_eq_ok_iff.1 h

end Clean

/-! ## The loops -/

section Loops

variable {env : Env} {w : World}

theorem Agent.persistRun_keeps {reply : String} (hclean : env.guard.Clean reply) (agent : Agent)
    (inp : AgentInput) (used : List String) (outputs : List ToolOutput) :
    Keeps (CleanSince env w) (agent.persistRun env inp used outputs reply) :=
  Keeps.bind Keeps.get fun _ => recordAgentRun_keeps hclean

theorem Agent.askModel_ensures (agent : Agent) (inp : AgentInput) (messages : List ChatMessage) :
    Ensures (CleanSince env w) (agent.askModel env inp messages)
      fun response => env.guard.Clean response.text := by
  refine Ensures.bind (Ensures.of_keeps (ask_keeps _)) fun response _ => ?_
  exact Ensures.bind (guardOutput_ensures response.text) fun _ hclean => Ensures.pure hclean

/-- The reply of the loop is empty, or it has passed the check of its round. -/
theorem Agent.rounds_ensures (agent : Agent) (inp : AgentInput) (n : ℕ)
    (messages : List ChatMessage) (used : List String) (outputs : List ToolOutput) :
    Ensures (CleanSince env w) (agent.rounds env inp n messages used outputs)
      fun e => env.guard.Clean e.reply := by
  induction n generalizing messages used outputs with
  | zero => exact Ensures.pure env.guard.clean_empty
  | succ n ih =>
    refine Ensures.bind (agent.askModel_ensures inp messages) fun response hclean => ?_
    cases response.toolCalls.isEmpty with
    | true =>
      exact Ensures.bind (Ensures.of_keeps (recordTokens_keeps _ _)) fun _ _ => Ensures.pure hclean
    | false =>
      have hcalls : Keeps (CleanSince env w) (Agent.callTools env inp response.toolCalls) :=
        Agent.callTools_keeps (fun _ => callTool_keeps _) _
      exact Ensures.bind (Ensures.of_keeps hcalls) fun _ _ => ih _ _ _

theorem Agent.invoke_ensures (agent : Agent) (inp : AgentInput) :
    Ensures (CleanSince env w) (agent.invoke env inp) fun r => env.guard.Clean r.reply := by
  refine Ensures.bind (Ensures.of_keeps (Keeps.ofExcept _)) fun _ _ => ?_
  refine Ensures.bind (Ensures.of_keeps Keeps.get) fun v _ => ?_
  refine Ensures.bind (agent.rounds_ensures inp _ _ _ _) fun e hclean => ?_
  refine Ensures.bind (Ensures.of_keeps (remember_keeps hclean _ _)) fun _ _ => ?_
  refine Ensures.bind (Ensures.of_keeps (agent.persistRun_keeps hclean _ _ _)) fun _ _ => ?_
  refine Ensures.bind (Ensures.of_keeps Keeps.get) fun v' _ => ?_
  exact Ensures.pure (env.guard.clean_ifEmpty hclean)

/-- The composed answer is checked as well. -/
theorem Supervisor.invoke_ensures (reg : AgentRegistry) (inp : AgentInput) :
    Ensures (CleanSince env w) (Supervisor.invoke env reg inp)
      fun r => env.guard.Clean r.reply := by
  unfold Supervisor.invoke
  cases reg.specialist env.runtime inp.message with
  | none => exact Ensures.raise _
  | some specialist =>
    refine Ensures.bind (specialist.invoke_ensures inp) fun result _ => ?_
    refine Ensures.bind (Ensures.of_keeps (ask_keeps _)) fun response _ => ?_
    exact Ensures.bind (guardOutput_ensures response.text) fun _ hclean => Ensures.pure hclean

end Loops

/-! ## The graphs -/

/-- The reply in a state, if there is one, is clean. -/
def AgentGraphState.CleanReply (g : Guardrails) (s : AgentGraphState) : Prop :=
  ∀ reply, s.reply = some reply → g.Clean reply

section Graphs

variable {env : Env} {w : World}

theorem AgentGraphState.CleanReply.getD {g : Guardrails} {s : AgentGraphState}
    (h : s.CleanReply g) : g.Clean (s.reply.getD "") := by
  cases hreply : s.reply with
  | none => exact g.clean_empty
  | some reply => exact h reply hreply

/-- A reply is overwritten by another clean one, or stays. -/
theorem AgentGraphState.CleanReply.merge {g : Guardrails} {s u : AgentGraphState}
    (hs : s.CleanReply g) (hu : u.CleanReply g) : (s.merge u).CleanReply g := by
  intro reply hreply
  cases hu' : u.reply with
  | none =>
    have hmerge : (s.merge u).reply = s.reply := by simp [AgentGraphState.merge, hu']
    exact hs reply (hmerge ▸ hreply)
  | some reply' =>
    have hmerge : (s.merge u).reply = some reply' := by simp [AgentGraphState.merge, hu']
    exact hu reply (by rw [hu', ← hmerge, hreply])

theorem channel_ensures {α : Type} (key : String) (v : Option α) :
    Ensures (CleanSince env w) (channel key v) fun _ => True :=
  Ensures.of_keeps (channel_keeps key v)

/-- **Runs of graphs**: where every node keeps the reply clean, the result is clean. -/
theorem LangGraph.run_ensures {N : Type} {g : StateGraph N AgentGraphState World PyErr}
    (hmerge : g.merge = AgentGraphState.merge)
    (hact : ∀ n s, s.CleanReply env.guard →
      Ensures (CleanSince env w) (g.act n s) fun u => u.CleanReply env.guard)
    (agent : Agent) (inp : AgentInput) :
    Ensures (CleanSince env w) (LangGraph.run g agent inp) fun r => env.guard.Clean r.reply := by
  intro v hv
  have hstart : (g.merge (v.checkpoints agent.key inp.correlationId)
      (LangGraph.initial agent inp v)).CleanReply env.guard := by
    intro reply hreply
    rw [hmerge] at hreply
    obtain rfl : "" = reply := Option.some.inj hreply
    exact env.guard.clean_empty
  have hsteps := g.steps_induction
    (P := fun _ s v => s.CleanReply env.guard ∧ CleanSince env w v)
    (Q := fun s v => s.CleanReply env.guard ∧ CleanSince env w v)
    (R := fun _ v => CleanSince env w v)
    (fun n s v h => h.2)
    (fun n s v e v' h herror => Triple.of_error (hact n s h.1) h.2 herror)
    (fun n s v u v' h hok _ => by
      obtain ⟨hu, hv'⟩ := Triple.of_ok (hact n s h.1) h.2 hok
      exact ⟨hmerge ▸ h.1.merge hu, hv'⟩)
    (fun n s v u v' n' h hok _ => by
      obtain ⟨hu, hv'⟩ := Triple.of_ok (hact n s h.1) h.2 hok
      exact ⟨hmerge ▸ h.1.merge hu, hv'⟩)
    LangGraph.recursionLimit (n := g.entry) ⟨hstart, hv⟩
  unfold LangGraph.run LangGraph.finished StateGraph.start
  cases houtcome : (g.steps LangGraph.recursionLimit g.entry
      (g.merge (v.checkpoints agent.key inp.correlationId) (LangGraph.initial agent inp v))
      v).outcome with
  | error e =>
    rw [houtcome] at hsteps
    exact ⟨hsteps.log, hsteps.memory, hsteps.runs⟩
  | ok final =>
    rw [houtcome] at hsteps
    obtain ⟨hfinal, hworld⟩ := hsteps
    exact ⟨env.guard.clean_ifEmpty hfinal.getD, hworld.log, hworld.memory, hworld.runs⟩

theorem ToolNode.act_ensures (agent : Agent) (n : ToolNode) (s : AgentGraphState)
    (hs : s.CleanReply env.guard) :
    Ensures (CleanSince env w) (ToolNode.act env agent n s) fun u => u.CleanReply env.guard := by
  cases n with
  | callLlm =>
    refine Ensures.bind (channel_ensures _ _) fun inp _ => ?_
    refine Ensures.bind (Ensures.of_keeps (Keeps.ofExcept _)) fun _ _ => ?_
    refine Ensures.bind (agent.askModel_ensures inp _) fun response hclean => ?_
    refine Ensures.bind (Ensures.of_keeps (recordTokens_keeps _ _)) fun _ _ => ?_
    refine Ensures.pure fun reply hreply => ?_
    obtain rfl := Option.some.inj hreply
    exact hclean
  | executeTools =>
    refine Ensures.bind (channel_ensures _ _) fun inp _ => ?_
    have hcalls : Keeps (CleanSince env w) (ToolNode.callTools env inp s.pending) :=
      ToolNode.callTools_keeps (fun _ => callTool_keeps _) _
    refine Ensures.bind (Ensures.of_keeps hcalls) fun _ _ => ?_
    exact Ensures.pure fun _ hreply => by cases hreply
  | finalize =>
    refine Ensures.bind (channel_ensures _ _) fun inp _ => ?_
    refine Ensures.bind (Ensures.of_keeps (remember_keeps hs.getD _ _)) fun _ _ => ?_
    refine Ensures.bind (Ensures.of_keeps (agent.persistRun_keeps hs.getD _ _ _)) fun _ _ => ?_
    exact Ensures.pure fun _ hreply => by cases hreply

theorem Agent.invokeGraph_ensures (agent : Agent) (inp : AgentInput) :
    Ensures (CleanSince env w) (agent.invokeGraph env inp) fun r => env.guard.Clean r.reply :=
  LangGraph.run_ensures rfl (ToolNode.act_ensures agent) agent inp

theorem Agent.invokeResolved_ensures (agent : Agent) (inp : AgentInput) :
    Ensures (CleanSince env w) (agent.invokeResolved env inp)
      fun r => env.guard.Clean r.reply :=
  Agent.invokeResolved_of_both (P := fun x => Ensures _ x _) (agent.invoke_ensures inp)
    (agent.invokeGraph_ensures inp)

theorem SupervisorNode.act_ensures (reg : AgentRegistry) (n : SupervisorNode)
    (s : AgentGraphState) :
    Ensures (CleanSince env w) (SupervisorNode.act env reg n s)
      fun u => u.CleanReply env.guard := by
  cases n with
  | route =>
    refine Ensures.bind (channel_ensures _ _) fun inp _ => ?_
    refine Ensures.bind (Ensures.of_keeps (Keeps.ofExcept _)) fun _ _ => ?_
    exact Ensures.pure fun _ hreply => by cases hreply
  | invokeSpecialist =>
    refine Ensures.bind (channel_ensures _ _) fun inp _ => ?_
    refine Ensures.bind (channel_ensures _ _) fun key _ => ?_
    cases reg.getAgent key with
    | none => exact Ensures.raise _
    | some specialist =>
      refine Ensures.bind (specialist.invokeResolved_ensures inp) fun result _ => ?_
      exact Ensures.pure fun _ hreply => by cases hreply
  | compose =>
    refine Ensures.bind (channel_ensures _ _) fun inp _ => ?_
    refine Ensures.bind (Ensures.of_keeps (ask_keeps _)) fun response _ => ?_
    refine Ensures.bind (guardOutput_ensures response.text) fun _ hclean => ?_
    refine Ensures.bind (Ensures.of_keeps (recordTokens_keeps _ _)) fun _ _ => ?_
    refine Ensures.bind (Ensures.of_keeps (Agent.persistRun_keeps hclean _ _ _ _)) fun _ _ => ?_
    refine Ensures.bind (Ensures.of_keeps (remember_keeps hclean _ _)) fun _ _ => ?_
    refine Ensures.pure fun reply hreply => ?_
    obtain rfl := Option.some.inj hreply
    exact hclean

theorem Supervisor.invokeGraph_ensures (reg : AgentRegistry) (inp : AgentInput) :
    Ensures (CleanSince env w) (Supervisor.invokeGraph env reg inp)
      fun r => env.guard.Clean r.reply :=
  LangGraph.run_ensures rfl (fun n s _ => SupervisorNode.act_ensures reg n s) supervisorAgent inp

end Graphs

/-! ## The four paths -/

/-- The ways a request is run. -/
inductive ExecutionPath where
  | specialist (agent : Agent)
  | supervisor (reg : AgentRegistry)
  | specialistGraph (agent : Agent)
  | supervisorGraph (reg : AgentRegistry)

namespace ExecutionPath

/-- The run of a request on a path. -/
def run (env : Env) (inp : AgentInput) : ExecutionPath → Run AgentResult
  | specialist agent => agent.invoke env inp
  | supervisor reg => Supervisor.invoke env reg inp
  | specialistGraph agent => agent.invokeGraph env inp
  | supervisorGraph reg => Supervisor.invokeGraph env reg inp

/-- Whom the supervisor would delegate to is registered. -/
def Staffed (env : Env) (inp : AgentInput) : ExecutionPath → Prop
  | supervisor reg => reg.specialist env.runtime inp.message ≠ none
  | _ => True

variable {env : Env} {inp : AgentInput}

/-- The registry the platform starts with has a specialist for every message. -/
theorem staffed_agentRegistry : (supervisor agentRegistry).Staffed env inp := by
  show agentRegistry.specialist env.runtime inp.message ≠ none
  obtain ⟨specialist, hspecialist⟩ := exists_specialist env.runtime inp.message
  rw [hspecialist]
  exact Option.some_ne_none specialist

theorem run_ensures (path : ExecutionPath) (w : World) :
    Ensures (CleanSince env w) (path.run env inp) fun r => env.guard.Clean r.reply := by
  cases path with
  | specialist agent => exact agent.invoke_ensures inp
  | supervisor reg => exact Supervisor.invoke_ensures reg inp
  | specialistGraph agent => exact agent.invokeGraph_ensures inp
  | supervisorGraph reg => exact Supervisor.invokeGraph_ensures reg inp

end ExecutionPath

/-- Nothing was asked, called, remembered or recorded between two worlds. -/
structure Untouched (w v : World) : Prop where
  log : v.log = w.log
  memory : v.memory = w.memory
  runs : v.runs = w.runs

section Injection

variable {env : Env} {inp : AgentInput} {e : PyErr} {w : World}

theorem Supervisor.invoke_of_refused (h : env.guard.guardInput inp.message = .error e)
    {reg : AgentRegistry} {specialist : Agent}
    (hspecialist : reg.specialist env.runtime inp.message = some specialist) :
    Supervisor.invoke env reg inp w = (.error e, w) := by
  rw [Supervisor.invoke, hspecialist]
  exact Effect.bind_of_error (Agent.invoke_of_refused h) _

/-- A message that is refused is refused on every path before anything is done. -/
theorem ExecutionPath.run_of_refused (h : env.guard.guardInput inp.message = .error e)
    (path : ExecutionPath) :
    ∃ e' v, path.run env inp w = (.error e', v) ∧ Untouched w v ∧
      (e' = e ∨ ¬ path.Staffed env inp ∧
        e' = .runtimeError "customer_support agent not registered") := by
  cases path with
  | specialist agent =>
    exact ⟨e, w, Agent.invoke_of_refused h, ⟨rfl, rfl, rfl⟩, Or.inl rfl⟩
  | supervisor reg =>
    cases hspecialist : reg.specialist env.runtime inp.message with
    | none =>
      refine ⟨_, w, ?_, ⟨rfl, rfl, rfl⟩, Or.inr ⟨fun hstaffed => hstaffed hspecialist, rfl⟩⟩
      show Supervisor.invoke env reg inp w = _
      rw [Supervisor.invoke, hspecialist]
      rfl
    | some specialist =>
      exact ⟨e, w, Supervisor.invoke_of_refused h hspecialist, ⟨rfl, rfl, rfl⟩, Or.inl rfl⟩
  | specialistGraph agent =>
    exact ⟨e, _, invokeGraph_of_refused h, ⟨rfl, rfl, rfl⟩, Or.inl rfl⟩
  | supervisorGraph reg =>
    exact ⟨e, _, Supervisor.invokeGraph_of_refused h, ⟨rfl, rfl, rfl⟩, Or.inl rfl⟩

end Injection

/-- **The guardrails cover every path.**  A message that looks like an injection makes
every path raise before anything is asked, called, remembered or recorded, and what is
raised is a guardrail error (or, of the supervisor, that its specialist is not
registered).  On any message, the reply of a path is clean, and so is every reply it
remembers or hands over to be recorded, whether or not it raises afterwards. -/
theorem guardrails_cover (env : Env) (path : ExecutionPath) (inp : AgentInput) (w : World) :
    (env.guard.detectPromptInjection inp.message = true →
      ∃ e v, path.run env inp w = (.error e, v) ∧ Untouched w v ∧
        (e.className = "GuardrailError" ∨ ¬ path.Staffed env inp ∧
          e = .runtimeError "customer_support agent not registered")) ∧
    CleanSince env w (path.run env inp w).2 ∧
    ∀ r, (path.run env inp w).1 = .ok r → env.guard.Clean r.reply := by
  refine ⟨fun hinjection => ?_, (path.run_ensures w).world CleanSince.refl, fun r hr => ?_⟩
  · obtain ⟨e, v, hrun, huntouched, herror⟩ :=
      path.run_of_refused (w := w) (env.guard.guardInput_of_injection hinjection)
    refine ⟨e, v, hrun, huntouched, herror.imp_left ?_⟩
    rintro rfl
    rfl
  · exact (Triple.of_ok (path.run_ensures w) CleanSince.refl (Prod.ext hr rfl)).1

/-- Detectors that take the mask of an identifier for an escape. -/
def maskWary : Guardrails :=
  { Guardrails.silent with
    detectJailbreakAttempt := fun text => text == "PANXXXX9999"
    jailbreak_empty := by decide
    jailbreak_fallback := by decide }

/-- A model that repeats an identifier. -/
def identifierEnv : Env :=
  { demoEnv fun _ => some (replies "ABCDE1234F") with guard := maskWary }

/-- A clean reply need not be clean as it is stored: the mask is put in after the check. -/
theorem stored_reply_not_clean :
    ∃ r v run stored,
      (ExecutionPath.specialist customerSupportAgent).run identifierEnv demoInput World.initial =
          (.ok r, v) ∧
        run ∈ v.runs.rows ∧ run.reply? = some stored ∧
          identifierEnv.guard.detectJailbreakAttempt stored = true := by
  refine ⟨_, _, _, "PANXXXX9999", rfl, List.mem_singleton.2 rfl, ?_, by decide⟩
  decide +kernel

end AgentPlatform
