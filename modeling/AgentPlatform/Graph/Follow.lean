import AgentPlatform.Agents.Dialogue
import AgentPlatform.Graph.Tools

/-!
# The tool graph along a dialogue

What the supersteps of the tool graph make of a dialogue.  As long as no tool call
raises, two supersteps are one round; a call that raises ends the run with an
attribute error; and when a response comes without tool calls, the calls of the
round before are still pending.

* `act_callLlm`, `act_executeTools_of_quiet`, `act_executeTools_of_raise` — the
  nodes, on a world.
* `steps_round`, `steps_refused`, `steps_closing`, `steps_stale`, `steps_raise` — the
  supersteps from one request to the next.
* `steps_follow` — **two supersteps a round**: where a quiet dialogue leads.
-/

namespace AgentPlatform

open StateGraph

variable {env : Env} {agent : Agent} {inp : AgentInput}

/-! ## The nodes on a world -/

/-- What the graph notes of a call. -/
def Settled.graphOutput (s : Settled) : ToolOutput := ⟨s.call.name, true, s.result.data⟩

/-- The update of a request that was answered. -/
def answerUpdate (s : AgentGraphState) (response : LLMResponse) : AgentGraphState where
  reply := some response.text
  tokenUsage := some response.usage
  steps := some (s.steps.getD 0)
  pendingToolCalls := if response.toolCalls.isEmpty then none else some response.toolCalls

/-- The update of a round of tool calls. -/
def toolsUpdate (env : Env) (s : AgentGraphState) (settled : List Settled) : AgentGraphState where
  usedTools := settled.map Settled.name
  toolOutputs := settled.map Settled.graphOutput
  messages := settled.map (Settled.message env.runtime)
  steps := some (s.steps.getD 0 + 1)

/-- The world with the token counts of a response. -/
def World.counted (w : World) (agentKey : String) (response : LLMResponse) : World :=
  { w with lastUsage := Function.update w.lastUsage agentKey response.usage }

@[simp] theorem World.counted_log (w : World) (agentKey : String) (response : LLMResponse) :
    (w.counted agentKey response).log = w.log := rfl

@[simp] theorem World.counted_memory (w : World) (agentKey : String) (response : LLMResponse) :
    (w.counted agentKey response).memory = w.memory := rfl

@[simp] theorem World.counted_runs (w : World) (agentKey : String) (response : LLMResponse) :
    (w.counted agentKey response).runs = w.runs := rfl

theorem act_callLlm {s : AgentGraphState} (hinput : s.input = some inp)
    (hguard : env.guard.guardInput inp.message = .ok ()) (w : World) :
    (toolGraph env agent).act .callLlm s w =
      match exchange env agent inp s.messages w.log with
      | (.error e, log) => (.error e, w.withLog log)
      | (.ok response, log) =>
        (.ok (answerUpdate s response), (w.withLog log).counted agent.key response) := by
  show ToolNode.callLlmNode env agent s w = _
  simp only [ToolNode.callLlmNode, channel, hinput, hguard, Effect.bind_apply, Effect.pure_apply,
    Effect.ofExcept_apply, askModel_apply]
  cases exchange env agent inp s.messages w.log with
  | mk r log => cases r <;> rfl

/-- A message that is refused ends the run at the first node. -/
theorem act_callLlm_of_refused {s : AgentGraphState} {e : PyErr} (hinput : s.input = some inp)
    (hguard : env.guard.guardInput inp.message = .error e) (w : World) :
    (toolGraph env agent).act .callLlm s w = (.error e, w) := by
  show ToolNode.callLlmNode env agent s w = _
  simp only [ToolNode.callLlmNode, channel, hinput, hguard, Effect.bind_apply, Effect.pure_apply,
    Effect.ofExcept_apply]

/-- The executions up to the first that raises. -/
def upToRaise : List Execution → List Execution
  | [] => []
  | x :: xs => if x.raises then [x] else x :: upToRaise xs

theorem upToRaise_initial (xs : List Execution) : upToRaise xs <+: xs := by
  induction xs with
  | nil => exact List.prefix_refl _
  | cons x xs ih =>
    rw [upToRaise]
    split
    · exact List.prefix_iff_eq_append.2 rfl
    · exact List.prefix_cons_inj x |>.2 ih

theorem Execution.raises_of_error {x : Execution} {e : PyErr} (h : x.toExcept = .error e) :
    x.raises = true := by
  rw [raises, h]

theorem Execution.not_raises_of_ok {x : Execution} {result : ToolResult}
    (h : x.toExcept = .ok result) : x.raises = false := by
  rw [raises, h]

theorem Execution.settle_of_ok {x : Execution} {result : ToolResult} (rt : PyRuntime)
    (h : x.toExcept = .ok result) : x.settle rt = result := by
  rw [settle, h]

/-- A list of calls of which none raises. -/
theorem callTools_of_quiet {tcs : List ToolCall} {w : World}
    (h : ∀ x ∈ callAll env inp tcs w.log, x.raises = false) :
    ToolNode.callTools env inp tcs w =
      (.ok (List.zipWith (fun tc x => ⟨tc, x.settle env.runtime⟩) tcs
          (callAll env inp tcs w.log)),
        w.withLog (w.log ++ calledEvents inp tcs (callAll env inp tcs w.log))) := by
  induction tcs generalizing w with
  | nil => simp [ToolNode.callTools, World.withLog]
  | cons tc tcs ih =>
    simp only [callAll, List.mem_cons, forall_eq_or_imp] at h
    obtain ⟨hx, hxs⟩ := h
    simp only [ToolNode.callTools, Effect.bind_apply, Env.callTool]
    cases hex : (env.execute (invocationsIn w.log) (inp.invocation tc)).toExcept with
    | error e => rw [Execution.raises_of_error hex] at hx; cases hx
    | ok result =>
      simp only [Effect.bind_apply]
      rw [ih (w := w.push _) hxs]
      simp [World.push, World.withLog, callAll, Execution.settle_of_ok env.runtime hex]

/-- A list of calls of which one raises. -/
theorem callTools_of_raise {tcs : List ToolCall} {w : World}
    (h : ∃ x ∈ callAll env inp tcs w.log, x.raises = true) :
    ToolNode.callTools env inp tcs w =
      (.error .attributeError,
        w.withLog (w.log ++ calledEvents inp tcs (upToRaise (callAll env inp tcs w.log)))) := by
  induction tcs generalizing w with
  | nil => obtain ⟨x, hx, -⟩ := h; exact absurd hx (by simp [callAll])
  | cons tc tcs ih =>
    simp only [ToolNode.callTools, Effect.bind_apply, Env.callTool]
    cases hex : (env.execute (invocationsIn w.log) (inp.invocation tc)).toExcept with
    | error e =>
      simp [callAll, upToRaise, Execution.raises_of_error hex, World.push]
    | ok result =>
      have hfalse := Execution.not_raises_of_ok hex
      simp only [callAll, List.mem_cons, exists_eq_or_imp, hfalse, Bool.false_eq_true,
        false_or] at h
      simp only [Effect.bind_apply]
      rw [ih (w := w.push _) h]
      simp [World.push, World.withLog, callAll, upToRaise, hfalse]

theorem act_executeTools_of_quiet {s : AgentGraphState} (hinput : s.input = some inp) {w : World}
    (h : ∀ x ∈ callAll env inp s.pending w.log, x.raises = false) :
    (toolGraph env agent).act .executeTools s w =
      (.ok (toolsUpdate env s (List.zipWith (fun tc x => ⟨tc, x.settle env.runtime⟩) s.pending
          (callAll env inp s.pending w.log))),
        w.withLog (w.log ++ calledEvents inp s.pending (callAll env inp s.pending w.log))) := by
  show ToolNode.executeToolsNode env s w = _
  simp only [ToolNode.executeToolsNode, channel, hinput, Effect.bind_apply, Effect.pure_apply,
    callTools_of_quiet h]
  rfl

theorem act_executeTools_of_raise {s : AgentGraphState} (hinput : s.input = some inp) {w : World}
    (h : ∃ x ∈ callAll env inp s.pending w.log, x.raises = true) :
    (toolGraph env agent).act .executeTools s w =
      (.error .attributeError, w.withLog (w.log ++
        calledEvents inp s.pending (upToRaise (callAll env inp s.pending w.log)))) := by
  show ToolNode.executeToolsNode env s w = _
  simp only [ToolNode.executeToolsNode, channel, hinput, Effect.bind_apply, Effect.pure_apply,
    callTools_of_raise h]

/-! ## From one request to the next -/

/-- The state after an answer. -/
def afterAnswer (s : AgentGraphState) (response : LLMResponse) : AgentGraphState :=
  s.merge (answerUpdate s response)

/-- The state after an answer and the round of tool calls it opens. -/
def afterRound (env : Env) (s : AgentGraphState) (r : Round) : AgentGraphState :=
  (afterAnswer s r.response).merge
    (toolsUpdate env (afterAnswer s r.response) (r.settled env.runtime))

section States

variable {s : AgentGraphState} {response : LLMResponse}

@[simp] theorem afterAnswer_input : (afterAnswer s response).input = s.input := rfl

@[simp] theorem afterAnswer_messages : (afterAnswer s response).messages = s.messages := by
  simp [afterAnswer, AgentGraphState.merge, answerUpdate]

@[simp] theorem afterAnswer_usedTools : (afterAnswer s response).usedTools = s.usedTools := by
  simp [afterAnswer, AgentGraphState.merge, answerUpdate]

@[simp] theorem afterAnswer_toolOutputs :
    (afterAnswer s response).toolOutputs = s.toolOutputs := by
  simp [afterAnswer, AgentGraphState.merge, answerUpdate]

@[simp] theorem afterAnswer_steps :
    (afterAnswer s response).steps = some (s.steps.getD 0) := rfl

@[simp] theorem afterAnswer_reply : (afterAnswer s response).reply = some response.text := rfl

/-- A response with tool calls replaces what is pending. -/
theorem afterAnswer_pending (h : response.toolCalls ≠ []) :
    (afterAnswer s response).pending = response.toolCalls := by
  simp [afterAnswer, AgentGraphState.merge, answerUpdate, AgentGraphState.pending, h]

/-- A response without tool calls leaves pending what was. -/
theorem afterAnswer_pending_of_nil (h : response.toolCalls = []) :
    (afterAnswer s response).pending = s.pending := by
  simp [afterAnswer, AgentGraphState.merge, answerUpdate, AgentGraphState.pending, h]

variable {r : Round}

@[simp] theorem afterRound_input : (afterRound env s r).input = s.input := rfl

@[simp] theorem afterRound_messages :
    (afterRound env s r).messages = s.messages ++ r.messages env.runtime := by
  simp [afterRound, AgentGraphState.merge, toolsUpdate, Round.messages,
    afterAnswer, answerUpdate]

@[simp] theorem afterRound_usedTools :
    (afterRound env s r).usedTools = s.usedTools ++ (r.settled env.runtime).map Settled.name := by
  simp [afterRound, AgentGraphState.merge, toolsUpdate, afterAnswer, answerUpdate]

@[simp] theorem afterRound_toolOutputs :
    (afterRound env s r).toolOutputs =
      s.toolOutputs ++ (r.settled env.runtime).map Settled.graphOutput := by
  simp [afterRound, AgentGraphState.merge, toolsUpdate, afterAnswer, answerUpdate]

@[simp] theorem afterRound_steps : (afterRound env s r).steps = some (s.steps.getD 0 + 1) := rfl

@[simp] theorem afterRound_delegatedTo : (afterRound env s r).delegatedTo = s.delegatedTo := rfl

@[simp] theorem afterRound_decision : (afterRound env s r).decision = s.decision := rfl

theorem afterRound_pending (h : r.response.toolCalls ≠ []) :
    (afterRound env s r).pending = r.response.toolCalls := by
  simp [afterRound, AgentGraphState.merge, toolsUpdate, AgentGraphState.pending, afterAnswer,
    answerUpdate, h]

end States

section Supersteps

variable {s : AgentGraphState} {w : World} {log : List Event} {response : LLMResponse} {L : ℕ}

/-- The model did not answer, or not cleanly: the run ends. -/
theorem steps_refused (hinput : s.input = some inp)
    (hguard : env.guard.guardInput inp.message = .ok ()) {e : PyErr}
    (hx : exchange env agent inp s.messages w.log = (.error e, log)) :
    (toolGraph env agent).steps (L + 1) .callLlm s w = ⟨.error e, s, w.withLog log⟩ := by
  apply steps_error
  rw [act_callLlm hinput hguard, hx]

theorem act_callLlm_ok (hinput : s.input = some inp)
    (hguard : env.guard.guardInput inp.message = .ok ())
    (hx : exchange env agent inp s.messages w.log = (.ok response, log)) :
    (toolGraph env agent).act .callLlm s w =
      (.ok (answerUpdate s response), (w.withLog log).counted agent.key response) := by
  rw [act_callLlm hinput hguard, hx]

/-- With calls pending and rounds left, the tools are next. -/
theorem next_executeTools (hpending : (afterAnswer s response).pending ≠ [])
    (hsteps : s.steps.getD 0 < maxToolRounds) :
    (toolGraph env agent).next .callLlm ((toolGraph env agent).merge s (answerUpdate s response)) =
      some .executeTools := by
  show ToolNode.next .callLlm (afterAnswer s response) = _
  rw [ToolNode.next, if_pos ⟨hpending, by simpa using hsteps⟩]

/-- With nothing pending or no rounds left, the run is finalized. -/
theorem next_finalize
    (h : (afterAnswer s response).pending = [] ∨ maxToolRounds ≤ s.steps.getD 0) :
    (toolGraph env agent).next .callLlm ((toolGraph env agent).merge s (answerUpdate s response)) =
      some .finalize := by
  show ToolNode.next .callLlm (afterAnswer s response) = _
  rw [ToolNode.next, if_neg]
  rintro ⟨hpending, hsteps⟩
  rw [afterAnswer_steps, Option.getD_some] at hsteps
  rcases h with h | h
  · exact hpending h
  · omega

/-- A round of which no call raises: two supersteps, and the next request. -/
theorem steps_round (hinput : s.input = some inp)
    (hguard : env.guard.guardInput inp.message = .ok ())
    (hx : exchange env agent inp s.messages w.log = (.ok response, log))
    (hne : response.toolCalls ≠ []) (hsteps : s.steps.getD 0 < maxToolRounds)
    (hquiet : (roundOf env inp response log).Quiet) :
    (toolGraph env agent).steps (L + 2) .callLlm s w =
      (toolGraph env agent).steps L .callLlm (afterRound env s (roundOf env inp response log))
        ((w.withLog (log ++ calledEvents inp response.toolCalls
          (roundOf env inp response log).executions)).counted agent.key response) := by
  have hpending : (afterAnswer s response).pending = response.toolCalls := afterAnswer_pending hne
  rw [steps_next _ (act_callLlm_ok hinput hguard hx)
    (next_executeTools (by rw [hpending]; exact hne) hsteps)]
  have hact : (toolGraph env agent).act .executeTools (afterAnswer s response)
      ((w.withLog log).counted agent.key response) = _ :=
    act_executeTools_of_quiet (by simpa using hinput)
      (by rw [hpending]; exact hquiet)
  rw [hpending] at hact
  exact steps_next _ hact rfl

/-- A round of which a call raises: the run ends there. -/
theorem steps_raise (hinput : s.input = some inp)
    (hguard : env.guard.guardInput inp.message = .ok ())
    (hx : exchange env agent inp s.messages w.log = (.ok response, log))
    (hne : response.toolCalls ≠ []) (hsteps : s.steps.getD 0 < maxToolRounds)
    (hraise : ¬ (roundOf env inp response log).Quiet) :
    (toolGraph env agent).steps (L + 2) .callLlm s w =
      ⟨.error .attributeError, afterAnswer s response,
        (w.withLog (log ++ calledEvents inp response.toolCalls
          (upToRaise (roundOf env inp response log).executions))).counted agent.key response⟩ := by
  have hpending : (afterAnswer s response).pending = response.toolCalls := afterAnswer_pending hne
  rw [steps_next _ (act_callLlm_ok hinput hguard hx)
    (next_executeTools (by rw [hpending]; exact hne) hsteps)]
  have hsome : ∃ x ∈ callAll env inp response.toolCalls log, x.raises = true := by
    simpa [Round.Quiet, roundOf] using hraise
  have hact : (toolGraph env agent).act .executeTools (afterAnswer s response)
      ((w.withLog log).counted agent.key response) = _ :=
    act_executeTools_of_raise (by simpa using hinput) (by rw [hpending]; exact hsome)
  rw [hpending] at hact
  exact steps_error _ hact

end Supersteps

/-! ## The end of a run -/

/-- Remember the turn and record the run, which both orchestrators end with. -/
def Agent.close (env : Env) (agent : Agent) (inp : AgentInput) (used : List String)
    (outputs : List ToolOutput) (reply : String) : Run Unit := do
  Env.remember agent.key inp reply
  agent.persistRun env inp used outputs reply

/-- What closing a run does: the turn is remembered, and the run is recorded if the
database takes it. -/
theorem Agent.close_apply (used : List String) (outputs : List ToolOutput) (reply : String)
    (w : World) :
    let memory := Function.update w.memory agent.key ((w.memory agent.key).append inp reply)
    let w' : World := { w with memory }.push (.remembered agent.key inp reply)
    agent.close env inp used outputs reply w =
      if env.commit w.runs.asked then
        (.ok (), { w' with
          runs := w.runs.taken ((agent.report inp used outputs reply w').row env.runtime) }.push
            (.recorded (agent.report inp used outputs reply w')))
      else (.error .operationalError, { w' with runs := w.runs.refused }) := rfl

/-- Closing a run neither asks the model nor calls a tool. -/
theorem Agent.close_log (used : List String) (outputs : List ToolOutput) (reply : String)
    (w : World) : ∃ rest, (requestsIn rest = [] ∧ invocationsIn rest = []) ∧
      (agent.close env inp used outputs reply w).2.log = w.log ++ rest := by
  rw [Agent.close_apply]
  by_cases hcommit : env.commit w.runs.asked = true
  · rw [if_pos hcommit]
    exact ⟨[.remembered _ _ _, .recorded _], ⟨rfl, rfl⟩, List.append_assoc _ _ _⟩
  · rw [if_neg hcommit]
    exact ⟨[.remembered _ _ _], ⟨rfl, rfl⟩, rfl⟩

/-- The last update of a run. -/
def finalUpdate (agent : Agent) : AgentGraphState where
  needsHumanApproval := some agent.needsHitl

theorem act_finalize {s : AgentGraphState} (hinput : s.input = some inp) (w : World) :
    (toolGraph env agent).act .finalize s w =
      match agent.close env inp s.usedTools s.toolOutputs (s.reply.getD "") w with
      | (.error e, w') => (.error e, w')
      | (.ok (), w') => (.ok (finalUpdate agent), w') := by
  show ToolNode.finalizeNode env agent s w = _
  obtain ⟨w', hrem⟩ : ∃ w', Env.remember agent.key inp (s.reply.getD "") w = (.ok (), w') :=
    ⟨_, rfl⟩
  simp only [ToolNode.finalizeNode, channel, hinput, Agent.close, Effect.bind_apply,
    Effect.pure_apply, hrem]
  cases agent.persistRun env inp s.usedTools s.toolOutputs (s.reply.getD "") w' with
  | mk r w'' => cases r <;> rfl

section Closing

variable {s : AgentGraphState} {w : World} {log : List Event} {response : LLMResponse} {L : ℕ}

/-- An answer after which nothing is left to execute: the run is closed with it. -/
theorem steps_closing (hinput : s.input = some inp)
    (hguard : env.guard.guardInput inp.message = .ok ())
    (hx : exchange env agent inp s.messages w.log = (.ok response, log))
    (hdone : (afterAnswer s response).pending = [] ∨ maxToolRounds ≤ s.steps.getD 0) :
    (toolGraph env agent).steps (L + 2) .callLlm s w =
      match agent.close env inp s.usedTools s.toolOutputs response.text
        ((w.withLog log).counted agent.key response) with
      | (.error e, w') => ⟨.error e, afterAnswer s response, w'⟩
      | (.ok (), w') => ⟨.ok ((afterAnswer s response).merge (finalUpdate agent)),
          (afterAnswer s response).merge (finalUpdate agent), w'⟩ := by
  rw [steps_next _ (act_callLlm_ok hinput hguard hx) (next_finalize hdone)]
  have hact : (toolGraph env agent).act .finalize (afterAnswer s response)
      ((w.withLog log).counted agent.key response) = _ :=
    act_finalize (by simpa using hinput) _
  simp only [afterAnswer_usedTools, afterAnswer_toolOutputs, afterAnswer_reply,
    Option.getD_some] at hact
  cases hclose : agent.close env inp s.usedTools s.toolOutputs response.text
      ((w.withLog log).counted agent.key response) with
  | mk r w' =>
    rw [hclose] at hact
    cases r with
    | error e => exact steps_error _ hact
    | ok u => exact steps_end _ hact rfl

end Closing

/-! ## The log only grows -/

section Log

variable {l : List Event}

theorem act_keeps_log (n : ToolNode) (s : AgentGraphState) :
    Keeps (fun w => l <+: w.log) ((toolGraph env agent).act n s) :=
  ToolNode.act_keeps (fun inp => Agent.operationsKeep_log env agent inp l) n s

/-- A run takes nothing out of the log. -/
theorem steps_log_grows (L : ℕ) (n : ToolNode) (s : AgentGraphState) (w : World) :
    w.log <+: ((toolGraph env agent).steps L n s w).world.log :=
  steps_world (toolGraph env agent) (R := fun w w' => w.log <+: w'.log)
    (fun _ => List.prefix_refl _) (fun _ _ _ h h' => h.trans h')
    (fun n s w => act_keeps_log n s w (List.prefix_refl _)) L n s w

end Log

/-! ## The first of the pending calls -/

section Pending

variable {s : AgentGraphState} {w : World} {log : List Event} {response : LLMResponse} {L : ℕ}

/-- An answer, and the first of the calls that are pending after it. -/
theorem steps_first_call (hinput : s.input = some inp)
    (hguard : env.guard.guardInput inp.message = .ok ())
    (hx : exchange env agent inp s.messages w.log = (.ok response, log)) {tc : ToolCall}
    {tcs : List ToolCall} (hcalls : (afterAnswer s response).pending = tc :: tcs)
    (hsteps : s.steps.getD 0 < maxToolRounds) :
    log ++ [.called (inp.invocation tc) (env.execute (invocationsIn log) (inp.invocation tc))] <+:
      ((toolGraph env agent).steps (L + 2) .callLlm s w).world.log := by
  rw [steps_next _ (act_callLlm_ok hinput hguard hx)
    (next_executeTools (by rw [hcalls]; simp) hsteps),
    show (toolGraph env agent).merge s (answerUpdate s response) = afterAnswer s response from rfl]
  have hfirst : log ++ [.called (inp.invocation tc)
        (env.execute (invocationsIn log) (inp.invocation tc))] <+:
      ((toolGraph env agent).act .executeTools (afterAnswer s response)
        ((w.withLog log).counted agent.key response)).2.log := by
    have hin : (afterAnswer s response).input = some inp := by simpa using hinput
    by_cases hquiet : ∀ x ∈ callAll env inp (afterAnswer s response).pending
        ((w.withLog log).counted agent.key response).log, x.raises = false
    · rw [act_executeTools_of_quiet hin hquiet, hcalls]
      simp [callAll, World.withLog, World.counted]
    · have hraise : ∃ x ∈ callAll env inp (afterAnswer s response).pending
          ((w.withLog log).counted agent.key response).log, x.raises = true := by
        simpa using hquiet
      rw [act_executeTools_of_raise hin hraise, hcalls]
      simp only [callAll, upToRaise, World.withLog, World.counted]
      split <;> simp
  cases hact : (toolGraph env agent).act .executeTools (afterAnswer s response)
      ((w.withLog log).counted agent.key response) with
  | mk r w' =>
    rw [hact] at hfirst
    cases r with
    | error e =>
      rw [steps_error _ hact]
      exact hfirst
    | ok u =>
      rw [steps_next _ hact rfl]
      exact hfirst.trans (steps_log_grows L _ _ _)

/-- An answer without tool calls, while the calls of an earlier answer are pending:
the first of them is executed again. -/
theorem steps_stale (hinput : s.input = some inp)
    (hguard : env.guard.guardInput inp.message = .ok ())
    (hx : exchange env agent inp s.messages w.log = (.ok response, log))
    (hnil : response.toolCalls = []) (hpending : s.pending ≠ [])
    (hsteps : s.steps.getD 0 < maxToolRounds) :
    ∃ invocation x,
      log ++ [.called invocation x] <+:
        ((toolGraph env agent).steps (L + 2) .callLlm s w).world.log := by
  have hkept : (afterAnswer s response).pending = s.pending := afterAnswer_pending_of_nil hnil
  obtain ⟨tc, tcs, htcs⟩ := List.exists_cons_of_ne_nil hpending
  exact ⟨_, _, steps_first_call hinput hguard hx (hkept.trans htcs) hsteps⟩

end Pending

/-! ## Two supersteps a round -/

/-- Where the rounds of a dialogue lead a graph. -/
structure Follows (env : Env) (d : Dialogue) (s s' : AgentGraphState) (w w' : World) : Prop where
  input : s'.input = s.input
  steps : s'.steps.getD 0 = s.steps.getD 0 + d.rounds.length
  messages : s'.messages = d.messages
  usedTools : s'.usedTools = s.usedTools ++ (d.settled env.runtime).map Settled.name
  toolOutputs : s'.toolOutputs = s.toolOutputs ++ (d.settled env.runtime).map Settled.graphOutput
  delegatedTo : s'.delegatedTo = s.delegatedTo
  decision : s'.decision = s.decision
  pending_of_nil : d.rounds = [] → s'.pending = s.pending
  pending_of_ne : d.rounds ≠ [] → s'.pending ≠ []
  memory : w'.memory = w.memory
  runs : w'.runs = w.runs
  log : w'.log = d.log

theorem Follows.refl {s : AgentGraphState} {w : World} :
    Follows env ⟨[], s.messages, w.log⟩ s s w w where
  input := rfl
  steps := rfl
  messages := rfl
  usedTools := by simp [Dialogue.settled]
  toolOutputs := by simp [Dialogue.settled]
  delegatedTo := rfl
  decision := rfl
  pending_of_nil _ := rfl
  pending_of_ne h := absurd rfl h
  memory := rfl
  runs := rfl
  log := rfl

/-- A round, and then the rest of a dialogue. -/
theorem Follows.cons {r : Round} {d : Dialogue} {s s' : AgentGraphState} {w w₁ w' : World}
    (hne : r.response.toolCalls ≠ []) (hmemory : w₁.memory = w.memory) (hruns : w₁.runs = w.runs)
    (h : Follows env d (afterRound env s r) s' w₁ w') : Follows env (d.cons r) s s' w w' where
  input := h.input
  steps := by
    rw [h.steps, afterRound_steps, Option.getD_some, Dialogue.cons_rounds, List.length_cons]
    omega
  messages := h.messages
  usedTools := by
    rw [h.usedTools, afterRound_usedTools, Dialogue.settled_cons, List.map_append,
      List.append_assoc]
  toolOutputs := by
    rw [h.toolOutputs, afterRound_toolOutputs, Dialogue.settled_cons, List.map_append,
      List.append_assoc]
  delegatedTo := h.delegatedTo
  decision := h.decision
  pending_of_nil hnil := absurd hnil (by simp)
  pending_of_ne _ := by
    by_cases hd : d.rounds = []
    · rw [h.pending_of_nil hd, afterRound_pending hne]
      exact hne
    · exact h.pending_of_ne hd
  memory := h.memory.trans hmemory
  runs := h.runs.trans hruns
  log := h.log

section Follow

variable {s : AgentGraphState} {w : World}

/-- An exchange opens a round, or it does not. -/
theorem round_or_not (env : Env) (agent : Agent) (inp : AgentInput) (messages : List ChatMessage)
    (log : List Event) :
    (∃ response log', exchange env agent inp messages log = (.ok response, log') ∧
        response.toolCalls ≠ []) ∨
      ∀ n, dialogue env agent inp n messages log = ⟨[], messages, log⟩ := by
  by_cases h : ∀ response, (exchange env agent inp messages log).1 = .ok response →
      response.toolCalls = []
  · exact Or.inr fun n => dialogue_of_no_round h
  · push Not at h
    obtain ⟨response, hok, hne⟩ := h
    exact Or.inl ⟨response, (exchange env agent inp messages log).2, Prod.ext hok rfl, hne⟩

/-- **Two supersteps a round**: along a quiet dialogue the graph takes the state and the
world where the dialogue leads. -/
theorem steps_follow (n : ℕ) (hinput : s.input = some inp)
    (hguard : env.guard.guardInput inp.message = .ok ())
    (hn : n + s.steps.getD 0 ≤ maxToolRounds)
    (hquiet : ∀ r ∈ (dialogue env agent inp n s.messages w.log).rounds, r.Quiet) :
    ∃ s' w', Follows env (dialogue env agent inp n s.messages w.log) s s' w w' ∧
      ∀ L, (toolGraph env agent).steps
          (L + 2 * (dialogue env agent inp n s.messages w.log).rounds.length) .callLlm s w =
        (toolGraph env agent).steps L .callLlm s' w' := by
  induction n generalizing s w with
  | zero => exact ⟨s, w, Follows.refl, fun L => rfl⟩
  | succ n ih =>
    rcases round_or_not env agent inp s.messages w.log with
      ⟨response, log', hx, hne⟩ | hno
    · rw [dialogue_of_round hx hne] at hquiet ⊢
      simp only [Dialogue.cons_rounds, List.mem_cons, forall_eq_or_imp] at hquiet
      obtain ⟨hr, hrest⟩ := hquiet
      have hsteps : s.steps.getD 0 < maxToolRounds := by omega
      obtain ⟨s', w', hfollows, hrun⟩ := ih (s := afterRound env s (roundOf env inp response log'))
        (w := (w.withLog (log' ++ calledEvents inp response.toolCalls
          (roundOf env inp response log').executions)).counted agent.key response)
        (by simpa using hinput) (by rw [afterRound_steps, Option.getD_some]; omega)
        (by simpa using hrest)
      rw [afterRound_messages, World.counted_log, World.withLog_log] at hfollows hrun
      refine ⟨s', w', Follows.cons hne (by rfl) (by rfl) hfollows, fun L => ?_⟩
      rw [Dialogue.cons_rounds, List.length_cons, Nat.mul_succ, ← Nat.add_assoc,
        steps_round hinput hguard hx hne hsteps hr]
      exact hrun L
    · rw [hno]
      exact ⟨s, w, Follows.refl, fun L => rfl⟩

/-- Along a dialogue in which a call raises, the run ends with an attribute error. -/
theorem steps_unquiet (n : ℕ) (hinput : s.input = some inp)
    (hguard : env.guard.guardInput inp.message = .ok ())
    (hn : n + s.steps.getD 0 ≤ maxToolRounds)
    (hraise : ∃ r ∈ (dialogue env agent inp n s.messages w.log).rounds, ¬ r.Quiet) (L : ℕ) :
    ((toolGraph env agent).steps
      (L + 2 * (dialogue env agent inp n s.messages w.log).rounds.length) .callLlm s w).outcome =
        .error .attributeError := by
  induction n generalizing s w with
  | zero =>
    obtain ⟨r, hr, -⟩ := hraise
    exact absurd hr (by simp [dialogue])
  | succ n ih =>
    rcases round_or_not env agent inp s.messages w.log with
      ⟨response, log', hx, hne⟩ | hno
    · rw [dialogue_of_round hx hne] at hraise ⊢
      have hsteps : s.steps.getD 0 < maxToolRounds := by omega
      rw [Dialogue.cons_rounds, List.length_cons, Nat.mul_succ, ← Nat.add_assoc]
      by_cases hr : (roundOf env inp response log').Quiet
      · rw [steps_round hinput hguard hx hne hsteps hr]
        have hrest := ih (s := afterRound env s (roundOf env inp response log'))
          (w := (w.withLog (log' ++ calledEvents inp response.toolCalls
            (roundOf env inp response log').executions)).counted agent.key response)
          (by simpa using hinput) (by rw [afterRound_steps, Option.getD_some]; omega)
        rw [afterRound_messages, World.counted_log, World.withLog_log] at hrest
        apply hrest
        simpa [hr] using hraise
      · rw [steps_raise hinput hguard hx hne hsteps hr]
    · rw [hno] at hraise
      obtain ⟨r, hr, -⟩ := hraise
      exact absurd hr (by simp)

end Follow

/-! ## A run on a thread -/

/-- The state a run starts with, on a thread that has saved `saved`. -/
def startState (agent : Agent) (inp : AgentInput) (saved : AgentGraphState) (w : World) :
    AgentGraphState :=
  saved.merge (LangGraph.initial agent inp w)

section Start

variable {saved : AgentGraphState} {w : World}

@[simp] theorem startState_input : (startState agent inp saved w).input = some inp := rfl

@[simp] theorem startState_steps : (startState agent inp saved w).steps = some 0 := rfl

@[simp] theorem startState_messages :
    (startState agent inp saved w).messages = saved.messages ++ agent.opening inp w := rfl

/-- Nothing is set to replace the calls that are still pending on the thread. -/
@[simp] theorem startState_pending : (startState agent inp saved w).pending = saved.pending := by
  simp [startState, AgentGraphState.merge, LangGraph.initial, AgentGraphState.pending]

/-- The dialogue of a run on a thread. -/
def threadDialogue (env : Env) (agent : Agent) (inp : AgentInput) (saved : AgentGraphState)
    (w : World) : Dialogue :=
  dialogue env agent inp maxToolRounds (saved.messages ++ agent.opening inp w) w.log

theorem threadDialogue_length_le :
    (threadDialogue env agent inp saved w).rounds.length ≤ maxToolRounds :=
  length_dialogue_le _ _ _

/-- The supersteps a run may take: two for each round, and at least two more. -/
theorem recursionLimit_eq :
    LangGraph.recursionLimit = 23 - 2 * (threadDialogue env agent inp saved w).rounds.length + 2 +
      2 * (threadDialogue env agent inp saved w).rounds.length := by
  have hlen : (threadDialogue env agent inp saved w).rounds.length ≤ 6 := threadDialogue_length_le
  show 25 = _
  omega

/-- The supersteps of a run, from its start. -/
theorem invokeGraph_apply (w : World) :
    agent.invokeGraph env inp w =
      LangGraph.finished agent inp
        ((toolGraph env agent).steps LangGraph.recursionLimit .callLlm
          (startState agent inp (w.checkpoints agent.key inp.correlationId) w) w) := rfl

/-- The log a run leaves is the log of its supersteps. -/
theorem invokeGraph_log (w : World) :
    (agent.invokeGraph env inp w).2.log =
      ((toolGraph env agent).steps LangGraph.recursionLimit .callLlm
        (startState agent inp (w.checkpoints agent.key inp.correlationId) w) w).world.log := rfl

/-- A message that is refused ends the run before anything is done. -/
theorem steps_guarded {s : AgentGraphState} {e : PyErr} {L : ℕ} (hinput : s.input = some inp)
    (hguard : env.guard.guardInput inp.message = .error e) :
    (toolGraph env agent).steps (L + 1) .callLlm s w = ⟨.error e, s, w⟩ :=
  steps_error _ (act_callLlm_of_refused hinput hguard w)

/-- A run on a refused message leaves the input on its thread, and nothing else. -/
theorem invokeGraph_of_refused {e : PyErr} (hguard : env.guard.guardInput inp.message = .error e) :
    agent.invokeGraph env inp w = LangGraph.finished agent inp
      ⟨.error e, startState agent inp (w.checkpoints agent.key inp.correlationId) w, w⟩ := by
  rw [invokeGraph_apply, show LangGraph.recursionLimit = 24 + 1 from rfl,
    steps_guarded startState_input hguard]

/-- A quiet run, from its start to the exchange that closes it. -/
theorem steps_start (hguard : env.guard.guardInput inp.message = .ok ())
    (hquiet : ∀ r ∈ (threadDialogue env agent inp saved w).rounds, r.Quiet) :
    ∃ s' w' L,
      Follows env (threadDialogue env agent inp saved w) (startState agent inp saved w) s' w w' ∧
      (toolGraph env agent).steps LangGraph.recursionLimit .callLlm
          (startState agent inp saved w) w =
        (toolGraph env agent).steps (L + 2) .callLlm s' w' := by
  obtain ⟨s', w', hfollows, hrun⟩ := steps_follow (s := startState agent inp saved w) (w := w)
    maxToolRounds startState_input hguard (by simp) hquiet
  refine ⟨s', w', 23 - 2 * (threadDialogue env agent inp saved w).rounds.length, hfollows, ?_⟩
  rw [recursionLimit_eq]
  exact hrun _

/-- A run in which a call raises ends with an attribute error. -/
theorem steps_start_unquiet (hguard : env.guard.guardInput inp.message = .ok ())
    (hraise : ¬ ∀ r ∈ (threadDialogue env agent inp saved w).rounds, r.Quiet) :
    ((toolGraph env agent).steps LangGraph.recursionLimit .callLlm
      (startState agent inp saved w) w).outcome = .error .attributeError := by
  push Not at hraise
  have hrun := steps_unquiet (s := startState agent inp saved w) (w := w) maxToolRounds
    startState_input hguard (by simp) hraise
    (23 - 2 * (threadDialogue env agent inp saved w).rounds.length + 2)
  rw [recursionLimit_eq]
  exact hrun

end Start

end AgentPlatform
