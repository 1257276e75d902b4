import AgentPlatform.Agents.Specialized
import AgentPlatform.Graph.Follow

/-!
# Two orchestrators, one agent

When do the loop and the graph of a specialist do the same?  Both are read off the
dialogue of the run: the loop stops at the first answer without tool calls or after
the last round, and hands a call that raised to the model as a failure; the graph
asks once more after the last round, executes pending calls again, and does not
survive a call that raises.

* `Agent.invoke_of_error`, `Agent.invoke_of_answer`, `Agent.invoke_of_cap` — the loop
  along a dialogue.
* `Agent.Alike` — the same tool calls, and the same outcome.
* `Agent.alike_iff` — **exactly when the two orchestrators agree.**
-/

namespace AgentPlatform

open StateGraph

variable {env : Env} {agent : Agent} {inp : AgentInput} {w : World}

/-! ## The dialogue of a run -/

/-- The dialogue of a run from a world. -/
def Agent.dialogueFrom (env : Env) (agent : Agent) (inp : AgentInput) (w : World) : Dialogue :=
  dialogue env agent inp maxToolRounds (agent.opening inp w) w.log

/-- The exchange that comes after the rounds of a dialogue. -/
def Dialogue.closing (env : Env) (agent : Agent) (inp : AgentInput) (d : Dialogue) :
    Except PyErr LLMResponse × List Event :=
  exchange env agent inp d.messages d.log

/-- All the rounds were used. -/
def Dialogue.Capped (d : Dialogue) : Prop := d.rounds.length = maxToolRounds

/-- No call of the dialogue raises. -/
def Dialogue.Quiet (d : Dialogue) : Prop := ∀ r ∈ d.rounds, r.Quiet

/-- Every call of the dialogue succeeds. -/
def Dialogue.AllOk (rt : PyRuntime) (d : Dialogue) : Prop :=
  ∀ s ∈ d.settled rt, s.result.ok = true

theorem graphOutputs_eq_iff {xs : List Settled} :
    xs.map Settled.output = xs.map Settled.graphOutput ↔ ∀ s ∈ xs, s.result.ok = true := by
  rw [List.map_inj_left]
  constructor
  · intro h s hs
    exact congrArg ToolOutput.ok (h s hs)
  · intro h s hs
    rw [Settled.output, Settled.graphOutput, h s hs]

/-! ## The loop along a dialogue -/

section Loop

/-- The result of a run of the loop. -/
def Agent.loopResult (agent : Agent) (used : List String) (outputs : List ToolOutput)
    (reply : String) (w : World) : AgentResult where
  reply := Agent.handedOut reply
  usedTools := used
  toolOutputs := outputs
  tokenUsage := w.lastUsage agent.key
  needsHumanApproval := agent.needsHitl

theorem Agent.invoke_of_rounds_ok (hguard : env.guard.guardInput inp.message = .ok ())
    {e : LoopEnd} {w₁ : World}
    (h : agent.rounds env inp maxToolRounds (agent.opening inp w) [] [] w = (.ok e, w₁)) :
    agent.invoke env inp w =
      match agent.close env inp e.usedTools e.toolOutputs e.reply w₁ with
      | (.error err, w') => (.error err, w')
      | (.ok (), w') => (.ok (agent.loopResult e.usedTools e.toolOutputs e.reply w'), w') := by
  obtain ⟨w₂, hrem⟩ : ∃ w₂, Env.remember agent.key inp e.reply w₁ = (.ok (), w₂) := ⟨_, rfl⟩
  simp only [Agent.invoke, Agent.close, hguard, Effect.bind_apply, Effect.ofExcept_apply,
    Effect.get_apply, h, hrem]
  cases agent.persistRun env inp e.usedTools e.toolOutputs e.reply w₂ with
  | mk r w₃ => cases r <;> rfl

/-- The model did not answer, or not cleanly, before the rounds were used up. -/
theorem Agent.invoke_of_error (hguard : env.guard.guardInput inp.message = .ok ())
    (hcap : ¬ (agent.dialogueFrom env inp w).Capped) {e : PyErr} {log : List Event}
    (hx : (agent.dialogueFrom env inp w).closing env agent inp = (.error e, log)) :
    agent.invoke env inp w = (.error e, w.withLog log) := by
  have hrounds : agent.rounds env inp maxToolRounds (agent.opening inp w) [] [] w =
      (.error e, w.withLog log) := by
    unfold Dialogue.Capped Agent.dialogueFrom at hcap
    unfold Dialogue.closing Agent.dialogueFrom at hx
    rw [Agent.rounds_eq, if_neg hcap, hx]
  simp only [Agent.invoke, hguard, Effect.bind_apply, Effect.ofExcept_apply, Effect.get_apply,
    hrounds]

/-- The model answered without tool calls before the rounds were used up. -/
theorem Agent.invoke_of_answer (hguard : env.guard.guardInput inp.message = .ok ())
    (hcap : ¬ (agent.dialogueFrom env inp w).Capped) {response : LLMResponse} {log : List Event}
    (hx : (agent.dialogueFrom env inp w).closing env agent inp = (.ok response, log)) :
    agent.invoke env inp w =
      match agent.close env inp
        (((agent.dialogueFrom env inp w).settled env.runtime).map Settled.name)
        (((agent.dialogueFrom env inp w).settled env.runtime).map Settled.output)
        response.text ((w.withLog log).counted agent.key response) with
      | (.error err, w') => (.error err, w')
      | (.ok (), w') => (.ok (agent.loopResult
          (((agent.dialogueFrom env inp w).settled env.runtime).map Settled.name)
          (((agent.dialogueFrom env inp w).settled env.runtime).map Settled.output)
          response.text w'), w') := by
  refine Agent.invoke_of_rounds_ok hguard (e := ⟨response.text, _, _⟩) ?_
  unfold Dialogue.Capped Agent.dialogueFrom at hcap
  unfold Dialogue.closing Agent.dialogueFrom at hx
  rw [Agent.rounds_eq, if_neg hcap, hx]
  rfl

/-- The rounds were used up. -/
theorem Agent.invoke_of_cap (hguard : env.guard.guardInput inp.message = .ok ())
    (hcap : (agent.dialogueFrom env inp w).Capped) :
    agent.invoke env inp w =
      match agent.close env inp
        (((agent.dialogueFrom env inp w).settled env.runtime).map Settled.name)
        (((agent.dialogueFrom env inp w).settled env.runtime).map Settled.output)
        "" (w.withLog (agent.dialogueFrom env inp w).log) with
      | (.error err, w') => (.error err, w')
      | (.ok (), w') => (.ok (agent.loopResult
          (((agent.dialogueFrom env inp w).settled env.runtime).map Settled.name)
          (((agent.dialogueFrom env inp w).settled env.runtime).map Settled.output)
          "" w'), w') := by
  refine Agent.invoke_of_rounds_ok hguard (e := ⟨"", _, _⟩) ?_
  unfold Dialogue.Capped Agent.dialogueFrom at hcap
  rw [Agent.rounds_eq, if_pos hcap]
  rfl

end Loop

/-! ## Errors apart -/

/-- What ends an exchange is a guardrail or the gateway. -/
theorem className_of_exchange {messages : List ChatMessage} {log : List Event} {e : PyErr}
    (h : (exchange env agent inp messages log).1 = .error e) :
    e.className = "GuardrailError" ∨ e.className = "RetryError" := by
  unfold exchange at h
  cases hans : env.answer log (agent.request env inp messages) with
  | none =>
    rw [hans] at h
    obtain rfl := Except.error.inj h
    exact Or.inr rfl
  | some response =>
    simp only [hans] at h
    cases hguard : env.guard.guardOutput response.text with
    | error e' =>
      rw [hguard] at h
      obtain rfl := Except.error.inj h
      exact Or.inl (env.guard.className_of_guardOutput hguard)
    | ok u => rw [hguard] at h; cases h

/-- How a run can be closed. -/
theorem Agent.close_cases (env : Env) (agent : Agent) (inp : AgentInput) (used : List String)
    (outputs : List ToolOutput) (reply : String) (w : World) :
    ∃ w', invocationsIn w'.log = invocationsIn w.log ∧
      w'.memory = Function.update w.memory agent.key ((w.memory agent.key).append inp reply) ∧
      agent.close env inp used outputs reply w =
        (if env.commit w.runs.asked then .ok () else .error .operationalError, w') := by
  rw [Agent.close_apply]
  by_cases hcommit : env.commit w.runs.asked = true
  · simp only [hcommit, if_true]
    refine ⟨_, ?_, rfl, rfl⟩
    simp [World.push, World.withLog, invocationsIn, Event.invocation?]
  · simp only [hcommit]
    refine ⟨_, ?_, rfl, rfl⟩
    simp [World.push, World.withLog, invocationsIn, Event.invocation?]

/-! ## Agreement -/

/-- Two runs from one world make the same tool calls, and raise exceptions of the same
kind or return what is the same to a caller and leave the same memory. -/
def Alike (x y : Except PyErr AgentResult × World) : Prop :=
  invocationsIn x.2.log = invocationsIn y.2.log ∧
    match x.1, y.1 with
    | .error e, .error e' => e.className = e'.className
    | .ok a, .ok b =>
      a.reply = b.reply ∧ a.usedTools = b.usedTools ∧ a.toolOutputs = b.toolOutputs ∧
        a.needsHumanApproval = b.needsHumanApproval ∧ a.decision = b.decision ∧
        x.2.memory = y.2.memory
    | _, _ => False

/-- Two results that agree on what the rounds fix. -/
theorem alike_ok_iff {a b : AgentResult} {v v' : World}
    (hcalls : invocationsIn v.log = invocationsIn v'.log) (hused : a.usedTools = b.usedTools)
    (hhitl : a.needsHumanApproval = b.needsHumanApproval) (hdecision : a.decision = b.decision) :
    Alike (.ok a, v) (.ok b, v') ↔
      a.reply = b.reply ∧ a.toolOutputs = b.toolOutputs ∧ v.memory = v'.memory := by
  simp [Alike, hcalls, hused, hhitl, hdecision]

/-- The graph answers for the loop: no call raises, and the run is ended by the model or
a guardrail before the rounds are used up, or without any tool call, or the answer
after the last round makes no difference. -/
structure GraphFaithful (env : Env) (agent : Agent) (inp : AgentInput) (w : World) : Prop where
  quiet : (agent.dialogueFrom env inp w).Quiet
  ended : ¬ (agent.dialogueFrom env inp w).Capped →
    (∃ e, ((agent.dialogueFrom env inp w).closing env agent inp).1 = .error e) ∨
      (agent.dialogueFrom env inp w).rounds = []
  capped : (agent.dialogueFrom env inp w).Capped →
    ∃ response, ((agent.dialogueFrom env inp w).closing env agent inp).1 = .ok response ∧
      (env.commit w.runs.asked = false ∨
        (agent.dialogueFrom env inp w).AllOk env.runtime ∧
          (response.text = "" ∨
            response.text = fallbackReply ∧ inp.conversationId.getD "" = ""))

@[simp] theorem LangGraph.save_log (agentKey threadId : String) (s : AgentGraphState) (w : World) :
    (LangGraph.save agentKey threadId s w).log = w.log := rfl

@[simp] theorem LangGraph.save_memory (agentKey threadId : String) (s : AgentGraphState)
    (w : World) : (LangGraph.save agentKey threadId s w).memory = w.memory := rfl

theorem handedOut_eq_iff {reply : String} :
    Agent.handedOut "" = Agent.handedOut reply ↔ reply = "" ∨ reply = fallbackReply := by
  unfold Agent.handedOut
  by_cases h : reply = ""
  · simp [h]
  · simp [h, eq_comm]

section Agreement

/-- The loop never ends with an attribute error. -/
theorem Agent.invoke_ne_attributeError (hguard : env.guard.guardInput inp.message = .ok ())
    (w : World) : (agent.invoke env inp w).1 ≠ .error .attributeError := by
  have hclosed : ∀ used outputs reply v, (match agent.close env inp used outputs reply v with
      | (.error err, w') => (.error err, w')
      | (.ok (), w') => (.ok (agent.loopResult used outputs reply w'), w') :
        Except PyErr AgentResult × World).1 ≠ .error .attributeError := by
    intro used outputs reply v
    obtain ⟨w', -, -, hclose⟩ := Agent.close_cases env agent inp used outputs reply v
    rw [hclose]
    cases env.commit v.runs.asked <;> simp
  by_cases hcap : (agent.dialogueFrom env inp w).Capped
  · rw [Agent.invoke_of_cap hguard hcap]
    exact hclosed _ _ _ _
  · cases hx : (agent.dialogueFrom env inp w).closing env agent inp with
    | mk r log =>
      cases r with
      | error e =>
        rw [Agent.invoke_of_error hguard hcap hx]
        intro h
        obtain rfl := Except.error.inj h
        have hclass := className_of_exchange (congrArg Prod.fst hx)
        simp [PyErr.className] at hclass
      | ok response =>
        rw [Agent.invoke_of_answer hguard hcap hx]
        exact hclosed _ _ _ _

/-- A run of the graph on a new thread along a quiet dialogue: where it arrives before the
closing exchange. -/
theorem invokeGraph_of_quiet (hguard : env.guard.guardInput inp.message = .ok ())
    (hfresh : w.checkpoints agent.key inp.correlationId = {})
    (hquiet : (agent.dialogueFrom env inp w).Quiet) :
    ∃ s' w' L, Follows env (agent.dialogueFrom env inp w) (startState agent inp {} w) s' w w' ∧
      agent.invokeGraph env inp w =
        LangGraph.finished agent inp ((toolGraph env agent).steps (L + 2) .callLlm s' w') := by
  have hthread : ∀ r ∈ (threadDialogue env agent inp {} w).rounds, r.Quiet := hquiet
  obtain ⟨s', w', L, hfollows, hrun⟩ := steps_start hguard hthread
  refine ⟨s', w', L, hfollows, ?_⟩
  rw [invokeGraph_apply, hfresh, hrun]

/-- A run of the graph that is closed with a response. -/
theorem finished_of_closing {s' : AgentGraphState} {w' : World} {L : ℕ}
    (hguard : env.guard.guardInput inp.message = .ok ()) (hinput : s'.input = some inp)
    {response : LLMResponse} {log : List Event}
    (hx : exchange env agent inp s'.messages w'.log = (.ok response, log))
    (hdone : (afterAnswer s' response).pending = [] ∨ maxToolRounds ≤ s'.steps.getD 0) :
    ∃ v, invocationsIn v.log = invocationsIn log ∧
      v.memory = Function.update w'.memory agent.key
        ((w'.memory agent.key).append inp response.text) ∧
      LangGraph.finished agent inp ((toolGraph env agent).steps (L + 2) .callLlm s' w') =
        (if env.commit w'.runs.asked then
          .ok (LangGraph.result ((afterAnswer s' response).merge (finalUpdate agent)))
        else .error .operationalError, v) := by
  rw [steps_closing hinput hguard hx hdone]
  obtain ⟨v, hlog, hmemory, hclose⟩ := Agent.close_cases env agent inp s'.usedTools
    s'.toolOutputs response.text ((w'.withLog log).counted agent.key response)
  simp only [World.counted_runs, World.withLog_runs] at hclose
  rw [hclose]
  rcases Bool.eq_false_or_eq_true (env.commit w'.runs.asked) with hcommit | hcommit
  · simp only [hcommit, if_true]
    exact ⟨LangGraph.save agent.key inp.correlationId _ v, hlog, hmemory, rfl⟩
  · simp only [hcommit, Bool.false_eq_true, if_false]
    exact ⟨LangGraph.save agent.key inp.correlationId _ v, hlog, hmemory, rfl⟩

/-- The next exchange is the one that closes the dialogue. -/
theorem Follows.exchange_eq {d : Dialogue} {s s' : AgentGraphState} {w w' : World}
    (h : Follows env d s s' w w') :
    exchange env agent inp s'.messages w'.log = d.closing env agent inp := by
  rw [h.messages, h.log, Dialogue.closing]

/-- What the result of the graph tells of a dialogue it followed on a new thread. -/
theorem result_of_follows {d : Dialogue} {s' : AgentGraphState} {w' : World}
    (hfollows : Follows env d (startState agent inp {} w) s' w w') (response : LLMResponse) :
    let r := LangGraph.result ((afterAnswer s' response).merge (finalUpdate agent))
    r.usedTools = (d.settled env.runtime).map Settled.name ∧
      r.toolOutputs = (d.settled env.runtime).map Settled.graphOutput ∧ r.decision = none := by
  refine ⟨?_, ?_, ?_⟩
  · show (afterAnswer s' response).usedTools ++ [] = _
    rw [afterAnswer_usedTools, hfollows.usedTools, List.append_nil]
    rfl
  · show (afterAnswer s' response).toolOutputs ++ [] = _
    rw [afterAnswer_toolOutputs, hfollows.toolOutputs, List.append_nil]
    rfl
  · show s'.decision.getD none = none
    rw [hfollows.decision]
    rfl

/-- The run is ended before the rounds are used up. -/
theorem alike_of_error (hguard : env.guard.guardInput inp.message = .ok ())
    (hfresh : w.checkpoints agent.key inp.correlationId = {})
    (hquiet : (agent.dialogueFrom env inp w).Quiet)
    (hcap : ¬ (agent.dialogueFrom env inp w).Capped) {e : PyErr} {log : List Event}
    (hx : (agent.dialogueFrom env inp w).closing env agent inp = (.error e, log)) :
    Alike (agent.invoke env inp w) (agent.invokeGraph env inp w) := by
  obtain ⟨s', w', L, hfollows, hrun⟩ := invokeGraph_of_quiet hguard hfresh hquiet
  have hx' : exchange env agent inp s'.messages w'.log = (.error e, log) :=
    hfollows.exchange_eq.trans hx
  rw [Agent.invoke_of_error hguard hcap hx, hrun, steps_refused hfollows.input hguard hx']
  exact ⟨rfl, rfl⟩

/-- The run is closed by its first answer. -/
theorem alike_of_no_rounds (hguard : env.guard.guardInput inp.message = .ok ())
    (hfresh : w.checkpoints agent.key inp.correlationId = {})
    (hnil : (agent.dialogueFrom env inp w).rounds = []) :
    Alike (agent.invoke env inp w) (agent.invokeGraph env inp w) := by
  have hquiet : (agent.dialogueFrom env inp w).Quiet := by
    intro r hr
    rw [hnil] at hr
    exact absurd hr (by simp)
  have hcap : ¬ (agent.dialogueFrom env inp w).Capped := by
    rw [Dialogue.Capped, hnil]
    decide
  cases hx : (agent.dialogueFrom env inp w).closing env agent inp with
  | mk r log =>
    cases r with
    | error e => exact alike_of_error hguard hfresh hquiet hcap hx
    | ok response =>
      obtain ⟨s', w', L, hfollows, hrun⟩ := invokeGraph_of_quiet hguard hfresh hquiet
      have hx' : exchange env agent inp s'.messages w'.log = (.ok response, log) :=
        hfollows.exchange_eq.trans hx
      have hcalls : response.toolCalls = [] := by
        have hlt : (agent.dialogueFrom env inp w).rounds.length < maxToolRounds := by
          rw [hnil]
          decide
        exact closing_of_length_lt hlt (congrArg Prod.fst hx)
      have hdone : (afterAnswer s' response).pending = [] := by
        rw [afterAnswer_pending_of_nil hcalls, hfollows.pending_of_nil hnil, startState_pending]
        rfl
      have hsettled : (agent.dialogueFrom env inp w).settled env.runtime = [] := by
        rw [Dialogue.settled, hnil]
        rfl
      obtain ⟨v, hlog, hmemory, hfinished⟩ :=
        finished_of_closing (L := L) hguard hfollows.input hx' (Or.inl hdone)
      obtain ⟨v', hlog', hmemory', hclose⟩ := Agent.close_cases env agent inp [] []
        response.text ((w.withLog log).counted agent.key response)
      simp only [World.counted_runs, World.withLog_runs] at hclose
      rw [Agent.invoke_of_answer hguard hcap hx, hsettled, hrun, hfinished, hfollows.runs]
      simp only [List.map_nil]
      rw [hclose]
      rw [hfollows.memory] at hmemory
      rcases Bool.eq_false_or_eq_true (env.commit w.runs.asked) with hcommit | hcommit
      · simp only [hcommit, if_true]
        obtain ⟨hused, houtputs, hdecision⟩ := result_of_follows hfollows response
        rw [hsettled] at hused houtputs
        exact ⟨hlog'.trans hlog.symm, rfl, hused.symm, houtputs.symm, rfl, hdecision.symm,
          hmemory'.trans hmemory.symm⟩
      · simp only [hcommit, Bool.false_eq_true, if_false]
        exact ⟨hlog'.trans hlog.symm, rfl⟩

/-- A message that is refused is refused by both. -/
theorem alike_of_refused {e : PyErr} (hguard : env.guard.guardInput inp.message = .error e) :
    Alike (agent.invoke env inp w) (agent.invokeGraph env inp w) := by
  rw [Agent.invoke_of_refused hguard, invokeGraph_of_refused hguard]
  exact ⟨rfl, rfl⟩

/-- A call that raises is a failure to the loop and the end to the graph. -/
theorem not_alike_of_unquiet (hguard : env.guard.guardInput inp.message = .ok ())
    (hfresh : w.checkpoints agent.key inp.correlationId = {})
    (hraise : ¬ (agent.dialogueFrom env inp w).Quiet) :
    ¬ Alike (agent.invoke env inp w) (agent.invokeGraph env inp w) := by
  have hthread : ¬ ∀ r ∈ (threadDialogue env agent inp {} w).rounds, r.Quiet := hraise
  have hgraph : (agent.invokeGraph env inp w).1 = .error .attributeError := by
    rw [invokeGraph_apply, hfresh, LangGraph.finished, steps_start_unquiet hguard hthread]
  rintro ⟨-, halike⟩
  rw [hgraph] at halike
  cases hloop : (agent.invoke env inp w).1 with
  | ok a => rw [hloop] at halike; exact halike
  | error e =>
    rw [hloop] at halike
    refine Agent.invoke_ne_attributeError hguard w (hloop.trans ?_)
    cases e <;> first | rfl | exact absurd halike (by simp [PyErr.className])

/-- After rounds of tool calls, an answer without any: the graph executes the last calls
again. -/
theorem not_alike_of_answer (hguard : env.guard.guardInput inp.message = .ok ())
    (hfresh : w.checkpoints agent.key inp.correlationId = {})
    (hquiet : (agent.dialogueFrom env inp w).Quiet)
    (hcap : ¬ (agent.dialogueFrom env inp w).Capped)
    (hrounds : (agent.dialogueFrom env inp w).rounds ≠ []) {response : LLMResponse}
    {log : List Event}
    (hx : (agent.dialogueFrom env inp w).closing env agent inp = (.ok response, log)) :
    ¬ Alike (agent.invoke env inp w) (agent.invokeGraph env inp w) := by
  rintro ⟨hcalls, -⟩
  obtain ⟨s', w', L, hfollows, hrun⟩ := invokeGraph_of_quiet hguard hfresh hquiet
  have hx' : exchange env agent inp s'.messages w'.log = (.ok response, log) :=
    hfollows.exchange_eq.trans hx
  have hlt : (agent.dialogueFrom env inp w).rounds.length < maxToolRounds :=
    Nat.lt_of_le_of_ne (length_dialogue_le _ _ _) hcap
  have hsteps : s'.steps.getD 0 < maxToolRounds := by
    rw [hfollows.steps, startState_steps, Option.getD_some]
    omega
  obtain ⟨invocation, x, hprefix⟩ := steps_stale (L := L) hfollows.input hguard hx'
    (closing_of_length_lt hlt (congrArg Prod.fst hx)) (hfollows.pending_of_ne hrounds) hsteps
  -- the loop makes the calls of the dialogue, the graph at least one more
  have hloop : invocationsIn (agent.invoke env inp w).2.log = invocationsIn log := by
    obtain ⟨v, hlog, -, hclose⟩ := Agent.close_cases env agent inp
      (((agent.dialogueFrom env inp w).settled env.runtime).map Settled.name)
      (((agent.dialogueFrom env inp w).settled env.runtime).map Settled.output)
      response.text ((w.withLog log).counted agent.key response)
    rw [Agent.invoke_of_answer hguard hcap hx, hclose]
    cases env.commit ((w.withLog log).counted agent.key response).runs.asked <;> exact hlog
  obtain ⟨rest, hrest⟩ := hprefix
  have hgraph : (agent.invokeGraph env inp w).2.log = (log ++ [.called invocation x]) ++ rest := by
    rw [hrun, hrest]
    rfl
  rw [hloop, hgraph, invocationsIn_append, invocationsIn_append] at hcalls
  have hlen := congrArg List.length hcalls
  simp [invocationsIn, Event.invocation?] at hlen

/-- All the rounds were used, and the graph gets no answer after them. -/
theorem not_alike_of_capped (hguard : env.guard.guardInput inp.message = .ok ())
    (hfresh : w.checkpoints agent.key inp.correlationId = {})
    (hquiet : (agent.dialogueFrom env inp w).Quiet)
    (hcap : (agent.dialogueFrom env inp w).Capped) {e : PyErr} {log : List Event}
    (hx : (agent.dialogueFrom env inp w).closing env agent inp = (.error e, log)) :
    ¬ Alike (agent.invoke env inp w) (agent.invokeGraph env inp w) := by
  obtain ⟨s', w', L, hfollows, hrun⟩ := invokeGraph_of_quiet hguard hfresh hquiet
  have hx' : exchange env agent inp s'.messages w'.log = (.error e, log) :=
    hfollows.exchange_eq.trans hx
  obtain ⟨v, -, -, hclose⟩ := Agent.close_cases env agent inp
    (((agent.dialogueFrom env inp w).settled env.runtime).map Settled.name)
    (((agent.dialogueFrom env inp w).settled env.runtime).map Settled.output)
    "" (w.withLog (agent.dialogueFrom env inp w).log)
  simp only [World.withLog_runs] at hclose
  rw [Agent.invoke_of_cap hguard hcap, hclose, hrun, steps_refused hfollows.input hguard hx']
  have hclass := className_of_exchange (congrArg Prod.fst hx)
  rintro ⟨-, halike⟩
  rcases Bool.eq_false_or_eq_true (env.commit w.runs.asked) with hcommit | hcommit
  · simp only [hcommit, if_true] at halike
    exact halike
  · simp only [hcommit, Bool.false_eq_true, if_false] at halike
    have hclass' : PyErr.operationalError.className = e.className := halike
    rw [← hclass'] at hclass
    simp [PyErr.className] at hclass

/-- When the empty reply of the loop and the text of the graph come to the same, as they are
handed out and as they are remembered. -/
theorem texts_alike_iff (inp : AgentInput) (text : String) :
    (Agent.handedOut "" = Agent.handedOut text ∧
        (inp.conversationId.getD "" = "" ∨ "" = text)) ↔
      text = "" ∨ text = fallbackReply ∧ inp.conversationId.getD "" = "" := by
  rw [handedOut_eq_iff]
  constructor
  · rintro ⟨hempty | hfallback, hmemory⟩
    · exact Or.inl hempty
    · rcases hmemory with hno | hempty
      · exact Or.inr ⟨hfallback, hno⟩
      · exact Or.inl hempty.symm
  · rintro (hempty | ⟨hfallback, hno⟩)
    · exact ⟨Or.inl hempty, Or.inr hempty.symm⟩
    · exact ⟨Or.inr hfallback, Or.inl hno⟩

/-- All the rounds were used: the answer the graph gets after them must make no difference. -/
theorem alike_iff_of_capped_answer (hguard : env.guard.guardInput inp.message = .ok ())
    (hfresh : w.checkpoints agent.key inp.correlationId = {})
    (hquiet : (agent.dialogueFrom env inp w).Quiet)
    (hcap : (agent.dialogueFrom env inp w).Capped) {response : LLMResponse} {log : List Event}
    (hx : (agent.dialogueFrom env inp w).closing env agent inp = (.ok response, log)) :
    Alike (agent.invoke env inp w) (agent.invokeGraph env inp w) ↔
      env.commit w.runs.asked = false ∨
        (agent.dialogueFrom env inp w).AllOk env.runtime ∧
          (response.text = "" ∨
            response.text = fallbackReply ∧ inp.conversationId.getD "" = "") := by
  obtain ⟨s', w', L, hfollows, hrun⟩ := invokeGraph_of_quiet hguard hfresh hquiet
  obtain ⟨v, hlog, hmemory, hclose⟩ := Agent.close_cases env agent inp
    (((agent.dialogueFrom env inp w).settled env.runtime).map Settled.name)
    (((agent.dialogueFrom env inp w).settled env.runtime).map Settled.output)
    "" (w.withLog (agent.dialogueFrom env inp w).log)
  simp only [World.withLog_runs, World.withLog_memory, World.withLog_log] at hclose hmemory hlog
  have hx' : exchange env agent inp s'.messages w'.log = (.ok response, log) :=
    hfollows.exchange_eq.trans hx
  have hsteps : maxToolRounds ≤ s'.steps.getD 0 := by
    rw [hfollows.steps, startState_steps, Option.getD_some, hcap]
    omega
  obtain ⟨v', hlog', hmemory', hfinished⟩ :=
    finished_of_closing (L := L) hguard hfollows.input hx' (Or.inr hsteps)
  have hcalls : invocationsIn log = invocationsIn (agent.dialogueFrom env inp w).log := by
    have hasked := congrArg Prod.snd hx
    rw [Dialogue.closing, exchange_log] at hasked
    dsimp only at hasked
    rw [← hasked]
    simp [invocationsIn, Event.invocation?]
  have hlogs : invocationsIn v.log = invocationsIn v'.log :=
    hlog.trans (hcalls.symm.trans hlog'.symm)
  rw [Agent.invoke_of_cap hguard hcap, hclose, hrun, hfinished, hfollows.runs]
  rw [hfollows.memory] at hmemory'
  rcases Bool.eq_false_or_eq_true (env.commit w.runs.asked) with hcommit | hcommit
  · simp only [hcommit, if_true, Bool.true_eq_false, false_or]
    obtain ⟨hused, houtputs, hdecision⟩ := result_of_follows hfollows response
    have hsame : v.memory = v'.memory ↔
        inp.conversationId.getD "" = "" ∨ "" = response.text := by
      rw [hmemory, hmemory', (Function.update_injective _ _).eq_iff,
        AgentMemory.append_eq_append_iff]
    have hiff := alike_ok_iff (a := agent.loopResult _
        (((agent.dialogueFrom env inp w).settled env.runtime).map Settled.output) "" v)
      (b := LangGraph.result ((afterAnswer s' response).merge (finalUpdate agent)))
      hlogs hused.symm rfl hdecision.symm
    rw [hiff, houtputs, hsame]
    show Agent.handedOut "" = Agent.handedOut response.text ∧
      ((agent.dialogueFrom env inp w).settled env.runtime).map Settled.output = _ ∧ _ ↔ _
    rw [graphOutputs_eq_iff, and_left_comm, texts_alike_iff]
    rfl
  · simp only [hcommit, Bool.false_eq_true, if_false, true_or, iff_true]
    exact ⟨hlogs, rfl⟩

/-- All the rounds were used: the graph asks once more. -/
theorem alike_iff_of_capped (hguard : env.guard.guardInput inp.message = .ok ())
    (hfresh : w.checkpoints agent.key inp.correlationId = {})
    (hquiet : (agent.dialogueFrom env inp w).Quiet)
    (hcap : (agent.dialogueFrom env inp w).Capped) :
    Alike (agent.invoke env inp w) (agent.invokeGraph env inp w) ↔
      ∃ response, ((agent.dialogueFrom env inp w).closing env agent inp).1 = .ok response ∧
        (env.commit w.runs.asked = false ∨
          (agent.dialogueFrom env inp w).AllOk env.runtime ∧
            (response.text = "" ∨
              response.text = fallbackReply ∧ inp.conversationId.getD "" = "")) := by
  cases hx : (agent.dialogueFrom env inp w).closing env agent inp with
  | mk r log =>
    cases r with
    | error e => exact iff_of_false (not_alike_of_capped hguard hfresh hquiet hcap hx) (by simp)
    | ok response =>
      rw [alike_iff_of_capped_answer hguard hfresh hquiet hcap hx]
      simp only [Except.ok.injEq, exists_eq_left']

end Agreement

/-- **When the two orchestrators agree.**  On a new thread, the graph does what the loop
does when the message is refused by the guardrail, or when the graph answers for
the loop (`GraphFaithful`), and in no other case. -/
theorem Agent.alike_iff (env : Env) (agent : Agent) (inp : AgentInput) (w : World)
    (hfresh : w.checkpoints agent.key inp.correlationId = {}) :
    Alike (agent.invoke env inp w) (agent.invokeGraph env inp w) ↔
      env.guard.detectPromptInjection inp.message = true ∨ GraphFaithful env agent inp w := by
  cases hinjection : env.guard.detectPromptInjection inp.message with
  | true => simpa using alike_of_refused (env.guard.guardInput_of_injection hinjection)
  | false =>
    have hguard := env.guard.guardInput_of_not_injection hinjection
    simp only [Bool.false_eq_true, false_or]
    constructor
    · intro halike
      have hquiet : (agent.dialogueFrom env inp w).Quiet := by
        by_contra hraise
        exact not_alike_of_unquiet hguard hfresh hraise halike
      refine ⟨hquiet, fun hcap => ?_, fun hcap =>
        (alike_iff_of_capped hguard hfresh hquiet hcap).1 halike⟩
      cases hx : (agent.dialogueFrom env inp w).closing env agent inp with
      | mk r log =>
        cases r with
        | error e => exact Or.inl ⟨e, rfl⟩
        | ok response =>
          apply Or.inr
          by_contra hrounds
          exact not_alike_of_answer hguard hfresh hquiet hcap hrounds hx halike
    · intro hfaithful
      by_cases hcap : (agent.dialogueFrom env inp w).Capped
      · exact (alike_iff_of_capped hguard hfresh hfaithful.quiet hcap).2 (hfaithful.capped hcap)
      · rcases hfaithful.ended hcap with ⟨e, he⟩ | hnil
        · exact alike_of_error hguard hfresh hfaithful.quiet hcap (Prod.ext he rfl)
        · exact alike_of_no_rounds hguard hfresh hnil

/-- A model that answers at once is answered for by both orchestrators. -/
theorem alike_direct_answer :
    Alike (customerSupportAgent.invoke (demoEnv fun _ => some (replies "Hello.")) demoInput
        World.initial)
      (customerSupportAgent.invokeGraph (demoEnv fun _ => some (replies "Hello.")) demoInput
        World.initial) := by
  have hrounds : (customerSupportAgent.dialogueFrom (demoEnv fun _ => some (replies "Hello."))
      demoInput World.initial).rounds = [] := rfl
  refine (Agent.alike_iff (demoEnv fun _ => some (replies "Hello.")) customerSupportAgent demoInput
    World.initial rfl).2 (Or.inr ⟨?_, fun _ => Or.inr hrounds, fun hcap => ?_⟩)
  · intro r hr
    rw [hrounds] at hr
    exact absurd hr (by simp)
  · rw [Dialogue.Capped, hrounds] at hcap
    exact absurd hcap (by decide)

/-- A model that looks at the caller's own profile and then answers: the loop makes one
call, the graph makes more. -/
theorem not_alike_profile_then_answer :
    ¬ Alike (customerSupportAgent.invoke (demoEnv (callsOnce [profileCall])) demoInput
        World.initial)
      (customerSupportAgent.invokeGraph (demoEnv (callsOnce [profileCall])) demoInput
        World.initial) := by
  rintro ⟨hcalls, -⟩
  have hlen := congrArg List.length hcalls
  revert hlen
  decide +kernel

end AgentPlatform
