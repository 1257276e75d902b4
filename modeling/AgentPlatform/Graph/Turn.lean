import AgentPlatform.Graph.Refinement

/-!
# What a turn leaves

A run of the loop that comes to its end has a text: that of the response without tool calls, or
none where the rounds were used up.  The text is remembered and recorded as it is; what is
handed out differs from it if it is empty.

* `Agent.outcome`, `saidText` — how the loop of a run ends, and with which text.
* `Agent.Unsaid`, `Agent.Said` — what a run leaves that raised before its end, and one that came
  to it.
* `Agent.invoke_cases` — **what a run leaves.**
-/

namespace AgentPlatform

/-- The text of the response a run ended with; without one it is empty. -/
def saidText (final : Option LLMResponse) : String :=
  match final with
  | none => ""
  | some response => response.text

section Turn

variable (env : Env) (agent : Agent) (inp : AgentInput) (w : World)

/-- How the loop of a run ends: an exception, or the response without tool calls, if there is one
before the rounds are used up. -/
def Agent.outcome : Except PyErr (Option LLMResponse) :=
  match env.guard.guardInput inp.message with
  | .error e => .error e
  | .ok () =>
    let d := agent.dialogueFrom env inp w
    if d.rounds.length = maxToolRounds then .ok none else (d.closing env agent inp).1.map some

/-- A run that raised before its end: nothing is remembered, recorded or counted. -/
structure Agent.Unsaid (e : PyErr) (x : Except PyErr AgentResult × World) : Prop where
  raised : x.1 = .error e
  memory : x.2.memory = w.memory
  runs : x.2.runs = w.runs
  usage : x.2.lastUsage = w.lastUsage

/-- The token counts an agent keeps after a run that came to its end. -/
def Agent.usageAfter (final : Option LLMResponse) : String → Usage :=
  match final with
  | none => w.lastUsage
  | some response => Function.update w.lastUsage agent.key response.usage

/-- A run that came to its end: the turn is remembered, and the run is recorded and returns if
the database takes it. -/
structure Agent.Said (final : Option LLMResponse) (x : Except PyErr AgentResult × World) :
    Prop where
  memory : x.2.memory = Function.update w.memory agent.key
    ((w.memory agent.key).append inp (saidText final))
  usage : x.2.lastUsage = agent.usageAfter w final
  taken : env.commit w.runs.asked = true → ∃ used outputs,
    x.1 = .ok { reply := Agent.handedOut (saidText final), usedTools := used,
                toolOutputs := outputs, tokenUsage := agent.usageAfter w final agent.key,
                needsHumanApproval := agent.needsHitl } ∧
    x.2.runs = w.runs.taken (RunReport.row env.runtime ⟨inp, agent.key, agent.version, used,
      outputs, saidText final, agent.usageAfter w final agent.key⟩)
  refused : env.commit w.runs.asked = false →
    x.1 = .error .operationalError ∧ x.2.runs = w.runs.refused

variable {env agent inp w}

/-- Closing a run, after the rounds. -/
theorem Agent.said_of_close (final : Option LLMResponse) {used : List String}
    {outputs : List ToolOutput} {v : World} (hmemory : v.memory = w.memory)
    (hruns : v.runs = w.runs) (husage : v.lastUsage = agent.usageAfter w final) :
    agent.Said env inp w final
      (match agent.close env inp used outputs (saidText final) v with
        | (.error e, w') => (.error e, w')
        | (.ok (), w') => (.ok (agent.loopResult used outputs (saidText final) w'), w')) := by
  rw [Agent.close_apply, hruns]
  cases hcommit : env.commit w.runs.asked with
  | true =>
    refine ⟨?_, husage, fun _ => ⟨used, outputs, ?_, ?_⟩, fun h => by simp [h] at hcommit⟩
    · show Function.update v.memory _ _ = _
      rw [hmemory]
    · rw [← husage]
      rfl
    · rw [← husage]
      rfl
  | false =>
    refine ⟨?_, husage, fun h => by simp [h] at hcommit, fun _ => ⟨rfl, rfl⟩⟩
    show Function.update v.memory _ _ = _
    rw [hmemory]

/-- **What a run leaves**, by how its loop ends. -/
theorem Agent.invoke_cases (env : Env) (agent : Agent) (inp : AgentInput) (w : World) :
    (∃ e, agent.outcome env inp w = .error e ∧ Agent.Unsaid w e (agent.invoke env inp w)) ∨
      ∃ final, agent.outcome env inp w = .ok final ∧
        agent.Said env inp w final (agent.invoke env inp w) := by
  unfold Agent.outcome
  cases hguard : env.guard.guardInput inp.message with
  | error e =>
    rw [Agent.invoke_of_refused hguard]
    exact Or.inl ⟨e, rfl, ⟨rfl, rfl, rfl, rfl⟩⟩
  | ok u =>
    dsimp only
    by_cases hcap : (agent.dialogueFrom env inp w).rounds.length = maxToolRounds
    · rw [if_pos hcap, Agent.invoke_of_cap hguard hcap]
      exact Or.inr ⟨none, rfl, Agent.said_of_close none rfl rfl rfl⟩
    · rw [if_neg hcap]
      cases hx : (agent.dialogueFrom env inp w).closing env agent inp with
      | mk r log =>
        cases r with
        | error e =>
          rw [Agent.invoke_of_error hguard hcap hx]
          exact Or.inl ⟨e, rfl, ⟨rfl, rfl, rfl, rfl⟩⟩
        | ok response =>
          rw [Agent.invoke_of_answer hguard hcap hx]
          exact Or.inr ⟨some response, rfl,
            Agent.said_of_close (some response) rfl rfl rfl⟩

/-- A run that returned came to its end, and the database took it. -/
theorem Agent.said_of_ok {r : AgentResult} {v : World}
    (h : agent.invoke env inp w = (.ok r, v)) : env.commit w.runs.asked = true ∧
      ∃ final, agent.outcome env inp w = .ok final ∧ agent.Said env inp w final (.ok r, v) := by
  have hcases := Agent.invoke_cases env agent inp w
  rw [h] at hcases
  rcases hcases with ⟨e, -, hunsaid⟩ | ⟨final, houtcome, hsaid⟩
  · cases hunsaid.raised
  · refine ⟨?_, final, houtcome, hsaid⟩
    by_contra hcommit
    cases (hsaid.refused (Bool.eq_false_of_not_eq_true hcommit)).1

end Turn

end AgentPlatform
