import AgentPlatform.Graph.Turn
import AgentPlatform.Lib.Interleaving

/-!
# Invocations side by side

An invocation of an agent waits for the model and for the database, and others go on meanwhile,
also of the same agent.  They share the token counts the agent keeps of its last response: they
are written when an invocation gets its reply, and read when its run is recorded and again when
its result is made.

* `Phase`, `Phase.resume` — where an invocation waits, and what it does when it is resumed.
* `Invocation.drive_start` — **alone, it is the run of the agent.**
* `Invocation.Unmixed` — the token counts in its result and in its row are its own.
* `Exclusive` — what a move must not do to the invocations that have their reply.
* `run_unmixed` — **when usage is not mixed**, over every interleaving; `exclusive_of_unmixed` —
  no move may do it.
-/

namespace AgentPlatform

/-- The token counts of an invocation: those of the response it ended with. -/
def usageOf (final : Option LLMResponse) : Usage :=
  match final with
  | none => []
  | some response => response.usage

/-! ## One invocation -/

/-- Where an invocation is. -/
inductive Phase where
  /-- It waits for the response to a request, with a number of rounds left after it. -/
  | asking (rounds : ℕ) (messages : List ChatMessage) (used : List String)
      (outputs : List ToolOutput)
  /-- It has ended with a response, or without one, and waits for its row to be committed. -/
  | committing (final : Option LLMResponse) (report : RunReport)
  /-- It has returned, and its row is the one of that number. -/
  | returned (final : Option LLMResponse) (number : ℕ) (result : AgentResult)
  | raised (e : PyErr)

section Phases

variable (env : Env) (agent : Agent) (inp : AgentInput)

/-- From the end of the rounds up to the commit. -/
def Agent.conclude (final : Option LLMResponse) (used : List String) (outputs : List ToolOutput) :
    Run Phase := do
  Env.remember agent.key inp (saidText final)
  let w ← Effect.get
  return .committing final (agent.report inp used outputs (saidText final) w)

/-- From one point where an invocation waits to the next. -/
def Phase.resume : Phase → Run Phase
  | .asking n messages used outputs => do
    let response ← agent.askModel env inp messages
    if response.toolCalls.isEmpty then do
      Env.recordTokens agent.key response.usage
      agent.conclude inp (some response) used outputs
    else do
      let settled ← Agent.callTools env inp response.toolCalls
      let used := used ++ settled.map Settled.name
      let outputs := outputs ++ settled.map Settled.output
      match n with
      | 0 => agent.conclude inp none used outputs
      | n + 1 =>
        return .asking n (messages ++ settled.map (Settled.message env.runtime)) used outputs
  | .committing final report => do
    let w ← Effect.get
    env.recordAgentRun report
    let w' ← Effect.get
    return .returned final w.runs.rows.length
      { reply := Agent.handedOut report.reply, usedTools := report.usedTools,
        toolOutputs := report.toolOutputs, tokenUsage := w'.lastUsage agent.key,
        needsHumanApproval := agent.needsHitl }
  | .returned final number result => return .returned final number result
  | .raised e => return .raised e

/-- What an invocation hands out, once it has. -/
def Phase.outcome? : Phase → Option (Except PyErr AgentResult)
  | .returned _ _ result => some (.ok result)
  | .raised e => some (.error e)
  | _ => none

end Phases

/-- An invocation of an agent. -/
structure Invocation where
  agent : Agent
  inp : AgentInput
  phase : Phase

namespace Invocation

/-- From the start up to the first request. -/
def start (env : Env) (call : Agent × AgentInput) (w : World) : Invocation where
  agent := call.1
  inp := call.2
  phase :=
    match env.guard.guardInput call.2.message with
    | .error e => .raised e
    | .ok () => .asking (maxToolRounds - 1) (call.1.opening call.2 w) [] []

/-- What an invocation does when it is resumed. -/
def resume (env : Env) (i : Invocation) (w : World) : Invocation × World :=
  match i.phase.resume env i.agent i.inp w with
  | (.error e, w') => ({ i with phase := .raised e }, w')
  | (.ok phase, w') => ({ i with phase }, w')

/-- The invocations of agents, as processes. -/
def program (env : Env) : Interleaving.Program (Agent × AgentInput) World Invocation where
  start := start env
  resume := resume env

/-- An invocation that is resumed again and again, with nothing in between. -/
def drive (env : Env) : ℕ → Invocation × World → Invocation × World
  | 0, x => x
  | n + 1, x => drive env n (x.1.resume env x.2)

/-! ### Alone -/

section Alone

variable {env : Env} {agent : Agent} {inp : AgentInput}

/-- An invocation that is over stays as it is. -/
theorem drive_of_outcome {phase : Phase} {r : Except PyErr AgentResult}
    (h : phase.outcome? = some r) (n : ℕ) (w : World) :
    drive env n (⟨agent, inp, phase⟩, w) = (⟨agent, inp, phase⟩, w) := by
  induction n with
  | zero => rfl
  | succ n ih =>
    have hsame : resume env ⟨agent, inp, phase⟩ w = (⟨agent, inp, phase⟩, w) := by
      cases phase with
      | asking n messages used outputs => cases h
      | committing final report => cases h
      | returned final number result => rfl
      | raised e => rfl
    rw [drive, hsame]
    exact ih

/-- The run has come to its end, with the outcome and the world of a computation. -/
def Matches (x : Invocation × World) (y : Except PyErr AgentResult × World) : Prop :=
  x.1.phase.outcome? = some y.1 ∧ x.2 = y.2

/-- What comes after the rounds, in one go. -/
def closing (env : Env) (agent : Agent) (inp : AgentInput) (e : LoopEnd) : Run AgentResult := do
  Env.remember agent.key inp e.reply
  agent.persistRun env inp e.usedTools e.toolOutputs e.reply
  let w ← Effect.get
  return { reply := Agent.handedOut e.reply, usedTools := e.usedTools,
           toolOutputs := e.toolOutputs, tokenUsage := w.lastUsage agent.key,
           needsHumanApproval := agent.needsHitl }

/-- An invocation whose rounds have ended waits for its row. -/
def concluded (agent : Agent) (inp : AgentInput) (final : Option LLMResponse) (used : List String)
    (outputs : List ToolOutput) (w : World) : Invocation × World :=
  let v := (Env.remember agent.key inp (saidText final) w).2
  (⟨agent, inp, .committing final (agent.report inp used outputs (saidText final) v)⟩, v)

section Resume

variable {n : ℕ} {messages : List ChatMessage} {used : List String} {outputs : List ToolOutput}
  {w v : World} {response : LLMResponse}

theorem resume_of_error {e : PyErr} (h : agent.askModel env inp messages w = (.error e, v)) :
    resume env ⟨agent, inp, .asking n messages used outputs⟩ w = (⟨agent, inp, .raised e⟩, v) := by
  rw [resume, Phase.resume, Effect.bind_of_error h]

/-- The response is the reply. -/
theorem resume_of_reply (h : agent.askModel env inp messages w = (.ok response, v))
    (hreply : response.toolCalls.isEmpty = true) :
    resume env ⟨agent, inp, .asking n messages used outputs⟩ w =
      concluded agent inp (some response) used outputs
        (Env.recordTokens agent.key response.usage v).2 := by
  rw [resume, Phase.resume, Effect.bind_of_ok h, if_pos hreply]
  rfl

/-- The response asks for tools, in the last round. -/
theorem resume_of_cap (h : agent.askModel env inp messages w = (.ok response, v))
    (hcalls : response.toolCalls.isEmpty = false) {settled : List Settled} {u : World}
    (hsettled : Agent.callTools env inp response.toolCalls v = (.ok settled, u)) :
    resume env ⟨agent, inp, .asking 0 messages used outputs⟩ w =
      concluded agent inp none (used ++ settled.map Settled.name)
        (outputs ++ settled.map Settled.output) u := by
  rw [resume, Phase.resume, Effect.bind_of_ok h, if_neg (by simp [hcalls]),
    Effect.bind_of_ok hsettled]
  rfl

/-- It asks for tools, in an earlier one. -/
theorem resume_of_round (h : agent.askModel env inp messages w = (.ok response, v))
    (hcalls : response.toolCalls.isEmpty = false) {settled : List Settled} {u : World}
    (hsettled : Agent.callTools env inp response.toolCalls v = (.ok settled, u)) :
    resume env ⟨agent, inp, .asking (n + 1) messages used outputs⟩ w =
      (⟨agent, inp, .asking n (messages ++ settled.map (Settled.message env.runtime))
        (used ++ settled.map Settled.name) (outputs ++ settled.map Settled.output)⟩, u) := by
  rw [resume, Phase.resume, Effect.bind_of_ok h, if_neg (by simp [hcalls]),
    Effect.bind_of_ok hsettled]
  rfl

/-- The database takes the row. -/
theorem resume_of_taken {final : Option LLMResponse} {report : RunReport}
    (h : env.commit w.runs.asked = true) :
    resume env ⟨agent, inp, .committing final report⟩ w =
      (⟨agent, inp, .returned final w.runs.rows.length
        { reply := Agent.handedOut report.reply, usedTools := report.usedTools,
          toolOutputs := report.toolOutputs, tokenUsage := w.lastUsage agent.key,
          needsHumanApproval := agent.needsHitl }⟩,
        { w with runs := w.runs.taken (report.row env.runtime) }.push (.recorded report)) := by
  rw [resume, Phase.resume, Effect.bind_of_ok (Effect.get_apply w), Effect.bind_apply,
    Env.recordAgentRun, if_pos h]
  rfl

/-- It does not. -/
theorem resume_of_refused {final : Option LLMResponse} {report : RunReport}
    (h : env.commit w.runs.asked = false) :
    resume env ⟨agent, inp, .committing final report⟩ w =
      (⟨agent, inp, .raised .operationalError⟩, { w with runs := w.runs.refused }) := by
  rw [resume, Phase.resume, Effect.bind_of_ok (Effect.get_apply w), Effect.bind_apply,
    Env.recordAgentRun, if_neg (by simp [h])]

end Resume

/-- After the rounds, the commit is all that is left. -/
theorem drive_concluded (final : Option LLMResponse) (used : List String)
    (outputs : List ToolOutput) (n : ℕ) (w : World) :
    Matches (drive env (n + 1) (concluded agent inp final used outputs w))
      (closing env agent inp ⟨saidText final, used, outputs⟩ w) := by
  set v := (Env.remember agent.key inp (saidText final) w).2 with hv
  have hclosing : closing env agent inp ⟨saidText final, used, outputs⟩ w =
      (env.recordAgentRun (agent.report inp used outputs (saidText final) v) >>= fun _ => do
        let w ← Effect.get
        return ({ reply := Agent.handedOut (saidText final), usedTools := used,
                  toolOutputs := outputs, tokenUsage := w.lastUsage agent.key,
                  needsHumanApproval := agent.needsHitl } : AgentResult)) v := rfl
  rw [hclosing, drive, concluded, Effect.bind_apply, Env.recordAgentRun]
  dsimp only
  rw [← hv]
  cases hcommit : env.commit v.runs.asked with
  | true =>
    rw [resume_of_taken hcommit, drive_of_outcome rfl, if_pos rfl]
    exact ⟨rfl, rfl⟩
  | false =>
    rw [resume_of_refused hcommit, drive_of_outcome rfl, if_neg (by simp)]
    exact ⟨rfl, rfl⟩

/-- A request that fails, or that is answered with a reply, is the last one. -/
theorem drive_of_no_calls {n k : ℕ} {messages : List ChatMessage} {used : List String}
    {outputs : List ToolOutput} {w : World}
    (h : ∀ response v, agent.askModel env inp messages w = (.ok response, v) →
      response.toolCalls.isEmpty = true) :
    Matches (drive env (k + 2) (⟨agent, inp, .asking n messages used outputs⟩, w))
      ((agent.rounds env inp (n + 1) messages used outputs >>= closing env agent inp) w) := by
  rw [drive, Effect.bind_apply, Agent.rounds]
  cases hask : agent.askModel env inp messages w with
  | mk r v =>
    cases r with
    | error e =>
      rw [resume_of_error hask, Effect.bind_of_error hask, drive_of_outcome rfl]
      exact ⟨rfl, rfl⟩
    | ok response =>
      have hreply := h response v hask
      rw [Effect.bind_of_ok hask, resume_of_reply hask hreply, if_pos hreply]
      exact drive_concluded (some response) used outputs k _

/-- From a request on, an invocation does what the loop does. -/
theorem drive_asking (n : ℕ) (messages : List ChatMessage) (used : List String)
    (outputs : List ToolOutput) (w : World) :
    Matches (drive env (n + 2) (⟨agent, inp, .asking n messages used outputs⟩, w))
      ((agent.rounds env inp (n + 1) messages used outputs >>= closing env agent inp) w) := by
  induction n generalizing messages used outputs w with
  | zero =>
    by_cases hlast : ∀ response v, agent.askModel env inp messages w = (.ok response, v) →
        response.toolCalls.isEmpty = true
    · exact drive_of_no_calls hlast
    · -- the last round: the loop ends without a reply
      push Not at hlast
      obtain ⟨response, v, hask, hcalls⟩ := hlast
      rw [drive, Effect.bind_apply, Agent.rounds, Effect.bind_of_ok hask, if_neg hcalls,
        resume_of_cap hask (by simpa using hcalls) (callTools_apply _ _),
        Effect.bind_of_ok (callTools_apply _ _)]
      exact drive_concluded none _ _ 0 _
  | succ n ih =>
    by_cases hlast : ∀ response v, agent.askModel env inp messages w = (.ok response, v) →
        response.toolCalls.isEmpty = true
    · exact drive_of_no_calls hlast
    · push Not at hlast
      obtain ⟨response, v, hask, hcalls⟩ := hlast
      rw [drive, Effect.bind_apply, Agent.rounds, Effect.bind_of_ok hask, if_neg hcalls,
        resume_of_round hask (by simpa using hcalls) (callTools_apply _ _),
        Effect.bind_of_ok (callTools_apply _ _), ← Effect.bind_apply]
      exact ih _ _ _ _

/-- **Alone, an invocation is the run of the agent**: it is over when it has been resumed once
for every round and once for the commit. -/
theorem drive_start (w : World) :
    Matches (drive env (maxToolRounds + 1) (start env (agent, inp) w, w))
      (agent.invoke env inp w) := by
  unfold start
  dsimp only
  cases hguard : env.guard.guardInput inp.message with
  | error e =>
    rw [Agent.invoke_of_refused hguard, drive_of_outcome rfl]
    exact ⟨rfl, rfl⟩
  | ok u =>
    have hinvoke : agent.invoke env inp w = _ :=
      (Effect.bind_of_ok (by rw [hguard]; rfl) _).trans (Effect.bind_of_ok rfl _)
    rw [hinvoke]
    exact drive_asking (maxToolRounds - 1) _ _ _ w

end Alone

/-! ### Next to others -/

/-- How the rounds of an invocation end when it is resumed, if they do: with a response, or, where
they are used up, without one. -/
def ends? (env : Env) (w : World) (i : Invocation) : Option (Option LLMResponse) :=
  match i.phase with
  | .asking n messages _ _ =>
    match (exchange env i.agent i.inp messages w.log).1 with
    | .error _ => none
    | .ok response =>
      if response.toolCalls.isEmpty then some (some response)
      else if n = 0 then some none
      else none
  | _ => none

/-- The token counts in the result of an invocation that has returned, and in its row, are its
own. -/
def Unmixed (w : World) (i : Invocation) : Prop :=
  ∀ final number result, i.phase = .returned final number result →
    result.tokenUsage = usageOf final ∧
      (w.runs.rows[number]?).map AgentRun.tokenUsage = some (usageOf final)

/-- The same, and what an invocation reads when it returns is its own. -/
structure Own (w : World) (i : Invocation) : Prop where
  unmixed : i.Unmixed w
  field : ∀ final report, i.phase = .committing final report →
    w.lastUsage i.agent.key = usageOf final
  report : ∀ final report, i.phase = .committing final report →
    report.tokenUsage = usageOf final

section Steps

variable {env : Env} {w : World}

theorem own_of_asking {i : Invocation} {n : ℕ} {messages : List ChatMessage} {used : List String}
    {outputs : List ToolOutput} (h : i.phase = .asking n messages used outputs) : i.Own w where
  unmixed _ _ _ hphase := by rw [h] at hphase; cases hphase
  field _ _ hphase := by rw [h] at hphase; cases hphase
  report _ _ hphase := by rw [h] at hphase; cases hphase

theorem own_of_raised {i : Invocation} {e : PyErr} (h : i.phase = .raised e) : i.Own w where
  unmixed _ _ _ hphase := by rw [h] at hphase; cases hphase
  field _ _ hphase := by rw [h] at hphase; cases hphase
  report _ _ hphase := by rw [h] at hphase; cases hphase

theorem own_of_committing {i : Invocation} {final : Option LLMResponse} {report : RunReport}
    (h : i.phase = .committing final report) (hfield : w.lastUsage i.agent.key = usageOf final)
    (hreport : report.tokenUsage = usageOf final) : i.Own w where
  unmixed _ _ _ hphase := by rw [h] at hphase; cases hphase
  field _ _ hphase := by rw [h] at hphase; cases hphase; exact hfield
  report _ _ hphase := by rw [h] at hphase; cases hphase; exact hreport

theorem own_of_returned {i : Invocation} {final : Option LLMResponse} {number : ℕ}
    {result : AgentResult} (h : i.phase = .returned final number result)
    (hresult : result.tokenUsage = usageOf final)
    (hrow : (w.runs.rows[number]?).map AgentRun.tokenUsage = some (usageOf final)) : i.Own w where
  unmixed _ _ _ hphase := by rw [h] at hphase; cases hphase; exact ⟨hresult, hrow⟩
  field _ _ hphase := by rw [h] at hphase; cases hphase
  report _ _ hphase := by rw [h] at hphase; cases hphase

/-- What an invocation does that waits for a response: it goes on asking or raises, or its rounds
end, and it counts the tokens of its reply, if there is one. -/
theorem resume_asking (agent : Agent) (inp : AgentInput) (n : ℕ) (messages : List ChatMessage)
    (used : List String) (outputs : List ToolOutput) (w : World) :
    let i : Invocation := ⟨agent, inp, .asking n messages used outputs⟩
    (i.ends? env w = none ∧ ∃ phase v, i.resume env w = (⟨agent, inp, phase⟩, v) ∧
      v.lastUsage = w.lastUsage ∧ v.runs = w.runs ∧ ∀ u, Own u ⟨agent, inp, phase⟩) ∨
    ∃ final report v, i.ends? env w = some final ∧
      i.resume env w = (⟨agent, inp, .committing final report⟩, v) ∧
      v.lastUsage = agent.usageAfter w final ∧ v.runs = w.runs ∧
      report.tokenUsage = agent.usageAfter w final agent.key := by
  intro i
  have hask : agent.askModel env inp messages w = _ := askModel_apply messages w
  have hends : i.ends? env w = match (exchange env agent inp messages w.log).1 with
    | .error _ => none
    | .ok response =>
      if response.toolCalls.isEmpty then some (some response)
      else if n = 0 then some none
      else none := rfl
  rw [hends]
  cases hx : (exchange env agent inp messages w.log).1 with
  | error e =>
    rw [hx] at hask
    exact Or.inl ⟨rfl, _, _, resume_of_error hask, rfl, rfl, fun u => own_of_raised rfl⟩
  | ok response =>
    rw [hx] at hask
    dsimp only
    cases hreply : response.toolCalls.isEmpty with
    | true =>
      exact Or.inr ⟨some response, _, _, if_pos rfl, resume_of_reply hask hreply, rfl, rfl, rfl⟩
    | false =>
      rw [if_neg (by simp)]
      cases n with
      | zero =>
        exact Or.inr ⟨none, _, _, rfl, resume_of_cap hask hreply (callTools_apply _ _), rfl, rfl,
          rfl⟩
      | succ n =>
        exact Or.inl ⟨rfl, _, _, resume_of_round hask hreply (callTools_apply _ _), rfl, rfl,
          fun u => own_of_asking rfl⟩

/-- What a resumed invocation makes of the token counts that are kept. -/
theorem resume_lastUsage (env : Env) (i : Invocation) (w : World) :
    (i.resume env w).2.lastUsage =
      match i.ends? env w with
      | none => w.lastUsage
      | some final => i.agent.usageAfter w final := by
  obtain ⟨agent, inp, phase⟩ := i
  cases phase with
  | asking n messages used outputs =>
    rcases resume_asking agent inp n messages used outputs w with
      ⟨hends, phase, v, hresume, husage, -, -⟩ | ⟨final, report, v, hends, hresume, husage, -, -⟩
    · rw [hends, hresume]
      exact husage
    · rw [hends, hresume]
      exact husage
  | committing final report =>
    cases hcommit : env.commit w.runs.asked with
    | true => rw [resume_of_taken hcommit]; rfl
    | false => rw [resume_of_refused hcommit]; rfl
  | returned final number result => rfl
  | raised e => rfl

/-- No row is taken out of the table of runs. -/
theorem runs_resume (env : Env) (i : Invocation) (w : World) :
    w.runs.rows <+: (i.resume env w).2.runs.rows := by
  obtain ⟨agent, inp, phase⟩ := i
  cases phase with
  | asking n messages used outputs =>
    rcases resume_asking agent inp n messages used outputs w with
      ⟨-, phase, v, hresume, -, hruns, -⟩ | ⟨final, report, v, -, hresume, -, hruns, -⟩
    · rw [hresume, hruns]
    · rw [hresume, hruns]
  | committing final report =>
    cases hcommit : env.commit w.runs.asked with
    | true =>
      rw [resume_of_taken hcommit]
      exact List.prefix_append _ _
    | false =>
      rw [resume_of_refused hcommit]
      exact List.prefix_rfl
  | returned final number result => exact List.prefix_rfl
  | raised e => exact List.prefix_rfl

/-- An invocation whose rounds end then waits for its row. -/
theorem resume_of_ends {i : Invocation} {final : Option LLMResponse}
    (h : i.ends? env w = some final) : ∃ report v,
      i.resume env w = (⟨i.agent, i.inp, .committing final report⟩, v) ∧
        v.lastUsage = i.agent.usageAfter w final := by
  obtain ⟨agent, inp, phase⟩ := i
  cases phase with
  | asking n messages used outputs =>
    rcases resume_asking agent inp n messages used outputs w with
      ⟨hends, -⟩ | ⟨final', report, v, hends, hresume, husage, -⟩
    · rw [hends] at h
      cases h
    · obtain rfl := Option.some.inj (hends.symm.trans h)
      exact ⟨report, v, hresume, husage⟩
  | committing final' report => cases h
  | returned final' number result => cases h
  | raised e => cases h

/-- What an invocation keeps of itself, if the counts are empty where it ends without a reply. -/
theorem own_resume {i : Invocation}
    (hcap : i.ends? env w = some none → w.lastUsage i.agent.key = []) (h : i.Own w) :
    (i.resume env w).1.Own (i.resume env w).2 := by
  obtain ⟨agent, inp, phase⟩ := i
  cases phase with
  | asking n messages used outputs =>
    rcases resume_asking agent inp n messages used outputs w with
      ⟨-, phase, v, hresume, -, -, hopen⟩ | ⟨final, report, v, hends, hresume, husage, -, hreport⟩
    · rw [hresume]
      exact hopen v
    · have hafter : agent.usageAfter w final agent.key = usageOf final := by
        cases final with
        | none => exact hcap hends
        | some response => exact Function.update_self ..
      rw [hresume]
      exact own_of_committing rfl (by rw [husage, hafter]) (by rw [hreport, hafter])
  | committing final report =>
    cases hcommit : env.commit w.runs.asked with
    | true =>
      rw [resume_of_taken hcommit]
      refine own_of_returned rfl (h.field final report rfl) ?_
      show ((w.runs.rows ++ [report.row env.runtime])[w.runs.rows.length]?).map
        AgentRun.tokenUsage = _
      rw [List.getElem?_concat_length]
      exact congrArg some (h.report final report rfl)
    | false =>
      rw [resume_of_refused hcommit]
      exact own_of_raised rfl
  | returned final number result => exact h
  | raised e => exact own_of_raised rfl

/-- What it keeps of another one, if the reply it counts leaves the other's counts alone. -/
theorem own_of_other {i other : Invocation}
    (hexclusive : ∀ response, i.ends? env w = some (some response) →
      other.agent.key = i.agent.key → ∀ final report, other.phase = .committing final report →
        response.usage = usageOf final)
    (h : other.Own w) : other.Own (i.resume env w).2 := by
  refine ⟨fun final number result hphase => ?_, fun final report hphase => ?_, h.report⟩
  · obtain ⟨hresult, hrow⟩ := h.unmixed final number result hphase
    refine ⟨hresult, ?_⟩
    obtain ⟨row, hnumber, husage⟩ := Option.map_eq_some_iff.1 hrow
    have hlt : number < w.runs.rows.length := (List.getElem?_eq_some_iff.1 hnumber).1
    obtain ⟨later, hlater⟩ := runs_resume env i w
    rw [← hlater, List.getElem?_append_left hlt]
    exact hrow
  · have hfield := h.field final report hphase
    rw [resume_lastUsage]
    cases hends : i.ends? env w with
    | none => exact hfield
    | some final' =>
      cases final' with
      | none => exact hfield
      | some response =>
        dsimp only [Agent.usageAfter]
        by_cases hkey : other.agent.key = i.agent.key
        · rw [hkey, Function.update_self]
          exact hexclusive response hends hkey final report hphase
        · rw [Function.update_of_ne hkey]
          exact hfield

end Steps

end Invocation

/-! ## Every interleaving -/

open Interleaving (Pool Move)

/-- What a move must not do.  An invocation that gets its reply leaves the counts alone of those
of the same agent that have theirs and have not returned; and one that uses up its rounds finds
none. -/
def Exclusive (env : Env) (p : Pool World Invocation) : Move (Agent × AgentInput) → Prop
  | .start _ => True
  | .resume n => ∀ i, p.procs[n]? = some i →
    (i.ends? env p.shared = some none → p.shared.lastUsage i.agent.key = []) ∧
      ∀ response, i.ends? env p.shared = some (some response) →
        ∀ (m : ℕ) other, m ≠ n → p.procs[m]? = some other → other.agent.key = i.agent.key →
          ∀ final report, other.phase = .committing final report → response.usage = usageOf final

section Runs

variable {env : Env} {p : Pool World Invocation}

/-- The step: what an allowed move keeps. -/
theorem own_run (env : Env) {p : Pool World Invocation} (hp : p.All fun v i => i.Own v)
    {moves : List (Move (Agent × AgentInput))}
    (hexclusive : ∀ before m, before ++ [m] <+: moves →
      Exclusive env (p.run (Invocation.program env) before) m) :
    (p.run (Invocation.program env) moves).All fun v i => i.Own v := by
  refine Interleaving.run_all ?_ ?_ ?_ hp hexclusive
  · intro q call _
    show (Invocation.start env call q.shared).Own q.shared
    unfold Invocation.start
    cases env.guard.guardInput call.2.message with
    | error e => exact Invocation.own_of_raised rfl
    | ok u => exact Invocation.own_of_asking rfl
  · intro q n i hallowed hi hown
    exact Invocation.own_resume (hallowed i hi).1 hown
  · intro q n i m other hallowed hi hother hne hown
    refine Invocation.own_of_other (fun response hends hkey final report hphase => ?_) hown
    exact (hallowed i hi).2 response hends m other hne hother hkey final report hphase

/-- What an invocation that waits for its commit returns with, if its row is taken. -/
theorem unmixed_of_committing {n : ℕ} {i : Invocation} {final : Option LLMResponse}
    {report : RunReport} (hcommit : env.commit p.shared.runs.asked = true)
    (hi : p.procs[n]? = some i) (hphase : i.phase = .committing final report)
    (hunmixed : (p.move (Invocation.program env) (.resume n)).All fun v i => i.Unmixed v) :
    p.shared.lastUsage i.agent.key = usageOf final := by
  obtain ⟨agent, inp, phase⟩ := i
  obtain rfl : phase = .committing final report := hphase
  have hself := Pool.procs_move_self (P := Invocation.program env) hi
  have hresume : Invocation.resume env ⟨agent, inp, .committing final report⟩ p.shared = _ :=
    Invocation.resume_of_taken hcommit
  have hnow := hunmixed n _ hself
  change Invocation.Unmixed _ (Invocation.resume env _ p.shared).1 at hnow
  rw [hresume] at hnow
  exact (hnow _ _ _ rfl).1

/-- A move that is not allowed has usage mixed, if the next invocation to return is one that it
leaves other counts for. -/
theorem exclusive_of_unmixed (hcommit : ∀ number, env.commit number = true) {n : ℕ}
    (h : ∀ m, ((p.move (Invocation.program env) (.resume n)).move (Invocation.program env)
      (.resume m)).All fun v i => i.Unmixed v) : Exclusive env p (.resume n) := by
  intro i hi
  have hmove := Pool.move_resume (P := Invocation.program env) hi
  refine ⟨fun hends => ?_, fun response hends m other hne hother hkey final report hphase => ?_⟩
  · obtain ⟨report, v, hresume, husage⟩ := Invocation.resume_of_ends hends
    have hself := Pool.procs_move_self (P := Invocation.program env) hi
    change _ = some (Invocation.resume env i p.shared).1 at hself
    rw [hresume] at hself
    have hfield := unmixed_of_committing (hcommit _) hself rfl (h n)
    rw [hmove] at hfield
    change (Invocation.resume env i p.shared).2.lastUsage i.agent.key = [] at hfield
    rw [hresume, husage] at hfield
    exact hfield
  · obtain ⟨report', v, hresume, husage⟩ := Invocation.resume_of_ends hends
    have hsame : (p.move (Invocation.program env) (.resume n)).procs[m]? = some other := by
      rw [Pool.procs_move_of_ne hi hne, hother]
    have hfield := unmixed_of_committing (hcommit _) hsame hphase (h m)
    rw [hmove] at hfield
    change (Invocation.resume env i p.shared).2.lastUsage other.agent.key = _ at hfield
    rw [hresume, husage, hkey, Agent.usageAfter, Function.update_self] at hfield
    exact hfield

end Runs

/-- **When usage is not mixed**, over every interleaving: if no move counts a reply over that of
an invocation that has not returned, and no invocation uses up its rounds after a reply has been
counted, then the token counts in every result and in every row are the invocation's own. -/
theorem run_unmixed (env : Env) (w : World) (moves : List (Move (Agent × AgentInput)))
    (hexclusive : ∀ before m, before ++ [m] <+: moves →
      Exclusive env (Pool.run (Invocation.program env) ⟨w, []⟩ before) m) :
    (Pool.run (Invocation.program env) ⟨w, []⟩ moves).All fun v i => i.Unmixed v := by
  have hrun := own_run env (p := ⟨w, []⟩) (fun n i h => by simp at h) hexclusive
  exact fun n i h => (hrun n i h).unmixed

/-! ## Two invocations -/

/-- A reply with token counts. -/
def repliesWith (tokens : ℤ) : LLMResponse :=
  { replies "Done." with usage := [("total_tokens", tokens)] }

/-- A model that counts ten tokens more from reply to reply. -/
def countingEnv : Env := demoEnv fun requests => some (repliesWith (10 * requests.length))

/-- The first reply of the model counts tokens, and then it asks for a tool again and again. -/
def thenInsisting : Env := demoEnv fun requests =>
  some (if requests.length = 1 then repliesWith 10 else asksFor [profileCall])

/-- Two customers ask the same agent. -/
def firstAsks : Agent × AgentInput := (customerSupportAgent, demoInput)

def secondAsks : Agent × AgentInput :=
  (customerSupportAgent, { demoInput with tenantId := "t2", userId := "cust_2002" })

/-- One after the other. -/
theorem one_after_the_other :
    (Pool.run (Invocation.program countingEnv) ⟨World.initial, []⟩
      [.start firstAsks, .resume 0, .resume 0, .start secondAsks, .resume 1, .resume 1]).All
      fun v i => i.Unmixed v := by
  refine run_unmixed countingEnv World.initial _ ?_
  -- at a reply, no other invocation waits for its row
  refine Interleaving.allowed_cons trivial (Interleaving.allowed_cons ?_
    (Interleaving.allowed_cons ?_ (Interleaving.allowed_cons trivial
      (Interleaving.allowed_cons ?_ (Interleaving.allowed_cons ?_ ?_)))))
  · rintro i ⟨⟩
    refine ⟨fun hends => (by cases hends), fun response hends m other hne hother => ?_⟩
    cases m with
    | zero => exact absurd rfl hne
    | succ m => cases hother
  · rintro i ⟨⟩
    exact ⟨fun hends => (by cases hends), fun response hends => (by cases hends)⟩
  · rintro i ⟨⟩
    refine ⟨fun hends => (by cases hends), fun response hends m other hne hother => ?_⟩
    rcases m with _ | _ | m
    · obtain rfl := Option.some.inj hother
      rintro - final report ⟨⟩
    · exact absurd rfl hne
    · cases hother
  · rintro i ⟨⟩
    exact ⟨fun hends => (by cases hends), fun response hends => (by cases hends)⟩
  · intro before m hprefix
    simp at hprefix

/-- The second customer gets a reply before the first one's row is committed: the first result
counts the tokens of the second reply.  And one whose rounds are used up counts those of the
customer before. -/
theorem usage_mixed :
    ¬ (Pool.run (Invocation.program countingEnv) ⟨World.initial, []⟩
        [.start firstAsks, .start secondAsks, .resume 0, .resume 1, .resume 0]).All
        (fun v i => i.Unmixed v) ∧
    ¬ (Pool.run (Invocation.program thenInsisting) ⟨World.initial, []⟩
        ([.start firstAsks, .resume 0, .resume 0, .start secondAsks] ++
          List.replicate 7 (.resume 1))).All fun v i => i.Unmixed v := by
  constructor
  · intro h
    have hfirst := (h 0 _ rfl _ _ _ rfl).1
    exact absurd hfirst (by decide)
  · intro h
    have hsecond := (h 1 _ rfl _ _ _ rfl).1
    exact absurd hsecond (by decide)

end AgentPlatform
