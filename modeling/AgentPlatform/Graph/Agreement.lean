import AgentPlatform.Agents.Approval
import AgentPlatform.Graph.Delegation

/-!
# The two supervisors

The supervisor and its graph, with the same specialists and the same model: when do they
answer alike?  The graph checks the message itself, records its run, hands out another text
for an empty one, and reads the tools off channels that it never writes.

* `Agree` — the same answer, or no answer from either.
* `invokeWith_fst`, `invokeGraphWith_of_ok` — what the two runs answer.
* `supervisors_agree_iff` — **when the two supervisors agree.**
-/

namespace AgentPlatform

/-! ## Agreement -/

/-- Two results that are the same to whom they are handed. -/
structure AgentResult.SameAnswer (r r' : AgentResult) : Prop where
  reply : r.reply = r'.reply
  usedTools : r.usedTools = r'.usedTools
  toolOutputs : r.toolOutputs = r'.toolOutputs
  delegatedTo : r.delegatedTo = r'.delegatedTo
  needsHumanApproval : r.needsHumanApproval = r'.needsHumanApproval
  decision : r.decision = r'.decision

/-- Two runs that return the same answer, or both raise. -/
def Agree : Except PyErr AgentResult → Except PyErr AgentResult → Prop
  | .ok r, .ok r' => r.SameAnswer r'
  | .error _, .error _ => True
  | _, _ => False

@[simp] theorem agree_error (e e' : PyErr) : Agree (.error e) (.error e') := trivial

@[simp] theorem not_agree_ok_error (r : AgentResult) (e : PyErr) :
    ¬ Agree (.ok r) (.error e) := id

/-! ## The answers -/

/-- The agent of the key is the agent the message is delegated to. -/
theorem AgentRegistry.getAgent_specialistKey (reg : AgentRegistry) (rt : PyRuntime)
    (message : String) :
    reg.getAgent (reg.specialistKey rt message) = reg.specialist rt message := by
  unfold specialistKey specialist
  cases h : reg.candidates rt message with
  | nil => rfl
  | cons a as =>
    have hmem : a ∈ reg.candidates rt message := h ▸ List.mem_cons_self ..
    exact getAgent_key (mem_candidates hmem).1

/-- What is composed with, whatever was asked: an answer that the detectors let through. -/
def checkedAnswer (env : Env) (answer : Option LLMResponse) : Except PyErr LLMResponse :=
  match answer with
  | none => .error .retryError
  | some response => (env.guard.guardOutput response.text).map fun _ => response

theorem checkedAnswer_some (env : Env) (response : LLMResponse) :
    checkedAnswer env (some response) =
      (env.guard.guardOutput response.text).map fun _ => response := rfl

section Answers

variable {env : Env} {answer : Option LLMResponse} {reg : AgentRegistry} {inp : AgentInput}
  {w v : World} {behave : Agent → AgentInput → Run AgentResult} {specialist : Agent}
  {result : AgentResult}

theorem ask_answering (request : LLMRequest) :
    (env.answering fun _ => answer).ask request v =
      match answer with
      | none => (.error .retryError, v.push (.asked request none))
      | some response => (.ok response, v.push (.asked request (some response))) := by
  unfold Env.ask
  cases answer <;> rfl

theorem invokeWith_of_none (hspecialist : reg.specialist env.runtime inp.message = none) :
    ∃ e, (Supervisor.invokeWith behave env reg inp w).1 = .error e := by
  rw [Supervisor.invokeWith, hspecialist]
  exact ⟨_, rfl⟩

theorem invokeWith_of_error {e : PyErr}
    (hspecialist : reg.specialist env.runtime inp.message = some specialist)
    (hbehave : behave specialist inp w = (.error e, v)) :
    (Supervisor.invokeWith behave env reg inp w).1 = .error e := by
  rw [Supervisor.invokeWith, hspecialist]
  dsimp only
  rw [Effect.bind_of_error hbehave]

/-- What the supervisor answers, after a specialist that returned. -/
theorem invokeWith_of_ok (hspecialist : reg.specialist env.runtime inp.message = some specialist)
    (hbehave : behave specialist inp w = (.ok result, v)) :
    (Supervisor.invokeWith behave (env.answering fun _ => answer) reg inp w).1 =
      (checkedAnswer env answer).map fun response =>
        { result with reply := response.text, delegatedTo := [specialist.key] } := by
  have hspecialist' : reg.specialist (env.answering fun _ => answer).runtime inp.message =
      some specialist := hspecialist
  rw [Supervisor.invokeWith, hspecialist']
  dsimp only
  rw [Effect.bind_of_ok hbehave, Effect.bind_apply, ask_answering]
  cases answer with
  | none => rfl
  | some response =>
    show ((Effect.ofExcept (env.guard.guardOutput response.text) >>= _) _).1 = _
    rw [checkedAnswer_some]
    cases env.guard.guardOutput response.text with
    | error e => rfl
    | ok u => rfl

/-- What the last node of the graph makes of a state. -/
theorem composeNode_answering (env : Env) (answer : Option LLMResponse) {s : AgentGraphState}
    (hinput : s.input = some inp) :
    (SupervisorNode.composeNode (env.answering fun _ => answer) s v).1 =
      (checkedAnswer env answer).bind fun response =>
        if env.commit v.runs.asked then
          .ok { reply := some response.text
                tokenUsage := some response.usage
                needsHumanApproval := some (s.needsHumanApproval.getD false) }
        else .error .operationalError := by
  unfold SupervisorNode.composeNode channel
  rw [hinput]
  dsimp only
  rw [Effect.bind_of_ok (Effect.pure_apply inp v), Effect.bind_apply, ask_answering]
  cases answer with
  | none => rfl
  | some response =>
    show ((Effect.ofExcept (env.guard.guardOutput response.text) >>= _) _).1 = _
    rw [checkedAnswer_some]
    cases env.guard.guardOutput response.text with
    | error e => rfl
    | ok u =>
      have hcommit : (env.answering fun _ => some response).commit = env.commit := rfl
      cases htake : env.commit v.runs.asked with
      | true =>
        simp [Effect.bind_apply, Env.recordTokens, Agent.persistRun, Env.recordAgentRun,
          Env.remember, World.push, hcommit, htake, Except.map, Except.bind]
      | false =>
        simp [Effect.bind_apply, Env.recordTokens, Agent.persistRun, Env.recordAgentRun,
          World.push, hcommit, htake, Except.map, Except.bind]

theorem invokeGraphWith_apply (behave : Agent → AgentInput → Run AgentResult) (env : Env)
    (reg : AgentRegistry) (inp : AgentInput) (w : World) :
    Supervisor.invokeGraphWith behave env reg inp w =
      LangGraph.finished supervisorAgent inp
        ((supervisorGraphWith behave env reg).steps LangGraph.recursionLimit .route
          (startState supervisorAgent inp
            (w.checkpoints supervisorAgent.key inp.correlationId) w) w) := rfl

theorem invokeGraphWith_of_refused {e : PyErr}
    (hguard : env.guard.guardInput inp.message = .error e) :
    (Supervisor.invokeGraphWith behave env reg inp w).1 = .error e := by
  rw [invokeGraphWith_apply, show LangGraph.recursionLimit = 24 + 1 from rfl,
    stepsWith_route_of_refused startState_input hguard]
  rfl

theorem invokeGraphWith_of_none (hspecialist : reg.specialist env.runtime inp.message = none) :
    ∃ e, (Supervisor.invokeGraphWith behave env reg inp w).1 = .error e := by
  cases hguard : env.guard.guardInput inp.message with
  | error e => exact ⟨e, invokeGraphWith_of_refused hguard⟩
  | ok u =>
    rw [invokeGraphWith_apply, show LangGraph.recursionLimit = 23 + 2 from rfl,
      stepsWith_unregistered startState_input hguard
        ((reg.getAgent_specialistKey _ _).trans hspecialist)]
    exact ⟨_, rfl⟩

theorem invokeGraphWith_of_error {e : PyErr}
    (hspecialist : reg.specialist env.runtime inp.message = some specialist)
    (hbehave : behave specialist inp w = (.error e, v)) :
    ∃ e', (Supervisor.invokeGraphWith behave env reg inp w).1 = .error e' := by
  cases hguard : env.guard.guardInput inp.message with
  | error e' => exact ⟨e', invokeGraphWith_of_refused hguard⟩
  | ok u =>
    rw [invokeGraphWith_apply, show LangGraph.recursionLimit = 22 + 3 from rfl,
      stepsWith_delegation startState_input hguard
        ((reg.getAgent_specialistKey _ _).trans hspecialist), hbehave]
    exact ⟨e, rfl⟩

/-- What the graph answers, after a specialist that returned. -/
theorem invokeGraphWith_of_ok (hguard : env.guard.guardInput inp.message = .ok ())
    (hspecialist : reg.specialist env.runtime inp.message = some specialist)
    (hbehave : behave specialist inp w = (.ok result, v)) :
    (Supervisor.invokeGraphWith behave (env.answering fun _ => answer) reg inp w).1 =
      (checkedAnswer env answer).bind fun response =>
        if env.commit v.runs.asked then
          .ok { reply := Agent.handedOut response.text
                usedTools := (w.checkpoints supervisorAgent.key inp.correlationId).usedTools
                toolOutputs := (w.checkpoints supervisorAgent.key inp.correlationId).toolOutputs
                delegatedTo := [specialist.key]
                tokenUsage := response.usage
                needsHumanApproval := result.needsHumanApproval
                decision := result.decision }
        else .error .operationalError := by
  set env' := env.answering fun _ => answer with henv
  have hguard' : env'.guard.guardInput inp.message = .ok () := hguard
  have hagent : reg.getAgent (reg.specialistKey env'.runtime inp.message) = some specialist :=
    (reg.getAgent_specialistKey _ _).trans hspecialist
  rw [invokeGraphWith_apply, show LangGraph.recursionLimit = 22 + 3 from rfl,
    stepsWith_delegation startState_input hguard' hagent, hbehave]
  set start := startState supervisorAgent inp
    (w.checkpoints supervisorAgent.key inp.correlationId) w with hstart
  set s := delegatedState env' reg inp start specialist result with hs
  have hcompose : (SupervisorNode.composeNode env' s v).1 = _ :=
    composeNode_answering env answer (s := s) rfl
  dsimp only
  cases hnode : SupervisorNode.composeNode env' s v with
  | mk r v' =>
    rw [hnode] at hcompose
    obtain rfl : r = _ := hcompose
    cases checkedAnswer env answer with
    | error e => rfl
    | ok response =>
      cases env.commit v.runs.asked with
      | false => rfl
      | true =>
        simp [composed, LangGraph.finished, LangGraph.result, Except.bind, hs, delegatedState,
          routedState, hstart, startState, AgentGraphState.merge, LangGraph.initial, routeUpdate,
          delegationUpdate]

end Answers

/-! ## When they agree -/

theorem agree_map_bind_iff {α : Type} (x : Except PyErr α) (f : α → AgentResult)
    (g : α → Except PyErr AgentResult) :
    Agree (x.map f) (x.bind g) ↔ ∀ a, x = .ok a → Agree (.ok (f a)) (g a) := by
  cases x with
  | error e => simp [Except.map, Except.bind]
  | ok a => simp [Except.map, Except.bind]

theorem checkedAnswer_eq_ok_iff {env : Env} {answer : Option LLMResponse}
    {response : LLMResponse} : checkedAnswer env answer = .ok response ↔
      answer = some response ∧ env.guard.guardOutput response.text = .ok () := by
  cases answer with
  | none => simp [checkedAnswer]
  | some response' =>
    rw [checkedAnswer_some, Option.some.injEq]
    cases h : env.guard.guardOutput response'.text with
    | error e =>
      refine iff_of_false (by simp [Except.map]) ?_
      rintro ⟨rfl, hok⟩
      rw [h] at hok
      cases hok
    | ok u =>
      simp only [Except.map, Except.ok.injEq, iff_self_and]
      rintro rfl
      exact h

theorem eq_handedOut_iff {text : String} : text = Agent.handedOut text ↔ text ≠ "" := by
  unfold Agent.handedOut
  by_cases h : text = ""
  · simp [h, fallbackReply]
  · simp [h]

section Agreement

variable {env : Env} {answer : Option LLMResponse} {reg : AgentRegistry} {inp : AgentInput}
  {w v : World} {behave : Agent → AgentInput → Run AgentResult} {specialist : Agent}
  {result : AgentResult}

/-- A message the detectors refuse: only the graph looks at it. -/
theorem agree_iff_of_refused {e : PyErr} (hguard : env.guard.guardInput inp.message = .error e)
    (hspecialist : reg.specialist env.runtime inp.message = some specialist)
    (hbehave : behave specialist inp w = (.ok result, v)) :
    Agree (Supervisor.invokeWith behave (env.answering fun _ => answer) reg inp w).1
        (Supervisor.invokeGraphWith behave (env.answering fun _ => answer) reg inp w).1 ↔
      ∀ response, checkedAnswer env answer ≠ .ok response := by
  have hgraph : (Supervisor.invokeGraphWith behave (env.answering fun _ => answer) reg inp w).1 =
      .error e := invokeGraphWith_of_refused hguard
  rw [invokeWith_of_ok hspecialist hbehave, hgraph]
  cases checkedAnswer env answer with
  | error e' => exact iff_of_true (agree_error _ _) fun _ h => by cases h
  | ok response => exact iff_of_false (not_agree_ok_error _ _) fun h => h response rfl

/-- A message the detectors let through, and a specialist that returned. -/
theorem agree_iff_of_ok (hguard : env.guard.guardInput inp.message = .ok ())
    (hspecialist : reg.specialist env.runtime inp.message = some specialist)
    (hbehave : behave specialist inp w = (.ok result, v)) :
    Agree (Supervisor.invokeWith behave (env.answering fun _ => answer) reg inp w).1
        (Supervisor.invokeGraphWith behave (env.answering fun _ => answer) reg inp w).1 ↔
      ∀ response, checkedAnswer env answer = .ok response →
        env.commit v.runs.asked = true ∧ response.text ≠ "" ∧
          result.usedTools = (w.checkpoints supervisorAgent.key inp.correlationId).usedTools ∧
          result.toolOutputs =
            (w.checkpoints supervisorAgent.key inp.correlationId).toolOutputs := by
  rw [invokeWith_of_ok hspecialist hbehave, invokeGraphWith_of_ok hguard hspecialist hbehave,
    agree_map_bind_iff]
  refine forall₂_congr fun response _ => ?_
  cases env.commit v.runs.asked with
  | false => exact iff_of_false (not_agree_ok_error _ _) fun h => absurd h.1 (by simp)
  | true =>
    constructor
    · rintro ⟨hreply, hused, houtputs, -⟩
      exact ⟨rfl, eq_handedOut_iff.1 hreply, hused, houtputs⟩
    · rintro ⟨-, htext, hused, houtputs⟩
      exact ⟨eq_handedOut_iff.2 htext, hused, houtputs, rfl, rfl, rfl⟩

/-- A specialist that returned. -/
theorem agree_iff_of_returned (hspecialist : reg.specialist env.runtime inp.message =
      some specialist) (hbehave : behave specialist inp w = (.ok result, v)) :
    Agree (Supervisor.invokeWith behave (env.answering fun _ => answer) reg inp w).1
        (Supervisor.invokeGraphWith behave (env.answering fun _ => answer) reg inp w).1 ↔
      ∀ response, checkedAnswer env answer = .ok response →
        env.guard.guardInput inp.message = .ok () ∧ env.commit v.runs.asked = true ∧
          response.text ≠ "" ∧
          result.usedTools = (w.checkpoints supervisorAgent.key inp.correlationId).usedTools ∧
          result.toolOutputs =
            (w.checkpoints supervisorAgent.key inp.correlationId).toolOutputs := by
  cases hguard : env.guard.guardInput inp.message with
  | error e =>
    rw [agree_iff_of_refused hguard hspecialist hbehave]
    exact forall_congr' fun response => by simp
  | ok u =>
    rw [agree_iff_of_ok hguard hspecialist hbehave]
    exact forall₂_congr fun response _ => by simp

/-- Without a specialist both supervisors raise. -/
theorem agree_of_none (hnone : reg.specialist env.runtime inp.message = none) :
    Agree (Supervisor.invokeWith behave (env.answering fun _ => answer) reg inp w).1
      (Supervisor.invokeGraphWith behave (env.answering fun _ => answer) reg inp w).1 := by
  obtain ⟨e, hclassic⟩ : ∃ e, (Supervisor.invokeWith behave (env.answering fun _ => answer)
    reg inp w).1 = .error e := invokeWith_of_none hnone
  obtain ⟨e', hgraph⟩ : ∃ e, (Supervisor.invokeGraphWith behave (env.answering fun _ => answer)
    reg inp w).1 = .error e := invokeGraphWith_of_none hnone
  rw [hclassic, hgraph]
  exact agree_error _ _

/-- What a specialist raises goes through both supervisors. -/
theorem agree_of_raised {e : PyErr}
    (hspecialist : reg.specialist env.runtime inp.message = some specialist)
    (hbehave : behave specialist inp w = (.error e, v)) :
    Agree (Supervisor.invokeWith behave (env.answering fun _ => answer) reg inp w).1
      (Supervisor.invokeGraphWith behave (env.answering fun _ => answer) reg inp w).1 := by
  have hclassic : (Supervisor.invokeWith behave (env.answering fun _ => answer) reg inp w).1 =
      .error e := invokeWith_of_error hspecialist hbehave
  obtain ⟨e', hgraph⟩ : ∃ e, (Supervisor.invokeGraphWith behave (env.answering fun _ => answer)
    reg inp w).1 = .error e := invokeGraphWith_of_error hspecialist hbehave
  rw [hclassic, hgraph]
  exact agree_error _ _

end Agreement

/-- **When the two supervisors agree**: there is no answer to compose, or the message passes
the detectors, the run can be recorded, the answer is not empty, and the specialist used the
tools that the thread of the supervisor has collected. -/
theorem supervisors_agree_iff (env : Env) (reg : AgentRegistry)
    (behave : Agent → AgentInput → Run AgentResult) (answer : Option LLMResponse)
    (inp : AgentInput) (w : World) :
    Agree (Supervisor.invokeWith behave (env.answering fun _ => answer) reg inp w).1
        (Supervisor.invokeGraphWith behave (env.answering fun _ => answer) reg inp w).1 ↔
      ∀ specialist result v response,
        reg.specialist env.runtime inp.message = some specialist →
        behave specialist inp w = (.ok result, v) →
        answer = some response → env.guard.guardOutput response.text = .ok () →
          env.guard.guardInput inp.message = .ok () ∧ env.commit v.runs.asked = true ∧
            response.text ≠ "" ∧
            result.usedTools =
              (w.checkpoints supervisorAgent.key inp.correlationId).usedTools ∧
            result.toolOutputs =
              (w.checkpoints supervisorAgent.key inp.correlationId).toolOutputs := by
  cases hspecialist : reg.specialist env.runtime inp.message with
  | none => exact iff_of_true (agree_of_none hspecialist) fun _ _ _ _ h => absurd h (by simp)
  | some specialist =>
    obtain ⟨r, v, hbehave⟩ : ∃ r v, behave specialist inp w = (r, v) := ⟨_, _, rfl⟩
    cases r with
    | error e =>
      refine iff_of_true (agree_of_raised hspecialist hbehave) ?_
      intro specialist' result v' response heq hok
      obtain rfl := Option.some.inj heq
      rw [hbehave] at hok
      cases hok
    | ok result =>
      rw [agree_iff_of_returned hspecialist hbehave]
      constructor
      · intro h specialist' result' v' response heq hok hanswer hclean
        obtain rfl := Option.some.inj heq
        obtain ⟨hresult, rfl⟩ := Prod.mk.inj (hbehave.symm.trans hok)
        obtain rfl := Except.ok.inj hresult
        exact h response (checkedAnswer_eq_ok_iff.2 ⟨hanswer, hclean⟩)
      · intro h response hchecked
        obtain ⟨hanswer, hclean⟩ := checkedAnswer_eq_ok_iff.1 hchecked
        exact h specialist result v response rfl hbehave hanswer hclean

/-- A specialist that has looked up a profile. -/
def profileSpecialist (_ : Agent) (_ : AgentInput) : Run AgentResult :=
  return { reply := "Done.", usedTools := ["get_customer_profile"] }

/-- The graph forgets the tool the specialist used. -/
theorem supervisors_disagree :
    ¬ Agree (Supervisor.invokeWith profileSpecialist
        ((demoEnv fun _ => none).answering fun _ => some (replies "Done.")) agentRegistry demoInput
        World.initial).1
      (Supervisor.invokeGraphWith profileSpecialist
        ((demoEnv fun _ => none).answering fun _ => some (replies "Done.")) agentRegistry demoInput
        World.initial).1 := by
  obtain ⟨specialist, hspecialist⟩ := exists_specialist .ascii demoInput.message
  have hbehave : profileSpecialist specialist demoInput World.initial =
      (.ok { reply := "Done.", usedTools := ["get_customer_profile"] }, World.initial) := rfl
  have hspecialist' : agentRegistry.specialist (demoEnv fun _ => none).runtime demoInput.message =
      some specialist := hspecialist
  rw [invokeWith_of_ok hspecialist' hbehave, invokeGraphWith_of_ok rfl hspecialist' hbehave]
  intro h
  have hused := h.usedTools
  cases hused

end AgentPlatform
