import AgentPlatform.Graph.Isolation
import AgentPlatform.Graph.Paths

/-!
# Two runs side by side

The same request is handled in two worlds.  If the operations of a run cannot tell the worlds
apart, and leave worlds that cannot be told apart either, then a run ends alike in both, on every
path, but for the token counts of its result.

* `SideBySide` — a relation between worlds that every operation respects.
* `SideBySide.OnThreads` — and the checkpoints of a run's thread.
* `ExecutionPath.run_sideBySide` — **the rule for two runs.**
* `ExecutionPath.run_keeps` — the rule for one: what every operation on the input keeps.
-/

namespace AgentPlatform

open StateGraph

/-- A sequence whose first part is respected up to an observation, which is all that its second
part reads. -/
theorem RespectsUpTo.bind_read {W E α β γ δ : Type} {R : W → W → Prop} {obs : α → β}
    {obs' : γ → δ} {x : Effect W E α} {f : α → Effect W E γ} (hx : RespectsUpTo obs R x)
    (hf : ∀ a a', obs a = obs a' → ∀ w v, R w v →
      (f a w).1.map obs' = (f a' v).1.map obs' ∧ R (f a w).2 (f a' v).2) :
    RespectsUpTo obs' R (x >>= f) := by
  intro w v h
  obtain ⟨hresult, hworlds⟩ := hx w v h
  rw [Effect.bind_apply, Effect.bind_apply]
  cases hw : x w with
  | mk r w' =>
    cases hv : x v with
    | mk r' v' =>
      rw [hw, hv] at hresult hworlds
      cases r with
      | error e =>
        cases r' with
        | error e' =>
          obtain rfl : e = e' := Except.error.inj hresult
          exact ⟨rfl, hworlds⟩
        | ok a' => cases hresult
      | ok a =>
        cases r' with
        | error e' => cases hresult
        | ok a' => exact hf a a' (Except.ok.inj hresult) w' v' hworlds

/-- Two sequences with one first part, which is respected. -/
theorem RespectsUpTo.bind_pair {W E α γ δ : Type} {R : W → W → Prop} {obs : γ → δ}
    {x : Effect W E α} {f g : α → Effect W E γ} (hx : Respects R x)
    (hfg : ∀ a w v, R w v → (f a w).1.map obs = (g a v).1.map obs ∧ R (f a w).2 (g a v).2)
    {w v : W} (h : R w v) :
    ((x >>= f) w).1.map obs = ((x >>= g) v).1.map obs ∧ R ((x >>= f) w).2 ((x >>= g) v).2 := by
  obtain ⟨hresult, hworlds⟩ := hx w v h
  rw [Effect.bind_apply, Effect.bind_apply]
  cases hw : x w with
  | mk r w' =>
    cases hv : x v with
    | mk r' v' =>
      rw [hw, hv] at hresult hworlds
      obtain rfl : r = r' := hresult
      cases r with
      | error e => exact ⟨rfl, hworlds⟩
      | ok a => exact hfg a w' v' hworlds

/-- A relation between worlds that every operation of a run respects, and whose worlds open the
conversation of a request alike. -/
structure SideBySide (env : Env) (inp : AgentInput) (R : World → World → Prop) : Prop where
  ask : ∀ request, Respects R (env.ask request)
  call : ∀ invocation, Respects R (env.callTool invocation)
  tokens : ∀ agentKey usage, Respects R (Env.recordTokens agentKey usage)
  remember : ∀ agentKey inp reply, Respects R (Env.remember agentKey inp reply)
  /-- The reports may differ, in the token counts. -/
  record : ∀ w v, R w v → ∀ report report', (env.recordAgentRun report w).1 =
    (env.recordAgentRun report' v).1 ∧
      R (env.recordAgentRun report w).2 (env.recordAgentRun report' v).2
  opening : ∀ w v, R w v → ∀ agent : Agent, agent.opening inp w = agent.opening inp v

/-- The same, where the checkpoints of the thread are alike as well, and may be written. -/
structure SideBySide.OnThreads (env : Env) (inp : AgentInput) (R : World → World → Prop) : Prop
    extends SideBySide env inp R where
  thread : ∀ w v, R w v → ∀ agentKey,
    w.checkpoints agentKey inp.correlationId = v.checkpoints agentKey inp.correlationId
  save : ∀ w v, R w v → ∀ agentKey s, R (LangGraph.save agentKey inp.correlationId s w)
    (LangGraph.save agentKey inp.correlationId s v)

section TwoRuns

variable {env : Env} {agent : Agent} {inp : AgentInput} {R : World → World → Prop}

theorem channel_respects {α : Type} (key : String) (a : Option α) : Respects R (channel key a) := by
  cases a with
  | none => exact Respects.raise _
  | some a => exact Respects.pure _

namespace SideBySide

/-! ### The loop -/

theorem askModel (h : SideBySide env inp R) (agent : Agent) (inp' : AgentInput)
    (messages : List ChatMessage) : Respects R (agent.askModel env inp' messages) := by
  refine Respects.bind (h.ask _) fun response => ?_
  exact Respects.bind (Respects.ofExcept _) fun _ => Respects.pure _

theorem callTools (h : SideBySide env inp R) (inp' : AgentInput) (tcs : List ToolCall) :
    Respects R (Agent.callTools env inp' tcs) := by
  induction tcs with
  | nil => exact Respects.pure _
  | cons tc tcs ih =>
    exact Respects.bind (h.call _) fun _ => Respects.bind ih fun _ => Respects.pure _

theorem rounds (h : SideBySide env inp R) (agent : Agent) (inp' : AgentInput) (n : ℕ)
    (messages : List ChatMessage) (used : List String) (outputs : List ToolOutput) :
    Respects R (agent.rounds env inp' n messages used outputs) := by
  induction n generalizing messages used outputs with
  | zero => exact Respects.pure _
  | succ n ih =>
    refine Respects.bind (h.askModel agent inp' messages) fun response => ?_
    cases response.toolCalls.isEmpty with
    | true => exact Respects.bind (h.tokens _ _) fun _ => Respects.pure _
    | false => exact Respects.bind (h.callTools inp' _) fun _ => ih _ _ _

theorem persistRun (h : SideBySide env inp R) (agent : Agent) (inp' : AgentInput)
    (used : List String) (outputs : List ToolOutput) (reply : String) :
    Respects R (agent.persistRun env inp' used outputs reply) :=
  fun w v hR => h.record w v hR _ _

/-- The loop, from two worlds of the relation. -/
theorem invoke (h : SideBySide env inp R) (agent : Agent) :
    RespectsUpTo AgentResult.uncounted R (agent.invoke env inp) := by
  intro w v hR
  cases hguard : env.guard.guardInput inp.message with
  | error e =>
    rw [Agent.invoke_of_refused hguard, Agent.invoke_of_refused hguard]
    exact ⟨rfl, hR⟩
  | ok u =>
    have hinvoke : ∀ w, agent.invoke env inp w = _ := fun w =>
      (Effect.bind_of_ok (by rw [hguard]; rfl) _).trans (Effect.bind_of_ok rfl _)
    rw [hinvoke, hinvoke, h.opening w v hR]
    refine RespectsUpTo.bind (h.rounds agent inp _ _ _ _) (fun e => ?_) w v hR
    refine RespectsUpTo.bind (h.remember _ _ _) fun _ => ?_
    refine RespectsUpTo.bind (h.persistRun _ _ _ _ _) fun _ => ?_
    exact fun _ _ hR => ⟨rfl, hR⟩

/-- The supervisor reads of its specialist's result what is not counted. -/
theorem supervisor (h : SideBySide env inp R) (reg : AgentRegistry) :
    RespectsUpTo AgentResult.uncounted R (Supervisor.invoke env reg inp) := by
  unfold Supervisor.invoke
  cases reg.specialist env.runtime inp.message with
  | none => exact fun _ _ hR => ⟨rfl, hR⟩
  | some specialist =>
    refine RespectsUpTo.bind_read (h.invoke specialist) ?_
    intro result result' hread w v hR
    obtain ⟨reply, used, outputs, delegated, usage, approval, decision⟩ := result
    obtain ⟨reply', used', outputs', delegated', usage', approval', decision'⟩ := result'
    simp only [AgentResult.uncounted, AgentResult.mk.injEq] at hread
    obtain ⟨rfl, rfl, rfl, rfl, -, rfl, rfl⟩ := hread
    refine RespectsUpTo.bind_pair (h.ask _) (fun response => ?_) hR
    intro w' v' hR'
    refine RespectsUpTo.bind_pair (Respects.ofExcept _) ?_ hR'
    exact fun _ _ _ hR'' => ⟨rfl, hR''⟩

/-! ### The graphs -/

theorem graphCallTools (h : SideBySide env inp R) (inp' : AgentInput) (tcs : List ToolCall) :
    Respects R (ToolNode.callTools env inp' tcs) := by
  induction tcs with
  | nil => exact Respects.pure _
  | cons tc tcs ih =>
    refine Respects.bind (h.call _) fun execution => ?_
    cases execution.toExcept with
    | error e => exact Respects.raise _
    | ok result => exact Respects.bind ih fun _ => Respects.pure _

theorem toolAct (h : SideBySide env inp R) (agent : Agent) (n : ToolNode) (s : AgentGraphState) :
    Respects R (ToolNode.act env agent n s) := by
  cases n with
  | callLlm =>
    refine Respects.bind (channel_respects _ _) fun inp' => ?_
    refine Respects.bind (Respects.ofExcept _) fun _ => ?_
    refine Respects.bind (h.askModel _ _ _) fun response => ?_
    exact Respects.bind (h.tokens _ _) fun _ => Respects.pure _
  | executeTools =>
    refine Respects.bind (channel_respects _ _) fun inp' => ?_
    exact Respects.bind (h.graphCallTools _ _) fun _ => Respects.pure _
  | finalize =>
    refine Respects.bind (channel_respects _ _) fun inp' => ?_
    refine Respects.bind (h.remember _ _ _) fun _ => ?_
    exact Respects.bind (h.persistRun _ _ _ _ _) fun _ => Respects.pure _

theorem compose (h : SideBySide env inp R) (s : AgentGraphState) :
    Respects R (SupervisorNode.composeNode env s) := by
  refine Respects.bind (channel_respects _ _) fun inp' => ?_
  refine Respects.bind (h.ask _) fun response => ?_
  refine Respects.bind (Respects.ofExcept _) fun _ => ?_
  refine Respects.bind (h.tokens _ _) fun _ => ?_
  refine Respects.bind (h.persistRun _ _ _ _ _) fun _ => ?_
  exact Respects.bind (h.remember _ _ _) fun _ => Respects.pure _

end SideBySide

namespace SideBySide.OnThreads

/-- The graph of a specialist. -/
theorem invokeGraph (h : SideBySide.OnThreads env inp R) (agent : Agent) :
    Respects R (agent.invokeGraph env inp) := by
  intro w v hR
  have hstart : startState agent inp (v.checkpoints agent.key inp.correlationId) v =
      startState agent inp (w.checkpoints agent.key inp.correlationId) w := by
    simp only [startState, LangGraph.initial, h.thread w v hR, h.opening w v hR]
  obtain ⟨houtcome, hsaved, hworlds⟩ := (toolGraph env agent).steps_respects
    (fun n s => h.toolAct agent n s) LangGraph.recursionLimit .callLlm
    (startState agent inp (w.checkpoints agent.key inp.correlationId) w) hR
  rw [invokeGraph_apply, invokeGraph_apply, hstart]
  refine ⟨?_, ?_⟩
  · rw [finished_result, finished_result, houtcome]
  · show R (LangGraph.save _ _ _ _) (LangGraph.save _ _ _ _)
    rw [hsaved]
    exact h.save _ _ hworlds _ _

theorem invokeResolved (h : SideBySide.OnThreads env inp R) (agent : Agent) :
    RespectsUpTo AgentResult.uncounted R (agent.invokeResolved env inp) :=
  Agent.invokeResolved_of_both (P := fun x => RespectsUpTo AgentResult.uncounted R x)
    (h.invoke agent) fun w v hR =>
      ⟨congrArg _ (h.invokeGraph agent w v hR).1, (h.invokeGraph agent w v hR).2⟩

/-- How the supersteps of the supervisor end, from one state. -/
theorem steps (h : SideBySide.OnThreads env inp R) (reg : AgentRegistry) (L : ℕ)
    {s : AgentGraphState} (hinput : s.input = some inp) {w v : World} (hR : R w v) :
    ((supervisorGraph env reg).steps (L + 3) .route s w).outcome =
        ((supervisorGraph env reg).steps (L + 3) .route s v).outcome ∧
      ((supervisorGraph env reg).steps (L + 3) .route s w).saved =
        ((supervisorGraph env reg).steps (L + 3) .route s v).saved ∧
      R ((supervisorGraph env reg).steps (L + 3) .route s w).world
        ((supervisorGraph env reg).steps (L + 3) .route s v).world := by
  cases hguard : env.guard.guardInput inp.message with
  | error e =>
    rw [steps_route_of_refused hinput hguard, steps_route_of_refused hinput hguard]
    exact ⟨rfl, rfl, hR⟩
  | ok u =>
    cases hagent : reg.getAgent (reg.specialistKey env.runtime inp.message) with
    | none =>
      rw [steps_unregistered (L := L + 1) hinput hguard hagent,
        steps_unregistered (L := L + 1) hinput hguard hagent]
      exact ⟨rfl, rfl, hR⟩
    | some specialist =>
      rw [steps_delegation hinput hguard hagent, steps_delegation hinput hguard hagent]
      obtain ⟨hresult, hworlds⟩ := h.invokeResolved specialist w v hR
      cases hx : specialist.invokeResolved env inp w with
      | mk r w' =>
        cases hy : specialist.invokeResolved env inp v with
        | mk r' v' =>
          rw [hx, hy] at hresult hworlds
          cases r with
          | error e =>
            cases r' with
            | ok result' => cases hresult
            | error e' =>
              obtain rfl : e = e' := Except.error.inj hresult
              exact ⟨rfl, rfl, hworlds⟩
          | ok result =>
            cases r' with
            | error e' => cases hresult
            | ok result' =>
              have hupdate : delegationUpdate specialist result =
                  delegationUpdate specialist result' := by
                have hread : result.uncounted = result'.uncounted := Except.ok.inj hresult
                rw [← delegationUpdate_uncounted, hread, delegationUpdate_uncounted]
              have hstate : delegatedState env reg inp s specialist result =
                  delegatedState env reg inp s specialist result' := by
                rw [delegatedState, delegatedState, hupdate]
              dsimp only
              rw [hstate]
              set t := delegatedState env reg inp s specialist result'
              obtain ⟨hnode, hleft⟩ := h.compose t w' v' hworlds
              cases hc : SupervisorNode.composeNode env t w' with
              | mk c u =>
                cases hc' : SupervisorNode.composeNode env t v' with
                | mk c' u' =>
                  rw [hc, hc'] at hnode hleft
                  obtain rfl : c = c' := hnode
                  cases c with
                  | error e => exact ⟨rfl, rfl, hleft⟩
                  | ok update => exact ⟨rfl, rfl, hleft⟩

/-- The graph of the supervisor. -/
theorem supervisorGraph (h : SideBySide.OnThreads env inp R) (reg : AgentRegistry) :
    Respects R (Supervisor.invokeGraph env reg inp) := by
  intro w v hR
  have hstart : startState supervisorAgent inp
      (v.checkpoints supervisorAgent.key inp.correlationId) v =
        startState supervisorAgent inp (w.checkpoints supervisorAgent.key inp.correlationId) w := by
    simp only [startState, LangGraph.initial, h.thread w v hR, h.opening w v hR]
  obtain ⟨houtcome, hsaved, hworlds⟩ := h.steps reg 22 (s := startState supervisorAgent inp
    (w.checkpoints supervisorAgent.key inp.correlationId) w) startState_input hR
  rw [Supervisor.invokeGraph_apply, Supervisor.invokeGraph_apply, hstart]
  refine ⟨?_, ?_⟩
  · rw [finished_result, finished_result]
    exact congrArg _ houtcome
  · show R (LangGraph.save _ _ _ _) (LangGraph.save _ _ _ _)
    rw [show LangGraph.recursionLimit = 22 + 3 from rfl, hsaved]
    exact h.save _ _ hworlds _ _

end SideBySide.OnThreads

/-! ### Every path -/

/-- A path that runs a graph on the thread of the request. -/
def ExecutionPath.Graph : ExecutionPath → Prop
  | .specialistGraph _ => True
  | .supervisorGraph _ => True
  | _ => False

/-- **The rule for two runs.** -/
theorem ExecutionPath.run_sideBySide (path : ExecutionPath) (h : SideBySide env inp R)
    (hthreads : path.Graph → SideBySide.OnThreads env inp R) :
    RespectsUpTo AgentResult.uncounted R (path.run env inp) := by
  have upTo : ∀ {x : Run AgentResult}, Respects R x → RespectsUpTo AgentResult.uncounted R x :=
    fun hx w v hR => ⟨congrArg _ (hx w v hR).1, (hx w v hR).2⟩
  cases path with
  | specialist agent => exact h.invoke agent
  | supervisor reg => exact h.supervisor reg
  | specialistGraph agent => exact upTo ((hthreads trivial).invokeGraph agent)
  | supervisorGraph reg => exact upTo ((hthreads trivial).supervisorGraph reg)

end TwoRuns

/-! ## One run -/

section OneRun

variable {env : Env} {inp : AgentInput} {I : World → Prop}

/-- The nodes of the supervisor keep what the operations on the input keep, and do not write it. -/
theorem SupervisorNode.act_ensures_input (h : ∀ agent : Agent, agent.OperationsKeep env inp I)
    (hsave : ∀ v agentKey threadId s, I v → I (LangGraph.save agentKey threadId s v))
    (reg : AgentRegistry) (n : SupervisorNode) {s : AgentGraphState} (hinput : s.input = some inp) :
    Ensures I (SupervisorNode.act env reg n s) fun u => u.input = none := by
  have hchannel : Ensures I (channel "_input" s.input) fun inp' => inp' = inp := by
    rw [hinput]
    exact Ensures.pure rfl
  have hloop : ∀ agent : Agent, agent.RunKeeps env inp I := fun agent => (h agent).loop.run
  have hresolved : ∀ agent : Agent, Keeps I (agent.invokeResolved env inp) := fun agent =>
    Agent.invokeResolved_of_both (P := Keeps I) (hloop agent).invoke
      (Agent.invokeGraph_keeps (hloop agent) hsave)
  cases n with
  | route =>
    refine Ensures.bind hchannel ?_
    rintro _ rfl
    exact Ensures.bind (Ensures.of_keeps (Keeps.ofExcept _)) fun _ _ => Ensures.pure rfl
  | invokeSpecialist =>
    refine Ensures.bind hchannel ?_
    rintro _ rfl
    refine Ensures.bind (Ensures.of_keeps (channel_keeps _ _)) fun key _ => ?_
    cases reg.getAgent key with
    | none => exact Ensures.raise _
    | some specialist =>
      exact Ensures.bind (Ensures.of_keeps (hresolved specialist)) fun _ _ => Ensures.pure rfl
  | compose =>
    refine Ensures.bind hchannel ?_
    rintro _ rfl
    refine Ensures.bind (Ensures.of_keeps ((h supervisorAgent).ask _)) fun response _ => ?_
    refine Ensures.bind (Ensures.of_keeps (Keeps.ofExcept _)) fun _ _ => ?_
    refine Ensures.bind (Ensures.of_keeps ((h supervisorAgent).tokens _)) fun _ _ => ?_
    refine Ensures.bind (Ensures.of_keeps ((hloop supervisorAgent).persist _ _ _)) fun _ _ => ?_
    refine Ensures.bind (Ensures.of_keeps ((h supervisorAgent).remember _)) fun _ _ => ?_
    exact Ensures.pure rfl

theorem Supervisor.invokeGraph_keeps (h : ∀ agent : Agent, agent.OperationsKeep env inp I)
    (hsave : ∀ v agentKey threadId s, I v → I (LangGraph.save agentKey threadId s v))
    (reg : AgentRegistry) : Keeps I (Supervisor.invokeGraph env reg inp) := by
  have hact : ∀ n s, Triple (fun v => s.input = some inp ∧ I v)
      (SupervisorNode.act env reg n s)
      (fun u v => (SupervisorNode.next n (s.merge u) = none → I v) ∧
        ∀ n', SupervisorNode.next n (s.merge u) = some n' → (s.merge u).input = some inp ∧ I v)
      fun _ v => I v := by
    rintro n s v ⟨hinput, hv⟩
    refine (SupervisorNode.act_ensures_input h hsave reg n hinput).weaken ?_ v hv
    rintro u v' ⟨hnone, hv'⟩
    have hmerge : (s.merge u).input = some inp := by
      show (u.input <|> s.input) = _
      rw [hnone, hinput]
      rfl
    exact ⟨fun _ => hv', fun _ _ => ⟨hmerge, hv'⟩⟩
  have hrun := LangGraph.run_triple (g := supervisorGraph env reg)
    (P := fun _ s v => s.input = some inp ∧ I v) (Q := fun _ v => I v) supervisorAgent inp hact
    fun _ _ _ hv => hv.2
  intro v hv
  have hleft := hrun v ⟨startState_input, hv⟩
  unfold Supervisor.invokeGraph
  cases hresult : LangGraph.run (supervisorGraph env reg) supervisorAgent inp v with
  | mk r v' =>
    rw [hresult] at hleft
    cases r with
    | error e =>
      obtain ⟨saved, u, hu, rfl⟩ := hleft
      exact hsave u _ _ _ hu
    | ok r =>
      obtain ⟨final, saved, u, hu, -, rfl⟩ := hleft
      exact hsave u _ _ _ hu

/-- **What every operation on the input keeps**, a run keeps, on every path. -/
theorem ExecutionPath.run_keeps (h : ∀ agent : Agent, agent.OperationsKeep env inp I)
    (path : ExecutionPath)
    (hsave : path.Graph → ∀ v agentKey threadId s, I v → I (LangGraph.save agentKey threadId s v)) :
    Keeps I (path.run env inp) := by
  cases path with
  | specialist agent => exact (h agent).loop.run.invoke
  | supervisor reg =>
    show Keeps I (Supervisor.invoke env reg inp)
    unfold Supervisor.invoke
    cases reg.specialist env.runtime inp.message with
    | none => exact Keeps.raise _
    | some specialist =>
      refine Keeps.bind (h specialist).loop.run.invoke fun result => ?_
      refine Keeps.bind ((h specialist).ask _) fun response => ?_
      exact Keeps.bind (Keeps.ofExcept _) fun _ => Keeps.pure _
  | specialistGraph agent => exact Agent.invokeGraph_keeps (h agent).loop.run (hsave trivial)
  | supervisorGraph reg => exact Supervisor.invokeGraph_keeps h (hsave trivial) reg

end OneRun

end AgentPlatform
