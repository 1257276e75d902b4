import AgentPlatform.Graph.Agreement
import AgentPlatform.Graph.GuardCoverage

/-!
# What a run leaves behind

Every path runs the loop of one agent, the acting agent, and a supervisor composes an answer
after it.  The loop records its run when it returns and nothing when it raises, the row names
every tool that was called, and composing an answer calls none.

* `Agent.Recorded` — what a loop that returned has left.
* `LangGraph.run_triple` — **the rule for runs of graphs**.
* `Agent.invoke_recorded`, `Agent.invokeGraph_recorded` — the two loops.
* `ExecutionPath.supervisor_cases`, `ExecutionPath.supervisorGraph_cases` — how a supervisor goes
  on after its loop.
* `ExecutionPath.run_after` — **what a path makes of its loop**, and `ExecutionPath.run_composed`
  — what it adds to the log.
-/

namespace AgentPlatform

/-! ## Calls and rows -/

/-- A tool that is called is one of the names. -/
def Event.NamedIn (names : List String) : Event → Prop
  | .called invocation _ => invocation.name ∈ names
  | _ => True

theorem Event.NamedIn.mono {names names' : List String} (hsub : names ⊆ names') {e : Event}
    (h : e.NamedIn names) : e.NamedIn names' := by
  cases e with
  | called invocation execution => exact hsub h
  | asked request answer => trivial
  | remembered agentKey inp reply => trivial
  | recorded report => trivial

/-- An event that is no tool call. -/
def Event.Uncalled (e : Event) : Prop := e.invocation? = none

theorem Event.Uncalled.namedIn {e : Event} (h : e.Uncalled) (names : List String) :
    e.NamedIn names := by
  cases e with
  | called invocation execution => cases h
  | asked request answer => trivial
  | remembered agentKey inp reply => trivial
  | recorded report => trivial

theorem Event.NamedIn.uncalled {e : Event} (h : e.NamedIn []) : e.Uncalled := by
  cases e with
  | called invocation execution => exact absurd h List.not_mem_nil
  | asked request answer => rfl
  | remembered agentKey inp reply => rfl
  | recorded report => rfl

/-- Since the world `w` no run was recorded, and only tools of the given names were called. -/
structure World.Called (w : World) (names : List String) (v : World) : Prop where
  runs : v.runs = w.runs
  since : w.Since (Event.NamedIn names) v

/-- The same, where the database may have been asked to take a row and has refused it. -/
structure World.Unrecorded (w : World) (names : List String) (v : World) : Prop where
  rows : v.runs.rows = w.runs.rows
  since : w.Since (Event.NamedIn names) v

/-- Since the world `w` one run was recorded, with the tools it used. -/
structure World.RecordedRun (env : Env) (w : World) (used : List String) (v : World) : Prop where
  taken : env.commit w.runs.asked = true
  row : ∃ report : RunReport, report.usedTools = used ∧
    v.runs = w.runs.taken (report.row env.runtime)

/-- What a loop that returned has left: the row of the run names every tool that was called. -/
structure Agent.Recorded (env : Env) (agent : Agent) (w : World) (r : AgentResult) (v : World) :
    Prop where
  run : ∃ used, w.RecordedRun env used v ∧ w.Since (Event.NamedIn used) v
  approval : r.needsHumanApproval = agent.needsHitl
  decision : r.decision = none

section Operations

variable {env : Env} {w : World} {names : List String}

theorem World.Called.refl : w.Called names w := ⟨rfl, World.Since.refl⟩

theorem World.Called.unrecorded {v : World} (h : w.Called names v) : w.Unrecorded names v :=
  ⟨congrArg Journal.rows h.runs, h.since⟩

theorem World.Called.mono {v : World} (h : w.Called names v) {names' : List String}
    (hsub : names ⊆ names') : w.Called names' v :=
  ⟨h.runs, h.since.mono fun _ he => he.mono hsub⟩

theorem ask_called (request : LLMRequest) : Keeps (w.Called names) (env.ask request) := by
  intro v hv
  unfold Env.ask
  cases env.answer v.log request with
  | none => exact ⟨hv.runs, hv.since.push trivial⟩
  | some response => exact ⟨hv.runs, hv.since.push trivial⟩

theorem askModel_called (agent : Agent) (inp : AgentInput) (messages : List ChatMessage) :
    Keeps (w.Called names) (agent.askModel env inp messages) := by
  refine Keeps.bind (ask_called _) fun response => ?_
  exact Keeps.bind (Keeps.ofExcept _) fun _ => Keeps.pure _

theorem recordTokens_called (agentKey : String) (usage : Usage) :
    Keeps (w.Called names) (Env.recordTokens agentKey usage) := fun _ hv => ⟨hv.runs, hv.since⟩

theorem remember_called (agentKey : String) (inp : AgentInput) (reply : String) :
    Keeps (w.Called names) (Env.remember agentKey inp reply) :=
  fun _ hv => ⟨hv.runs, hv.since.push trivial⟩

/-- A tool call adds a name. -/
theorem callTool_called (invocation : ToolInvocation) :
    Triple (w.Called names) (env.callTool invocation)
      (fun _ v => w.Called (names ++ [invocation.name]) v)
      fun _ v => v.runs.rows = w.runs.rows := by
  intro v hv
  have hadded : w.Called (names ++ [invocation.name]) v := hv.mono (List.subset_append_left _ _)
  have hevent : (Event.called invocation (env.execute (invocationsIn v.log) invocation)).NamedIn
      (names ++ [invocation.name]) :=
    List.mem_append_right _ (List.mem_singleton.2 rfl)
  exact ⟨hadded.runs, hadded.since.push hevent⟩

/-- Handing a run over to be recorded. -/
theorem persistRun_recorded (agent : Agent) (inp : AgentInput) (used : List String)
    (outputs : List ToolOutput) (reply : String) :
    Triple (w.Called names) (agent.persistRun env inp used outputs reply)
      (fun _ v => w.RecordedRun env used v ∧ w.Since (Event.NamedIn names) v)
      fun _ v => w.Unrecorded names v := by
  intro v hv
  let report := agent.report inp used outputs reply v
  simp only [Agent.persistRun, Effect.bind_apply, Effect.get_apply, Env.recordAgentRun]
  cases hcommit : env.commit v.runs.asked with
  | false => exact ⟨hv.unrecorded.rows, hv.since⟩
  | true =>
    have htaken : env.commit w.runs.asked = true := hv.runs ▸ hcommit
    refine ⟨⟨htaken, report, rfl, ?_⟩, ?_⟩
    · show v.runs.taken (report.row env.runtime) = _
      rw [hv.runs]
    · exact World.Since.push (w := w) (v := { v with runs := _ }) hv.since trivial

/-- A turn may be remembered after the run was recorded. -/
theorem remember_recorded {used : List String} {R : PyErr → World → Prop} (agentKey : String)
    (inp : AgentInput) (reply : String) :
    Triple (fun v => w.RecordedRun env used v ∧ w.Since (Event.NamedIn names) v)
      (Env.remember agentKey inp reply)
      (fun _ v => w.RecordedRun env used v ∧ w.Since (Event.NamedIn names) v) R :=
  fun _ ⟨hrun, hsince⟩ => ⟨⟨hrun.taken, hrun.row⟩, hsince.push trivial⟩

end Operations

/-! ## The loop -/

section Loop

variable {env : Env} {agent : Agent} {inp : AgentInput} {w : World}

theorem Agent.callTools_called (tcs : List ToolCall) (names : List String) :
    Triple (w.Called names) (Agent.callTools env inp tcs)
      (fun settled v => w.Called (names ++ settled.map Settled.name) v)
      fun _ v => v.runs.rows = w.runs.rows := by
  induction tcs generalizing names with
  | nil =>
    refine Triple.pure fun v hv => ?_
    rw [List.map_nil, List.append_nil]
    exact hv
  | cons tc tcs ih =>
    refine Triple.bind (callTool_called _) fun execution => ?_
    refine Triple.bind (ih (names ++ [tc.name])) fun rest => ?_
    refine Triple.pure fun v hv => ?_
    rw [List.append_assoc] at hv
    exact hv

/-- Until it ends, the loop records nothing, and it keeps the names of the tools it calls. -/
theorem Agent.rounds_called (n : ℕ) (messages : List ChatMessage) (used : List String)
    (outputs : List ToolOutput) :
    Triple (w.Called used) (agent.rounds env inp n messages used outputs)
      (fun e v => w.Called e.usedTools v) fun _ v => v.runs.rows = w.runs.rows := by
  induction n generalizing messages used outputs with
  | zero => exact Triple.pure fun _ hv => hv
  | succ n ih =>
    refine Triple.bind
      ((askModel_called agent inp messages).triple fun _ _ hv => hv.unrecorded.rows)
      fun response => ?_
    cases response.toolCalls.isEmpty with
    | true =>
      refine Triple.bind ((recordTokens_called _ _).triple fun _ _ hv => hv.unrecorded.rows)
        fun _ => ?_
      exact Triple.pure fun _ hv => hv
    | false => exact Triple.bind (Agent.callTools_called _ _) fun settled => ih _ _ _

/-- **What the loop leaves**: a run that returns is recorded, a run that raises is not. -/
theorem Agent.invoke_recorded : Triple (fun v => v = w) (agent.invoke env inp)
    (fun r v => agent.Recorded env w r v) fun _ v => v.runs.rows = w.runs.rows := by
  refine Triple.bind (Q := fun _ => w.Called []) (Triple.ofExcept ?_ ?_) fun _ => ?_
  · rintro _ v - rfl
    exact World.Called.refl
  · rintro _ v - rfl
    rfl
  refine Triple.bind (Triple.get (Q := fun _ => w.Called []) fun _ hv => hv) fun opened => ?_
  refine Triple.bind (Agent.rounds_called _ _ _ _) fun e => ?_
  refine Triple.bind ((remember_called _ _ _).triple fun _ _ hv => hv.unrecorded.rows) fun _ => ?_
  refine Triple.bind ((persistRun_recorded agent inp _ e.toolOutputs e.reply).raises
    fun _ _ hv => hv.rows) fun _ => ?_
  refine Triple.bind (Triple.get (Q := fun _ v => w.RecordedRun env e.usedTools v ∧
    w.Since (Event.NamedIn e.usedTools) v) fun _ hv => hv) fun closed => ?_
  exact Triple.pure fun v hv => ⟨⟨e.usedTools, hv⟩, rfl, rfl⟩

end Loop

/-! ## Runs of graphs -/

/-- **The rule for runs of graphs**: what every node keeps, with another condition for the state
the run ends with, and another for what is raised. -/
theorem LangGraph.run_triple {N : Type} {g : StateGraph N AgentGraphState World PyErr}
    {P : N → AgentGraphState → World → Prop} {Q : AgentGraphState → World → Prop}
    {R : World → Prop} (agent : Agent) (inp : AgentInput)
    (hact : ∀ n s, Triple (P n s) (g.act n s)
      (fun u v => (g.next n (g.merge s u) = none → Q (g.merge s u) v) ∧
        ∀ n', g.next n (g.merge s u) = some n' → P n' (g.merge s u) v) fun _ v => R v)
    (hlimit : ∀ n s v, P n s v → R v) :
    Triple (fun v => P g.entry (g.merge (v.checkpoints agent.key inp.correlationId)
        (LangGraph.initial agent inp v)) v) (LangGraph.run g agent inp)
      (fun r v => ∃ final saved u, Q final u ∧ r = LangGraph.result final ∧
        v = LangGraph.save agent.key inp.correlationId saved u)
      (fun _ v => ∃ saved u, R u ∧ v = LangGraph.save agent.key inp.correlationId saved u) := by
  intro v hv
  set start := g.merge (v.checkpoints agent.key inp.correlationId)
    (LangGraph.initial agent inp v) with hstart
  have hsteps := g.steps_induction (P := P) (Q := Q) (R := fun _ v => R v) hlimit
    (fun n s v e v' h herror => Triple.of_error (hact n s) h herror)
    (fun n s v u v' h hok hnext => (Triple.of_ok (hact n s) h hok).1 hnext)
    (fun n s v u v' n' h hok hnext => (Triple.of_ok (hact n s) h hok).2 n' hnext)
    LangGraph.recursionLimit (n := g.entry) hv
  unfold LangGraph.run LangGraph.finished StateGraph.start
  rw [← hstart]
  cases houtcome : (g.steps LangGraph.recursionLimit g.entry start v).outcome with
  | error e =>
    rw [houtcome] at hsteps
    exact ⟨_, _, hsteps, rfl⟩
  | ok final =>
    rw [houtcome] at hsteps
    exact ⟨final, _, _, hsteps, rfl, rfl⟩

section Graphs

variable {env : Env} {agent : Agent} {inp : AgentInput} {w : World}

/-- The calls of a superstep, up to the first that raises. -/
theorem ToolNode.callTools_called (tcs : List ToolCall) (names : List String) :
    Triple (w.Called names) (ToolNode.callTools env inp tcs)
      (fun settled v => w.Called (names ++ settled.map Settled.name) v)
      fun _ v => v.runs.rows = w.runs.rows := by
  induction tcs generalizing names with
  | nil =>
    refine Triple.pure fun v hv => ?_
    rw [List.map_nil, List.append_nil]
    exact hv
  | cons tc tcs ih =>
    refine Triple.bind (callTool_called _) fun execution => ?_
    cases execution.toExcept with
    | error e => exact Triple.raise fun _ hv => hv.unrecorded.rows
    | ok result =>
      refine Triple.bind (ih (names ++ [tc.name])) fun rest => ?_
      refine Triple.pure fun v hv => ?_
      rw [List.append_assoc] at hv
      exact hv

/-- What holds on the way of a run of the tool graph. -/
structure OnTheWay (inp : AgentInput) (w : World) (s : AgentGraphState) (v : World) : Prop where
  input : s.input = some inp
  decision : s.decision = some none
  called : w.Called s.usedTools v

/-- What holds at its end. -/
structure AtTheEnd (env : Env) (agent : Agent) (w : World) (s : AgentGraphState) (v : World) :
    Prop where
  run : ∃ used, w.RecordedRun env used v ∧ w.Since (Event.NamedIn used) v
  approval : s.needsHumanApproval = some agent.needsHitl
  decision : s.decision = some none

/-- On the way, a state has its input and no decision. -/
theorem OnTheWay.triple {α : Type} {s : AgentGraphState} {x : Run α} {Q : α → World → Prop}
    {R : PyErr → World → Prop}
    (hx : s.input = some inp → s.decision = some none → Triple (w.Called s.usedTools) x Q R) :
    Triple (OnTheWay inp w s) x Q R :=
  fun v hv => hx hv.input hv.decision v hv.called

theorem ToolNode.callLlm_triple (s : AgentGraphState) :
    Triple (OnTheWay inp w s) (ToolNode.callLlmNode env agent s)
      (fun u v => OnTheWay inp w (s.merge u) v) fun _ v => v.runs.rows = w.runs.rows := by
  refine OnTheWay.triple fun hinput hdecision => ?_
  unfold ToolNode.callLlmNode
  rw [hinput]
  refine Triple.bind (Triple.pure (Q := fun _ => w.Called s.usedTools) fun _ hv => hv)
    fun inp' => ?_
  refine Triple.bind ((Keeps.ofExcept _).triple fun _ _ hv => hv.unrecorded.rows) fun _ => ?_
  refine Triple.bind ((askModel_called _ _ _).triple fun _ _ hv => hv.unrecorded.rows)
    fun response => ?_
  refine Triple.bind ((recordTokens_called _ _).triple fun _ _ hv => hv.unrecorded.rows) fun _ => ?_
  refine Triple.pure fun v hv => ⟨hinput, hdecision, hv.mono ?_⟩
  exact List.subset_append_left _ _

theorem ToolNode.executeTools_triple (s : AgentGraphState) :
    Triple (OnTheWay inp w s) (ToolNode.executeToolsNode env s)
      (fun u v => OnTheWay inp w (s.merge u) v) fun _ v => v.runs.rows = w.runs.rows := by
  refine OnTheWay.triple fun hinput hdecision => ?_
  unfold ToolNode.executeToolsNode
  rw [hinput]
  refine Triple.bind (Triple.pure (Q := fun _ => w.Called s.usedTools) fun _ hv => hv)
    fun inp' => ?_
  refine Triple.bind (ToolNode.callTools_called _ _) fun settled => ?_
  exact Triple.pure fun v hv => ⟨hinput, hdecision, hv⟩

theorem ToolNode.finalize_triple (s : AgentGraphState) :
    Triple (OnTheWay inp w s) (ToolNode.finalizeNode env agent s)
      (fun u v => AtTheEnd env agent w (s.merge u) v) fun _ v => v.runs.rows = w.runs.rows := by
  refine OnTheWay.triple fun hinput hdecision => ?_
  unfold ToolNode.finalizeNode
  rw [hinput]
  refine Triple.bind (Triple.pure (Q := fun _ => w.Called s.usedTools) fun _ hv => hv)
    fun inp' => ?_
  refine Triple.bind ((remember_called _ _ _).triple fun _ _ hv => hv.unrecorded.rows) fun _ => ?_
  refine Triple.bind ((persistRun_recorded agent inp' _ _ _).raises fun _ _ hv => hv.rows)
    fun _ => ?_
  exact Triple.pure fun v hv => ⟨⟨s.usedTools, hv⟩, rfl, hdecision⟩

theorem ToolNode.act_triple (n : ToolNode) (s : AgentGraphState) :
    Triple (OnTheWay inp w s) ((toolGraph env agent).act n s)
      (fun u v => ((toolGraph env agent).next n ((toolGraph env agent).merge s u) = none →
          AtTheEnd env agent w ((toolGraph env agent).merge s u) v) ∧
        ∀ n', (toolGraph env agent).next n ((toolGraph env agent).merge s u) = some n' →
          OnTheWay inp w ((toolGraph env agent).merge s u) v)
      fun _ v => v.runs.rows = w.runs.rows := by
  cases n with
  | callLlm =>
    refine (ToolNode.callLlm_triple s).weaken fun u v hv => ⟨?_, fun _ _ => hv⟩
    intro hnext
    change ToolNode.next .callLlm (s.merge u) = none at hnext
    rw [ToolNode.next] at hnext
    split_ifs at hnext
  | executeTools =>
    exact (ToolNode.executeTools_triple s).weaken fun u v hv =>
      ⟨fun h => (by cases h), fun _ _ => hv⟩
  | finalize =>
    exact (ToolNode.finalize_triple s).weaken fun u v hv => ⟨fun _ => hv, fun _ h => (by cases h)⟩

/-- **What a run of the graph leaves**: the same. -/
theorem Agent.invokeGraph_recorded : Triple (fun v => v = w) (agent.invokeGraph env inp)
    (fun r v => agent.Recorded env w r v) fun _ v => v.runs.rows = w.runs.rows := by
  have hrun := LangGraph.run_triple (g := toolGraph env agent) (P := fun _ => OnTheWay inp w)
    (Q := AtTheEnd env agent w) (R := fun v => v.runs.rows = w.runs.rows) agent inp
    ToolNode.act_triple fun _ _ _ h => h.called.unrecorded.rows
  rintro v rfl
  have hstart : OnTheWay inp v (startState agent inp (v.checkpoints agent.key inp.correlationId) v)
      v := ⟨rfl, rfl, World.Called.refl⟩
  have hleft := hrun v hstart
  unfold Agent.invokeGraph
  cases hresult : LangGraph.run (toolGraph env agent) agent inp v with
  | mk r v' =>
    rw [hresult] at hleft
    cases r with
    | error e =>
      obtain ⟨saved, u, hruns, rfl⟩ := hleft
      exact hruns
    | ok r =>
      obtain ⟨final, saved, u, hend, rfl, rfl⟩ := hleft
      obtain ⟨used, hrun, hnamed⟩ := hend.run
      refine ⟨⟨used, ⟨hrun.taken, hrun.row⟩, hnamed⟩, ?_, ?_⟩
      · show final.needsHumanApproval.getD false = _
        rw [hend.approval]
        rfl
      · show final.decision.getD none = _
        rw [hend.decision]
        rfl

theorem Agent.invokeResolved_recorded : Triple (fun v => v = w) (agent.invokeResolved env inp)
    (fun r v => agent.Recorded env w r v) fun _ v => v.runs.rows = w.runs.rows :=
  Agent.invokeResolved_of_both (P := fun x => Triple _ x _ _) Agent.invoke_recorded
    Agent.invokeGraph_recorded

end Graphs

/-! ## Paths -/

namespace ExecutionPath

variable (env : Env) (inp : AgentInput)

/-- The agent whose loop runs on a path. -/
def acting : ExecutionPath → Option Agent
  | specialist agent => some agent
  | supervisor reg => reg.specialist env.runtime inp.message
  | specialistGraph agent => some agent
  | supervisorGraph reg => reg.specialist env.runtime inp.message

/-- How the acting agent is run: by the loop, by the graph, or as configured. -/
def behave : ExecutionPath → Agent → Run AgentResult
  | specialist _, agent => agent.invoke env inp
  | supervisor _, agent => agent.invoke env inp
  | specialistGraph _, agent => agent.invokeGraph env inp
  | supervisorGraph _, agent => agent.invokeResolved env inp

/-- The run of the acting agent. -/
def loop (path : ExecutionPath) : Run AgentResult :=
  match path.acting env inp with
  | none => Effect.raise (.runtimeError "customer_support agent not registered")
  | some agent => path.behave env inp agent

/-- The rows a run on a path writes when it returns: the graph of the supervisor records its own
run as well. -/
def rows : ExecutionPath → ℕ
  | supervisorGraph _ => 2
  | _ => 1

theorem rows_pos (path : ExecutionPath) : 0 < path.rows := by
  cases path with
  | supervisorGraph reg => exact Nat.succ_pos 1
  | specialist agent => exact Nat.succ_pos 0
  | supervisor reg => exact Nat.succ_pos 0
  | specialistGraph agent => exact Nat.succ_pos 0

variable {env inp}

theorem loop_of_none {path : ExecutionPath} (h : path.acting env inp = none) (w : World) :
    path.loop env inp w = (.error (.runtimeError "customer_support agent not registered"), w) := by
  rw [loop, h]
  rfl

theorem loop_of_acting {path : ExecutionPath} {agent : Agent}
    (h : path.acting env inp = some agent) : path.loop env inp = path.behave env inp agent := by
  rw [loop, h]

/-- What holds of the loop and of the graph of an agent holds on every path. -/
theorem behave_of_both {agent : Agent} {P : Run AgentResult → Prop}
    (hclassic : P (agent.invoke env inp)) (hgraph : P (agent.invokeGraph env inp))
    (path : ExecutionPath) : P (path.behave env inp agent) := by
  cases path with
  | specialist _ => exact hclassic
  | supervisor _ => exact hclassic
  | specialistGraph _ => exact hgraph
  | supervisorGraph _ => exact Agent.invokeResolved_of_both hclassic hgraph

theorem behave_recorded {w : World} (path : ExecutionPath) (agent : Agent) :
    Triple (fun v => v = w) (path.behave env inp agent) (fun r v => agent.Recorded env w r v)
      fun _ v => v.runs.rows = w.runs.rows :=
  behave_of_both (P := fun x => Triple _ x _ _) Agent.invoke_recorded Agent.invokeGraph_recorded
    path

/-- What the loop on a path leaves. -/
theorem loop_recorded {w : World} (path : ExecutionPath) :
    Triple (fun v => v = w) (path.loop env inp)
      (fun r v => ∃ agent, path.acting env inp = some agent ∧ agent.Recorded env w r v)
      fun _ v => v.runs.rows = w.runs.rows := by
  unfold loop
  cases hacting : path.acting env inp with
  | none =>
    refine Triple.raise ?_
    rintro v rfl
    rfl
  | some agent => exact (path.behave_recorded agent).weaken fun r v hv => ⟨agent, rfl, hv⟩

/-- What a path makes of a run `x` of its loop: it calls no tool, it returns only if the loop did,
and then it hands the decision and the need for an approval on. -/
structure After (env : Env) (path : ExecutionPath) (x y : Except PyErr AgentResult × World) :
    Prop where
  uncalled : x.2.Since Event.Uncalled y.2
  rows : ∃ rows, y.2.runs.rows = x.2.runs.rows ++ rows
  of_error : ∀ e, x.1 = .error e → y.2.runs.rows = x.2.runs.rows
  of_ok : ∀ r', y.1 = .ok r' → ∃ r, x.1 = .ok r ∧
    r'.needsHumanApproval = r.needsHumanApproval ∧ r'.decision = r.decision ∧
    ∀ i, i + 1 < path.rows → env.commit (x.2.runs.asked + i) = true

/-- A specialist ends with its loop. -/
theorem After.refl {path : ExecutionPath} (hrows : path.rows = 1)
    (x : Except PyErr AgentResult × World) : After env path x x where
  uncalled := World.Since.refl
  rows := ⟨[], by simp⟩
  of_error _ _ := rfl
  of_ok r hr := ⟨r, hr, rfl, rfl, fun i hi => by omega⟩

/-- The path raises, without another call or row. -/
theorem After.of_raised {path : ExecutionPath} {x y : Except PyErr AgentResult × World}
    {e : PyErr} (hy : y.1 = .error e) (h : x.2.Unrecorded [] y.2) :
    After env path x y where
  uncalled := h.since.mono fun _ he => he.uncalled
  rows := ⟨[], by rw [h.rows, List.append_nil]⟩
  of_error _ _ := h.rows
  of_ok r hr := by
    rw [hy] at hr
    cases hr

end ExecutionPath

section Composing

open StateGraph

variable {env : Env} {reg : AgentRegistry} {inp : AgentInput} {w v : World} {result : AgentResult}

/-- What the supervisor does after its specialist. -/
def Supervisor.answer (env : Env) (inp : AgentInput) (specialist : Agent) (result : AgentResult) :
    Run AgentResult := do
  let response ← env.ask
    { model := "mock", provider := "mock"
      messages := composeMessages env.runtime inp.message specialist.key result.reply
        result.toolOutputs }
  Effect.ofExcept (env.guard.guardOutput response.text)
  return { result with reply := response.text, delegatedTo := [specialist.key] }

theorem Supervisor.answer_triple (specialist : Agent) :
    Triple (v.Called []) (Supervisor.answer env inp specialist result)
      (fun (r : AgentResult) u => v.Called [] u ∧
        r.needsHumanApproval = result.needsHumanApproval ∧ r.decision = result.decision)
      fun _ u => v.Called [] u := by
  refine Triple.bind ((ask_called _).triple fun _ _ hu => hu) fun response => ?_
  refine Triple.bind ((Keeps.ofExcept _).triple fun _ _ hu => hu) fun _ => ?_
  exact Triple.pure fun u hu => ⟨hu, rfl, rfl⟩

/-- What the last node of the graph does. -/
theorem SupervisorNode.composeNode_triple (env : Env) {s : AgentGraphState}
    (hinput : s.input = some inp) :
    Triple (v.Called []) (SupervisorNode.composeNode env s)
      (fun t u => (v.RecordedRun env (s.specialistTools.getD []) u ∧
          v.Since (Event.NamedIn []) u) ∧
        t.needsHumanApproval = some (s.needsHumanApproval.getD false) ∧ t.decision = none)
      fun _ u => v.Unrecorded [] u := by
  unfold SupervisorNode.composeNode
  rw [hinput]
  refine Triple.bind (Triple.pure (Q := fun _ => v.Called []) fun _ hu => hu) fun inp' => ?_
  refine Triple.bind ((ask_called _).triple fun _ _ hu => hu.unrecorded) fun response => ?_
  refine Triple.bind ((Keeps.ofExcept _).triple fun _ _ hu => hu.unrecorded) fun _ => ?_
  refine Triple.bind ((recordTokens_called _ _).triple fun _ _ hu => hu.unrecorded) fun _ => ?_
  refine Triple.bind (persistRun_recorded _ _ _ _ _) fun _ => ?_
  refine Triple.bind (remember_recorded _ _ _) fun _ => ?_
  exact Triple.pure fun u hu => ⟨hu, rfl, rfl⟩

/-- Nothing was called or recorded. -/
theorem Untouched.called (h : Untouched w v) : w.Called [] v :=
  ⟨h.runs, [], by rw [h.log, List.append_nil], by simp⟩

namespace ExecutionPath

/-- A loop that returned, and then something that calls nothing and records nothing. -/
theorem After.of_returned {path : ExecutionPath} (hrows : path.rows = 1) {x : Run AgentResult}
    (hx : Triple (v.Called []) x
      (fun r u => v.Called [] u ∧ r.needsHumanApproval = result.needsHumanApproval ∧
        r.decision = result.decision) fun _ u => v.Called [] u) :
    After env path (.ok result, v) (x v) := by
  have hleft := hx v World.Called.refl
  cases hrun : x v with
  | mk r u =>
    rw [hrun] at hleft
    cases r with
    | error e => exact After.of_raised rfl hleft.unrecorded
    | ok r =>
      obtain ⟨hcalled, happroval, hdecision⟩ := hleft
      refine ⟨hcalled.since.mono fun _ he => he.uncalled, ⟨[], ?_⟩, ?_, ?_⟩
      · rw [hcalled.runs, List.append_nil]
      · rintro _ ⟨⟩
      · rintro _ ⟨⟩
        exact ⟨result, rfl, happroval, hdecision, fun i hi => by omega⟩

variable (env inp) in
/-- The run of a supervisor raises where its loop has raised, or it answers with what the
specialist returned. -/
theorem supervisor_cases (reg : AgentRegistry) (w : World) :
    (∃ e e', ((supervisor reg).loop env inp w).1 = .error e ∧
      ((supervisor reg).run env inp w).1 = .error e' ∧
      Untouched ((supervisor reg).loop env inp w).2 ((supervisor reg).run env inp w).2) ∨
    ∃ agent result v, reg.specialist env.runtime inp.message = some agent ∧
      (supervisor reg).loop env inp w = (.ok result, v) ∧
      (supervisor reg).run env inp w = Supervisor.answer env inp agent result v := by
  show (∃ e e', _ ∧ (Supervisor.invoke env reg inp w).1 = .error e' ∧
    Untouched _ (Supervisor.invoke env reg inp w).2) ∨ ∃ agent result v, _ ∧ _ ∧
      Supervisor.invoke env reg inp w = Supervisor.answer env inp agent result v
  cases hspecialist : reg.specialist env.runtime inp.message with
  | none =>
    have hacting : (supervisor reg).acting env inp = none := hspecialist
    rw [loop_of_none hacting, Supervisor.invoke, hspecialist]
    exact Or.inl ⟨_, _, rfl, rfl, ⟨rfl, rfl, rfl⟩⟩
  | some agent =>
    have hacting : (supervisor reg).acting env inp = some agent := hspecialist
    have hinvoke : Supervisor.invoke env reg inp w =
        (agent.invoke env inp >>= Supervisor.answer env inp agent) w := by
      rw [Supervisor.invoke, hspecialist]
      rfl
    rw [loop_of_acting hacting, hinvoke, Effect.bind_apply]
    dsimp only [behave]
    cases hresult : agent.invoke env inp w with
    | mk r v =>
      cases r with
      | error e => exact Or.inl ⟨e, e, rfl, rfl, ⟨rfl, rfl, rfl⟩⟩
      | ok result => exact Or.inr ⟨agent, result, v, rfl, rfl, rfl⟩

theorem supervisor_after (reg : AgentRegistry) (w : World) :
    After env (supervisor reg) ((supervisor reg).loop env inp w)
      ((supervisor reg).run env inp w) := by
  rcases supervisor_cases env inp reg w with ⟨e, e', -, hraised, huntouched⟩ |
    ⟨agent, result, v, -, hloop, hrun⟩
  · exact After.of_raised hraised huntouched.called.unrecorded
  · rw [hloop, hrun]
    exact After.of_returned rfl (Supervisor.answer_triple agent)

/-- The loop does nothing on a message that is refused. -/
theorem loop_of_refused {e : PyErr} (hguard : env.guard.guardInput inp.message = .error e)
    (path : ExecutionPath) (w : World) :
    ∃ e' v, path.loop env inp w = (.error e', v) ∧ Untouched w v := by
  cases hacting : path.acting env inp with
  | none => exact ⟨_, w, loop_of_none hacting w, ⟨rfl, rfl, rfl⟩⟩
  | some agent =>
    have hclassic : ∃ e' v, agent.invoke env inp w = (.error e', v) ∧ Untouched w v :=
      ⟨e, w, Agent.invoke_of_refused hguard, ⟨rfl, rfl, rfl⟩⟩
    have hgraph : ∃ e' v, agent.invokeGraph env inp w = (.error e', v) ∧ Untouched w v :=
      ⟨e, _, invokeGraph_of_refused hguard, ⟨rfl, rfl, rfl⟩⟩
    rw [loop_of_acting hacting]
    exact behave_of_both (P := fun x => ∃ e' v, x w = (.error e', v) ∧ Untouched w v)
      hclassic hgraph path

/-- The run of the supervisor graph raises where its loop has raised, or it composes the answer
from what the specialist returned. -/
theorem supervisorGraph_cases (reg : AgentRegistry) (w : World) :
    (∃ e e', ((supervisorGraph reg).loop env inp w).1 = .error e ∧
      ((supervisorGraph reg).run env inp w).1 = .error e' ∧
      Untouched ((supervisorGraph reg).loop env inp w).2
        ((supervisorGraph reg).run env inp w).2) ∨
    ∃ s agent result v, (supervisorGraph reg).loop env inp w = (.ok result, v) ∧
      s.input = some inp ∧
      (supervisorGraph reg).run env inp w = LangGraph.finished supervisorAgent inp
        (composed (delegatedState env reg inp s agent result)
          (SupervisorNode.composeNode env (delegatedState env reg inp s agent result) v)) := by
  show (∃ e e', _ ∧ (Supervisor.invokeGraph env reg inp w).1 = .error e' ∧
    Untouched _ (Supervisor.invokeGraph env reg inp w).2) ∨ ∃ s agent result v, _ ∧ _ ∧
      Supervisor.invokeGraph env reg inp w = _
  set start := startState supervisorAgent inp
    (w.checkpoints supervisorAgent.key inp.correlationId) w with hstart
  have hinput : start.input = some inp := startState_input
  cases hguard : env.guard.guardInput inp.message with
  | error e =>
    obtain ⟨e', v, hloop, huntouched⟩ := loop_of_refused hguard (supervisorGraph reg) w
    rw [hloop, Supervisor.invokeGraph_of_refused hguard]
    exact Or.inl ⟨e', e, rfl, rfl,
      ⟨huntouched.log.symm, huntouched.memory.symm, huntouched.runs.symm⟩⟩
  | ok u =>
    cases hspecialist : reg.specialist env.runtime inp.message with
    | none =>
      have hacting : (supervisorGraph reg).acting env inp = none := hspecialist
      have hagent := (reg.getAgent_specialistKey env.runtime inp.message).trans hspecialist
      rw [loop_of_none hacting, Supervisor.invokeGraph_apply,
        show LangGraph.recursionLimit = 23 + 2 from rfl, steps_unregistered hinput hguard hagent]
      exact Or.inl ⟨_, _, rfl, rfl, ⟨rfl, rfl, rfl⟩⟩
    | some agent =>
      have hacting : (supervisorGraph reg).acting env inp = some agent := hspecialist
      have hagent := (reg.getAgent_specialistKey env.runtime inp.message).trans hspecialist
      rw [loop_of_acting hacting, Supervisor.invokeGraph_apply,
        show LangGraph.recursionLimit = 22 + 3 from rfl, steps_delegation hinput hguard hagent]
      dsimp only [behave]
      cases hloop : agent.invokeResolved env inp w with
      | mk r v =>
        cases r with
        | error e => exact Or.inl ⟨e, e, rfl, rfl, ⟨rfl, rfl, rfl⟩⟩
        | ok result => exact Or.inr ⟨start, agent, result, v, rfl, hinput, rfl⟩

/-- A checkpoint is neither a call nor a row. -/
theorem unrecorded_finished {names : List String} {agent : Agent}
    {finish : StateGraph.Finish AgentGraphState World PyErr}
    (h : w.Unrecorded names finish.world) :
    w.Unrecorded names (LangGraph.finished agent inp finish).2 :=
  ⟨h.rows, h.since⟩

/-- The answer is composed: the need for an approval is handed on, and no decision is added. -/
theorem after_composed {s : AgentGraphState} (hinput : s.input = some inp)
    (happroval : s.needsHumanApproval = some result.needsHumanApproval)
    (hdecision : s.decision = some result.decision) :
    After env (supervisorGraph reg) (.ok result, v)
      (LangGraph.finished supervisorAgent inp
        (composed s (SupervisorNode.composeNode env s v))) := by
  have hcompose := SupervisorNode.composeNode_triple env (v := v) hinput v World.Called.refl
  cases hnode : SupervisorNode.composeNode env s v with
  | mk r v' =>
    rw [hnode] at hcompose
    cases r with
    | error e => exact After.of_raised rfl (unrecorded_finished hcompose)
    | ok t =>
      obtain ⟨⟨⟨htaken, report, -, hruns⟩, hsince⟩, htapproval, htdecision⟩ := hcompose
      refine ⟨World.Since.mono hsince fun _ he => he.uncalled,
        ⟨[report.row env.runtime], congrArg Journal.rows hruns⟩, ?_, ?_⟩
      · rintro _ ⟨⟩
      · rintro _ ⟨⟩
        refine ⟨result, rfl, ?_, ?_, ?_⟩
        · show ((s.merge t).needsHumanApproval).getD false = _
          simp [AgentGraphState.merge, htapproval, happroval]
        · show ((s.merge t).decision).getD none = _
          simp [AgentGraphState.merge, htdecision, hdecision]
        · intro i hi
          have hzero : i = 0 := by
            simp only [rows] at hi
            omega
          rw [hzero]
          exact htaken

theorem supervisorGraph_after (reg : AgentRegistry) (w : World) :
    After env (supervisorGraph reg) ((supervisorGraph reg).loop env inp w)
      ((supervisorGraph reg).run env inp w) := by
  rcases supervisorGraph_cases reg w with ⟨e, e', -, hraised, huntouched⟩ |
    ⟨s, agent, result, v, hloop, hinput, hrun⟩
  · exact After.of_raised hraised huntouched.called.unrecorded
  · rw [hloop, hrun]
    have hsinput : (delegatedState env reg inp s agent result).input = some inp := hinput
    exact after_composed hsinput rfl rfl

/-- **What a path makes of its loop.** -/
theorem run_after (path : ExecutionPath) (env : Env) (inp : AgentInput) (w : World) :
    After env path (path.loop env inp w) (path.run env inp w) := by
  cases path with
  | specialist agent => exact After.refl rfl _
  | supervisor reg => exact supervisor_after reg w
  | specialistGraph agent => exact After.refl rfl _
  | supervisorGraph reg => exact supervisorGraph_after reg w

/-- **What a run that returned has left**: the need for an approval is the acting agent's, there
is no decision, and the database has taken the rows. -/
theorem run_returned {path : ExecutionPath} {r : AgentResult} {v : World}
    (h : path.run env inp w = (.ok r, v)) :
    ∃ agent, path.acting env inp = some agent ∧ r.needsHumanApproval = agent.needsHitl ∧
      r.decision = none ∧ ∀ i < path.rows, env.commit (w.runs.asked + i) = true := by
  have hafter := path.run_after env inp w
  obtain ⟨r', hr', happroval, hdecision, htaken⟩ := hafter.of_ok r (by rw [h])
  have hloop : path.loop env inp w = (.ok r', (path.loop env inp w).2) := Prod.ext hr' rfl
  obtain ⟨agent, hacting, hrecorded⟩ := Triple.of_ok path.loop_recorded rfl hloop
  obtain ⟨used, hrun, -⟩ := hrecorded.run
  obtain ⟨report, -, hruns⟩ := hrun.row
  refine ⟨agent, hacting, happroval.trans hrecorded.approval,
    hdecision.trans hrecorded.decision, ?_⟩
  intro i hi
  cases i with
  | zero => exact hrun.taken
  | succ i =>
    have hnext := htaken i hi
    rw [hruns, Journal.taken_asked] at hnext
    rw [show w.runs.asked + (i + 1) = w.runs.asked + 1 + i by omega]
    exact hnext

end ExecutionPath

end Composing

/-! ## What every call satisfies -/

section Invariants

variable {env : Env} {agent : Agent} {inp : AgentInput} {I : World → Prop}

/-- The nodes keep what the operations on the input of the run keep. -/
theorem ToolNode.act_ensures_input (h : agent.RunKeeps env inp I) (n : ToolNode)
    {s : AgentGraphState} (hinput : s.input = some inp) :
    Ensures I (ToolNode.act env agent n s) fun u => u.input = none := by
  have hchannel : Ensures I (channel "_input" s.input) fun inp' => inp' = inp := by
    rw [hinput]
    exact Ensures.pure rfl
  cases n with
  | callLlm =>
    refine Ensures.bind hchannel ?_
    rintro _ rfl
    refine Ensures.bind (Ensures.of_keeps (Keeps.ofExcept _)) fun _ _ => ?_
    refine Ensures.bind (Ensures.of_keeps (h.askModel _)) fun response _ => ?_
    refine Ensures.bind (Ensures.of_keeps (h.tokens _)) fun _ _ => ?_
    exact Ensures.pure rfl
  | executeTools =>
    refine Ensures.bind hchannel ?_
    rintro _ rfl
    refine Ensures.bind (Ensures.of_keeps (ToolNode.callTools_keeps h.call _)) fun _ _ => ?_
    exact Ensures.pure rfl
  | finalize =>
    refine Ensures.bind hchannel ?_
    rintro _ rfl
    refine Ensures.bind (Ensures.of_keeps (h.remember _)) fun _ _ => ?_
    refine Ensures.bind (Ensures.of_keeps (h.persist _ _ _)) fun _ _ => ?_
    exact Ensures.pure rfl

/-- What every operation and every checkpoint keeps, a run of the graph keeps. -/
theorem Agent.invokeGraph_keeps (h : agent.RunKeeps env inp I)
    (hsave : ∀ v agentKey threadId s, I v → I (LangGraph.save agentKey threadId s v)) :
    Keeps I (agent.invokeGraph env inp) := by
  have hact : ∀ n s, Triple (fun v => s.input = some inp ∧ I v) ((toolGraph env agent).act n s)
      (fun u v => ((toolGraph env agent).next n ((toolGraph env agent).merge s u) = none → I v) ∧
        ∀ n', (toolGraph env agent).next n ((toolGraph env agent).merge s u) = some n' →
          ((toolGraph env agent).merge s u).input = some inp ∧ I v) fun _ v => I v := by
    rintro n s v ⟨hinput, hv⟩
    refine (ToolNode.act_ensures_input h n hinput).weaken ?_ v hv
    rintro u v' ⟨hnone, hv'⟩
    have hmerge : (s.merge u).input = some inp := by
      show (u.input <|> s.input) = _
      rw [hnone, hinput]
      rfl
    exact ⟨fun _ => hv', fun _ _ => ⟨hmerge, hv'⟩⟩
  have hrun := LangGraph.run_triple (P := fun _ s v => s.input = some inp ∧ I v)
    (Q := fun _ v => I v) agent inp hact fun _ _ _ hv => hv.2
  intro v hv
  have hleft := hrun v ⟨startState_input, hv⟩
  unfold Agent.invokeGraph
  cases hresult : LangGraph.run (toolGraph env agent) agent inp v with
  | mk r v' =>
    rw [hresult] at hleft
    cases r with
    | error e =>
      obtain ⟨saved, u, hu, rfl⟩ := hleft
      exact hsave u _ _ _ hu
    | ok r =>
      obtain ⟨final, saved, u, hu, -, rfl⟩ := hleft
      exact hsave u _ _ _ hu

namespace ExecutionPath

theorem loop_keeps (h : ∀ agent : Agent, agent.RunKeeps env inp I)
    (hsave : ∀ v agentKey threadId s, I v → I (LangGraph.save agentKey threadId s v))
    (path : ExecutionPath) : Keeps I (path.loop env inp) := by
  cases hacting : path.acting env inp with
  | none =>
    intro v hv
    rw [loop_of_none hacting]
    exact hv
  | some agent =>
    rw [loop_of_acting hacting]
    exact behave_of_both (h agent).invoke (Agent.invokeGraph_keeps (h agent) hsave) path

/-- **What every tool call satisfies**, whatever it comes after, holds of everything done on a
path. -/
theorem run_since {p : Event → Prop}
    (hcalled : ∀ tc before, p (.called (inp.invocation tc)
      (env.execute before (inp.invocation tc))))
    (hrest : ∀ e : Event, e.Uncalled → p e) (path : ExecutionPath) (w : World) :
    w.Since p (path.run env inp w).2 := by
  have hkeeps := fun agent : Agent =>
    (agent.loopKeeps_since (fun _ _ => hrest _ rfl) hcalled (fun e _ => hrest e) w :
      agent.LoopKeeps env inp (w.Since p))
  have hloop := path.loop_keeps (fun agent => (hkeeps agent).run) (fun _ _ _ _ hv => hv) w
    World.Since.refl
  exact hloop.trans ((path.run_after env inp w).uncalled.mono hrest)

end ExecutionPath

end Invariants

/-! ## Composing the answer -/

/-- An event that neither asks the model nor calls a tool. -/
def Event.Noted (e : Event) : Prop := e.request? = none ∧ e.invocation? = none

section Composed

open StateGraph

variable {env : Env} {inp : AgentInput} {v : World}

theorem Untouched.since {w : World} (h : Untouched w v) : w.Since Event.Noted v :=
  ⟨[], by rw [h.log, List.append_nil], by simp⟩

/-- A request, and then what only notes. -/
theorem Env.ask_bind_since {α : Type} {request : LLMRequest} {rest : LLMResponse → Run α}
    (hrest : ∀ response, Keeps
      ((v.push (.asked request (env.answer v.log request))).Since Event.Noted) (rest response)) :
    (v.push (.asked request (env.answer v.log request))).Since Event.Noted
      ((env.ask request >>= rest) v).2 := by
  refine Keeps.bind_after ?_ hrest
  unfold Env.ask
  cases env.answer v.log request with
  | none => exact World.Since.refl
  | some response => exact World.Since.refl

theorem channel_bind {α β : Type} (key : String) (a : α) (f : α → Run β) :
    (channel key (some a) >>= f) v = f a v := rfl

/-- The last node of the graph asks once, and then only notes. -/
theorem SupervisorNode.composeNode_since {s : AgentGraphState} {key : String}
    {request : LLMRequest} (hinput : s.input = some inp) (hkey : s.specialistKey = some key)
    (hrequest : request = LLMRequest.routed env.settings
      { model := "", provider := ""
        messages := Supervisor.composeMessages env.runtime inp.message key
          (s.specialistReply.getD "") (s.specialistOutputs.getD []) }) :
    (v.push (.asked request (env.answer v.log request))).Since Event.Noted
      (composeNode env s v).2 := by
  subst hrequest
  unfold SupervisorNode.composeNode
  rw [hinput, hkey, channel_bind]
  refine Env.ask_bind_since fun response => ?_
  refine Keeps.bind (Keeps.ofExcept _) fun _ => ?_
  refine Keeps.bind (fun _ hu => hu) fun _ => ?_
  refine Keeps.bind (Keeps.bind Keeps.get fun _ (u : World) hu => ?_) fun _ => ?_
  · unfold Env.recordAgentRun
    split
    · exact World.Since.push (v := { u with runs := _ }) hu ⟨rfl, rfl⟩
    · exact hu
  · refine Keeps.bind (fun _ hu => ?_) fun _ => Keeps.pure _
    exact World.Since.push hu ⟨rfl, rfl⟩

namespace ExecutionPath

/-- The request a supervisor composes its answer with, when the specialist has returned. -/
def composeRequest? (env : Env) (inp : AgentInput) (result : AgentResult) :
    ExecutionPath → Option LLMRequest
  | specialist _ => none
  | supervisor reg => (reg.specialist env.runtime inp.message).map fun specialist =>
    { model := "mock", provider := "mock"
      messages := Supervisor.composeMessages env.runtime inp.message specialist.key result.reply
        result.toolOutputs }
  | specialistGraph _ => none
  | supervisorGraph reg => some (LLMRequest.routed env.settings
    { model := "", provider := ""
      messages := Supervisor.composeMessages env.runtime inp.message
        (reg.specialistKey env.runtime inp.message) result.reply result.toolOutputs })

/-- That request, with the answer of the gateway, after a run of the loop. -/
def composing (env : Env) (inp : AgentInput) (path : ExecutionPath) :
    Except PyErr AgentResult × World → List Event
  | (.error _, _) => []
  | (.ok result, v) => (path.composeRequest? env inp result).toList.map fun request =>
    .asked request (env.answer v.log request)

/-- It names no tenant. -/
theorem composeRequest?_tenantId {path : ExecutionPath} {result : AgentResult}
    {request : LLMRequest} (h : path.composeRequest? env inp result = some request) :
    request.tenantId = none := by
  cases path with
  | specialist agent => cases h
  | specialistGraph agent => cases h
  | supervisor reg =>
    obtain ⟨specialist, -, rfl⟩ := Option.map_eq_some_iff.1 h
    rfl
  | supervisorGraph reg =>
    cases h
    rfl

theorem composing_cases (path : ExecutionPath) (x : Except PyErr AgentResult × World) :
    path.composing env inp x = [] ∨ ∃ request : LLMRequest, request.tenantId = none ∧
      path.composing env inp x = [.asked request (env.answer x.2.log request)] := by
  obtain ⟨r, u⟩ := x
  cases r with
  | error e => exact Or.inl rfl
  | ok result =>
    cases hrequest : path.composeRequest? env inp result with
    | none =>
      refine Or.inl ?_
      rw [composing, hrequest]
      rfl
    | some request =>
      refine Or.inr ⟨request, composeRequest?_tenantId hrequest, ?_⟩
      rw [composing, hrequest]
      rfl

/-- A later world, where no answer was composed. -/
theorem since_of_uncomposed {path : ExecutionPath} {x : Except PyErr AgentResult × World}
    (hnone : path.composing env inp x = []) (h : x.2.Since Event.Noted v) :
    (x.2.withLog (x.2.log ++ path.composing env inp x)).Since Event.Noted v := by
  rw [hnone, List.append_nil]
  exact h

theorem composing_of_raised {path : ExecutionPath} {x : Except PyErr AgentResult × World}
    {e : PyErr} (h : x.1 = .error e) : path.composing env inp x = [] := by
  obtain ⟨r, u⟩ := x
  cases h
  rfl

theorem composing_of_uncomposed {path : ExecutionPath}
    (h : ∀ result, path.composeRequest? env inp result = none)
    (x : Except PyErr AgentResult × World) : path.composing env inp x = [] := by
  obtain ⟨r, u⟩ := x
  cases r with
  | error e => rfl
  | ok result =>
    rw [composing, h]
    rfl

theorem composed_supervisor (reg : AgentRegistry) (w : World) :
    (((supervisor reg).loop env inp w).2.withLog (((supervisor reg).loop env inp w).2.log ++
      (supervisor reg).composing env inp ((supervisor reg).loop env inp w))).Since Event.Noted
      ((supervisor reg).run env inp w).2 := by
  rcases supervisor_cases env inp reg w with ⟨e, e', hraised, -, huntouched⟩ |
    ⟨agent, result, v, hspecialist, hloop, hrun⟩
  · exact since_of_uncomposed (composing_of_raised hraised) huntouched.since
  · rw [hloop, hrun]
    simp only [composing, composeRequest?, hspecialist]
    refine Env.ask_bind_since fun response => ?_
    exact Keeps.bind (Keeps.ofExcept _) fun _ => Keeps.pure _

theorem composed_supervisorGraph (reg : AgentRegistry) (w : World) :
    (((supervisorGraph reg).loop env inp w).2.withLog
      (((supervisorGraph reg).loop env inp w).2.log ++
        (supervisorGraph reg).composing env inp ((supervisorGraph reg).loop env inp w))).Since
      Event.Noted ((supervisorGraph reg).run env inp w).2 := by
  rcases supervisorGraph_cases reg w with ⟨e, e', hraised, -, huntouched⟩ |
    ⟨s, agent, result, v, hloop, hinput, hrun⟩
  · exact since_of_uncomposed (composing_of_raised hraised) huntouched.since
  · rw [hloop, hrun]
    set t := delegatedState env reg inp s agent result with ht
    have htinput : t.input = some inp := hinput
    have hcomposed : (composed t (SupervisorNode.composeNode env t v)).world =
        (SupervisorNode.composeNode env t v).2 := composed_world ..
    show (World.withLog _ _).Since Event.Noted
      (composed t (SupervisorNode.composeNode env t v)).world
    rw [hcomposed]
    exact SupervisorNode.composeNode_since htinput rfl rfl

/-- **What a path adds to the log after its loop**: the request the answer is composed with, and
then what only notes. -/
theorem run_composed (path : ExecutionPath) (env : Env) (inp : AgentInput) (w : World) :
    ((path.loop env inp w).2.withLog ((path.loop env inp w).2.log ++
      path.composing env inp (path.loop env inp w))).Since Event.Noted
      (path.run env inp w).2 := by
  cases path with
  | specialist agent =>
    exact since_of_uncomposed (composing_of_uncomposed (fun _ => rfl) _) World.Since.refl
  | specialistGraph agent =>
    exact since_of_uncomposed (composing_of_uncomposed (fun _ => rfl) _) World.Since.refl
  | supervisor reg => exact composed_supervisor reg w
  | supervisorGraph reg => exact composed_supervisorGraph reg w

end ExecutionPath

end Composed

/-! ## Only what is authorized -/

/-- The body of a tool ran only if the tool is registered and the layers let the call through. -/
def Event.Authorized (reg : ToolRegistry) (ctx : ToolContext) : Event → Prop
  | .called invocation execution => execution.bodyRan = true →
    ∃ tool, reg.getTool invocation.name = some tool ∧
      authorizeToolExecution tool.toToolClass ctx invocation.arguments = .ok ()
  | _ => True

/-- **Whatever the model says**, on every path only the bodies of tools run that are registered
and authorized for the caller. -/
theorem ExecutionPath.run_authorized (env : Env) (stores : Stores)
    (complete : List LLMRequest → Option LLMResponse) (inp : AgentInput) (path : ExecutionPath)
    (w : World) :
    w.Since (Event.Authorized (toolRegistry env.runtime stores) inp.toolContext)
      (path.run ((env.on stores).answering complete) inp w).2 := by
  apply path.run_since
  · intro tc before hran
    exact bodyRan_executeTool_iff.1 hran
  · intro e hnone
    cases e with
    | called invocation execution => cases hnone
    | asked request answer => trivial
    | remembered agentKey inp' reply => trivial
    | recorded report => trivial

end AgentPlatform
