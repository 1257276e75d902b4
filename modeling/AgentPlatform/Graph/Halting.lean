import AgentPlatform.Graph.Refinement

/-!
# The tool graph halts within its bound

The edge from the tools back to the model is unconditional, and the edge out of the model reads
a channel that may hold calls of an earlier run.  What falls is the number of rounds that are
left: each run starts the counter anew, the model hands it on, and the tools raise it.

* `Working` — the state and the world while a run is under way: nothing is remembered or
  recorded yet.
* `trace_weight_le` — what the nodes of a run cost, by the rounds that are left.
* `ends_of_working` — how a run ends, at the node that acts last.
* `HaltsInBound`, `toolGraph_halts` — **every run halts within the bound**, and is closed once.
-/

namespace AgentPlatform

open StateGraph

/-! ## Rounds that are left -/

/-- A cost for each node. -/
def ToolNode.weight (call execute close : ℕ) : ToolNode → ℕ
  | callLlm => call
  | executeTools => execute
  | finalize => close

/-- What a list of nodes costs. -/
theorem sum_weight (call execute close : ℕ) (nodes : List ToolNode) :
    (nodes.map (ToolNode.weight call execute close)).sum =
      call * nodes.count .callLlm + execute * nodes.count .executeTools +
        close * nodes.count .finalize := by
  induction nodes with
  | nil => rfl
  | cons n nodes ih =>
    rw [List.map_cons, List.sum_cons, ih]
    cases n <;> simp [ToolNode.weight] <;> ring

/-- The rounds that are left. -/
def AgentGraphState.roundsLeft (s : AgentGraphState) : ℕ := maxToolRounds - s.steps.getD 0

/-- What the nodes from here on may cost: a request and a round of tools for each round that is
left, one request more, and the end. -/
def ToolNode.potential (call execute close : ℕ) : ToolNode → AgentGraphState → ℕ
  | callLlm, s => (call + execute) * s.roundsLeft + call + close
  | executeTools, s => (call + execute) * s.roundsLeft + close
  | finalize, _ => close

/-- From one node to the next, with the merged states: the tools use a round up. -/
inductive ToolNode.Step : ToolNode → AgentGraphState → ToolNode → AgentGraphState → Prop
  | execute {s t : AgentGraphState} (hleft : t.roundsLeft = s.roundsLeft)
      (hsteps : t.steps.getD 0 < maxToolRounds) : Step .callLlm s .executeTools t
  | close {s t : AgentGraphState} : Step .callLlm s .finalize t
  | ask {s t : AgentGraphState} (hleft : t.roundsLeft + 1 = s.roundsLeft) :
      Step .executeTools s .callLlm t

theorem ToolNode.next_callLlm_ne_none (s : AgentGraphState) : ToolNode.next .callLlm s ≠ none := by
  rw [next]
  split <;> simp

/-- The potential pays for every step. -/
theorem ToolNode.Step.pays {n n' : ToolNode} {s t : AgentGraphState} (h : ToolNode.Step n s n' t)
    (call execute close : ℕ) :
    n.weight call execute close + n'.potential call execute close t ≤
      n.potential call execute close s := by
  cases h with
  | execute hleft hsteps =>
    simp only [weight, potential, hleft]
    omega
  | close =>
    simp only [weight, potential]
    omega
  | ask hleft =>
    simp only [weight, potential, ← hleft]
    rw [Nat.mul_add, Nat.mul_one]
    omega

/-! ## While a run is under way -/

/-- A request or a tool call. -/
def Event.OfLoop : Event → Prop
  | .asked .. => True
  | .called .. => True
  | _ => False

/-- A tool call that does not raise, or no tool call. -/
def Event.Quiet : Event → Prop
  | .called _ execution => execution.raises = false
  | _ => True

/-- Nothing is remembered or recorded from one world to a later one. -/
structure Unclosed (w v : World) : Prop where
  memory : v.memory = w.memory
  runs : v.runs = w.runs
  since : w.Since Event.OfLoop v

theorem Unclosed.refl (w : World) : Unclosed w w := ⟨rfl, rfl, World.Since.refl⟩

theorem Unclosed.trans {w v u : World} (h : Unclosed w v) (h' : Unclosed v u) : Unclosed w u :=
  ⟨h'.memory.trans h.memory, h'.runs.trans h.runs, h.since.trans h'.since⟩

section Nodes

variable {env : Env} {agent : Agent} {inp : AgentInput} {s : AgentGraphState} {w : World}

theorem calledEvents_ofLoop (tcs : List ToolCall) (xs : List Execution) :
    ∀ e ∈ calledEvents inp tcs xs, e.OfLoop := by
  induction tcs generalizing xs with
  | nil => simp
  | cons tc tcs ih =>
    cases xs with
    | nil => simp
    | cons x xs =>
      rw [calledEvents_cons]
      intro e he
      rcases List.mem_cons.1 he with rfl | he
      · trivial
      · exact ih xs e he

/-- The calls up to the first that raises are not all quiet. -/
theorem calledEvents_not_quiet {tcs : List ToolCall} {xs : List Execution}
    (hlength : xs.length = tcs.length) (h : ∃ x ∈ xs, x.raises = true) :
    ¬ ∀ e ∈ calledEvents inp tcs (upToRaise xs), e.Quiet := by
  induction xs generalizing tcs with
  | nil =>
    obtain ⟨x, hx, -⟩ := h
    cases hx
  | cons x xs ih =>
    cases tcs with
    | nil => cases hlength
    | cons tc tcs =>
      cases hx : x.raises with
      | true =>
        rw [upToRaise, if_pos hx, calledEvents_cons]
        intro hquiet
        have hfirst : x.raises = false := hquiet _ (List.mem_cons_self ..)
        rw [hx] at hfirst
        cases hfirst
      | false =>
        rw [upToRaise, hx, if_neg Bool.false_ne_true, calledEvents_cons]
        intro hquiet
        refine ih (Nat.succ.inj hlength) ?_ fun e he => hquiet e (List.mem_cons_of_mem _ he)
        obtain ⟨y, hy, hraises⟩ := h
        rcases List.mem_cons.1 hy with rfl | hy
        · rw [hx] at hraises
          cases hraises
        · exact ⟨y, hy, hraises⟩

/-- An exchange adds one request to the log. -/
theorem unclosed_exchange (env : Env) (agent : Agent) (inp : AgentInput) (w : World)
    (messages : List ChatMessage) :
    Unclosed w (w.withLog (exchange env agent inp messages w.log).2) := by
  refine ⟨rfl, rfl, _, exchange_log messages w.log, ?_⟩
  intro e he
  rw [List.mem_singleton.1 he]
  trivial

/-- What `callLlm` does: a guardrail or the provider raises, or the model has answered. -/
theorem act_callLlm_cases (env : Env) (agent : Agent) (hinput : s.input = some inp) (w : World) :
    (∃ e v, (toolGraph env agent).act .callLlm s w = (.error e, v) ∧
      (e.className = "GuardrailError" ∨ e.className = "RetryError") ∧ Unclosed w v) ∨
    ∃ response v, (toolGraph env agent).act .callLlm s w = (.ok (answerUpdate s response), v) ∧
      Unclosed w v := by
  cases hguard : env.guard.guardInput inp.message with
  | error e =>
    exact .inl ⟨e, w, act_callLlm_of_refused hinput hguard w,
      .inl (env.guard.className_of_guardInput hguard), Unclosed.refl w⟩
  | ok u =>
    have hact : (toolGraph env agent).act .callLlm s w = _ := act_callLlm hinput hguard w
    have hlogged := unclosed_exchange env agent inp w s.messages
    cases hx : exchange env agent inp s.messages w.log with
    | mk r log =>
      rw [hx] at hact hlogged
      cases r with
      | error e => exact .inl ⟨e, _, hact, className_of_exchange (congrArg Prod.fst hx), hlogged⟩
      | ok response =>
        exact .inr ⟨response, _, hact, ⟨hlogged.memory, hlogged.runs, hlogged.since⟩⟩

/-- What `executeTools` does: the calls have returned, or one of them has raised. -/
theorem act_executeTools_cases (env : Env) (agent : Agent) (hinput : s.input = some inp)
    (w : World) :
    (∃ v, (toolGraph env agent).act .executeTools s w = (.error .attributeError, v) ∧
      Unclosed w v ∧ ¬ w.Since Event.Quiet v) ∨
    ∃ settled v, (toolGraph env agent).act .executeTools s w =
      (.ok (toolsUpdate env s settled), v) ∧ Unclosed w v := by
  by_cases hquiet : ∀ x ∈ callAll env inp s.pending w.log, x.raises = false
  · refine .inr ⟨_, _, act_executeTools_of_quiet hinput hquiet, rfl, rfl, _, rfl, ?_⟩
    exact calledEvents_ofLoop _ _
  · have hraise : ∃ x ∈ callAll env inp s.pending w.log, x.raises = true := by
      simpa using hquiet
    refine .inl ⟨_, act_executeTools_of_raise hinput hraise, ⟨rfl, rfl, _, rfl, ?_⟩, ?_⟩
    · exact calledEvents_ofLoop _ _
    · intro h
      exact calledEvents_not_quiet (length_callAll _ _) hraise (h.of_log (List.prefix_refl _))

/-- How a run is closed: the turn is remembered, once, and the run is recorded, once, or else
the database does not take the row. -/
inductive ClosedOnce {α : Type} (env : Env) (agent : Agent) (inp : AgentInput) (w : World)
    (x : Except PyErr α × World) : Prop
  | recorded (events : List Event) (report : RunReport)
      (hcommit : env.commit w.runs.asked = true) (hreturned : ∃ a, x.1 = .ok a)
      (hevents : ∀ e ∈ events, e.OfLoop) (hinput : report.inp = inp)
      (hkey : report.agentKey = agent.key)
      (hlog : x.2.log = w.log ++ events ++
        [.remembered agent.key inp report.reply, .recorded report])
      (hmemory : x.2.memory =
        Function.update w.memory agent.key ((w.memory agent.key).append inp report.reply))
      (hruns : x.2.runs = w.runs.taken (report.row env.runtime))
  | refused (events : List Event) (reply : String)
      (hcommit : env.commit w.runs.asked = false) (hraised : x.1 = .error .operationalError)
      (hevents : ∀ e ∈ events, e.OfLoop)
      (hlog : x.2.log = w.log ++ events ++ [.remembered agent.key inp reply])
      (hmemory : x.2.memory =
        Function.update w.memory agent.key ((w.memory agent.key).append inp reply))
      (hruns : x.2.runs = w.runs.refused)

/-- `finalize` closes a run that is not closed. -/
theorem act_finalize_closes {v : World} (hinput : s.input = some inp) (hunclosed : Unclosed w v) :
    ClosedOnce env agent inp w ((toolGraph env agent).act .finalize s v) := by
  obtain ⟨events, hlog, hevents⟩ := hunclosed.since
  rw [act_finalize hinput, Agent.close_apply]
  by_cases hcommit : env.commit v.runs.asked = true
  · simp only [hcommit, if_true]
    rw [hunclosed.runs] at hcommit
    refine .recorded events (agent.report inp s.usedTools s.toolOutputs (s.reply.getD "") v)
      hcommit ⟨_, rfl⟩ hevents rfl rfl ?_ ?_ ?_
    · show v.log ++ [_] ++ [_] = _
      rw [hlog, List.append_assoc _ [_] [_]]
      rfl
    · show Function.update v.memory _ _ = _
      rw [hunclosed.memory]
      rfl
    · show v.runs.taken _ = _
      rw [hunclosed.runs]
      rfl
  · simp only [hcommit]
    rw [hunclosed.runs] at hcommit
    refine .refused events (s.reply.getD "") (Bool.eq_false_of_not_eq_true hcommit) rfl hevents
      ?_ ?_ ?_
    · show v.log ++ [_] = _
      rw [hlog]
    · show Function.update v.memory _ _ = _
      rw [hunclosed.memory]
    · show v.runs.refused = _
      rw [hunclosed.runs]

/-! ## A superstep -/

/-- The state and the world while a run is under way. -/
structure Working (inp : AgentInput) (w : World) (n : ToolNode) (s : AgentGraphState)
    (v : World) : Prop where
  input : s.input = some inp
  rounds : n = .executeTools → s.steps.getD 0 < maxToolRounds
  unclosed : Unclosed w v

/-- What a superstep that goes on does. -/
theorem Working.step {n n' : ToolNode} {u : AgentGraphState} {v v' : World}
    (h : Working inp w n s v) (hact : (toolGraph env agent).act n s v = (.ok u, v'))
    (hnext : (toolGraph env agent).next n ((toolGraph env agent).merge s u) = some n') :
    ToolNode.Step n s n' ((toolGraph env agent).merge s u) ∧
      Working inp w n' ((toolGraph env agent).merge s u) v' := by
  cases n with
  | callLlm =>
    rcases act_callLlm_cases env agent h.input v with
      ⟨e, v₁, he, -, -⟩ | ⟨response, v₁, hok, hunclosed⟩
    · rw [he] at hact
      cases hact
    · rw [hok] at hact
      cases hact
      by_cases hdone : (afterAnswer s response).pending = [] ∨ maxToolRounds ≤ s.steps.getD 0
      · rw [next_finalize hdone] at hnext
        cases hnext
        exact ⟨.close, h.input, nofun, h.unclosed.trans hunclosed⟩
      · push Not at hdone
        rw [next_executeTools hdone.1 hdone.2] at hnext
        cases hnext
        exact ⟨.execute rfl hdone.2, h.input, fun _ => hdone.2, h.unclosed.trans hunclosed⟩
  | executeTools =>
    rcases act_executeTools_cases env agent h.input v with
      ⟨v₁, he, -, -⟩ | ⟨settled, v₁, hok, hunclosed⟩
    · rw [he] at hact
      cases hact
    · rw [hok] at hact
      cases hact
      cases hnext
      refine ⟨.ask ?_, h.input, nofun, h.unclosed.trans hunclosed⟩
      have hrounds := h.rounds rfl
      show maxToolRounds - (s.steps.getD 0 + 1) + 1 = maxToolRounds - s.steps.getD 0
      omega
  | finalize => cases hnext

theorem kept_working : (toolGraph env agent).Kept (Working inp w) :=
  fun _ _ _ _ _ _ h hact hnext => (h.step hact hnext).2

/-- **The bound.** What the nodes of a run cost. -/
theorem trace_weight_le (call execute close limit : ℕ) {n : ToolNode} {v : World}
    (h : Working inp w n s v) :
    (((toolGraph env agent).trace limit n s v).map (ToolNode.weight call execute close)).sum ≤
      n.potential call execute close s := by
  refine trace_cost_le _ kept_working ?_ ?_ limit h
  · intro n s v h
    cases n with
    | callLlm => simp only [ToolNode.weight, ToolNode.potential]; omega
    | executeTools =>
      have hleft : 1 ≤ s.roundsLeft := Nat.sub_pos_of_lt (h.rounds rfl)
      calc execute
          _ ≤ (call + execute) * 1 := by omega
          _ ≤ (call + execute) * s.roundsLeft := Nat.mul_le_mul_left _ hleft
          _ ≤ _ := Nat.le_add_right _ _
    | finalize => exact le_refl _
  · intro n s v u v' n' h hact hnext
    exact (h.step hact hnext).1.pays call execute close

end Nodes

/-! ## A run -/

section Runs

variable (env : Env) (agent : Agent) (inp : AgentInput) (w : World)

/-- The nodes that act in a run of at most `limit` supersteps. -/
def Agent.nodesOf (limit : ℕ) : List ToolNode :=
  (toolGraph env agent).trace limit .callLlm
    (startState agent inp (w.checkpoints agent.key inp.correlationId) w) w

/-- A run within the bound: the nodes are few, the limit is not felt, and a run whose calls do
not raise is ended by a guardrail or the provider before anything is closed, or by the one
`finalize` that closes it. -/
structure HaltsInBound : Prop where
  tools : (agent.nodesOf env inp w LangGraph.recursionLimit).count .executeTools ≤ maxToolRounds
  requests : (agent.nodesOf env inp w LangGraph.recursionLimit).count .callLlm ≤ maxToolRounds + 1
  spare : (agent.nodesOf env inp w LangGraph.recursionLimit).length < LangGraph.recursionLimit
  unlimited : ∀ limit ≥ LangGraph.recursionLimit, LangGraph.finished agent inp
    ((toolGraph env agent).start limit (w.checkpoints agent.key inp.correlationId)
      (LangGraph.initial agent inp w) w) = agent.invokeGraph env inp w
  halts : (agent.invokeGraph env inp w).1 ≠ .error .graphRecursionError
  closes : w.Since Event.Quiet (agent.invokeGraph env inp w).2 →
    (∃ e, (agent.invokeGraph env inp w).1 = .error e ∧
      (e.className = "GuardrailError" ∨ e.className = "RetryError") ∧
      Unclosed w (agent.invokeGraph env inp w).2) ∨
    (∃ before, agent.nodesOf env inp w LangGraph.recursionLimit = before ++ [.finalize] ∧
      .finalize ∉ before) ∧ ClosedOnce env agent inp w (agent.invokeGraph env inp w)

variable {env agent inp w}

theorem working_start : Working inp w .callLlm
    (startState agent inp (w.checkpoints agent.key inp.correlationId) w) w :=
  ⟨startState_input, nofun, Unclosed.refl w⟩

section Counts

variable (env agent inp w)

/-- What a run costs, from the start. -/
theorem nodesOf_weight_le (call execute close limit : ℕ) :
    ((agent.nodesOf env inp w limit).map (ToolNode.weight call execute close)).sum ≤
      (call + execute) * maxToolRounds + call + close :=
  trace_weight_le call execute close limit working_start

theorem count_executeTools_le (limit : ℕ) :
    (agent.nodesOf env inp w limit).count .executeTools ≤ maxToolRounds := by
  simpa [sum_weight] using nodesOf_weight_le env agent inp w 0 1 0 limit

theorem count_callLlm_le (limit : ℕ) :
    (agent.nodesOf env inp w limit).count .callLlm ≤ maxToolRounds + 1 := by
  simpa [sum_weight] using nodesOf_weight_le env agent inp w 1 0 0 limit

theorem count_finalize_le (limit : ℕ) :
    (agent.nodesOf env inp w limit).count .finalize ≤ 1 := by
  simpa [sum_weight] using nodesOf_weight_le env agent inp w 0 0 1 limit

theorem length_nodesOf_le (limit : ℕ) :
    (agent.nodesOf env inp w limit).length ≤ 2 * maxToolRounds + 2 := by
  have hone : ToolNode.weight 1 1 1 = fun _ => 1 := by
    funext n
    cases n <;> rfl
  have hle := nodesOf_weight_le env agent inp w 1 1 1 limit
  simpa [hone] using hle

end Counts

/-- A run that is closed raises nothing but the refusal of the database. -/
theorem ClosedOnce.eq_of_raised {α : Type} {x : Except PyErr α × World} {e : PyErr}
    (h : ClosedOnce env agent inp w x) (he : x.1 = .error e) : e = .operationalError := by
  cases h with
  | recorded events report hcommit hreturned =>
    obtain ⟨a, ha⟩ := hreturned
    rw [he] at ha
    cases ha
  | refused events reply hcommit hraised =>
    rw [he] at hraised
    exact Except.error.inj hraised

/-- What closes at the node that acts last, closes the run. -/
theorem ClosedOnce.of_ends {n : ToolNode} {s : AgentGraphState} {v : World}
    {finish : Finish AgentGraphState World PyErr}
    (hclosed : ClosedOnce env agent inp w ((toolGraph env agent).act n s v))
    (hends : (toolGraph env agent).Ends n s v finish) :
    ClosedOnce env agent inp w (LangGraph.finished agent inp finish) := by
  cases hends with
  | raised hact =>
    rw [hact] at hclosed
    cases hclosed with
    | recorded events report hcommit hreturned =>
      obtain ⟨a, ha⟩ := hreturned
      cases ha
    | refused events reply hcommit hraised hevents hlog hmemory hruns =>
      cases hraised
      exact .refused events reply hcommit rfl hevents hlog hmemory hruns
  | returned hact hnext =>
    rw [hact] at hclosed
    cases hclosed with
    | recorded events report hcommit hreturned hevents hinput hkey hlog hmemory hruns =>
      exact .recorded events report hcommit ⟨_, rfl⟩ hevents hinput hkey hlog hmemory hruns
    | refused events reply hcommit hraised => cases hraised

/-- **How a run ends**, at the node that acts last. -/
theorem ends_of_working {n : ToolNode} {s : AgentGraphState} {v : World}
    {finish : Finish AgentGraphState World PyErr} (h : Working inp w n s v)
    (hends : (toolGraph env agent).Ends n s v finish) :
    (∃ e, (LangGraph.finished agent inp finish).1 = .error e ∧
      (e.className = "GuardrailError" ∨ e.className = "RetryError") ∧
      Unclosed w (LangGraph.finished agent inp finish).2) ∨
    ((LangGraph.finished agent inp finish).1 = .error .attributeError ∧
      ¬ w.Since Event.Quiet (LangGraph.finished agent inp finish).2) ∨
    n = .finalize ∧ ClosedOnce env agent inp w (LangGraph.finished agent inp finish) := by
  cases n with
  | callLlm =>
    cases hends with
    | raised hact =>
      rcases act_callLlm_cases env agent h.input v with
        ⟨e, v₁, he, hclass, hunclosed⟩ | ⟨response, v₁, hok, -⟩
      · rw [hact] at he
        cases he
        have hrun := h.unclosed.trans hunclosed
        exact .inl ⟨_, rfl, hclass, hrun.memory, hrun.runs, hrun.since⟩
      · rw [hact] at hok
        cases hok
    | returned hact hnext =>
      -- an edge leads on from here
      exact absurd hnext (ToolNode.next_callLlm_ne_none _)
  | executeTools =>
    cases hends with
    | raised hact =>
      rcases act_executeTools_cases env agent h.input v with
        ⟨v₁, he, hunclosed, hloud⟩ | ⟨settled, v₁, hok, -⟩
      · rw [hact] at he
        cases he
        exact .inr (.inl ⟨rfl, fun hquiet => hloud
          (World.Since.rest hquiet h.unclosed.since hunclosed.since)⟩)
      · rw [hact] at hok
        cases hok
    | returned hact hnext => cases hnext
  | finalize =>
    exact .inr (.inr ⟨rfl, (act_finalize_closes h.input h.unclosed).of_ends hends⟩)

/-- No run is ended by the limit. -/
theorem not_recursionError_of_working {n : ToolNode} {s : AgentGraphState} {v : World}
    {finish : Finish AgentGraphState World PyErr} (h : Working inp w n s v)
    (hends : (toolGraph env agent).Ends n s v finish) :
    (LangGraph.finished agent inp finish).1 ≠ .error .graphRecursionError := by
  intro hlimit
  rcases ends_of_working h hends with ⟨e, he, hclass, -⟩ | ⟨he, -⟩ | ⟨-, hclosed⟩
  · obtain rfl : e = .graphRecursionError := Except.error.inj (he.symm.trans hlimit)
    rcases hclass with hclass | hclass <;> exact absurd hclass (by decide)
  · cases he.symm.trans hlimit
  · cases hclosed.eq_of_raised hlimit

/-- **Every run halts within its bound**, whatever the model answers, whatever the tools return
and whatever the thread has saved. -/
theorem toolGraph_halts (env : Env) (agent : Agent) (inp : AgentInput) (w : World) :
    HaltsInBound env agent inp w := by
  have hspare : (agent.nodesOf env inp w (LangGraph.recursionLimit + 1)).length ≤
      LangGraph.recursionLimit := (length_nodesOf_le env agent inp w _).trans (by decide)
  obtain ⟨before, n, s, v, htrace, hworking, hends, hmore⟩ :=
    steps_last _ kept_working LangGraph.recursionLimit working_start hspare
  refine ⟨count_executeTools_le env agent inp w _, count_callLlm_le env agent inp w _, ?_,
    fun limit hlimit => ?_, not_recursionError_of_working hworking hends, ?_⟩
  · exact (length_nodesOf_le env agent inp w _).trans_lt (by decide)
  · obtain ⟨k, rfl⟩ := Nat.exists_eq_add_of_le hlimit
    rw [invokeGraph_apply, ← hmore k]
    rfl
  · intro hquiet
    rcases ends_of_working hworking hends with hraised | ⟨-, hnot⟩ | ⟨rfl, hclosed⟩
    · exact .inl hraised
    · exact absurd hquiet hnot
    · have hone := count_finalize_le env agent inp w LangGraph.recursionLimit
      refine .inr ⟨⟨before, htrace, ?_⟩, hclosed⟩
      rw [Agent.nodesOf, htrace, List.count_append, List.count_singleton_self] at hone
      exact List.count_eq_zero.1 (by omega)

end Runs

end AgentPlatform
