import AgentPlatform.Graph.Delegation

/-!
# What a run leaves to the next

A compiled graph lives as long as the process, and its threads are named by
correlation ids that a client may choose.  A later run on the same thread finds
what an earlier one has saved there: the conversation of a specialist is among it.

* `GoesOnAlike`, `Beside` — worlds in which the model, the tools and the database answer
  alike, and the runs from them.
* `invokeGraph_checkpoints`, `supervisor_checkpoints` — what a run saves, and where.
* `Isolated` — a run goes as if the run before had not been.
* `isolated_iff` — **when it does**, for specialists and for the supervisor.
-/

namespace AgentPlatform

open StateGraph

/-! ## Worlds side by side -/

/-- What the graphs have saved, by agent and thread. -/
abbrev Checkpoints := String → String → AgentGraphState

/-- The same world with other checkpoints. -/
def World.withCheckpoints (w : World) (checkpoints : Checkpoints) : World := { w with checkpoints }

/-- Whatever is asked, called and written from here on, the model, the tools and the
database answer alike. -/
structure GoesOnAlike (env : Env) (w v : World) : Prop where
  complete : ∀ requests, env.complete (requestsIn v.log ++ requests) =
    env.complete (requestsIn w.log ++ requests)
  execute : ∀ calls, env.execute (invocationsIn v.log ++ calls) =
    env.execute (invocationsIn w.log ++ calls)
  commit : ∀ n, env.commit (v.runs.asked + n) = env.commit (w.runs.asked + n)

/-- From `w₀` to `w` and from `v₀` to `v`, the same was asked and called, and the database was
asked to take as many rows. -/
structure Beside (env : Env) (w₀ v₀ w v : World) : Prop where
  alike : GoesOnAlike env w₀ v₀
  requests : ∃ requests, requestsIn w.log = requestsIn w₀.log ++ requests ∧
    requestsIn v.log = requestsIn v₀.log ++ requests
  calls : ∃ calls, invocationsIn w.log = invocationsIn w₀.log ++ calls ∧
    invocationsIn v.log = invocationsIn v₀.log ++ calls
  rows : ∃ n, w.runs.asked = w₀.runs.asked + n ∧ v.runs.asked = v₀.runs.asked + n

section Beside

variable {env : Env} {agent : Agent} {inp : AgentInput} {w₀ v₀ w v : World}

theorem GoesOnAlike.withCheckpoints (c : Checkpoints) :
    GoesOnAlike env w (w.withCheckpoints c) :=
  ⟨fun _ => rfl, fun _ => rfl, fun _ => rfl⟩

theorem Beside.start (h : GoesOnAlike env w₀ v₀) : Beside env w₀ v₀ w₀ v₀ :=
  ⟨h, ⟨[], by simp, by simp⟩, ⟨[], by simp, by simp⟩, ⟨0, rfl, rfl⟩⟩

/-- On both sides, an event that asks and calls the same. -/
theorem Beside.push (h : Beside env w₀ v₀ w v) {e e' : Event} (hrequest : e'.request? = e.request?)
    (hcall : e'.invocation? = e.invocation?) : Beside env w₀ v₀ (w.push e) (v.push e') := by
  obtain ⟨requests, hw, hv⟩ := h.requests
  obtain ⟨calls, hw', hv'⟩ := h.calls
  have hrequests : requestsIn [e'] = requestsIn [e] := by
    simp only [requestsIn, List.filterMap_cons, hrequest]
  have hcalls : invocationsIn [e'] = invocationsIn [e] := by
    simp only [invocationsIn, List.filterMap_cons, hcall]
  refine ⟨h.alike, ⟨requests ++ requestsIn [e], ?_, ?_⟩, ⟨calls ++ invocationsIn [e], ?_, ?_⟩,
    h.rows⟩
  · show requestsIn (w.log ++ [e]) = _
    rw [requestsIn_append, hw, List.append_assoc]
  · show requestsIn (v.log ++ [e']) = _
    rw [requestsIn_append, hv, hrequests, List.append_assoc]
  · show invocationsIn (w.log ++ [e]) = _
    rw [invocationsIn_append, hw', List.append_assoc]
  · show invocationsIn (v.log ++ [e']) = _
    rw [invocationsIn_append, hv', hcalls, List.append_assoc]

/-! ### The operations of a run -/

theorem channel_beside {α : Type} (key : String) (a : Option α) :
    Respects (Beside env w₀ v₀) (channel key a) := by
  cases a with
  | none => exact Respects.raise _
  | some a => exact Respects.pure _

theorem ask_beside (request : LLMRequest) : Respects (Beside env w₀ v₀) (env.ask request) := by
  intro w v h
  have hanswer : env.answer v.log request = env.answer w.log request := by
    obtain ⟨requests, hw, hv⟩ := h.requests
    rw [Env.answer, Env.answer, hw, hv, List.append_assoc, List.append_assoc, h.alike.complete]
  unfold Env.ask
  rw [hanswer]
  cases env.answer w.log request with
  | none => exact ⟨rfl, h.push rfl rfl⟩
  | some response => exact ⟨rfl, h.push rfl rfl⟩

theorem callTool_beside (invocation : ToolInvocation) :
    Respects (Beside env w₀ v₀) (env.callTool invocation) := by
  intro w v h
  have hexecute : env.execute (invocationsIn v.log) = env.execute (invocationsIn w.log) := by
    obtain ⟨calls, hw, hv⟩ := h.calls
    rw [hw, hv, h.alike.execute]
  refine ⟨?_, h.push rfl rfl⟩
  show Except.ok (env.execute (invocationsIn w.log) invocation) = .ok (env.execute _ invocation)
  rw [hexecute]

theorem remember_beside (agentKey : String) (inp : AgentInput) (reply : String) :
    Respects (Beside env w₀ v₀) (Env.remember agentKey inp reply) := by
  intro w v h
  refine ⟨rfl, Beside.push (w := { w with memory := _ }) (v := { v with memory := _ }) ?_ rfl rfl⟩
  exact ⟨h.alike, h.requests, h.calls, h.rows⟩

theorem recordTokens_beside (agentKey : String) (usage : Usage) :
    Respects (Beside env w₀ v₀) (Env.recordTokens agentKey usage) :=
  fun _ _ h => ⟨rfl, h.alike, h.requests, h.calls, h.rows⟩

/-- The reports may differ, in the token counts. -/
theorem recordAgentRun_beside (h : Beside env w₀ v₀ w v) (report report' : RunReport) :
    (env.recordAgentRun report w).1 = (env.recordAgentRun report' v).1 ∧
      Beside env w₀ v₀ (env.recordAgentRun report w).2 (env.recordAgentRun report' v).2 := by
  obtain ⟨n, hw, hv⟩ := h.rows
  have hcommit : env.commit v.runs.asked = env.commit w.runs.asked := by
    rw [hw, hv, h.alike.commit]
  unfold Env.recordAgentRun
  rw [hcommit]
  have hrows : ∃ n, w.runs.asked + 1 = w₀.runs.asked + n ∧ v.runs.asked + 1 = v₀.runs.asked + n :=
    ⟨n + 1, by rw [hw, Nat.add_assoc], by rw [hv, Nat.add_assoc]⟩
  cases env.commit w.runs.asked with
  | false => exact ⟨rfl, h.alike, h.requests, h.calls, hrows⟩
  | true =>
    refine ⟨rfl, Beside.push (w := { w with runs := _ }) (v := { v with runs := _ }) ?_ rfl rfl⟩
    exact ⟨h.alike, h.requests, h.calls, hrows⟩

theorem persistRun_beside (agent : Agent) (inp : AgentInput) (used : List String)
    (outputs : List ToolOutput) (reply : String) :
    Respects (Beside env w₀ v₀) (agent.persistRun env inp used outputs reply) :=
  fun _ _ h => recordAgentRun_beside h _ _

theorem askModel_beside (agent : Agent) (inp : AgentInput) (messages : List ChatMessage) :
    Respects (Beside env w₀ v₀) (agent.askModel env inp messages) := by
  refine Respects.bind (ask_beside _) fun response => ?_
  exact Respects.bind (Respects.ofExcept _) fun _ => Respects.pure _

/-! ### The graph of a specialist -/

theorem graphCallTools_beside (inp : AgentInput) (tcs : List ToolCall) :
    Respects (Beside env w₀ v₀) (ToolNode.callTools env inp tcs) := by
  induction tcs with
  | nil => exact Respects.pure _
  | cons tc tcs ih =>
    refine Respects.bind (callTool_beside _) fun execution => ?_
    cases execution.toExcept with
    | error e => exact Respects.raise _
    | ok result => exact Respects.bind ih fun _ => Respects.pure _

theorem toolAct_beside (agent : Agent) (n : ToolNode) (s : AgentGraphState) :
    Respects (Beside env w₀ v₀) (ToolNode.act env agent n s) := by
  cases n with
  | callLlm =>
    refine Respects.bind (channel_beside _ _) fun inp => ?_
    refine Respects.bind (Respects.ofExcept _) fun _ => ?_
    refine Respects.bind (askModel_beside _ _ _) fun response => ?_
    exact Respects.bind (recordTokens_beside _ _) fun _ => Respects.pure _
  | executeTools =>
    refine Respects.bind (channel_beside _ _) fun inp => ?_
    exact Respects.bind (graphCallTools_beside _ _) fun _ => Respects.pure _
  | finalize =>
    refine Respects.bind (channel_beside _ _) fun inp => ?_
    refine Respects.bind (remember_beside _ _ _) fun _ => ?_
    exact Respects.bind (persistRun_beside _ _ _ _ _) fun _ => Respects.pure _

/-- A specialist's graph reads the caller's conversation and its own thread. -/
theorem invokeGraph_beside (h : Beside env w₀ v₀ w v)
    (hopening : agent.opening inp v = agent.opening inp w)
    (hthread : v.checkpoints agent.key inp.correlationId =
      w.checkpoints agent.key inp.correlationId) :
    (agent.invokeGraph env inp w).1 = (agent.invokeGraph env inp v).1 ∧
      Beside env w₀ v₀ (agent.invokeGraph env inp w).2 (agent.invokeGraph env inp v).2 := by
  have hstart : startState agent inp (v.checkpoints agent.key inp.correlationId) v =
      startState agent inp (w.checkpoints agent.key inp.correlationId) w := by
    simp only [startState, LangGraph.initial, hthread, hopening]
  obtain ⟨houtcome, -, hworld⟩ := (toolGraph env agent).steps_respects
    (fun n s => toolAct_beside agent n s) LangGraph.recursionLimit .callLlm
    (startState agent inp (w.checkpoints agent.key inp.correlationId) w) h
  rw [invokeGraph_apply, invokeGraph_apply, hstart]
  refine ⟨?_, hworld.alike, hworld.requests, hworld.calls, hworld.rows⟩
  simp only [LangGraph.finished, houtcome]

/-! ### The loop of a specialist -/

theorem callTools_beside (inp : AgentInput) (tcs : List ToolCall) :
    Respects (Beside env w₀ v₀) (Agent.callTools env inp tcs) := by
  induction tcs with
  | nil => exact Respects.pure _
  | cons tc tcs ih =>
    exact Respects.bind (callTool_beside _) fun _ => Respects.bind ih fun _ => Respects.pure _

theorem rounds_beside (agent : Agent) (inp : AgentInput) (n : ℕ) (messages : List ChatMessage)
    (used : List String) (outputs : List ToolOutput) :
    Respects (Beside env w₀ v₀) (agent.rounds env inp n messages used outputs) := by
  induction n generalizing messages used outputs with
  | zero => exact Respects.pure _
  | succ n ih =>
    refine Respects.bind (askModel_beside agent inp messages) fun response => ?_
    cases response.toolCalls.isEmpty with
    | true => exact Respects.bind (recordTokens_beside _ _) fun _ => Respects.pure _
    | false => exact Respects.bind (callTools_beside inp _) fun _ => ih _ _ _

/-- The loop reads the caller's conversation, and the token counts for its result. -/
theorem invoke_beside (h : Beside env w₀ v₀ w v)
    (hopening : agent.opening inp v = agent.opening inp w) :
    (agent.invoke env inp w).1.map AgentResult.uncounted =
        (agent.invoke env inp v).1.map AgentResult.uncounted ∧
      Beside env w₀ v₀ (agent.invoke env inp w).2 (agent.invoke env inp v).2 := by
  cases hguard : env.guard.guardInput inp.message with
  | error e =>
    rw [Agent.invoke_of_refused hguard, Agent.invoke_of_refused hguard]
    exact ⟨rfl, h⟩
  | ok u =>
    have hinvoke : ∀ w, agent.invoke env inp w = _ := fun w =>
      (Effect.bind_of_ok (by rw [hguard]; rfl) _).trans (Effect.bind_of_ok rfl _)
    rw [hinvoke, hinvoke, hopening]
    refine RespectsUpTo.bind (rounds_beside agent inp _ _ _ _) (fun e => ?_) w v h
    refine RespectsUpTo.bind (remember_beside _ _ _) fun _ => ?_
    refine RespectsUpTo.bind (persistRun_beside _ _ _ _ _) fun _ => ?_
    exact fun _ _ h => ⟨rfl, h⟩

/-- Composing the answer. -/
theorem compose_beside (s : AgentGraphState) :
    Respects (Beside env w₀ v₀) (SupervisorNode.composeNode env s) := by
  refine Respects.bind (channel_beside _ _) fun inp => ?_
  refine Respects.bind (ask_beside _) fun response => ?_
  refine Respects.bind (Respects.ofExcept _) fun _ => ?_
  refine Respects.bind (recordTokens_beside _ _) fun _ => ?_
  refine Respects.bind (persistRun_beside _ _ _ _ _) fun _ => ?_
  exact Respects.bind (remember_beside _ _ _) fun _ => Respects.pure _

end Beside

/-! ## What a run saves -/

section Saves

variable {env : Env} {agent : Agent} {inp : AgentInput} {w : World}

/-- No operation of a run writes a checkpoint. -/
theorem operationsKeep_checkpoints (env : Env) (agent : Agent) (c : Checkpoints)
    (inp : AgentInput) : agent.OperationsKeep env inp fun w => w.checkpoints = c where
  ask request w hw := by
    unfold Env.ask
    cases env.answer w.log request with
    | none => exact hw
    | some response => exact hw
  call _ _ hw := hw
  tokens _ _ hw := hw
  remember _ _ hw := hw
  record report w hw := by
    unfold Env.recordAgentRun
    cases env.commit w.runs.asked with
    | true => exact hw
    | false => exact hw

theorem save_self (agentKey threadId : String) (s : AgentGraphState) (w : World) :
    (LangGraph.save agentKey threadId s w).checkpoints agentKey threadId = s := by
  simp only [LangGraph.save, Function.update_self]

theorem save_of_ne {agentKey threadId key thread : String}
    (h : key ≠ agentKey ∨ thread ≠ threadId) (s : AgentGraphState) (w : World) :
    (LangGraph.save agentKey threadId s w).checkpoints key thread = w.checkpoints key thread := by
  show Function.update w.checkpoints agentKey _ key thread = _
  by_cases hkey : key = agentKey
  · subst hkey
    rw [Function.update_self, Function.update_of_ne (h.resolve_left (by simp))]
  · rw [Function.update_of_ne hkey]

/-- A specialist's graph writes its own thread only. -/
theorem invokeGraph_checkpoints {key thread : String}
    (h : key ≠ agent.key ∨ thread ≠ inp.correlationId) (w : World) :
    (agent.invokeGraph env inp w).2.checkpoints key thread = w.checkpoints key thread := by
  have hworld : ((toolGraph env agent).steps LangGraph.recursionLimit .callLlm
      (startState agent inp (w.checkpoints agent.key inp.correlationId) w) w).world.checkpoints =
        w.checkpoints :=
    steps_world (toolGraph env agent) (R := fun w w' => w'.checkpoints = w.checkpoints)
      (fun _ => rfl) (fun _ _ _ h h' => h'.trans h)
      (fun n s w =>
        ToolNode.act_keeps (operationsKeep_checkpoints env agent w.checkpoints) n s w rfl)
      _ _ _ w
  rw [invokeGraph_apply]
  exact (save_of_ne h _ _).trans (congrFun₂ hworld key thread)

/-- A run leaves its thread a longer conversation than it found. -/
theorem length_messages_lt (env : Env) (agent : Agent) (inp : AgentInput) (w : World) :
    (w.checkpoints agent.key inp.correlationId).messages.length <
      ((agent.invokeGraph env inp w).2.checkpoints
        agent.key inp.correlationId).messages.length := by
  let s := startState agent inp (w.checkpoints agent.key inp.correlationId) w
  have hsaved : s.messages <+:
      ((toolGraph env agent).steps LangGraph.recursionLimit .callLlm s w).saved.messages := by
    refine (toolGraph env agent).steps_saved (P := fun t => s.messages <+: t.messages) ?_ _ _ w
      (List.prefix_refl _)
    intro n t w u ht _
    exact ht.trans (List.prefix_append _ _)
  have hlength := hsaved.length_le
  rw [show (agent.invokeGraph env inp w).2.checkpoints agent.key inp.correlationId =
    ((toolGraph env agent).steps LangGraph.recursionLimit .callLlm s w).saved from
      save_self _ _ _ _]
  have hstart : s.messages.length = (w.checkpoints agent.key inp.correlationId).messages.length +
      (agent.opening inp w).length := by
    simp [s]
  have hopening : 0 < (agent.opening inp w).length := by
    rw [Agent.opening, List.length_cons]
    omega
  omega

end Saves

/-! ## What a run finds -/

section Finds

variable {env : Env} {agent : Agent} {inp : AgentInput} {w : World} {c : Checkpoints}

theorem requestsIn_mono {l l' : List Event} (h : l <+: l') : requestsIn l <+: requestsIn l' := by
  obtain ⟨rest, rfl⟩ := h
  rw [requestsIn_append]
  exact List.prefix_append _ _

theorem requestsIn_asked (request : LLMRequest) (answer : Option LLMResponse) :
    requestsIn [.asked request answer] = [request] := rfl

/-- The first request of a run carries everything its thread has saved. -/
theorem invokeGraph_first_request (agent : Agent)
    (hguard : env.guard.guardInput inp.message = .ok ()) (w : World) :
    ∃ answer, w.log ++ [.asked (agent.request env inp
        ((w.checkpoints agent.key inp.correlationId).messages ++ agent.opening inp w)) answer] <+:
      (agent.invokeGraph env inp w).2.log := by
  let s := startState agent inp (w.checkpoints agent.key inp.correlationId) w
  have hprefix : ((toolGraph env agent).act .callLlm s w).2.log <+:
      ((toolGraph env agent).steps (24 + 1) .callLlm s w).world.log :=
    steps_after_first (toolGraph env agent) (R := fun w w' => w.log <+: w'.log)
      (fun _ => List.prefix_refl _) (fun _ _ _ h h' => h.trans h')
      (fun n s w => act_keeps_log n s w (List.prefix_refl _)) 24 .callLlm s w
  have hlog : ((toolGraph env agent).act .callLlm s w).2.log =
      (exchange env agent inp s.messages w.log).2 := by
    have hinput : s.input = some inp := startState_input
    rw [act_callLlm hinput hguard]
    cases exchange env agent inp s.messages w.log with
    | mk r log => cases r <;> rfl
  rw [hlog, exchange_log] at hprefix
  exact ⟨_, hprefix⟩

/-- Two runs whose threads have saved conversations of different lengths ask differently. -/
theorem requests_ne (hguard : env.guard.guardInput inp.message = .ok ())
    (hlength : (w.checkpoints agent.key inp.correlationId).messages.length ≠
      (c agent.key inp.correlationId).messages.length) {l l' : List Event}
    (hl : (agent.invokeGraph env inp w).2.log <+: l)
    (hl' : (agent.invokeGraph env inp (w.withCheckpoints c)).2.log <+: l') :
    requestsIn l ≠ requestsIn l' := by
  intro heq
  obtain ⟨answer, hw⟩ := invokeGraph_first_request agent hguard w
  obtain ⟨answer', hv⟩ := invokeGraph_first_request agent hguard (w.withCheckpoints c)
  have hreq := requestsIn_mono (hw.trans hl)
  have hreq' := requestsIn_mono (hv.trans hl')
  rw [requestsIn_append, requestsIn_asked] at hreq hreq'
  rw [← heq] at hreq'
  -- the first requests stand at one place of one list
  have hplace := List.prefix_of_prefix_length_le hreq hreq' (by simp [World.withCheckpoints])
  have hsame := hplace.eq_of_length (by simp [World.withCheckpoints])
  have hrequest := List.singleton_inj.1 (List.append_cancel_left hsame)
  have hmessages := List.append_cancel_right (congrArg LLMRequest.messages hrequest)
  exact hlength (congrArg List.length hmessages)

end Finds

/-! ## Isolation -/

/-- From `w` and from `v`, two runs end alike, after the same requests and the same tool
calls. -/
structure SameObservations (w v : World) (x y : Except PyErr AgentResult × World) : Prop where
  result : x.1 = y.1
  requests : ∃ requests, requestsIn x.2.log = requestsIn w.log ++ requests ∧
    requestsIn y.2.log = requestsIn v.log ++ requests
  calls : ∃ calls, invocationsIn x.2.log = invocationsIn w.log ++ calls ∧
    invocationsIn y.2.log = invocationsIn v.log ++ calls

/-- A world `v` a caller may find instead of `w₁`, had the run from `w` to `w₁` not been:
the threads are as they were, the caller has its own conversations, and the model, the
tools and the database answer alike.  The conversations of others, the token counts, the
table of runs and the log may be any. -/
structure WithoutRun (env : Env) (inp : AgentInput) (w w₁ v : World) : Prop where
  checkpoints : v.checkpoints = w.checkpoints
  conversation : ∀ agentKey,
    (v.memory agentKey).getShortTerm inp = (w₁.memory agentKey).getShortTerm inp
  alike : GoesOnAlike env w₁ v

/-- The second run goes as if the first had not been. -/
def Isolated (env : Env) (run : AgentInput → Run AgentResult) (first second : AgentInput)
    (w : World) : Prop :=
  ∀ v, WithoutRun env second w (run first w).2 v →
    SameObservations (run first w).2 v (run second (run first w).2) (run second v)

section Isolation

variable {env : Env} {first second : AgentInput} {w w₁ v : World}

theorem WithoutRun.opening (h : WithoutRun env second w w₁ v) (agent : Agent) :
    agent.opening second v = agent.opening second w₁ := by
  rw [Agent.opening, Agent.opening, h.conversation]

theorem SameObservations.of_beside {x y : Except PyErr AgentResult × World} (hresult : x.1 = y.1)
    (h : Beside env w v x.2 y.2) : SameObservations w v x y :=
  ⟨hresult, h.requests, h.calls⟩

/-- In particular, the second run asks what it would ask on the old threads. -/
theorem Isolated.requests_eq {run : AgentInput → Run AgentResult}
    (h : Isolated env run first second w) :
    requestsIn (run second (run first w).2).2.log =
      requestsIn (run second ((run first w).2.withCheckpoints w.checkpoints)).2.log := by
  obtain ⟨requests, hw, hv⟩ := (h ((run first w).2.withCheckpoints w.checkpoints)
    ⟨rfl, fun _ => rfl, GoesOnAlike.withCheckpoints _⟩).requests
  exact hw.trans hv.symm

/-- A run of a specialist is isolated from the one before unless it is on its thread. -/
theorem specialist_isolated_iff (agent : Agent) (first second : AgentInput) :
    Isolated env (agent.invokeGraph env) first second w ↔
      first.correlationId ≠ second.correlationId ∨
        env.guard.detectPromptInjection second.message = true := by
  constructor
  · intro h
    by_contra hnot
    push Not at hnot
    obtain ⟨hthread, hclean⟩ := hnot
    have hguard := env.guard.guardInput_of_not_injection (by simpa using hclean)
    have hlength := length_messages_lt env agent first w
    rw [hthread] at hlength
    exact requests_ne hguard hlength.ne' (List.prefix_refl _) (List.prefix_refl _) h.requests_eq
  · rintro (hthread | hinjection) v hv
    · have hsaved : v.checkpoints agent.key second.correlationId =
          (agent.invokeGraph env first w).2.checkpoints agent.key second.correlationId := by
        rw [hv.checkpoints, invokeGraph_checkpoints (Or.inr (Ne.symm hthread))]
      obtain ⟨hresult, hworlds⟩ :=
        invokeGraph_beside (Beside.start hv.alike) (hv.opening agent) hsaved
      exact SameObservations.of_beside hresult hworlds
    · have hguard := env.guard.guardInput_of_injection hinjection
      rw [invokeGraph_of_refused hguard, invokeGraph_of_refused hguard]
      exact ⟨rfl, ⟨[], by simp [LangGraph.finished, LangGraph.save],
        by simp [LangGraph.finished, LangGraph.save]⟩,
        ⟨[], by simp [LangGraph.finished, LangGraph.save],
          by simp [LangGraph.finished, LangGraph.save]⟩⟩

end Isolation

/-! ## The supervisor -/

/-- Two states that differ in the conversation and the pending calls only, which no node
of the supervisor reads. -/
def AgentGraphState.Like (s t : AgentGraphState) : Prop :=
  ∃ messages calls, t = { s with messages := messages, pendingToolCalls := calls }

section Supervisor

variable {env : Env} {reg : AgentRegistry} {inp : AgentInput} {w₀ v₀ w v : World}

theorem AgentGraphState.Like.merge {s t : AgentGraphState} (h : s.Like t) (u : AgentGraphState) :
    (s.merge u).Like (t.merge u) := by
  obtain ⟨messages, calls, rfl⟩ := h
  exact ⟨_, _, rfl⟩

/-- The supervisor starts on a thread as on any that has noted the same tools. -/
theorem startState_like {s t : AgentGraphState} (hused : s.usedTools = t.usedTools)
    (houtputs : s.toolOutputs = t.toolOutputs) (w v : World) :
    (startState supervisorAgent inp s w).Like (startState supervisorAgent inp t v) := by
  refine ⟨(startState supervisorAgent inp t v).messages,
    (startState supervisorAgent inp t v).pendingToolCalls, ?_⟩
  simp [startState, AgentGraphState.merge, LangGraph.initial, hused, houtputs]

/-- What the supervisor reads of the result of a specialist, in two worlds. -/
def DelegatesAlike (env : Env) (inp : AgentInput) (w₀ v₀ w v : World) (agent : Agent) : Prop :=
  (agent.invokeResolved env inp w).1.map AgentResult.uncounted =
      (agent.invokeResolved env inp v).1.map AgentResult.uncounted ∧
    Beside env w₀ v₀ (agent.invokeResolved env inp w).2 (agent.invokeResolved env inp v).2

theorem invokeResolved_beside {agent : Agent} (h : Beside env w₀ v₀ w v)
    (hopening : agent.opening inp v = agent.opening inp w)
    (hthread : env.settings.agentOrchestrator = .langgraph →
      v.checkpoints agent.key inp.correlationId = w.checkpoints agent.key inp.correlationId) :
    DelegatesAlike env inp w₀ v₀ w v agent := by
  unfold DelegatesAlike Agent.invokeResolved
  cases horchestrator : env.settings.agentOrchestrator with
  | classic => exact invoke_beside h hopening
  | langgraph =>
    obtain ⟨hresult, hworlds⟩ := invokeGraph_beside h hopening (hthread horchestrator)
    exact ⟨congrArg _ hresult, hworlds⟩

/-- The answer is composed alike from such states. -/
theorem composed_like {s t : AgentGraphState} (h : s.Like t) (hworlds : Beside env w₀ v₀ w v) :
    let f := composed s (SupervisorNode.composeNode env s w)
    let f' := composed t (SupervisorNode.composeNode env t v)
    f.outcome.map LangGraph.result = f'.outcome.map LangGraph.result ∧
      Beside env w₀ v₀ f.world f'.world := by
  obtain ⟨messages, calls, rfl⟩ := h
  obtain ⟨hupdate, hlast⟩ := compose_beside s w v hworlds
  have hread : SupervisorNode.composeNode env
      { s with messages := messages, pendingToolCalls := calls } =
        SupervisorNode.composeNode env s := rfl
  rw [hread]
  cases hx : SupervisorNode.composeNode env s w with
  | mk r w' =>
    cases hy : SupervisorNode.composeNode env s v with
    | mk r' v' =>
      rw [hx, hy] at hupdate hlast
      obtain rfl : r = r' := hupdate
      cases r with
      | error e => exact ⟨rfl, hlast⟩
      | ok u => exact ⟨rfl, hlast⟩

theorem delegationUpdate_uncounted (specialist : Agent) (result : AgentResult) :
    delegationUpdate specialist result.uncounted = delegationUpdate specialist result := rfl

/-- The states after a delegation are alike: the supervisor does not read the token counts of the
specialist. -/
theorem delegatedState_like {s t : AgentGraphState} (hlike : s.Like t) {specialist : Agent}
    {result result' : AgentResult} (h : result.uncounted = result'.uncounted) :
    (delegatedState env reg inp s specialist result).Like
      (delegatedState env reg inp t specialist result') := by
  have hupdate : delegationUpdate specialist result = delegationUpdate specialist result' := by
    rw [← delegationUpdate_uncounted, h, delegationUpdate_uncounted]
  rw [delegatedState, delegatedState, hupdate]
  exact (hlike.merge _).merge _

/-- The supersteps of the supervisor, from states that differ in what it does not read. -/
theorem steps_like {s t : AgentGraphState} (hlike : s.Like t) (hinput : s.input = some inp)
    (h : Beside env w₀ v₀ w v) (L : ℕ)
    (hspecialist : ∀ agent,
      reg.getAgent (reg.specialistKey env.runtime inp.message) = some agent →
        env.guard.guardInput inp.message = .ok () → DelegatesAlike env inp w₀ v₀ w v agent) :
    let f := (supervisorGraph env reg).steps (L + 3) .route s w
    let f' := (supervisorGraph env reg).steps (L + 3) .route t v
    f.outcome.map LangGraph.result = f'.outcome.map LangGraph.result ∧
      Beside env w₀ v₀ f.world f'.world := by
  have hinput' : t.input = some inp := by
    obtain ⟨messages, calls, rfl⟩ := hlike
    exact hinput
  cases hguard : env.guard.guardInput inp.message with
  | error e =>
    rw [steps_route_of_refused hinput hguard, steps_route_of_refused hinput' hguard]
    exact ⟨rfl, h⟩
  | ok u =>
    cases hagent : reg.getAgent (reg.specialistKey env.runtime inp.message) with
    | none =>
      rw [steps_unregistered (L := L + 1) hinput hguard hagent,
        steps_unregistered (L := L + 1) hinput' hguard hagent]
      exact ⟨rfl, h⟩
    | some specialist =>
      rw [steps_delegation hinput hguard hagent, steps_delegation hinput' hguard hagent]
      obtain ⟨hresult, hworlds⟩ := hspecialist specialist hagent hguard
      cases hx : specialist.invokeResolved env inp w with
      | mk r w' =>
        cases hy : specialist.invokeResolved env inp v with
        | mk r' v' =>
          rw [hx, hy] at hresult hworlds
          cases r with
          | error e =>
            cases r' with
            | ok result' => cases hresult
            | error e' =>
              obtain rfl : e = e' := Except.error.inj hresult
              exact ⟨rfl, hworlds⟩
          | ok result =>
            cases r' with
            | error e' => cases hresult
            | ok result' =>
              exact composed_like (delegatedState_like hlike (Except.ok.inj hresult)) hworlds

theorem finished_result (agent : Agent) (inp : AgentInput)
    (f : Finish AgentGraphState World PyErr) :
    (LangGraph.finished agent inp f).1 = f.outcome.map LangGraph.result := by
  unfold LangGraph.finished
  cases f.outcome <;> rfl

/-- The supervisor's graph reads, of its own thread, the noted tools only, and what its
specialist reads. -/
theorem supervisor_beside (h : Beside env w₀ v₀ w v)
    (hused : (w.checkpoints supervisorAgent.key inp.correlationId).usedTools =
      (v.checkpoints supervisorAgent.key inp.correlationId).usedTools)
    (houtputs : (w.checkpoints supervisorAgent.key inp.correlationId).toolOutputs =
      (v.checkpoints supervisorAgent.key inp.correlationId).toolOutputs)
    (hspecialist : ∀ agent,
      reg.getAgent (reg.specialistKey env.runtime inp.message) = some agent →
        env.guard.guardInput inp.message = .ok () → DelegatesAlike env inp w₀ v₀ w v agent) :
    (Supervisor.invokeGraph env reg inp w).1 = (Supervisor.invokeGraph env reg inp v).1 ∧
      Beside env w₀ v₀ (Supervisor.invokeGraph env reg inp w).2
        (Supervisor.invokeGraph env reg inp v).2 := by
  obtain ⟨houtcome, hworlds⟩ :=
    steps_like (startState_like hused houtputs w v) startState_input h 22 hspecialist
  rw [Supervisor.invokeGraph_apply, Supervisor.invokeGraph_apply, finished_result,
    finished_result]
  exact ⟨houtcome, hworlds.alike, hworlds.requests, hworlds.calls, hworlds.rows⟩

/-! ### What the supervisor leaves -/

/-- The supervisor notes no tools of its own. -/
theorem supervisorAct_ensures (n : SupervisorNode) (s : AgentGraphState) :
    Ensures (fun _ => True) (SupervisorNode.act env reg n s)
      fun u => u.usedTools = [] ∧ u.toolOutputs = [] := by
  have any : ∀ {α : Type} (x : Run α), Ensures (fun _ => True) x fun _ => True :=
    fun x => Ensures.of_keeps fun _ _ => trivial
  cases n with
  | route =>
    refine Ensures.bind (any _) fun inp _ => ?_
    exact Ensures.bind (any _) fun _ _ => Ensures.pure ⟨rfl, rfl⟩
  | invokeSpecialist =>
    refine Ensures.bind (any _) fun inp _ => ?_
    refine Ensures.bind (any _) fun key _ => ?_
    cases reg.getAgent key with
    | none => exact Ensures.raise _
    | some specialist => exact Ensures.bind (any _) fun result _ => Ensures.pure ⟨rfl, rfl⟩
  | compose =>
    refine Ensures.bind (any _) fun inp _ => ?_
    refine Ensures.bind (any _) fun response _ => ?_
    refine Ensures.bind (any _) fun _ _ => ?_
    refine Ensures.bind (any _) fun _ _ => ?_
    refine Ensures.bind (any _) fun _ _ => ?_
    exact Ensures.bind (any _) fun _ _ => Ensures.pure ⟨rfl, rfl⟩

/-- Its thread notes the tools it noted before. -/
theorem supervisor_noted (reg : AgentRegistry) (inp : AgentInput) (w : World) :
    let saved := w.checkpoints supervisorAgent.key inp.correlationId
    let saved' := (Supervisor.invokeGraph env reg inp w).2.checkpoints supervisorAgent.key
      inp.correlationId
    saved'.usedTools = saved.usedTools ∧ saved'.toolOutputs = saved.toolOutputs := by
  intro saved saved'
  have hsteps := (supervisorGraph env reg).steps_saved
    (P := fun t => t.usedTools = saved.usedTools ∧ t.toolOutputs = saved.toolOutputs)
    (fun n s w u hs hu => by
      obtain ⟨⟨hused, houtputs⟩, -⟩ :=
        Triple.of_ok (supervisorAct_ensures n s) trivial (Prod.ext hu rfl)
      refine ⟨?_, ?_⟩
      · show s.usedTools ++ u.usedTools = _
        rw [hused, hs.1, List.append_nil]
      · show s.toolOutputs ++ u.toolOutputs = _
        rw [houtputs, hs.2, List.append_nil])
    LangGraph.recursionLimit .route (s := startState supervisorAgent inp saved w) w
    ⟨List.append_nil _, List.append_nil _⟩
  have hsaved : saved' = ((supervisorGraph env reg).steps LangGraph.recursionLimit .route
      (startState supervisorAgent inp saved w) w).saved := save_self _ _ _ _
  rw [hsaved]
  exact hsteps

/-- Beside its own thread, the supervisor leaves the checkpoints its specialist leaves; the
log goes on from there. -/
theorem supervisor_world {specialist : Agent} (hguard : env.guard.guardInput inp.message = .ok ())
    (hagent : reg.getAgent (reg.specialistKey env.runtime inp.message) = some specialist)
    (w : World) :
    (∀ key thread, key ≠ supervisorAgent.key ∨ thread ≠ inp.correlationId →
      (Supervisor.invokeGraph env reg inp w).2.checkpoints key thread =
        (specialist.invokeResolved env inp w).2.checkpoints key thread) ∧
      (specialist.invokeResolved env inp w).2.log <+:
        (Supervisor.invokeGraph env reg inp w).2.log := by
  rw [Supervisor.invokeGraph_apply, show LangGraph.recursionLimit = 22 + 3 from rfl,
    steps_delegation startState_input hguard hagent]
  cases hx : specialist.invokeResolved env inp w with
  | mk r w' =>
    cases r with
    | error e => exact ⟨fun key thread h => save_of_ne h _ _, List.prefix_refl _⟩
    | ok result =>
      simp only [LangGraph.finished, composed_world]
      refine ⟨fun key thread h => ?_, ?_⟩
      · rw [save_of_ne h]
        exact congrFun₂ (SupervisorNode.compose_keeps
          (operationsKeep_checkpoints env supervisorAgent w'.checkpoints) _ w' rfl) key thread
      · exact SupervisorNode.compose_keeps
          (fun inp => Agent.operationsKeep_log env supervisorAgent inp w'.log) _ w'
          (List.prefix_refl _)

/-- Without a specialist to run, the supervisor writes its own thread only. -/
theorem supervisor_checkpoints_of_unstaffed
    (h : env.guard.detectPromptInjection inp.message = true ∨
      reg.getAgent (reg.specialistKey env.runtime inp.message) = none) {key thread : String}
    (hentry : key ≠ supervisorAgent.key ∨ thread ≠ inp.correlationId) (w : World) :
    (Supervisor.invokeGraph env reg inp w).2.checkpoints key thread = w.checkpoints key thread := by
  cases hinjection : env.guard.detectPromptInjection inp.message with
  | true =>
    rw [Supervisor.invokeGraph_of_refused (env.guard.guardInput_of_injection hinjection)]
    exact save_of_ne hentry _ _
  | false =>
    have hguard := env.guard.guardInput_of_not_injection hinjection
    have hagent := h.resolve_left (by simp [hinjection])
    rw [Supervisor.invokeGraph_apply, show LangGraph.recursionLimit = 23 + 2 from rfl,
      steps_unregistered startState_input hguard hagent]
    exact save_of_ne hentry _ _

theorem invokeResolved_checkpoints {agent : Agent} {key thread : String}
    (h : env.settings.agentOrchestrator = .classic ∨ key ≠ agent.key ∨
      thread ≠ inp.correlationId) (w : World) :
    (agent.invokeResolved env inp w).2.checkpoints key thread = w.checkpoints key thread := by
  unfold Agent.invokeResolved
  cases horchestrator : env.settings.agentOrchestrator with
  | classic =>
    have hkeeps := (operationsKeep_checkpoints env agent w.checkpoints inp).loop.run
    exact congrFun₂ (hkeeps.invoke w rfl) _ _
  | langgraph => exact invokeGraph_checkpoints (h.resolve_left (by simp [horchestrator])) w

/-- What the supervisor writes: its own thread, and a thread of its specialist. -/
theorem supervisor_checkpoints {key thread : String}
    (hentry : key ≠ supervisorAgent.key ∨ thread ≠ inp.correlationId)
    (h : ∀ specialist, env.guard.detectPromptInjection inp.message = false →
      reg.getAgent (reg.specialistKey env.runtime inp.message) = some specialist →
        env.settings.agentOrchestrator = .classic ∨ key ≠ specialist.key ∨
          thread ≠ inp.correlationId) (w : World) :
    (Supervisor.invokeGraph env reg inp w).2.checkpoints key thread = w.checkpoints key thread := by
  cases hinjection : env.guard.detectPromptInjection inp.message with
  | true => exact supervisor_checkpoints_of_unstaffed (Or.inl hinjection) hentry w
  | false =>
    cases hagent : reg.getAgent (reg.specialistKey env.runtime inp.message) with
    | none => exact supervisor_checkpoints_of_unstaffed (Or.inr hagent) hentry w
    | some specialist =>
      have hguard := env.guard.guardInput_of_not_injection hinjection
      rw [(supervisor_world hguard hagent w).1 key thread hentry]
      exact invokeResolved_checkpoints (h specialist hinjection hagent) w

/-! ### When its runs are isolated -/

/-- Two requests that are delegated to the same graph of a specialist, on one thread. -/
structure MeetOnThread (env : Env) (reg : AgentRegistry) (first second : AgentInput) : Prop where
  langgraph : env.settings.agentOrchestrator = .langgraph
  thread : first.correlationId = second.correlationId
  specialist : reg.specialistKey env.runtime first.message =
    reg.specialistKey env.runtime second.message
  registered : reg.getAgent (reg.specialistKey env.runtime second.message) ≠ none
  accepted_first : env.guard.detectPromptInjection first.message = false
  accepted_second : env.guard.detectPromptInjection second.message = false

/-- The key of a specialist is not the supervisor's. -/
theorem key_ne_of_getAgent {message : String} {agent : Agent}
    (h : reg.getAgent (reg.specialistKey env.runtime message) = some agent) :
    agent.key ≠ supervisorAgent.key := by
  rw [(AgentRegistry.getAgent_mem h).2]
  exact AgentRegistry.specialistKey_ne _ _

/-- Where they do not meet, the second finds the thread of its specialist as it was. -/
theorem thread_of_not_meet {first second : AgentInput} (hmeet : ¬ MeetOnThread env reg first second)
    (hlanggraph : env.settings.agentOrchestrator = .langgraph)
    (hsecond : env.guard.detectPromptInjection second.message = false) {agent : Agent}
    (hagent : reg.getAgent (reg.specialistKey env.runtime second.message) = some agent)
    (w : World) :
    (Supervisor.invokeGraph env reg first w).2.checkpoints agent.key second.correlationId =
      w.checkpoints agent.key second.correlationId := by
  refine supervisor_checkpoints (Or.inl (key_ne_of_getAgent hagent)) ?_ w
  intro specialist hfirst hspecialist
  apply Or.inr
  by_contra hsame
  push Not at hsame
  obtain ⟨hkey, hthread⟩ := hsame
  have hkeys : reg.specialistKey env.runtime first.message =
      reg.specialistKey env.runtime second.message := by
    rw [← (AgentRegistry.getAgent_mem hspecialist).2, ← (AgentRegistry.getAgent_mem hagent).2, hkey]
  exact hmeet ⟨hlanggraph, hthread.symm, hkeys, by simp [hagent], hfirst, hsecond⟩

/-- The second finds the tools noted on the thread of the supervisor as they were. -/
theorem noted_after (env : Env) (reg : AgentRegistry) (first : AgentInput) (thread : String)
    (w : World) :
    let saved := w.checkpoints supervisorAgent.key thread
    let saved' := (Supervisor.invokeGraph env reg first w).2.checkpoints supervisorAgent.key thread
    saved'.usedTools = saved.usedTools ∧ saved'.toolOutputs = saved.toolOutputs := by
  intro saved saved'
  by_cases hthread : thread = first.correlationId
  · subst hthread
    exact supervisor_noted reg first w
  · have hsaved : saved' = saved := by
      refine supervisor_checkpoints (Or.inr hthread) ?_ w
      exact fun specialist _ hspecialist => Or.inr (Or.inr hthread)
    rw [hsaved]
    exact ⟨rfl, rfl⟩

/-- A run of the supervisor is isolated from the one before unless their specialists meet
on a thread. -/
theorem supervisor_isolated_iff (reg : AgentRegistry) (first second : AgentInput) :
    Isolated env (Supervisor.invokeGraph env reg) first second w ↔
      ¬ MeetOnThread env reg first second := by
  constructor
  · intro h hmeet
    obtain ⟨specialist, hagent⟩ := Option.ne_none_iff_exists'.1 hmeet.registered
    have hfirst := env.guard.guardInput_of_not_injection hmeet.accepted_first
    have hsecond := env.guard.guardInput_of_not_injection hmeet.accepted_second
    have hresolved : ∀ inp, specialist.invokeResolved env inp = specialist.invokeGraph env inp := by
      intro inp
      rw [Agent.invokeResolved, hmeet.langgraph]
    -- the thread of the specialist has grown in between
    have hlength := length_messages_lt env specialist first w
    rw [← hresolved, ← (supervisor_world hfirst (by rw [hmeet.specialist]; exact hagent) w).1 _ _
      (Or.inl (key_ne_of_getAgent hagent)), hmeet.thread] at hlength
    refine requests_ne hsecond hlength.ne' ?_ ?_ h.requests_eq
    · rw [← hresolved]
      exact (supervisor_world hsecond hagent _).2
    · rw [← hresolved]
      exact (supervisor_world hsecond hagent _).2
  · intro hmeet v hv
    obtain ⟨hused, houtputs⟩ := noted_after env reg first second.correlationId w
    rw [← hv.checkpoints] at hused houtputs
    have hdelegates : ∀ agent,
        reg.getAgent (reg.specialistKey env.runtime second.message) = some agent →
          env.guard.guardInput second.message = .ok () →
            DelegatesAlike env second (Supervisor.invokeGraph env reg first w).2 v
              (Supervisor.invokeGraph env reg first w).2 v agent := by
      intro agent hagent hguard
      refine invokeResolved_beside (Beside.start hv.alike) (hv.opening agent) fun hlanggraph => ?_
      have hsecond := env.guard.guardInput_eq_ok_iff.1 hguard
      rw [hv.checkpoints, thread_of_not_meet hmeet hlanggraph hsecond hagent]
    obtain ⟨hresult, hworlds⟩ :=
      supervisor_beside (Beside.start hv.alike) hused houtputs hdelegates
    exact SameObservations.of_beside hresult hworlds

end Supervisor

/-- **When runs are isolated.**  A run of a specialist's graph goes as if the one before had
not been if and only if it is on another thread, or its message is refused; a run of the
supervisor's, if and only if the two are not delegated to the graph of one specialist on
one thread.  Who asks does not matter. -/
theorem isolated_iff (env : Env) (first second : AgentInput) (w : World) :
    (∀ agent : Agent, Isolated env (agent.invokeGraph env) first second w ↔
      first.correlationId ≠ second.correlationId ∨
        env.guard.detectPromptInjection second.message = true) ∧
      ∀ reg : AgentRegistry, Isolated env (Supervisor.invokeGraph env reg) first second w ↔
        ¬ MeetOnThread env reg first second :=
  ⟨fun agent => specialist_isolated_iff agent first second,
    fun reg => supervisor_isolated_iff reg first second⟩

/-- Another customer, of another tenant, under the same correlation id. -/
def strangerInput : AgentInput :=
  { demoInput with
    tenantId := "t2"
    userId := "cust_1002"
    conversationId := some "conv2"
    resourceOwnerId := some "cust_1002" }

/-- A stranger's run under the same correlation id is not isolated from a customer's. -/
theorem not_isolated_same_correlation_id :
    ¬ Isolated (demoEnv fun _ => some (replies "Done."))
      (customerSupportAgent.invokeGraph (demoEnv fun _ => some (replies "Done.")))
      demoInput strangerInput World.initial := by
  rw [specialist_isolated_iff]
  decide

end AgentPlatform
