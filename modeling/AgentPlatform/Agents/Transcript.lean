import AgentPlatform.Graph.Refinement

/-!
# The transcript of a run

The responses of the model to one run, each with what became of its tool calls, fix everything
else: what the model was asked in which order, which tools were called with which context, what
the result lists of them, and the reply.

* `callsOf`, `executionsOf`, `saidBy` — the tool calls of responses, what became of them, and the
  text of the first response without tool calls.
* `loopLog` — what a loop with these responses leaves in the log.
* `LoopTranscript`, `rounds_transcript` — the loop has such a transcript.
* `Transcript`, `invoke_transcript` — **the transcript of a run is faithful**.
-/

namespace AgentPlatform

/-! ## What responses say -/

/-- The tool calls of responses, in order. -/
def callsOf (rs : List Round) : List ToolCall := rs.flatMap fun r => r.response.toolCalls

/-- What became of the tool calls, in order. -/
def executionsOf (rs : List Round) : List Execution := rs.flatMap Round.executions

/-- The text of the first response without tool calls; without one it is empty. -/
def saidBy : List Round → String
  | [] => ""
  | r :: rs => if r.response.toolCalls = [] then r.response.text else saidBy rs

/-- What a result lists of a tool call: an exception counts as a failure without data. -/
def outputOf (tc : ToolCall) (x : Execution) : ToolOutput :=
  match x.toExcept with
  | .ok result => ⟨tc.name, result.ok, result.data⟩
  | .error _ => ⟨tc.name, false, []⟩

/-- The message a tool call becomes. -/
def toolMessage (rt : PyRuntime) (tc : ToolCall) (x : Execution) : ChatMessage :=
  ⟨.tool, rt.repr (.obj (outputOf tc x).data), none⟩

/-- The messages the tool calls of responses become, one for each. -/
def toolMessages (rt : PyRuntime) (rs : List Round) : List ChatMessage :=
  List.zipWith (toolMessage rt) (callsOf rs) (executionsOf rs)

/-- Every call of the response has come to something. -/
def Round.Complete (r : Round) : Prop := r.executions.length = r.response.toolCalls.length

@[simp] theorem callsOf_cons (r : Round) (rs : List Round) :
    callsOf (r :: rs) = r.response.toolCalls ++ callsOf rs := rfl

@[simp] theorem executionsOf_cons (r : Round) (rs : List Round) :
    executionsOf (r :: rs) = r.executions ++ executionsOf rs := rfl

section Settled

variable (rt : PyRuntime)

theorem Settled.output_eq (tc : ToolCall) (x : Execution) :
    (⟨tc, x.settle rt⟩ : Settled).output = outputOf tc x := by
  unfold Settled.output Execution.settle outputOf
  cases x.toExcept <;> rfl

theorem Settled.message_eq (tc : ToolCall) (x : Execution) :
    (⟨tc, x.settle rt⟩ : Settled).message rt = toolMessage rt tc x := by
  unfold Settled.message Execution.settle toolMessage outputOf
  cases x.toExcept <;> rfl

theorem Round.settled_map_output (r : Round) :
    (r.settled rt).map Settled.output =
      List.zipWith outputOf r.response.toolCalls r.executions := by
  rw [Round.settled, List.map_zipWith]
  simp only [Settled.output_eq]

theorem Round.messages_eq (r : Round) :
    r.messages rt = List.zipWith (toolMessage rt) r.response.toolCalls r.executions := by
  rw [Round.messages, Round.settled, List.map_zipWith]
  simp only [Settled.message_eq]

variable {rt}

theorem Round.settled_map_name {r : Round} (h : r.Complete) :
    (r.settled rt).map Settled.name = r.response.toolCalls.map ToolCall.name := by
  calc (r.settled rt).map Settled.name
      = (r.response.toolCalls.zip r.executions).map fun p => p.1.name := by
        rw [Round.settled, List.map_zipWith, List.map_zip_eq_zipWith]
        rfl
    _ = ((r.response.toolCalls.zip r.executions).map Prod.fst).map ToolCall.name := by
        rw [List.map_map]
        rfl
    _ = r.response.toolCalls.map ToolCall.name := by rw [List.map_fst_zip h.ge]

theorem toolMessages_cons {r : Round} (h : r.Complete) (rs : List Round) :
    toolMessages rt (r :: rs) = r.messages rt ++ toolMessages rt rs := by
  rw [toolMessages, callsOf_cons, executionsOf_cons, List.zipWith_append h.symm, r.messages_eq]
  rfl

end Settled

/-! ## What a loop leaves -/

section Loop

variable (env : Env) (agent : Agent) (inp : AgentInput)

/-- What a loop with these responses leaves in the log: each request, with the messages so far,
and after it the tool calls of its response. -/
def loopLog : List ChatMessage → List Round → List Event
  | _, [] => []
  | messages, r :: rs =>
    .asked (agent.request env inp messages) (some r.response) ::
      (calledEvents inp r.response.toolCalls r.executions ++
        loopLog (messages ++ r.messages env.runtime) rs)

/-- The responses a loop of at most `n` rounds got, and what it made of them. -/
structure LoopTranscript (n : ℕ) (messages : List ChatMessage) (w : World) (e : LoopEnd)
    (v : World) (rs : List Round) : Prop where
  few : rs.length ≤ n
  complete : ∀ r ∈ rs, r.Complete
  goesOn : ∀ r ∈ rs.dropLast, r.response.toolCalls ≠ []
  stops : (∀ r ∈ rs, r.response.toolCalls ≠ []) → rs.length = n
  log : v.log = w.log ++ loopLog env agent inp messages rs
  usedTools : e.usedTools = (callsOf rs).map ToolCall.name
  toolOutputs : e.toolOutputs = List.zipWith outputOf (callsOf rs) (executionsOf rs)
  reply : e.reply = saidBy rs

end Loop

section Rounds

variable {env : Env} {agent : Agent} {inp : AgentInput}

/-- **A round more.**  The loop goes on with the messages of the round. -/
theorem LoopTranscript.cons {n : ℕ} {messages : List ChatMessage} {w w' v : World} {r : Round}
    {e : LoopEnd} {rs : List Round} (hcomplete : r.Complete) (hcalls : r.response.toolCalls ≠ [])
    (hlog : w'.log = w.log ++ .asked (agent.request env inp messages) (some r.response) ::
      calledEvents inp r.response.toolCalls r.executions)
    (h : LoopTranscript env agent inp n (messages ++ r.messages env.runtime) w' e v rs) :
    LoopTranscript env agent inp (n + 1) messages w
      ⟨e.reply, (r.settled env.runtime).map Settled.name ++ e.usedTools,
        (r.settled env.runtime).map Settled.output ++ e.toolOutputs⟩ v (r :: rs) where
  few := Nat.succ_le_succ h.few
  complete := List.forall_mem_cons.2 ⟨hcomplete, h.complete⟩
  goesOn := by
    cases rs with
    | nil => simp
    | cons s rs => exact List.forall_mem_cons.2 ⟨hcalls, h.goesOn⟩
  stops hall := congrArg Nat.succ (h.stops (List.forall_mem_cons.1 hall).2)
  log := by
    rw [h.log, hlog, loopLog, List.append_assoc, List.cons_append]
  usedTools := by
    rw [r.settled_map_name hcomplete, h.usedTools, callsOf_cons, List.map_append]
  toolOutputs := by
    rw [r.settled_map_output, h.toolOutputs, callsOf_cons, executionsOf_cons,
      List.zipWith_append hcomplete.symm]
  reply := by
    rw [saidBy, if_neg hcalls, h.reply]

/-- What a loop has gathered before comes first. -/
theorem rounds_prepend (n : ℕ) (messages : List ChatMessage) (used : List String)
    (outputs : List ToolOutput) (w : World) :
    agent.rounds env inp n messages used outputs w =
      ((agent.rounds env inp n messages [] [] w).1.map fun e =>
        ⟨e.reply, used ++ e.usedTools, outputs ++ e.toolOutputs⟩,
        (agent.rounds env inp n messages [] [] w).2) := by
  rw [Agent.rounds_eq, Agent.rounds_eq]
  dsimp only
  split
  · simp [Except.map]
  · split <;> simp [Except.map]

/-- The round a response opens. -/
def openedBy (env : Env) (agent : Agent) (inp : AgentInput) (messages : List ChatMessage)
    (w : World) (response : LLMResponse) : Round :=
  roundOf env inp response
    (w.log ++ [.asked (agent.request env inp messages) (some response)])

/-- The world after the round a response opens. -/
def worldAfter (env : Env) (agent : Agent) (inp : AgentInput) (messages : List ChatMessage)
    (w : World) (r : Round) : World :=
  w.withLog (w.log ++ .asked (agent.request env inp messages) (some r.response) ::
    calledEvents inp r.response.toolCalls r.executions)

theorem openedBy_complete (messages : List ChatMessage) (w : World) (response : LLMResponse) :
    (openedBy env agent inp messages w response).Complete :=
  length_callAll response.toolCalls _

/-- A response with tool calls: they are executed, and the loop goes on. -/
theorem rounds_of_calls {n : ℕ} {messages : List ChatMessage} {w : World}
    {response : LLMResponse} (hx : (exchange env agent inp messages w.log).1 = .ok response)
    (hcalls : response.toolCalls ≠ []) :
    let r := openedBy env agent inp messages w response
    let rest := agent.rounds env inp n (messages ++ r.messages env.runtime) [] []
      (worldAfter env agent inp messages w r)
    agent.rounds env inp (n + 1) messages [] [] w =
      (rest.1.map fun e => ⟨e.reply, (r.settled env.runtime).map Settled.name ++ e.usedTools,
        (r.settled env.runtime).map Settled.output ++ e.toolOutputs⟩, rest.2) := by
  have hne : response.toolCalls.isEmpty = false := by simpa using hcalls
  rw [Agent.rounds, Effect.bind_apply, askModel_apply, hx, exchange_log, (exchange_eq_ok hx).1]
  dsimp only
  rw [hne]
  simp only [Bool.false_eq_true, if_false, Effect.bind_apply, callTools_apply]
  rw [rounds_prepend]
  simp only [World.withLog, List.append_assoc, List.nil_append, List.singleton_append]
  rfl

/-- A response without tool calls stops the loop. -/
theorem rounds_of_no_calls {n : ℕ} {messages : List ChatMessage} {w : World}
    {response : LLMResponse} (hx : (exchange env agent inp messages w.log).1 = .ok response)
    (hcalls : response.toolCalls = []) :
    agent.rounds env inp (n + 1) messages [] [] w = (.ok ⟨response.text, [], []⟩,
      { w.withLog (w.log ++ [.asked (agent.request env inp messages) (some response)]) with
        lastUsage := Function.update w.lastUsage agent.key response.usage }) := by
  rw [Agent.rounds, Effect.bind_apply, askModel_apply, hx, exchange_log, (exchange_eq_ok hx).1]
  dsimp only
  rw [hcalls, List.isEmpty_nil, if_pos rfl]
  rfl

/-- **The loop has a transcript**, if it comes to its end. -/
theorem rounds_transcript (n : ℕ) (messages : List ChatMessage) (w : World) {e : LoopEnd}
    {v : World} (h : agent.rounds env inp n messages [] [] w = (.ok e, v)) :
    ∃ rs, LoopTranscript env agent inp n messages w e v rs := by
  induction n generalizing messages w e v with
  | zero =>
    obtain ⟨he, rfl⟩ := Prod.mk.inj h
    obtain rfl := Except.ok.inj he
    exact ⟨[], ⟨le_rfl, by simp, by simp, fun _ => rfl, by simp [loopLog], rfl, rfl, rfl⟩⟩
  | succ n ih =>
    cases hx : (exchange env agent inp messages w.log).1 with
    | error err =>
      rw [Agent.rounds, Effect.bind_apply, askModel_apply, hx] at h
      cases (Prod.mk.inj h).1
    | ok response =>
      by_cases hcalls : response.toolCalls = []
      · rw [rounds_of_no_calls hx hcalls] at h
        obtain ⟨he, rfl⟩ := Prod.mk.inj h
        obtain rfl := Except.ok.inj he
        refine ⟨[⟨response, []⟩], ⟨by simp, ?_, by simp, ?_, ?_, ?_, ?_, ?_⟩⟩
        · simp [Round.Complete, hcalls]
        · intro hall
          exact absurd hcalls (hall _ (List.mem_singleton_self _))
        · simp [loopLog, hcalls]
        · simp [callsOf, hcalls]
        · simp [callsOf, hcalls]
        · simp [saidBy, hcalls]
      · rw [rounds_of_calls hx hcalls] at h
        set r := openedBy env agent inp messages w response
        cases hrest : agent.rounds env inp n (messages ++ r.messages env.runtime) [] []
            (worldAfter env agent inp messages w r) with
        | mk res v' =>
          rw [hrest] at h
          obtain ⟨hres, rfl⟩ := Prod.mk.inj h
          cases res with
          | error err => cases hres
          | ok e' =>
            obtain rfl := Except.ok.inj hres
            obtain ⟨rs, hrs⟩ := ih _ _ hrest
            exact ⟨r :: rs, hrs.cons (openedBy_complete messages w response) hcalls rfl⟩

/-! ## What was asked and what was called -/

/-- The messages of a request are those of the opening, and one for each tool call before. -/
theorem requestsIn_loopLog (messages : List ChatMessage) {rs : List Round}
    (h : ∀ r ∈ rs, r.Complete) : requestsIn (loopLog env agent inp messages rs) =
      (List.range rs.length).map fun j =>
        agent.request env inp (messages ++ toolMessages env.runtime (rs.take j)) := by
  induction rs generalizing messages with
  | nil => rfl
  | cons r rs ih =>
    obtain ⟨hr, hrs⟩ := List.forall_mem_cons.1 h
    have hrest : requestsIn (loopLog env agent inp messages (r :: rs)) =
        agent.request env inp messages ::
          requestsIn (loopLog env agent inp (messages ++ r.messages env.runtime) rs) := by
      rw [loopLog, requestsIn, List.filterMap_cons_some (by rfl), ← requestsIn,
        requestsIn_append, requestsIn_calledEvents, List.nil_append]
    rw [hrest, ih _ hrs, List.length_cons, List.range_succ_eq_map, List.map_cons, List.map_map]
    congr 1
    · simp [toolMessages, callsOf]
    · refine List.map_congr_left fun j _ => ?_
      rw [Function.comp_apply, List.take_succ_cons, toolMessages_cons hr, List.append_assoc]

theorem invocationsIn_calledEvents {tcs : List ToolCall} {xs : List Execution}
    (h : xs.length = tcs.length) :
    invocationsIn (calledEvents inp tcs xs) = tcs.map inp.invocation := by
  induction tcs generalizing xs with
  | nil => rfl
  | cons tc tcs ih =>
    cases xs with
    | nil => cases h
    | cons x xs =>
      rw [calledEvents_cons, invocationsIn, List.filterMap_cons_some (by rfl), ← invocationsIn,
        ih (Nat.succ.inj h), List.map_cons]

/-- Each tool call is made once, in order, in the name of the caller. -/
theorem invocationsIn_loopLog (messages : List ChatMessage) {rs : List Round}
    (h : ∀ r ∈ rs, r.Complete) : invocationsIn (loopLog env agent inp messages rs) =
      (callsOf rs).map inp.invocation := by
  induction rs generalizing messages with
  | nil => rfl
  | cons r rs ih =>
    obtain ⟨hr, hrs⟩ := List.forall_mem_cons.1 h
    rw [loopLog, invocationsIn, List.filterMap_cons_none (by rfl), ← invocationsIn,
      invocationsIn_append, invocationsIn_calledEvents hr, ih _ hrs, callsOf_cons, List.map_append]

end Rounds

/-! ## The transcript of a run -/

/-- The responses to a run, each with what became of its tool calls, and what they fix: how many
there are, which tools were called, what the model was asked, and what the run returns. -/
structure Transcript (env : Env) (agent : Agent) (inp : AgentInput) (w : World)
    (x : Except PyErr AgentResult × World) (rs : List Round) : Prop where
  few : rs.length ≤ 6
  complete : ∀ r ∈ rs, r.executions.length = r.response.toolCalls.length
  /-- Only the last response is without tool calls. -/
  goesOn : ∀ r ∈ rs.dropLast, r.response.toolCalls ≠ []
  /-- If every response asks for tools, all the rounds were used. -/
  stops : (∀ r ∈ rs, r.response.toolCalls ≠ []) → rs.length = 6
  /-- The requests, the responses and the tool calls, in order; no others come after them. -/
  log : ∃ rest, x.2.log = w.log ++ loopLog env agent inp (agent.opening inp w) rs ++ rest ∧
    requestsIn rest = [] ∧ invocationsIn rest = []
  requests : requestsIn (loopLog env agent inp (agent.opening inp w) rs) =
    (List.range rs.length).map fun j => agent.request env inp
      ([⟨.system, agent.systemPrompt, none⟩] ++ (w.memory agent.key).getShortTerm inp ++
        [⟨.user, inp.message, none⟩] ++ toolMessages env.runtime (rs.take j))
  history : ((w.memory agent.key).getShortTerm inp).length ≤ 10
  invocations : invocationsIn (loopLog env agent inp (agent.opening inp w) rs) =
    (callsOf rs).map fun tc => ⟨tc.name, ⟨inp.tenantId, inp.userId, inp.roles, inp.correlationId,
      inp.resourceOwnerId⟩, tc.arguments⟩
  result : ∀ result, x.1 = .ok result →
    result.usedTools = (callsOf rs).map ToolCall.name ∧
    result.toolOutputs = List.zipWith outputOf (callsOf rs) (executionsOf rs) ∧
    result.reply = if saidBy rs = "" then fallbackReply else saidBy rs

theorem length_getShortTerm_le (m : AgentMemory) (inp : AgentInput) :
    (m.getShortTerm inp).length ≤ 10 := by
  unfold AgentMemory.getShortTerm
  split
  · simp
  · split
    · simp
    · rw [takeLast, List.length_drop]
      omega

/-- A loop that does not come to its end was stopped by a guardrail or by the provider. -/
theorem className_of_rounds {env : Env} {agent : Agent} {inp : AgentInput} {n : ℕ}
    {messages : List ChatMessage} {w v : World} {e : PyErr}
    (h : agent.rounds env inp n messages [] [] w = (.error e, v)) :
    e.className = "GuardrailError" ∨ e.className = "RetryError" := by
  rw [Agent.rounds_eq] at h
  dsimp only at h
  split at h
  · cases (Prod.mk.inj h).1
  · split at h
    · next hx =>
      obtain rfl := Except.error.inj (Prod.mk.inj h).1
      exact className_of_exchange (congrArg Prod.fst hx)
    · cases (Prod.mk.inj h).1

/-- **The transcript of a run is faithful.**  A run that no guardrail and no error of the provider
stops has a transcript: six responses at most, of which only the last can be without tool calls;
each tool call of them made once, in order, in the name of the caller; the result lists these, and
the reply is the text of the response that stopped the loop, or the fallback. -/
theorem invoke_transcript (env : Env) (agent : Agent) (inp : AgentInput) (w : World)
    (h : ∀ e, (agent.invoke env inp w).1 = .error e → e = .operationalError) :
    ∃ rs, Transcript env agent inp w (agent.invoke env inp w) rs := by
  cases hguard : env.guard.guardInput inp.message with
  | error e =>
    rw [Agent.invoke_of_refused hguard] at h
    obtain rfl := h e rfl
    unfold Guardrails.guardInput at hguard
    split at hguard <;> cases hguard
  | ok u =>
    cases hrounds : agent.rounds env inp maxToolRounds (agent.opening inp w) [] [] w with
    | mk res v =>
      cases res with
      | error e =>
        have hraised : (agent.invoke env inp w).1 = .error e := by
          simp only [Agent.invoke, hguard, Effect.bind_apply, Effect.ofExcept_apply,
            Effect.get_apply, hrounds]
        obtain rfl := h e hraised
        rcases className_of_rounds hrounds with hclass | hclass <;>
          exact absurd hclass (by decide)
      | ok e =>
        obtain ⟨rs, hrs⟩ := rounds_transcript _ _ _ hrounds
        obtain ⟨rest, ⟨hrequests, hcalls⟩, hlog⟩ :=
          agent.close_log e.usedTools e.toolOutputs e.reply v
        rw [Agent.invoke_of_rounds_ok hguard hrounds]
        refine ⟨rs, hrs.few, hrs.complete, hrs.goesOn, hrs.stops, ⟨rest, ?_, hrequests, hcalls⟩,
          ?_, length_getShortTerm_le _ _, invocationsIn_loopLog _ hrs.complete, ?_⟩
        · rw [← hrs.log, ← hlog]
          split <;> next heq => rw [heq]
        · rw [requestsIn_loopLog _ hrs.complete]
          refine List.map_congr_left fun j _ => ?_
          simp [Agent.opening]
        · intro result hresult
          split at hresult
          · cases hresult
          · obtain rfl := Except.ok.inj hresult
            refine ⟨hrs.usedTools, hrs.toolOutputs, ?_⟩
            show Agent.handedOut e.reply = _
            rw [hrs.reply]
            rfl

/-- A run that calls a tool once. -/
theorem profile_transcript : ∃ rs, Transcript (demoEnv (callsOnce [profileCall]))
    customerSupportAgent demoInput .initial
    (customerSupportAgent.invoke (demoEnv (callsOnce [profileCall])) demoInput .initial) rs := by
  refine invoke_transcript _ _ _ _ fun e h => ?_
  cases h

end AgentPlatform
