import AgentPlatform.Agents.Base

/-!
# The dialogue of a run

What the model says and what becomes of its tool calls, apart from what an
implementation of the loop makes of it: the rounds of tool calls, the messages
and the log they lead to.  The dialogue depends on the environment and on the log
alone, not on the rest of the world.

* `exchange`, `callAll` — one request, the tool calls of one response.
* `dialogue` — the rounds, at most a given number of them.
* `Agent.rounds_eq` — **the loop follows the dialogue**: what it returns, and the
  world it leaves, are read off the dialogue and the exchange that closes it.
-/

namespace AgentPlatform

/-! ## One request, one round -/

section Exchange

variable (env : Env) (agent : Agent) (inp : AgentInput)

/-- Ask the model after a log, and check what it wrote. -/
def exchange (messages : List ChatMessage) (log : List Event) :
    Except PyErr LLMResponse × List Event :=
  match env.answer log (agent.request env inp messages) with
  | none => (.error .retryError, log ++ [.asked (agent.request env inp messages) none])
  | some response =>
    (match env.guard.guardOutput response.text with
      | .error e => .error e
      | .ok () => .ok response, log ++ [.asked (agent.request env inp messages) (some response)])

/-- What becomes of tool calls, one after the other. -/
def callAll : List ToolCall → List Event → List Execution
  | [], _ => []
  | tc :: tcs, log =>
    let x := env.execute (invocationsIn log) (inp.invocation tc)
    x :: callAll tcs (log ++ [.called (inp.invocation tc) x])

/-- The log of tool calls with what became of them. -/
def calledEvents (tcs : List ToolCall) (xs : List Execution) : List Event :=
  List.zipWith (fun tc x => .called (inp.invocation tc) x) tcs xs

variable {env agent inp}

theorem askModel_apply (messages : List ChatMessage) (w : World) :
    agent.askModel env inp messages w =
      ((exchange env agent inp messages w.log).1,
        w.withLog (exchange env agent inp messages w.log).2) := by
  cases hans : env.answer w.log (agent.request env inp messages) with
  | none =>
    simp only [Agent.askModel, exchange, Effect.bind_apply, Env.ask, hans]
    rfl
  | some response =>
    simp only [Agent.askModel, exchange, Effect.bind_apply, Env.ask, hans,
      Effect.ofExcept_apply, Effect.pure_apply]
    cases env.guard.guardOutput response.text with
    | error e => rfl
    | ok u => rfl

/-- A request is logged with the response to it. -/
theorem exchange_log (messages : List ChatMessage) (log : List Event) :
    (exchange env agent inp messages log).2 =
      log ++ [.asked (agent.request env inp messages)
        (env.answer log (agent.request env inp messages))] := by
  unfold exchange
  cases env.answer log (agent.request env inp messages) <;> rfl

/-- A response that comes out of an exchange is what the model answered, and clean. -/
theorem exchange_eq_ok {messages : List ChatMessage} {log : List Event} {response : LLMResponse}
    (h : (exchange env agent inp messages log).1 = .ok response) :
    env.answer log (agent.request env inp messages) = some response ∧
      env.guard.Clean response.text := by
  unfold exchange at h
  cases hans : env.answer log (agent.request env inp messages) with
  | none => rw [hans] at h; cases h
  | some r =>
    simp only [hans] at h
    cases hguard : env.guard.guardOutput r.text with
    | error e => rw [hguard] at h; cases h
    | ok u =>
      rw [hguard] at h
      obtain rfl := Except.ok.inj h
      exact ⟨rfl, env.guard.guardOutput_eq_ok_iff.1 hguard⟩

/-- An exchange that comes to nothing: the model did not answer, or not cleanly. -/
theorem exchange_eq_error {messages : List ChatMessage} {log : List Event} {e : PyErr}
    (h : (exchange env agent inp messages log).1 = .error e) {response : LLMResponse}
    (hans : env.answer log (agent.request env inp messages) = some response) :
    ¬ env.guard.Clean response.text := by
  unfold exchange at h
  simp only [hans] at h
  intro hclean
  rw [env.guard.guardOutput_eq_ok_iff.2 hclean] at h
  cases h

@[simp] theorem length_callAll (tcs : List ToolCall) (log : List Event) :
    (callAll env inp tcs log).length = tcs.length := by
  induction tcs generalizing log with
  | nil => rfl
  | cons tc tcs ih => simp [callAll, ih]

@[simp] theorem calledEvents_nil (xs : List Execution) : calledEvents inp [] xs = [] := rfl

@[simp] theorem calledEvents_nil_right (tcs : List ToolCall) : calledEvents inp tcs [] = [] :=
  List.zipWith_nil_right

@[simp] theorem calledEvents_cons (tc : ToolCall) (tcs : List ToolCall) (x : Execution)
    (xs : List Execution) : calledEvents inp (tc :: tcs) (x :: xs) =
      .called (inp.invocation tc) x :: calledEvents inp tcs xs := rfl

@[simp] theorem requestsIn_calledEvents (tcs : List ToolCall) (xs : List Execution) :
    requestsIn (calledEvents inp tcs xs) = [] := by
  induction tcs generalizing xs with
  | nil => rfl
  | cons tc tcs ih =>
    cases xs with
    | nil => rfl
    | cons x xs => simpa [requestsIn, Event.request?] using ih xs

end Exchange

/-! ## Rounds -/

/-- A response that asks for tools, and what became of its calls. -/
structure Round where
  response : LLMResponse
  executions : List Execution

namespace Round

/-- The calls with the results a loop goes on with. -/
def settled (rt : PyRuntime) (r : Round) : List Settled :=
  List.zipWith (fun tc x => ⟨tc, x.settle rt⟩) r.response.toolCalls r.executions

/-- The messages the results become. -/
def messages (rt : PyRuntime) (r : Round) : List ChatMessage :=
  (r.settled rt).map (Settled.message rt)

/-- No call of the round raises. -/
def Quiet (r : Round) : Prop := ∀ x ∈ r.executions, x.raises = false

end Round

/-- The rounds of tool calls of a run, and where they lead. -/
structure Dialogue where
  rounds : List Round
  messages : List ChatMessage
  log : List Event

namespace Dialogue

/-- A dialogue with a round before it. -/
def cons (r : Round) (d : Dialogue) : Dialogue := { d with rounds := r :: d.rounds }

/-- The calls of all rounds. -/
def settled (rt : PyRuntime) (d : Dialogue) : List Settled :=
  d.rounds.flatMap (Round.settled rt)

@[simp] theorem cons_rounds (r : Round) (d : Dialogue) : (d.cons r).rounds = r :: d.rounds := rfl
@[simp] theorem cons_messages (r : Round) (d : Dialogue) : (d.cons r).messages = d.messages := rfl
@[simp] theorem cons_log (r : Round) (d : Dialogue) : (d.cons r).log = d.log := rfl

@[simp] theorem settled_cons (rt : PyRuntime) (r : Round) (d : Dialogue) :
    (d.cons r).settled rt = r.settled rt ++ d.settled rt := rfl

end Dialogue

section Dialogue

variable (env : Env) (agent : Agent) (inp : AgentInput)

/-- The round a response opens after a log. -/
def roundOf (response : LLMResponse) (log : List Event) : Round :=
  ⟨response, callAll env inp response.toolCalls log⟩

/-- The rounds of tool calls, at most `n` of them. -/
def dialogue : ℕ → List ChatMessage → List Event → Dialogue
  | 0, messages, log => ⟨[], messages, log⟩
  | n + 1, messages, log =>
    match exchange env agent inp messages log with
    | (.error _, _) => ⟨[], messages, log⟩
    | (.ok response, log') =>
      if response.toolCalls.isEmpty then ⟨[], messages, log⟩
      else
        let r := roundOf env inp response log'
        (dialogue n (messages ++ r.messages env.runtime)
          (log' ++ calledEvents inp response.toolCalls r.executions)).cons r

variable {env agent inp}

/-- An exchange without a round: nothing was answered, or without tool calls. -/
theorem dialogue_of_no_round {n : ℕ} {messages : List ChatMessage} {log : List Event}
    (h : ∀ response, (exchange env agent inp messages log).1 = .ok response →
      response.toolCalls = []) :
    dialogue env agent inp n messages log = ⟨[], messages, log⟩ := by
  cases n with
  | zero => rfl
  | succ n =>
    unfold dialogue
    cases hx : exchange env agent inp messages log with
    | mk r log' =>
      cases r with
      | error e => rfl
      | ok response =>
        have hnil : response.toolCalls = [] := h response (by rw [hx])
        simp [hnil]

/-- An exchange that opens a round. -/
theorem dialogue_of_round {n : ℕ} {messages : List ChatMessage} {log log' : List Event}
    {response : LLMResponse} (hx : exchange env agent inp messages log = (.ok response, log'))
    (hne : response.toolCalls ≠ []) :
    dialogue env agent inp (n + 1) messages log =
      (dialogue env agent inp n
        (messages ++ (roundOf env inp response log').messages env.runtime)
        (log' ++ calledEvents inp response.toolCalls
          (roundOf env inp response log').executions)).cons
        (roundOf env inp response log') := by
  rw [dialogue, hx]
  simp [hne]

theorem length_dialogue_le (n : ℕ) (messages : List ChatMessage) (log : List Event) :
    (dialogue env agent inp n messages log).rounds.length ≤ n := by
  induction n generalizing messages log with
  | zero => exact Nat.le_refl 0
  | succ n ih =>
    cases hx : exchange env agent inp messages log with
    | mk r log' =>
      by_cases hround : ∃ response, r = .ok response ∧ response.toolCalls ≠ []
      · obtain ⟨response, rfl, hne⟩ := hround
        rw [dialogue_of_round hx hne, Dialogue.cons_rounds, List.length_cons]
        have := ih (messages ++ (roundOf env inp response log').messages env.runtime)
          (log' ++ calledEvents inp response.toolCalls (roundOf env inp response log').executions)
        omega
      · rw [dialogue_of_no_round]
        · exact Nat.zero_le _
        · intro response hresp
          rw [hx] at hresp
          by_contra hne
          exact hround ⟨response, hresp, hne⟩

/-- Before the rounds are used up, a dialogue ends with an exchange without a round. -/
theorem closing_of_length_lt {n : ℕ} {messages : List ChatMessage} {log : List Event}
    (h : (dialogue env agent inp n messages log).rounds.length < n) {response : LLMResponse}
    (hok : (exchange env agent inp (dialogue env agent inp n messages log).messages
      (dialogue env agent inp n messages log).log).1 = .ok response) :
    response.toolCalls = [] := by
  induction n generalizing messages log with
  | zero => exact absurd h (Nat.not_lt_zero _)
  | succ n ih =>
    cases hx : exchange env agent inp messages log with
    | mk r log' =>
      by_cases hround : ∃ response, r = .ok response ∧ response.toolCalls ≠ []
      · obtain ⟨response', rfl, hne⟩ := hround
        rw [dialogue_of_round hx hne] at h hok
        exact ih (by simpa using h) hok
      · have hno : ∀ response, (exchange env agent inp messages log).1 = .ok response →
            response.toolCalls = [] := by
          intro response hresp
          rw [hx] at hresp
          by_contra hne
          exact hround ⟨response, hresp, hne⟩
        rw [dialogue_of_no_round hno] at hok
        exact hno response hok

end Dialogue

/-! ## The loop follows the dialogue -/

section Loop

variable {env : Env} {agent : Agent} {inp : AgentInput}

theorem callTools_apply (tcs : List ToolCall) (w : World) :
    Agent.callTools env inp tcs w =
      (.ok (List.zipWith (fun tc x => ⟨tc, x.settle env.runtime⟩) tcs
          (callAll env inp tcs w.log)),
        w.withLog (w.log ++ calledEvents inp tcs (callAll env inp tcs w.log))) := by
  induction tcs generalizing w with
  | nil => simp [Agent.callTools, World.withLog]
  | cons tc tcs ih =>
    rw [Agent.callTools, Effect.bind_apply, Env.callTool]
    simp only [Effect.bind_apply, ih, Effect.pure_apply]
    simp [World.push, World.withLog, callAll]

/-- **The loop follows the dialogue.**  After the rounds of the dialogue, either the
rounds are used up, or the exchange that closes it decides. -/
theorem Agent.rounds_eq (n : ℕ) (messages : List ChatMessage) (used : List String)
    (outputs : List ToolOutput) (w : World) :
    let d := dialogue env agent inp n messages w.log
    let used' := used ++ (d.settled env.runtime).map Settled.name
    let outputs' := outputs ++ (d.settled env.runtime).map Settled.output
    agent.rounds env inp n messages used outputs w =
      if d.rounds.length = n then (.ok ⟨"", used', outputs'⟩, w.withLog d.log)
      else
        match exchange env agent inp d.messages d.log with
        | (.error e, log) => (.error e, w.withLog log)
        | (.ok response, log) =>
          (.ok ⟨response.text, used', outputs'⟩,
            { w.withLog log with
              lastUsage := Function.update w.lastUsage agent.key response.usage }) := by
  induction n generalizing messages used outputs w with
  | zero => simp [Agent.rounds, dialogue, Dialogue.settled, World.withLog]
  | succ n ih =>
    rw [Agent.rounds, Effect.bind_apply, askModel_apply]
    cases hx : exchange env agent inp messages w.log with
    | mk r log' =>
      cases r with
      | error e =>
        have hd : dialogue env agent inp (n + 1) messages w.log = ⟨[], messages, w.log⟩ := by
          apply dialogue_of_no_round
          intro response hresp
          rw [hx] at hresp
          cases hresp
        simp [hd, hx]
      | ok response =>
        by_cases hnil : response.toolCalls = []
        · have hd : dialogue env agent inp (n + 1) messages w.log = ⟨[], messages, w.log⟩ := by
            apply dialogue_of_no_round
            intro response' hresp
            rw [hx] at hresp
            obtain rfl := Except.ok.inj hresp
            exact hnil
          simp [hd, hx, hnil, Env.recordTokens, Effect.bind_apply, Dialogue.settled,
            World.withLog]
        · have hd := dialogue_of_round (n := n) hx hnil
          simp only [hd, Dialogue.cons_rounds, List.length_cons, Dialogue.cons_messages,
            Dialogue.cons_log, Dialogue.settled_cons, List.map_append, ← List.append_assoc]
          have hne : response.toolCalls.isEmpty = false := by simpa using hnil
          rw [hne]
          simp only [Bool.false_eq_true, if_false, Effect.bind_apply, callTools_apply]
          rw [ih]
          simp only [World.withLog, Nat.add_right_cancel_iff]
          rfl

end Loop

end AgentPlatform
