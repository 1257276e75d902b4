import AgentPlatform.Agents.Specialized
import AgentPlatform.Graph.Follow

/-!
# Once per response

The calls of a response are to be executed once, in order, right after the response,
and a response without calls is to be the last thing the model is asked for.  The
tool graph keeps to this only as long as nothing is pending that it has already
executed: a response without calls does not clear what is pending.

* `OncePerResponse` — the law, on the events of a run.
* `RoundsKept` — the rounds in which the graph keeps to it.
* `steps_once_iff`, by induction on the rounds left, and from it
  `Agent.invokeGraph_once_iff` — **exactly when a run of the graph keeps the law.**
-/

namespace AgentPlatform

open StateGraph

variable {env : Env} {agent : Agent} {inp : AgentInput}

/-! ## The law -/

/-- Neither a request nor a tool call. -/
def Aftermath (events : List Event) : Prop := requestsIn events = [] ∧ invocationsIn events = []

/-- The events of a run with `n` rounds left: a request is followed by the calls of its
response, each once and in order, and then by the next request; a response without
calls, one that is not clean, none at all, or any response when no rounds are left,
is followed by neither. -/
inductive OncePerResponse (guard : Guardrails) (inp : AgentInput) : ℕ → List Event → Prop where
  | nothing (n : ℕ) : OncePerResponse guard inp n []
  | last {n : ℕ} {request : LLMRequest} {answer : Option LLMResponse} {rest : List Event}
      (hdone : ∀ response, answer = some response → guard.Clean response.text →
        response.toolCalls = [] ∨ n = 0)
      (hrest : Aftermath rest) : OncePerResponse guard inp n (.asked request answer :: rest)
  | round {n : ℕ} {request : LLMRequest} {response : LLMResponse} {xs : List Execution}
      {rest : List Event} (hclean : guard.Clean response.text) (hne : response.toolCalls ≠ [])
      (hlen : xs.length = response.toolCalls.length) (hrest : OncePerResponse guard inp n rest) :
      OncePerResponse guard inp (n + 1)
        (.asked request (some response) :: (calledEvents inp response.toolCalls xs ++ rest))

section Law

variable {guard : Guardrails} {n : ℕ} {request : LLMRequest} {response : LLMResponse}
  {rest : List Event}

/-- What the law says of a request. -/
theorem oncePerResponse_cons {answer : Option LLMResponse}
    (h : OncePerResponse guard inp n (.asked request answer :: rest)) :
    ((∀ response, answer = some response → guard.Clean response.text →
        response.toolCalls = [] ∨ n = 0) ∧ Aftermath rest) ∨
      ∃ m response xs rest', n = m + 1 ∧ answer = some response ∧ response.toolCalls ≠ [] ∧
        xs.length = response.toolCalls.length ∧
        rest = calledEvents inp response.toolCalls xs ++ rest' ∧
        OncePerResponse guard inp m rest' := by
  generalize htrace : Event.asked request answer :: rest = trace at h
  cases h with
  | nothing => cases htrace
  | last hdone hrest =>
    obtain ⟨hevent, rfl⟩ := List.cons.inj htrace
    obtain ⟨-, rfl⟩ := Event.asked.inj hevent
    exact Or.inl ⟨hdone, hrest⟩
  | round _ hne hlen hrest =>
    obtain ⟨hevent, rfl⟩ := List.cons.inj htrace
    obtain ⟨-, rfl⟩ := Event.asked.inj hevent
    exact Or.inr ⟨_, _, _, _, rfl, rfl, hne, hlen, rfl, hrest⟩

theorem length_calledEvents (tcs : List ToolCall) (xs : List Execution) :
    (calledEvents inp tcs xs).length = min tcs.length xs.length := List.length_zipWith

/-- A round that is executed in full keeps the law if the rest does. -/
theorem oncePerResponse_round_iff (hclean : guard.Clean response.text)
    (hne : response.toolCalls ≠ []) {xs : List Execution}
    (hlen : xs.length = response.toolCalls.length) :
    OncePerResponse guard inp (n + 1) (.asked request (some response) ::
        (calledEvents inp response.toolCalls xs ++ rest)) ↔
      OncePerResponse guard inp n rest := by
  refine ⟨fun h => ?_, OncePerResponse.round hclean hne hlen⟩
  rcases oncePerResponse_cons h with
    ⟨hdone, -⟩ | ⟨m, response', xs', rest', hm, hresp, -, hlen', heq, hrest⟩
  · rcases hdone response rfl hclean with hnil | hzero
    · exact absurd hnil hne
    · exact absurd hzero (Nat.succ_ne_zero n)
  · obtain rfl : response = response' := Option.some.inj hresp
    obtain rfl : n = m := Nat.succ.inj hm
    have hsame : (calledEvents inp response.toolCalls xs).length =
        (calledEvents inp response.toolCalls xs').length := by
      rw [length_calledEvents, length_calledEvents, hlen, hlen']
    rw [(List.append_inj heq hsame).2]
    exact hrest

/-- A round that is cut short breaks the law. -/
theorem not_oncePerResponse_of_short (hclean : guard.Clean response.text)
    (hne : response.toolCalls ≠ []) {xs : List Execution}
    (hlen : xs.length < response.toolCalls.length) :
    ¬ OncePerResponse guard inp (n + 1) (.asked request (some response) ::
        calledEvents inp response.toolCalls xs) := by
  intro h
  rcases oncePerResponse_cons h with
    ⟨hdone, -⟩ | ⟨m, response', xs', rest', -, hresp, -, hlen', heq, -⟩
  · rcases hdone response rfl hclean with hnil | hzero
    · exact hne hnil
    · exact Nat.succ_ne_zero n hzero
  · obtain rfl : response = response' := Option.some.inj hresp
    have hlength := congrArg List.length heq
    rw [List.length_append, length_calledEvents, length_calledEvents, hlen'] at hlength
    omega

/-- A call after a response without calls breaks the law. -/
theorem not_oncePerResponse_of_call (hnil : response.toolCalls = [])
    {invocation : ToolInvocation} {x : Execution} :
    ¬ OncePerResponse guard inp n
      (.asked request (some response) :: .called invocation x :: rest) := by
  intro h
  rcases oncePerResponse_cons h with ⟨-, -, hcalls⟩ | ⟨m, response', xs', rest', -, hresp, hne, -⟩
  · simp [invocationsIn, Event.invocation?] at hcalls
  · obtain rfl : response = response' := Option.some.inj hresp
    exact hne hnil

end Law

/-! ## The rounds that are kept -/

/-- The last call of a round raises, and no other. -/
def Round.RaisesLast (r : Round) : Prop :=
  ∃ xs x, r.executions = xs ++ [x] ∧ (∀ y ∈ xs, y.raises = false) ∧ x.raises = true

/-- No call raises up to the end of the rounds, where `done` holds, or the first call
that raises is the last of its round. -/
def RoundsKept (done : Prop) : List Round → Prop
  | [] => done
  | r :: rs => r.Quiet ∧ RoundsKept done rs ∨ r.RaisesLast

/-- The rounds end well: all of them were used, or the model did not answer, or not
cleanly, or it asked for no tool at all and nothing was pending. -/
def EndsWell (env : Env) (agent : Agent) (inp : AgentInput) (n : ℕ) (pending : List ToolCall)
    (d : Dialogue) : Prop :=
  d.rounds.length = n ∨ (∃ e, (exchange env agent inp d.messages d.log).1 = .error e) ∨
    d.rounds = [] ∧ pending = []

theorem roundsKept_congr {p q : Prop} (h : p ↔ q) (rs : List Round) :
    RoundsKept p rs ↔ RoundsKept q rs := by
  induction rs with
  | nil => exact h
  | cons r rs ih => rw [RoundsKept, RoundsKept, ih]

theorem not_raisesLast_of_quiet {r : Round} (h : r.Quiet) : ¬ r.RaisesLast := by
  rintro ⟨xs, x, hxs, -, hx⟩
  have hfalse := h x (by rw [hxs]; simp)
  rw [hfalse] at hx
  cases hx

/-- The last of the executions raises, and no other. -/
def OnlyLastRaises (xs : List Execution) : Prop :=
  ∃ ys y, xs = ys ++ [y] ∧ (∀ z ∈ ys, z.raises = false) ∧ y.raises = true

/-- If the first execution raises, there has to be no other. -/
theorem onlyLastRaises_cons_of_raises {x : Execution} {xs : List Execution}
    (hx : x.raises = true) : OnlyLastRaises (x :: xs) ↔ xs = [] := by
  constructor
  · rintro ⟨ys, y, heq, hys, -⟩
    cases ys with
    | nil => exact (List.cons.inj heq).2
    | cons z ys =>
      obtain ⟨rfl, -⟩ := List.cons.inj heq
      rw [hys x (List.mem_cons_self ..)] at hx
      cases hx
  · rintro rfl
    exact ⟨[], x, rfl, by simp, hx⟩

/-- If the first execution does not raise, it does not count. -/
theorem onlyLastRaises_cons_of_returns {x : Execution} {xs : List Execution}
    (hx : x.raises = false) : OnlyLastRaises (x :: xs) ↔ OnlyLastRaises xs := by
  constructor
  · rintro ⟨ys, y, heq, hys, hy⟩
    cases ys with
    | nil =>
      obtain ⟨rfl, -⟩ := List.cons.inj heq
      rw [hx] at hy
      cases hy
    | cons z ys =>
      obtain ⟨-, hxs⟩ := List.cons.inj heq
      exact ⟨ys, y, hxs, fun w hw => hys w (List.mem_cons_of_mem _ hw), hy⟩
  · rintro ⟨ys, y, rfl, hys, hy⟩
    exact ⟨x :: ys, y, rfl, List.forall_mem_cons.2 ⟨hx, hys⟩, hy⟩

/-- The executions of a round in which a call raises stop short of its end, unless the
call is the last. -/
theorem raisesLast_iff {r : Round} (h : ¬ r.Quiet) :
    r.RaisesLast ↔ (upToRaise r.executions).length = r.executions.length := by
  unfold Round.Quiet at h
  show OnlyLastRaises r.executions ↔ _
  generalize r.executions = xs at h
  induction xs with
  | nil => exact absurd (by simp) h
  | cons x xs ih =>
    rw [upToRaise]
    cases hx : x.raises with
    | true =>
      rw [onlyLastRaises_cons_of_raises hx, if_pos rfl, List.length_cons, List.length_nil,
        List.length_cons, Nat.add_right_cancel_iff, ← List.length_eq_zero_iff]
      exact eq_comm
    | false =>
      have hrest : ¬ ∀ y ∈ xs, y.raises = false := by
        intro hall
        exact h (by simpa [hx] using hall)
      rw [onlyLastRaises_cons_of_returns hx, if_neg (by simp), List.length_cons,
        List.length_cons, Nat.add_right_cancel_iff, ih hrest]

/-! ## The graph and the law -/

/-- The events of a run that closes with a response. -/
theorem steps_closing_log {s : AgentGraphState} {w : World} {log : List Event}
    {response : LLMResponse} {L : ℕ} (hinput : s.input = some inp)
    (hguard : env.guard.guardInput inp.message = .ok ())
    (hx : exchange env agent inp s.messages w.log = (.ok response, log))
    (hdone : (afterAnswer s response).pending = [] ∨ maxToolRounds ≤ s.steps.getD 0) :
    ∃ rest, Aftermath rest ∧
      ((toolGraph env agent).steps (L + 2) .callLlm s w).world.log = log ++ rest := by
  rw [steps_closing hinput hguard hx hdone]
  obtain ⟨rest, hrest, hlog⟩ := agent.close_log s.usedTools s.toolOutputs response.text
    ((w.withLog log).counted agent.key response)
  refine ⟨rest, hrest, ?_⟩
  cases hclose : agent.close env inp s.usedTools s.toolOutputs response.text
      ((w.withLog log).counted agent.key response) with
  | mk r w' =>
    rw [hclose] at hlog
    cases r <;> exact hlog

/-- The law for a request that closes the run: it is kept. -/
theorem steps_once_iff_of_closing {n : ℕ} {s : AgentGraphState} {w : World} {L : ℕ}
    {response : LLMResponse} {log : List Event} (hinput : s.input = some inp)
    (hguard : env.guard.guardInput inp.message = .ok ())
    (hx : exchange env agent inp s.messages w.log = (.ok response, log))
    (hsteps : n + s.steps.getD 0 = maxToolRounds) (hno : response.toolCalls = [] ∨ n = 0)
    (hdone : (afterAnswer s response).pending = [] ∨ maxToolRounds ≤ s.steps.getD 0) :
    ∃ tail, ((toolGraph env agent).steps (L + 2) .callLlm s w).world.log = w.log ++ tail ∧
      (OncePerResponse env.guard inp n tail ↔
        EndsWell env agent inp n s.pending ⟨[], s.messages, w.log⟩) := by
  obtain ⟨hans, -⟩ := exchange_eq_ok (congrArg Prod.fst hx)
  have hlog : log = _ := (congrArg Prod.snd hx).symm.trans (exchange_log s.messages w.log)
  obtain ⟨rest, hrest, hend⟩ := steps_closing_log (L := L) hinput hguard hx hdone
  rw [hlog] at hend
  refine ⟨_, hend.trans (List.append_assoc _ _ _), iff_of_true ?_ ?_⟩
  · refine OncePerResponse.last ?_ hrest
    intro response' hresp _
    obtain rfl : response = response' := Option.some.inj (hans.symm.trans hresp)
    exact hno
  · rcases hno with hnil | hzero
    · rcases hdone with hpending | hcap
      · rw [afterAnswer_pending_of_nil hnil] at hpending
        exact Or.inr (Or.inr ⟨rfl, hpending⟩)
      · exact Or.inl (show 0 = n by omega)
    · exact Or.inl hzero.symm

/-- The law for a response without calls while calls of an earlier one are pending: they are
executed again, which breaks it. -/
theorem steps_once_iff_of_stale {n : ℕ} {s : AgentGraphState} {w : World} {L : ℕ}
    {response : LLMResponse} {log : List Event} (hinput : s.input = some inp)
    (hguard : env.guard.guardInput inp.message = .ok ())
    (hx : exchange env agent inp s.messages w.log = (.ok response, log))
    (hsteps : n + s.steps.getD 0 = maxToolRounds) (hnil : response.toolCalls = [])
    (hpending : s.pending ≠ []) (hlt : s.steps.getD 0 < maxToolRounds) :
    ∃ tail, ((toolGraph env agent).steps (L + 2) .callLlm s w).world.log = w.log ++ tail ∧
      (OncePerResponse env.guard inp n tail ↔
        EndsWell env agent inp n s.pending ⟨[], s.messages, w.log⟩) := by
  obtain ⟨hans, -⟩ := exchange_eq_ok (congrArg Prod.fst hx)
  have hlog : log = _ := (congrArg Prod.snd hx).symm.trans (exchange_log s.messages w.log)
  obtain ⟨invocation, x, rest, hrest⟩ := steps_stale (L := L) hinput hguard hx hnil hpending hlt
  refine ⟨.asked (agent.request env inp s.messages) (some response) ::
    .called invocation x :: rest, ?_, iff_of_false (not_oncePerResponse_of_call hnil) ?_⟩
  · rw [← hrest, hlog, hans]
    simp
  · rintro (hlen | ⟨e, he⟩ | ⟨-, hpend⟩)
    · have hzero : 0 = n := hlen
      omega
    · rw [hx] at he
      cases he
    · exact hpending hpend

/-- The law for a request that opens no round. -/
theorem steps_once_iff_of_no_round {n : ℕ} {s : AgentGraphState} {w : World} {L : ℕ}
    (hinput : s.input = some inp) (hguard : env.guard.guardInput inp.message = .ok ())
    (hsteps : n + s.steps.getD 0 = maxToolRounds)
    (hno : ∀ response, (exchange env agent inp s.messages w.log).1 = .ok response →
      response.toolCalls = [] ∨ n = 0) :
    ∃ tail, ((toolGraph env agent).steps (L + 2) .callLlm s w).world.log = w.log ++ tail ∧
      (OncePerResponse env.guard inp n tail ↔
        EndsWell env agent inp n s.pending ⟨[], s.messages, w.log⟩) := by
  cases hx : exchange env agent inp s.messages w.log with
  | mk r log =>
    rw [hx] at hno
    cases r with
    | error e =>
      have hlog : log = _ := (congrArg Prod.snd hx).symm.trans (exchange_log s.messages w.log)
      rw [steps_refused (L := L + 1) hinput hguard hx, hlog]
      refine ⟨_, rfl, iff_of_true ?_ (Or.inr (Or.inl ⟨e, by rw [hx]⟩))⟩
      refine OncePerResponse.last ?_ ⟨rfl, rfl⟩
      intro response hans hclean
      exact absurd hclean (exchange_eq_error (congrArg Prod.fst hx) hans)
    | ok response =>
      by_cases hdone : (afterAnswer s response).pending = [] ∨ maxToolRounds ≤ s.steps.getD 0
      · exact steps_once_iff_of_closing hinput hguard hx hsteps (hno response rfl) hdone
      · push Not at hdone
        obtain ⟨hpending, hlt⟩ := hdone
        have hnil : response.toolCalls = [] := (hno response rfl).resolve_right (by omega)
        rw [afterAnswer_pending_of_nil hnil] at hpending
        exact steps_once_iff_of_stale hinput hguard hx hsteps hnil hpending hlt

/-- The law for a round in which a call raises: that call has to be its last. -/
theorem steps_once_iff_of_raise {n : ℕ} {s : AgentGraphState} {w : World} {L : ℕ}
    {response : LLMResponse} {log : List Event} (hinput : s.input = some inp)
    (hguard : env.guard.guardInput inp.message = .ok ())
    (hx : exchange env agent inp s.messages w.log = (.ok response, log))
    (hne : response.toolCalls ≠ []) (hlt : s.steps.getD 0 < maxToolRounds)
    (hraise : ¬ (roundOf env inp response log).Quiet) :
    ∃ tail, ((toolGraph env agent).steps (L + 2) .callLlm s w).world.log = w.log ++ tail ∧
      (OncePerResponse env.guard inp (n + 1) tail ↔
        (roundOf env inp response log).RaisesLast) := by
  obtain ⟨hans, hclean⟩ := exchange_eq_ok (congrArg Prod.fst hx)
  have hlog : log = w.log ++ [.asked (agent.request env inp s.messages) (some response)] := by
    rw [← hans, ← exchange_log, hx]
  have hlen : (roundOf env inp response log).executions.length = response.toolCalls.length :=
    length_callAll _ _
  rw [steps_raise hinput hguard hx hne hlt hraise, raisesLast_iff hraise, hlen]
  refine ⟨.asked (agent.request env inp s.messages) (some response) ::
    calledEvents inp response.toolCalls (upToRaise (roundOf env inp response log).executions),
    by rw [hlog]; simp, ?_⟩
  have hle := (upToRaise_initial (roundOf env inp response log).executions).length_le
  rw [hlen] at hle
  rcases Nat.lt_or_eq_of_le hle with hshort | hfull
  · exact iff_of_false (not_oncePerResponse_of_short hclean hne hshort) (Nat.ne_of_lt hshort)
  · refine iff_of_true ?_ hfull
    have honce : OncePerResponse env.guard inp (n + 1)
        (.asked (agent.request env inp s.messages) (some response) :: (calledEvents inp
          response.toolCalls (upToRaise (roundOf env inp response log).executions) ++ [])) :=
      OncePerResponse.round hclean hne hfull (OncePerResponse.nothing n)
    rwa [List.append_nil] at honce

/-- **The law along a dialogue**, by induction on the rounds left. -/
theorem steps_once_iff (n : ℕ) {s : AgentGraphState} {w : World} (L : ℕ)
    (hinput : s.input = some inp) (hguard : env.guard.guardInput inp.message = .ok ())
    (hsteps : n + s.steps.getD 0 = maxToolRounds) :
    ∃ tail, ((toolGraph env agent).steps
        (L + 2 + 2 * (dialogue env agent inp n s.messages w.log).rounds.length)
          .callLlm s w).world.log = w.log ++ tail ∧
      (OncePerResponse env.guard inp n tail ↔
        RoundsKept (EndsWell env agent inp n s.pending (dialogue env agent inp n s.messages w.log))
          (dialogue env agent inp n s.messages w.log).rounds) := by
  induction n generalizing s w with
  | zero => exact steps_once_iff_of_no_round hinput hguard hsteps fun _ _ => Or.inr rfl
  | succ n ih =>
    by_cases hround : ∃ response, (exchange env agent inp s.messages w.log).1 = .ok response ∧
        response.toolCalls ≠ []
    · obtain ⟨response, hok, hne⟩ := hround
      obtain ⟨log, hx⟩ : ∃ log, exchange env agent inp s.messages w.log = (.ok response, log) :=
        ⟨_, Prod.ext hok rfl⟩
      obtain ⟨hans, hclean⟩ := exchange_eq_ok hok
      have hlog : log = w.log ++ [.asked (agent.request env inp s.messages) (some response)] := by
        rw [← hans, ← exchange_log, hx]
      have hlt : s.steps.getD 0 < maxToolRounds := by omega
      have hlen : (roundOf env inp response log).executions.length = response.toolCalls.length :=
        length_callAll _ _
      rw [dialogue_of_round hx hne, Dialogue.cons_rounds, List.length_cons, RoundsKept,
        Nat.mul_succ, ← Nat.add_assoc]
      by_cases hquiet : (roundOf env inp response log).Quiet
      · rw [steps_round hinput hguard hx hne hlt hquiet,
          or_iff_left (not_raisesLast_of_quiet hquiet), and_iff_right hquiet]
        obtain ⟨tail, htail, hiff⟩ := ih (s := afterRound env s (roundOf env inp response log))
          (w := (w.withLog (log ++ calledEvents inp response.toolCalls
            (roundOf env inp response log).executions)).counted agent.key response)
          (by simpa using hinput) (by rw [afterRound_steps, Option.getD_some]; omega)
        rw [afterRound_messages, World.counted_log, World.withLog_log] at htail hiff
        refine ⟨.asked (agent.request env inp s.messages) (some response) ::
          (calledEvents inp response.toolCalls (roundOf env inp response log).executions ++ tail),
          ?_, ?_⟩
        · rw [htail, hlog]
          simp
        · rw [oncePerResponse_round_iff hclean hne hlen, hiff]
          refine roundsKept_congr ?_ _
          have hpending : (afterRound env s (roundOf env inp response log)).pending ≠ [] := by
            rw [afterRound_pending (r := roundOf env inp response log) hne]
            exact hne
          simp [EndsWell, hpending]
      · rw [or_iff_right fun h => hquiet h.1]
        exact steps_once_iff_of_raise hinput hguard hx hne hlt hquiet
    · push Not at hround
      rw [dialogue_of_no_round hround]
      exact steps_once_iff_of_no_round hinput hguard hsteps fun response h =>
        Or.inl (hround response h)

/-- **When a run of the graph keeps the law.**  On a thread that has saved `saved`: when
the message is refused, or when its rounds are kept and end well. -/
theorem Agent.invokeGraph_once_iff (env : Env) (agent : Agent) (inp : AgentInput) (w : World) :
    ∃ events, (agent.invokeGraph env inp w).2.log = w.log ++ events ∧
      (OncePerResponse env.guard inp maxToolRounds events ↔
        env.guard.detectPromptInjection inp.message = true ∨
          let saved := w.checkpoints agent.key inp.correlationId
          let d := threadDialogue env agent inp saved w
          RoundsKept (EndsWell env agent inp maxToolRounds saved.pending d) d.rounds) := by
  rw [invokeGraph_log]
  generalize w.checkpoints agent.key inp.correlationId = saved
  cases hinjection : env.guard.detectPromptInjection inp.message with
  | true =>
    have hguard := env.guard.guardInput_of_injection hinjection
    rw [show LangGraph.recursionLimit = 24 + 1 from rfl, steps_guarded startState_input hguard]
    exact ⟨[], (List.append_nil _).symm, iff_of_true (OncePerResponse.nothing _) (Or.inl rfl)⟩
  | false =>
    have hguard := env.guard.guardInput_of_not_injection hinjection
    obtain ⟨events, hlog, hiff⟩ := steps_once_iff (s := startState agent inp saved w) (w := w)
      maxToolRounds (23 - 2 * (threadDialogue env agent inp saved w).rounds.length)
      startState_input hguard rfl
    refine ⟨events, by rw [recursionLimit_eq]; exact hlog, ?_⟩
    rw [hiff, startState_pending]
    simp only [Bool.false_eq_true, false_or]
    rfl

/-- A model that looks at the caller's own profile and then answers: the profile is looked
up again after the answer. -/
theorem not_oncePerResponse_profile_then_answer :
    ¬ OncePerResponse (demoEnv (callsOnce [profileCall])).guard demoInput maxToolRounds
        (customerSupportAgent.invokeGraph (demoEnv (callsOnce [profileCall])) demoInput
          World.initial).2.log := by
  obtain ⟨request, x, request', invocation, x', rest, htrace⟩ :
      ∃ request x request' invocation x' rest,
        (customerSupportAgent.invokeGraph (demoEnv (callsOnce [profileCall])) demoInput
          World.initial).2.log =
        .asked request (some (asksFor [profileCall])) ::
          (calledEvents demoInput (asksFor [profileCall]).toolCalls [x] ++
            .asked request' (some (replies "Done.")) :: .called invocation x' :: rest) :=
    ⟨_, _, _, _, _, _, rfl⟩
  rw [htrace, show maxToolRounds = 5 + 1 from rfl,
    oncePerResponse_round_iff (Guardrails.clean_empty _) (by simp [asksFor]) rfl]
  exact not_oncePerResponse_of_call rfl

end AgentPlatform
