import AgentPlatform.Agents.Invocations

/-!
# Invocations as of their start

An invocation reads the conversation when it starts and writes its turn when its rounds end.
What happens in between shows in none of its requests: next to others it says what it would have
said alone, from the state it was started in.

* `Env.Memoryless` — a model that answers from the request alone, and tools from the call.
* `Invocation.view` — an invocation but for the token counts and the number of its row.
* `Invocation.unaware` — **the step**: the view moves alike in every world.
* `run_snapshot` — **the run**: every invocation that is over has the outcome of its run alone.
-/

namespace AgentPlatform

/-- The model answers from the request alone, the tools from the call, and the database takes
every row. -/
structure Env.Memoryless (env : Env) : Prop where
  complete : ∀ earlier earlier' request,
    env.complete (earlier ++ [request]) = env.complete (earlier' ++ [request])
  execute : ∀ earlier earlier' invocation,
    env.execute earlier invocation = env.execute earlier' invocation
  commit : ∀ number, env.commit number = true

/-- What an agent hands out when a run is committed, but for the token counts. -/
def Agent.answer (agent : Agent) (report : RunReport) : AgentResult where
  reply := Agent.handedOut report.reply
  usedTools := report.usedTools
  toolOutputs := report.toolOutputs
  needsHumanApproval := agent.needsHitl

/-- Where an invocation stands. -/
inductive Standing where
  | asking (rounds : ℕ) (messages : List ChatMessage) (used : List String)
      (outputs : List ToolOutput)
  /-- Its rounds have ended with a text, and its result will be this one. -/
  | ended (said : String) (result : AgentResult)
  | raised (e : PyErr)

/-- Where an invocation of an agent stands in a phase. -/
def Phase.standing (agent : Agent) : Phase → Standing
  | .asking n messages used outputs => .asking n messages used outputs
  | .committing final report => .ended (saidText final) (agent.answer report)
  | .returned final _ result => .ended (saidText final) result.uncounted
  | .raised e => .raised e

/-- What an invocation shows of itself. -/
def Invocation.view (i : Invocation) : Agent × AgentInput × Standing :=
  (i.agent, i.inp, i.phase.standing i.agent)

section Memoryless

variable {env : Env} {agent : Agent} {inp : AgentInput}

theorem Env.Memoryless.exchange (h : env.Memoryless) (messages : List ChatMessage)
    (log log' : List Event) : (AgentPlatform.exchange env agent inp messages log).1 =
      (AgentPlatform.exchange env agent inp messages log').1 := by
  have hanswer : env.answer log (agent.request env inp messages) =
      env.answer log' (agent.request env inp messages) := h.complete _ _ _
  unfold AgentPlatform.exchange
  rw [hanswer]
  cases env.answer log' (agent.request env inp messages) with
  | none => rfl
  | some response => rfl

theorem Env.Memoryless.callAll (h : env.Memoryless) (tcs : List ToolCall)
    (log log' : List Event) :
    AgentPlatform.callAll env inp tcs log = AgentPlatform.callAll env inp tcs log' := by
  induction tcs generalizing log log' with
  | nil => rfl
  | cons tc tcs ih =>
    have hfirst := h.execute (invocationsIn log) (invocationsIn log') (inp.invocation tc)
    simp only [AgentPlatform.callAll, hfirst]
    rw [ih]

end Memoryless

namespace Invocation

section View

variable {env : Env} {agent : Agent} {inp : AgentInput}

/-- An invocation that asks goes on alike in every world. -/
theorem view_resume_asking (h : env.Memoryless) (n : ℕ) (messages : List ChatMessage)
    (used : List String) (outputs : List ToolOutput) (w w' : World) :
    (resume env ⟨agent, inp, .asking n messages used outputs⟩ w).1.view =
      (resume env ⟨agent, inp, .asking n messages used outputs⟩ w').1.view := by
  have hask : agent.askModel env inp messages w = _ := askModel_apply messages w
  have hask' : agent.askModel env inp messages w' = _ := askModel_apply messages w'
  rw [h.exchange messages w.log w'.log] at hask
  cases hx : (exchange env agent inp messages w'.log).1 with
  | error e =>
    rw [hx] at hask hask'
    rw [resume_of_error hask, resume_of_error hask']
  | ok response =>
    rw [hx] at hask hask'
    cases hreply : response.toolCalls.isEmpty with
    | true =>
      rw [resume_of_reply hask hreply, resume_of_reply hask' hreply]
      rfl
    | false =>
      have hcalls : Agent.callTools env inp response.toolCalls
          (w.withLog (exchange env agent inp messages w.log).2) = _ := callTools_apply _ _
      rw [World.withLog_log, h.callAll response.toolCalls _
        (exchange env agent inp messages w'.log).2] at hcalls
      have hcalls' : Agent.callTools env inp response.toolCalls
          (w'.withLog (exchange env agent inp messages w'.log).2) = _ := callTools_apply _ _
      rw [World.withLog_log] at hcalls'
      cases n with
      | zero =>
        rw [resume_of_cap hask hreply hcalls, resume_of_cap hask' hreply hcalls']
        rfl
      | succ n => rw [resume_of_round hask hreply hcalls, resume_of_round hask' hreply hcalls']

/-- An invocation whose rounds have ended shows no more. -/
theorem view_resume_of_done (h : env.Memoryless) {i : Invocation}
    (hdone : ∀ n messages used outputs, i.phase ≠ .asking n messages used outputs) (w : World) :
    (resume env i w).1.view = i.view := by
  obtain ⟨agent, inp, phase⟩ := i
  cases phase with
  | asking n messages used outputs => exact absurd rfl (hdone n messages used outputs)
  | committing final report =>
    rw [resume_of_taken (h.commit _)]
    rfl
  | returned final number result => rfl
  | raised e => rfl

/-- A phase that stands where another asks is that phase. -/
theorem asking_of_standing {phase : Phase} {n : ℕ} {messages : List ChatMessage}
    {used : List String} {outputs : List ToolOutput}
    (h : phase.standing agent = .asking n messages used outputs) :
    phase = .asking n messages used outputs := by
  cases phase with
  | asking n' messages' used' outputs' =>
    simp only [Phase.standing, Standing.asking.injEq] at h
    obtain ⟨rfl, rfl, rfl, rfl⟩ := h
    rfl
  | committing final report => cases h
  | returned final number result => cases h
  | raised e => cases h

/-- Where one invocation asks nothing more, another one that stands there does not either. -/
theorem not_asking_of_view {i i' : Invocation} (hview : i.view = i'.view)
    (h : ∀ n messages used outputs, i.phase ≠ .asking n messages used outputs) (n : ℕ)
    (messages : List ChatMessage) (used : List String) (outputs : List ToolOutput) :
    i'.phase ≠ .asking n messages used outputs := by
  intro hphase
  have hstanding := congrArg (fun v => v.2.2) hview
  simp only [view, hphase, Phase.standing] at hstanding
  exact h n messages used outputs (asking_of_standing hstanding)

/-- **The view of an invocation moves alike in every world.** -/
theorem unaware (h : env.Memoryless) : (program env).Unaware view := by
  intro i i' w w' hview
  show (resume env i w).1.view = (resume env i' w').1.view
  by_cases hasking : ∃ n messages used outputs, i.phase = .asking n messages used outputs
  · obtain ⟨agent, inp, phase⟩ := i
    obtain ⟨agent', inp', phase'⟩ := i'
    obtain ⟨n, messages, used, outputs, rfl : phase = _⟩ := hasking
    simp only [view, Prod.mk.injEq] at hview
    obtain ⟨rfl, rfl, hstanding⟩ := hview
    obtain rfl := asking_of_standing hstanding.symm
    exact view_resume_asking h n messages used outputs w w'
  · have hdone : ∀ n messages used outputs, i.phase ≠ .asking n messages used outputs :=
      fun n messages used outputs hphase => hasking ⟨n, messages, used, outputs, hphase⟩
    rw [view_resume_of_done h hdone, view_resume_of_done h (not_asking_of_view hview hdone), hview]

/-- Resumed again and again, it is driven. -/
theorem alone_eq_drive (env : Env) (n : ℕ) (x : Invocation × World) :
    (program env).alone n x = drive env n x := by
  induction n generalizing x with
  | zero => rfl
  | succ n ih => exact ih _

/-- Where the rounds have ended, the view stays. -/
theorem view_alone_of_done (h : env.Memoryless) (n : ℕ) {x : Invocation × World}
    (hdone : ∀ n messages used outputs, x.1.phase ≠ .asking n messages used outputs) :
    ((program env).alone n x).1.view = x.1.view := by
  induction n generalizing x with
  | zero => rfl
  | succ n ih =>
    have hview := view_resume_of_done h hdone x.2
    exact (ih (x := resume env x.1 x.2) (not_asking_of_view hview.symm hdone)).trans hview

/-- A view at which the rounds have ended is the last one. -/
theorem view_alone_eq (h : env.Memoryless) {m n : ℕ} {x : Invocation × World}
    (hm : ∀ k messages used outputs,
      ((program env).alone m x).1.phase ≠ .asking k messages used outputs)
    (hn : ∀ k messages used outputs,
      ((program env).alone n x).1.phase ≠ .asking k messages used outputs) :
    ((program env).alone m x).1.view = ((program env).alone n x).1.view := by
  calc ((program env).alone m x).1.view
      = ((program env).alone n ((program env).alone m x)).1.view :=
        (view_alone_of_done h n hm).symm
    _ = ((program env).alone m ((program env).alone n x)).1.view := by
        rw [← Interleaving.Program.alone_add, ← Interleaving.Program.alone_add, Nat.add_comm]
    _ = ((program env).alone n x).1.view := view_alone_of_done h m hn

/-- Who acts, and what it was asked, does not change. -/
theorem view_alone_call (env : Env) (n : ℕ) (x : Invocation × World) :
    ((program env).alone n x).1.agent = x.1.agent ∧ ((program env).alone n x).1.inp = x.1.inp := by
  induction n generalizing x with
  | zero => exact ⟨rfl, rfl⟩
  | succ n ih =>
    have hresume : (resume env x.1 x.2).1.agent = x.1.agent ∧
        (resume env x.1 x.2).1.inp = x.1.inp := by
      unfold resume
      split
      · exact ⟨rfl, rfl⟩
      · exact ⟨rfl, rfl⟩
    exact ⟨(ih _).1.trans hresume.1, (ih _).2.trans hresume.2⟩

/-- An invocation that is over asks nothing more. -/
theorem not_asking_of_outcome {phase : Phase} {r : Except PyErr AgentResult}
    (h : phase.outcome? = some r) (n : ℕ) (messages : List ChatMessage) (used : List String)
    (outputs : List ToolOutput) : phase ≠ .asking n messages used outputs := by
  rintro rfl
  cases h

/-- Two outcomes that stand at one place are the same, but for the token counts. -/
theorem uncounted_of_view {i i' : Invocation} {r r' : Except PyErr AgentResult}
    (hr : i.phase.outcome? = some r) (hr' : i'.phase.outcome? = some r')
    (hview : i.view = i'.view) :
    r.map AgentResult.uncounted = r'.map AgentResult.uncounted := by
  have hstanding : i.phase.standing i.agent = i'.phase.standing i'.agent :=
    congrArg (fun v => v.2.2) hview
  cases hphase : i.phase with
  | asking n messages used outputs => rw [hphase] at hr; cases hr
  | committing final report => rw [hphase] at hr; cases hr
  | returned final number result =>
    rw [hphase] at hr hstanding
    obtain rfl := Option.some.inj hr
    cases hphase' : i'.phase with
    | asking n messages used outputs => rw [hphase'] at hr'; cases hr'
    | committing final' report => rw [hphase'] at hr'; cases hr'
    | returned final' number' result' =>
      rw [hphase'] at hr' hstanding
      obtain rfl := Option.some.inj hr'
      exact congrArg Except.ok (Standing.ended.inj hstanding).2
    | raised e => rw [hphase'] at hstanding; cases hstanding
  | raised e =>
    rw [hphase] at hr hstanding
    obtain rfl := Option.some.inj hr
    cases hphase' : i'.phase with
    | asking n messages used outputs => rw [hphase'] at hr'; cases hr'
    | committing final' report => rw [hphase'] at hr'; cases hr'
    | returned final' number' result' => rw [hphase'] at hstanding; cases hstanding
    | raised e' =>
      rw [hphase'] at hr' hstanding
      obtain rfl := Option.some.inj hr'
      exact congrArg Except.error (Standing.raised.inj hstanding)

end View

end Invocation

/-! ## Every interleaving -/

open Interleaving (Pool Move)

/-- **Every invocation that is over has the outcome of its run alone**, from the world it was
started in, whatever the others have done since, in its own conversation too. -/
theorem run_snapshot (env : Env) (h : env.Memoryless) (w : World)
    (moves : List (Move (Agent × AgentInput))) (n : ℕ) (i : Invocation)
    (hi : (Pool.run (Invocation.program env) ⟨w, []⟩ moves).procs[n]? = some i)
    (r : Except PyErr AgentResult) (hr : i.phase.outcome? = some r) :
    ∃ before, before ++ [.start (i.agent, i.inp)] <+: moves ∧
      (Pool.run (Invocation.program env) ⟨w, []⟩ before).procs.length = n ∧
      r.map AgentResult.uncounted =
        (i.agent.invoke env i.inp (Pool.run (Invocation.program env) ⟨w, []⟩ before).shared).1.map
          AgentResult.uncounted := by
  obtain ⟨before, call, k, hearlier, hlength, hview⟩ :=
    Interleaving.run_alone (Invocation.unaware h) w moves hi
  set v := (Pool.run (Invocation.program env) ⟨w, []⟩ before).shared with hv
  change i.view = ((Invocation.program env).alone k (Invocation.start env call v, v)).1.view
    at hview
  obtain ⟨hagent, hinp⟩ := Invocation.view_alone_call env k (Invocation.start env call v, v)
  have hcall : call = (i.agent, i.inp) := by
    have hfirst := congrArg (fun x => (x.1, x.2.1)) hview
    simp only [Invocation.view, hagent, hinp] at hfirst
    exact hfirst.symm
  rw [hcall] at hearlier hview
  -- alone, it is over after all its rounds and the commit
  have hmatches : Invocation.Matches (Invocation.drive env (maxToolRounds + 1)
      (Invocation.start env (i.agent, i.inp) v, v)) (i.agent.invoke env i.inp v) :=
    Invocation.drive_start v
  obtain ⟨hover, -⟩ := hmatches
  rw [← Invocation.alone_eq_drive] at hover
  have hlast := Invocation.view_alone_eq h
    (Invocation.not_asking_of_view hview (Invocation.not_asking_of_outcome hr))
    (Invocation.not_asking_of_outcome hover)
  exact ⟨before, hearlier, hlength, Invocation.uncounted_of_view hr hover (hview.trans hlast)⟩

/-- A model that says whether it was sent more than the prompt and a message. -/
def recallingEnv : Env := demoEnv fun requests =>
  requests.getLast?.map fun request =>
    replies (if request.messages.length ≤ 2 then "Nice to meet you." else "Good to see you again.")

theorem recallingEnv_memoryless : recallingEnv.Memoryless where
  complete earlier earlier' request := by simp [recallingEnv, demoEnv]
  execute _ _ _ := rfl
  commit _ := rfl

/-- A customer sends a second message before the first is answered, and is answered as one who has
not written before. -/
theorem second_message_as_of_start : ∃ i before,
    (Pool.run (Invocation.program recallingEnv) ⟨World.initial, []⟩
      [.start firstAsks, .start firstAsks, .resume 0, .resume 0, .resume 1, .resume 1]).procs[1]? =
        some i ∧
    before ++ [.start (i.agent, i.inp)] <+:
      [.start firstAsks, .start firstAsks, .resume 0, .resume 0, .resume 1, .resume 1] ∧
    (Pool.run (Invocation.program recallingEnv) ⟨World.initial, []⟩ before).procs.length = 1 := by
  obtain ⟨before, hearlier, hlength, -⟩ :=
    run_snapshot recallingEnv recallingEnv_memoryless World.initial
      [.start firstAsks, .start firstAsks, .resume 0, .resume 0, .resume 1, .resume 1] 1 _ rfl _ rfl
  exact ⟨_, before, rfl, hearlier, hlength⟩

end AgentPlatform
