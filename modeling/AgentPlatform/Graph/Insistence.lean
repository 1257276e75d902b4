import AgentPlatform.Graph.Paths
import AgentPlatform.Graph.Refinement

/-!
# A model that insists

The model asks for one and the same tool call, whatever it is told.  On every path the call is
made in the first round; and if the tool does not raise and the database takes the rows, the run
goes through all its rounds and returns.

* `ExecutionPath.asked_and_called` — **the call is made.**
* `ExecutionPath.run_insisting` — **the run returns.**
-/

namespace AgentPlatform

open StateGraph

/-- The environment with a model that always asks for one call. -/
def Env.insisting (env : Env) (call : ToolCall) : Env :=
  env.answering fun _ => some (asksFor [call])

section Insistence

variable {env : Env} {call : ToolCall} {agent : Agent} {inp : AgentInput} {w : World}

/-- The model asks for the call. -/
theorem exchange_insisting (messages : List ChatMessage) (log : List Event) :
    exchange (env.insisting call) agent inp messages log =
      (.ok (asksFor [call]), log ++
        [.asked (agent.request (env.insisting call) inp messages) (some (asksFor [call]))]) := by
  have hclean : env.guard.guardOutput (asksFor [call]).text = .ok () :=
    env.guard.guardOutput_eq_ok_iff.2 env.guard.clean_empty
  have hanswer : (env.insisting call).answer log (agent.request (env.insisting call) inp messages) =
      some (asksFor [call]) := rfl
  have hguard : (env.insisting call).guard.guardOutput (asksFor [call]).text = .ok () := hclean
  simp only [exchange, hanswer, hguard]

/-- Every round is one of this call. -/
theorem dialogue_insisting (n : ℕ) (messages : List ChatMessage) (log : List Event) :
    (dialogue (env.insisting call) agent inp n messages log).rounds.length = n ∧
      ∀ r ∈ (dialogue (env.insisting call) agent inp n messages log).rounds,
        ∃ before, r.executions = [env.execute before (inp.invocation call)] := by
  induction n generalizing messages log with
  | zero => exact ⟨rfl, fun r hr => absurd hr List.not_mem_nil⟩
  | succ n ih =>
    have hne : (asksFor [call]).toolCalls ≠ [] := List.cons_ne_nil _ _
    rw [dialogue_of_round (exchange_insisting messages log) hne, Dialogue.cons_rounds,
      List.length_cons]
    obtain ⟨hlength, hrounds⟩ := ih _ _
    refine ⟨by rw [hlength], fun r hr => ?_⟩
    rcases List.mem_cons.1 hr with rfl | hlater
    · exact ⟨_, rfl⟩
    · exact hrounds r hlater

/-- If the tool never raises, every round is quiet. -/
theorem dialogue_insisting_quiet
    (hcall : ∀ before, (env.execute before (inp.invocation call)).raises = false) (n : ℕ)
    (messages : List ChatMessage) (log : List Event) :
    ∀ r ∈ (dialogue (env.insisting call) agent inp n messages log).rounds, r.Quiet := by
  intro r hr x hx
  obtain ⟨before, hexecutions⟩ := (dialogue_insisting n messages log).2 r hr
  rw [hexecutions] at hx
  rw [List.mem_singleton.1 hx]
  exact hcall before

/-- The first round of the graph. -/
theorem asked_and_called_graph (call : ToolCall)
    (hguard : env.guard.guardInput inp.message = .ok ()) (agent : Agent) (w : World) :
    ∃ asked, w.log ++ [asked, .called (inp.invocation call)
        (env.execute (invocationsIn w.log) (inp.invocation call))] <+:
      (agent.invokeGraph (env.insisting call) inp w).2.log := by
  set s := startState agent inp (w.checkpoints agent.key inp.correlationId) w
  have hpending : (afterAnswer s (asksFor [call])).pending = [call] :=
    afterAnswer_pending (List.cons_ne_nil _ _)
  have hguard' : (env.insisting call).guard.guardInput inp.message = .ok () := hguard
  have hx : exchange (env.insisting call) agent inp s.messages w.log = _ := exchange_insisting _ _
  have hfirst := steps_first_call (L := 23) startState_input hguard' hx hpending
    (by simp [maxToolRounds])
  let asked : Event :=
    .asked (agent.request (env.insisting call) inp s.messages) (some (asksFor [call]))
  have hsame : invocationsIn (w.log ++ [asked]) = invocationsIn w.log := by
    simp [invocationsIn, asked, Event.invocation?]
  rw [hsame, List.append_assoc] at hfirst
  exact ⟨asked, hfirst⟩

/-- The loop returns. -/
theorem invoke_insisting (call : ToolCall) (agent : Agent)
    (hguard : env.guard.guardInput inp.message = .ok ())
    (htaken : env.commit w.runs.asked = true) :
    ∃ r v, agent.invoke (env.insisting call) inp w = (.ok r, v) := by
  have hcap : (agent.dialogueFrom (env.insisting call) inp w).Capped :=
    (dialogue_insisting _ _ _).1
  have hguard' : (env.insisting call).guard.guardInput inp.message = .ok () := hguard
  have htaken' : (env.insisting call).commit w.runs.asked = true := htaken
  rw [Agent.invoke_of_cap hguard' hcap, Agent.close_apply]
  simp only [World.withLog_runs, htaken', if_true]
  exact ⟨_, _, rfl⟩

/-- The graph returns as well, after one more answer. -/
theorem invokeGraph_insisting (agent : Agent) (hguard : env.guard.guardInput inp.message = .ok ())
    (hcall : ∀ before, (env.execute before (inp.invocation call)).raises = false)
    (htaken : env.commit w.runs.asked = true) :
    ∃ r v, agent.invokeGraph (env.insisting call) inp w = (.ok r, v) := by
  set env' := env.insisting call with henv
  have hguard' : env'.guard.guardInput inp.message = .ok () := hguard
  have hquiet : ∀ r ∈ (threadDialogue env' agent inp
      (w.checkpoints agent.key inp.correlationId) w).rounds, r.Quiet :=
    dialogue_insisting_quiet hcall _ _ _
  obtain ⟨s', w', L, hfollows, hrun⟩ := steps_start hguard' hquiet
  have hinput : s'.input = some inp := hfollows.input
  have hsteps : maxToolRounds ≤ s'.steps.getD 0 := by
    have hlength : (threadDialogue env' agent inp (w.checkpoints agent.key inp.correlationId)
        w).rounds.length = maxToolRounds := (dialogue_insisting _ _ _).1
    rw [hfollows.steps, hlength]
    omega
  have htaken' : env'.commit w'.runs.asked = true := by
    rw [hfollows.runs]
    exact htaken
  rw [invokeGraph_apply, hrun,
    steps_closing hinput hguard' (exchange_insisting _ _) (Or.inr hsteps), Agent.close_apply]
  simp only [World.counted_runs, World.withLog_runs, htaken', if_true]
  exact ⟨_, _, rfl⟩

namespace ExecutionPath

/-- **The call is made**, on every path. -/
theorem asked_and_called (call : ToolCall) {path : ExecutionPath}
    (hguard : env.guard.guardInput inp.message = .ok ())
    (hacting : path.acting env inp = some agent) (w : World) :
    ∃ asked, w.log ++ [asked, .called (inp.invocation call)
        (env.execute (invocationsIn w.log) (inp.invocation call))] <+:
      (path.run (env.insisting call) inp w).2.log := by
  have hguard' : (env.insisting call).guard.guardInput inp.message = .ok () := hguard
  have hinsists : (env.insisting call).complete = fun _ => some (asksFor [call]) := rfl
  let Calls : Run AgentResult → Prop := fun run =>
    ∃ asked, w.log ++ [asked, .called (inp.invocation call)
      (env.execute (invocationsIn w.log) (inp.invocation call))] <+: (run w).2.log
  have hclassic : Calls (agent.invoke (env.insisting call) inp) :=
    AgentPlatform.asked_and_called hguard' hinsists agent w
  have hgraph : Calls (agent.invokeGraph (env.insisting call) inp) :=
    asked_and_called_graph call hguard agent w
  have hacting' : path.acting (env.insisting call) inp = some agent := by
    rw [← hacting]
    cases path <;> rfl
  obtain ⟨asked, hprefix⟩ : Calls (path.loop (env.insisting call) inp) := by
    rw [loop_of_acting hacting']
    exact behave_of_both (P := Calls) hclassic hgraph path
  obtain ⟨events, hlog, -⟩ := (path.run_after (env.insisting call) inp w).uncalled
  exact ⟨asked, hprefix.trans ⟨events, hlog.symm⟩⟩

/-- **The run returns**, on every path. -/
theorem run_insisting (call : ToolCall) {path : ExecutionPath}
    (hguard : env.guard.guardInput inp.message = .ok ())
    (hacting : path.acting env inp = some agent)
    (hcall : ∀ before, (env.execute before (inp.invocation call)).raises = false)
    (htaken : ∀ i < path.rows, env.commit (w.runs.asked + i) = true) :
    ∃ r v, path.run (env.insisting call) inp w = (.ok r, v) := by
  have htaken₀ : env.commit w.runs.asked = true := htaken 0 path.rows_pos
  have hclassic := invoke_insisting call agent hguard htaken₀
  have hgraph := invokeGraph_insisting agent hguard hcall htaken₀
  -- what is composed is empty, and so passes the detectors
  have hchecked : checkedAnswer env (some (asksFor [call])) = .ok (asksFor [call]) :=
    checkedAnswer_eq_ok_iff.2 ⟨rfl, env.guard.guardOutput_eq_ok_iff.2 env.guard.clean_empty⟩
  cases path with
  | specialist _ =>
    obtain rfl := Option.some.inj hacting
    exact hclassic
  | supervisor reg =>
    obtain ⟨r, v, hloop⟩ := hclassic
    have hrun : (Supervisor.invokeWith (fun specialist => specialist.invoke (env.insisting call))
        (env.answering fun _ => some (asksFor [call])) reg inp w).1 = _ :=
      invokeWith_of_ok hacting hloop
    rw [hchecked] at hrun
    exact ⟨_, _, Prod.ext hrun rfl⟩
  | specialistGraph _ =>
    obtain rfl := Option.some.inj hacting
    exact hgraph
  | supervisorGraph reg =>
    obtain ⟨r, v, hloop⟩ : ∃ r v, agent.invokeResolved (env.insisting call) inp w = (.ok r, v) :=
      Agent.invokeResolved_of_both (P := fun x => ∃ r v, x w = (.ok r, v)) hclassic hgraph
    have hrun : (Supervisor.invokeGraphWith
        (fun specialist => specialist.invokeResolved (env.insisting call))
        (env.answering fun _ => some (asksFor [call])) reg inp w).1 = _ :=
      invokeGraphWith_of_ok hguard hacting hloop
    obtain ⟨used, hrecorded, -⟩ := (Triple.of_ok Agent.invokeResolved_recorded rfl hloop).run
    obtain ⟨report, -, hruns⟩ := hrecorded.row
    have htaken₁ : env.commit v.runs.asked = true := by
      rw [hruns, Journal.taken_asked]
      exact htaken 1 (Nat.lt_succ_self 1)
    rw [hchecked, htaken₁] at hrun
    exact ⟨_, _, Prod.ext hrun rfl⟩

end ExecutionPath

end Insistence

end AgentPlatform
