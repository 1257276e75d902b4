import AgentPlatform.Graph.Advertised

/-!
# What surfaces of a sensitive tool

A result says whether a human has to approve, and which decision was taken.  The first is an
attribute of the agent, the second is never set, and the tools are the model's choice.

* `lastDecision` — the decision of the last assessment in a log.
* `ExecutionPath.Surfaces` — the result tells of the sensitive tools that ran.
* `ExecutionPath.surfaces_iff` — **when every result does, whatever the model says.**
-/

namespace AgentPlatform

/-! ## Decisions in a log -/

/-- The decision of a call that assessed a loan successfully. -/
def Event.decision? : Event → Option Dict
  | .called invocation execution =>
    if invocation.name = "check_loan_eligibility" then
      match execution.toExcept with
      | .error _ => none
      | .ok result =>
        if result.ok then
          match result.data.get? "decision" with
          | some (.obj decision) => some decision
          | _ => none
        else none
    else none
  | _ => none

/-- The decision of the last successful assessment. -/
def lastDecision (events : List Event) : Option Dict := (events.filterMap Event.decision?).getLast?

theorem lastDecision_of_mem {events : List Event} {e : Event} (he : e ∈ events) {decision : Dict}
    (h : e.decision? = some decision) : ∃ last, lastDecision events = some last := by
  have hmem : decision ∈ events.filterMap Event.decision? := List.mem_filterMap.2 ⟨e, he, h⟩
  have hne : events.filterMap Event.decision? ≠ [] := List.ne_nil_of_mem hmem
  exact ⟨_, List.getLast?_eq_some_getLast hne⟩

theorem mem_of_lastDecision {events : List Event} {decision : Dict}
    (h : lastDecision events = some decision) : ∃ e ∈ events, e.decision? = some decision :=
  List.mem_filterMap.1 (List.mem_of_getLast? h)

/-- A decision is that of a body that ran. -/
theorem bodyRan_of_decision? {invocation : ToolInvocation} {execution : Execution}
    {decision : Dict} (h : (Event.called invocation execution).decision? = some decision) :
    invocation.name = "check_loan_eligibility" ∧ execution.bodyRan = true := by
  by_cases hname : invocation.name = "check_loan_eligibility"
  · refine ⟨hname, ?_⟩
    cases execution with
    | refused e => simp [Event.decision?, hname, Execution.toExcept] at h
    | ran outcome => rfl
  · simp [Event.decision?, hname] at h

/-! ## Results that tell -/

/-- A run that left `v` and returned `r` tells of the sensitive tools that ran since `w`. -/
def Surfaces (reg : ToolRegistry) (w : World) (r : AgentResult) (v : World) : Prop :=
  ∃ events, v.log = w.log ++ events ∧
    ((∃ e ∈ events, e.RunsSensitive reg) → r.needsHumanApproval = true) ∧
    ∀ decision, lastDecision events = some decision → r.decision = some decision

section Tools

variable {ctx : ToolContext}

/-- Who reaches the eligibility tool may assess a loan without naming the customer. -/
theorem mayAssess_of_reachedBy (h : checkLoanEligibilityTool.ReachedBy ctx) :
    MayAssess ctx none := by
  have hauth : authorizeToolExecution (checkLoanEligibility .ascii).toToolClass ctx
      (selfApprovedCall ctx.userId).arguments = .ok () := authorized_of_reachedBy h
  exact mayAssess_of_authorized rfl hauth

/-- An assessment that comes to a decision. -/
def assessment (ctx : ToolContext) : ToolCall :=
  ⟨"call_1", "check_loan_eligibility", scoredCall ctx none (.int 100000) (.int 12) 700⟩

theorem assessment_decides (rt : PyRuntime) (stores : Stores)
    (h : checkLoanEligibilityTool.ReachedBy ctx) :
    ∃ result decision, executeTool (toolRegistry rt stores) "check_loan_eligibility" ctx
        (assessment ctx).arguments = .ran (.ok result) ∧ result.ok = true ∧
      result.data.get? "decision" = some (.obj decision) := by
  have hmay := mayAssess_of_reachedBy h
  obtain ⟨decision, hdecision, -⟩ := assessEligibility_no_income rt 700 (.int 100000) (.int 12)
  have hasks := scoredCall_asks ctx none (.int 100000) (.int 12) 700
  obtain ⟨hincome, hcibil, hemis⟩ := scoredCall_figures ctx none (.int 100000) (.int 12) 700
  have hrun : (checkLoanEligibility rt).run ctx (assessment ctx).arguments = .ok _ :=
    checkLoanEligibility_run_eq_ok_iff.2 ⟨.int 0, .int 700, .int 0, .int 100000, .int 12, decision,
      hincome, hcibil, hemis, hasks.amount, hasks.tenure, hdecision, rfl⟩
  refine ⟨_, decision.toDict, executeToolWith_eq_ran_iff.2
    ⟨checkLoanEligibility rt, rfl, scoredCall_authorized hmay _ _ _, hrun⟩, rfl, ?_⟩
  simp [ToolResult.success]

/-- A screening that succeeds. -/
def screening (userId : String) : ToolCall :=
  ⟨"call_1", "sanctions_screen", (selfApprovedCall userId).arguments⟩

theorem screening_runs (rt : PyRuntime) (stores : Stores) (h : sanctionsScreenTool.ReachedBy ctx) :
    ∃ result, executeTool (toolRegistry rt stores) "sanctions_screen" ctx
      (screening ctx.userId).arguments = .ran (.ok result) := by
  have hauth : authorizeToolExecution (sanctionsScreen rt).toToolClass ctx
      (screening ctx.userId).arguments = .ok () := authorized_of_reachedBy h
  exact ⟨_, executeToolWith_eq_ran_iff.2 ⟨sanctionsScreen rt, rfl, hauth, rfl⟩⟩

end Tools

namespace ExecutionPath

/-- Whatever the model says, every result tells. -/
def Surfaces (env : Env) (stores : Stores) (inp : AgentInput) (path : ExecutionPath) (w : World) :
    Prop :=
  ∀ complete r v, path.run ((env.on stores).answering complete) inp w = (.ok r, v) →
    AgentPlatform.Surfaces (toolRegistry env.runtime stores) w r v

section Results

variable {env : Env} {stores : Stores} {inp : AgentInput} {w : World} {path : ExecutionPath}
  {agent : Agent}

/-- A model that insists on a call that goes through: the run returns, with the call in its log
and nothing of it in the result. -/
theorem returns_of_call (call : ToolCall) {result : ToolResult}
    (hclean : env.guard.detectPromptInjection inp.message = false)
    (hacting : path.acting env inp = some agent)
    (htaken : ∀ i < path.rows, env.commit (w.runs.asked + i) = true)
    (hcall : executeTool (toolRegistry env.runtime stores) call.name inp.toolContext
      call.arguments = .ran (.ok result)) :
    ∃ r v, path.run ((env.on stores).insisting call) inp w = (.ok r, v) ∧
      r.needsHumanApproval = agent.needsHitl ∧ r.decision = none ∧
      ∀ events, v.log = w.log ++ events →
        .called (inp.invocation call) (.ran (.ok result)) ∈ events := by
  have hguard : (env.on stores).guard.guardInput inp.message = .ok () :=
    env.guard.guardInput_of_not_injection hclean
  have hacting' : path.acting (env.on stores) inp = some agent :=
    (path.acting_answering env stores inp env.complete).trans hacting
  have hexecute : ∀ before, (env.on stores).execute before (inp.invocation call) =
      .ran (.ok result) := fun _ => hcall
  obtain ⟨r, v, hrun⟩ := run_insisting call hguard hacting'
    (fun before => by rw [hexecute]; rfl) htaken
  obtain ⟨agent', hagent, happroval, hdecision, -⟩ := run_returned hrun
  have hsame : agent' = agent :=
    Option.some.inj (hagent.symm.trans ((path.acting_answering env stores inp _).trans hacting))
  refine ⟨r, v, hrun, hsame ▸ happroval, hdecision, fun events hlog => ?_⟩
  obtain ⟨asked, hprefix⟩ := asked_and_called call hguard hacting' w
  rw [hexecute, hrun, hlog, List.prefix_append_right_inj] at hprefix
  exact hprefix.subset (List.mem_cons_of_mem _ (List.mem_cons_self ..))

/-- A decision that does not surface. -/
theorem not_surfaces_of_loans (hclean : env.guard.detectPromptInjection inp.message = false)
    (hacting : path.acting env inp = some agent)
    (htaken : ∀ i < path.rows, env.commit (w.runs.asked + i) = true)
    (hreached : checkLoanEligibilityTool.ReachedBy inp.toolContext) :
    ¬ path.Surfaces env stores inp w := by
  intro h
  obtain ⟨result, decision, hran, hok, hdata⟩ := assessment_decides env.runtime stores hreached
  obtain ⟨r, v, hrun, -, hnone, hcalled⟩ :=
    returns_of_call (assessment inp.toolContext) hclean hacting htaken hran
  obtain ⟨events, hlog, -, hdecision⟩ := h _ r v hrun
  have hevent : (Event.called (inp.invocation (assessment inp.toolContext))
      (.ran (.ok result))).decision? = some decision := by
    simp [Event.decision?, AgentInput.invocation, assessment, Execution.toExcept, hok, hdata]
  obtain ⟨last, hlast⟩ := lastDecision_of_mem (hcalled events hlog) hevent
  have hresult := hdecision last hlast
  rw [hnone] at hresult
  cases hresult

/-- A screening that does not surface. -/
theorem not_surfaces_of_sanctions (hclean : env.guard.detectPromptInjection inp.message = false)
    (hacting : path.acting env inp = some agent)
    (htaken : ∀ i < path.rows, env.commit (w.runs.asked + i) = true)
    (hreached : sanctionsScreenTool.ReachedBy inp.toolContext)
    (hhitl : agent.needsHitl = false) : ¬ path.Surfaces env stores inp w := by
  intro h
  obtain ⟨result, hran⟩ := screening_runs env.runtime stores hreached
  obtain ⟨r, v, hrun, happroval, -, hcalled⟩ :=
    returns_of_call (screening inp.userId) hclean hacting htaken hran
  obtain ⟨events, hlog, hsensitive, -⟩ := h _ r v hrun
  have hneeds := hsensitive ⟨_, hcalled events hlog,
    ⟨⟨sanctionsScreen env.runtime, rfl, rfl⟩, rfl⟩⟩
  rw [happroval, hhitl] at hneeds
  cases hneeds

/-- Who reaches neither tool, or has screenings approved, sees what ran. -/
theorem surfaces_of_unreached (hacting : path.acting env inp = some agent)
    (hloans : ¬ checkLoanEligibilityTool.ReachedBy inp.toolContext)
    (hsanctions : ¬ sanctionsScreenTool.ReachedBy inp.toolContext ∨ agent.needsHitl = true) :
    path.Surfaces env stores inp w := by
  intro complete r v hrun
  obtain ⟨agent', hagent, happroval, -, -⟩ := run_returned hrun
  rw [path.acting_answering env stores inp complete, hacting] at hagent
  obtain rfl := Option.some.inj hagent
  obtain ⟨events, hlog, hauthorized⟩ := path.run_authorized env stores complete inp w
  rw [hrun] at hlog
  refine ⟨events, hlog, ?_, ?_⟩
  · rintro ⟨e, he, hsensitive⟩
    cases e with
    | asked request answer => exact hsensitive.elim
    | remembered agentKey inp' reply => exact hsensitive.elim
    | recorded report => exact hsensitive.elim
    | called invocation execution =>
      obtain ⟨⟨tool, htool, hmarked⟩, hran⟩ := hsensitive
      obtain ⟨tool', htool', hauth⟩ := hauthorized _ he hran
      obtain rfl : tool = tool' := Option.some.inj (htool.symm.trans htool')
      have hreached := reachedBy_of_authorized hauth
      rcases sensitive_cases htool hmarked with rfl | rfl
      · exact absurd hreached hloans
      · rcases hsanctions with hunreached | hhitl
        · exact absurd hreached hunreached
        · rw [happroval, hhitl]
  · intro decision hlast
    obtain ⟨e, he, hdecision⟩ := mem_of_lastDecision hlast
    cases e with
    | asked request answer => cases hdecision
    | remembered agentKey inp' reply => cases hdecision
    | recorded report => cases hdecision
    | called invocation execution =>
      obtain ⟨hname, hran⟩ := bodyRan_of_decision? hdecision
      obtain ⟨tool, htool, hauth⟩ := hauthorized _ he hran
      rw [hname] at htool
      obtain rfl : checkLoanEligibility env.runtime = tool := Option.some.inj htool
      exact absurd (reachedBy_of_authorized hauth) hloans

/-- **When every result tells**: no run returns, since the message is refused or the database
does not take a row; or the caller reaches no loans, and either no screening or an agent whose
results need an approval. -/
theorem surfaces_iff (env : Env) (stores : Stores) (inp : AgentInput) (path : ExecutionPath)
    (w : World) :
    path.Surfaces env stores inp w ↔
      env.guard.detectPromptInjection inp.message = true ∨
        (∃ i < path.rows, env.commit (w.runs.asked + i) = false) ∨
        ∀ agent, path.acting env inp = some agent →
          ¬ checkLoanEligibilityTool.ReachedBy inp.toolContext ∧
            (¬ sanctionsScreenTool.ReachedBy inp.toolContext ∨ agent.needsHitl = true) := by
  constructor
  · intro h
    by_contra hnot
    push Not at hnot
    obtain ⟨hinjection, htaken, agent, hacting, hreached⟩ := hnot
    have hclean : env.guard.detectPromptInjection inp.message = false := by simpa using hinjection
    have htaken' : ∀ i < path.rows, env.commit (w.runs.asked + i) = true := by simpa using htaken
    by_cases hloans : checkLoanEligibilityTool.ReachedBy inp.toolContext
    · exact not_surfaces_of_loans hclean hacting htaken' hloans h
    · obtain ⟨hsanctions, hhitl⟩ := hreached hloans
      exact not_surfaces_of_sanctions hclean hacting htaken' hsanctions (by simpa using hhitl) h
  · rintro (hinjection | ⟨i, hi, hrefused⟩ | hreach)
    · intro complete r v hrun
      have hguard : ((env.on stores).answering complete).guard.guardInput inp.message = .error _ :=
        env.guard.guardInput_of_injection hinjection
      obtain ⟨e, v', hraised, -⟩ := path.run_of_refused (w := w) hguard
      rw [hrun] at hraised
      cases hraised
    · intro complete r v hrun
      obtain ⟨agent, -, -, -, htaken⟩ := run_returned hrun
      have htaken' : env.commit (w.runs.asked + i) = true := htaken i hi
      rw [hrefused] at htaken'
      cases htaken'
    · intro complete r v hrun
      obtain ⟨agent, hagent, -⟩ := run_returned hrun
      have hacting : path.acting env inp = some agent :=
        (path.acting_answering env stores inp complete).symm.trans hagent
      obtain ⟨hloans, hsanctions⟩ := hreach agent hacting
      exact surfaces_of_unreached hacting hloans hsanctions complete r v hrun

end Results

/-- A customer has a loan assessed.  The result of the loan eligibility agent has no decision,
and that of the customer support does not even need an approval. -/
theorem assessment_does_not_surface :
    ¬ (specialist loanEligibilityAgent).Surfaces (demoEnv fun _ => none) demoStores demoInput
        World.initial ∧
      ∃ r v, (specialist customerSupportAgent).run
          ((demoEnv fun _ => none).insisting (assessment demoInput.toolContext)) demoInput
          World.initial = (.ok r, v) ∧
        r.needsHumanApproval = false ∧
        ∃ e ∈ v.log, e.RunsSensitive (toolRegistry .ascii demoStores) := by
  have hself : anyCan defaultRbac demoInput.roles "loan:self" = true := by decide
  have hreached : checkLoanEligibilityTool.ReachedBy demoInput.toolContext :=
    Or.inr (Or.inr ⟨"loan:read", rfl, Or.inr ⟨by decide, hself, rfl⟩⟩)
  have hclean : (demoEnv fun _ => none).guard.detectPromptInjection demoInput.message = false := rfl
  have htaken : ∀ path : ExecutionPath, ∀ i < path.rows,
      (demoEnv fun _ => none).commit (World.initial.runs.asked + i) = true := fun _ _ _ => rfl
  have hacting : ∀ agent, (specialist agent).acting (demoEnv fun _ => none) demoInput =
      some agent := fun _ => rfl
  constructor
  · exact not_surfaces_of_loans hclean (hacting loanEligibilityAgent) (htaken _) hreached
  · obtain ⟨result, decision, hran, -⟩ := assessment_decides .ascii demoStores hreached
    obtain ⟨r, v, hrun, happroval, -, hcalled⟩ := returns_of_call
      (assessment demoInput.toolContext) hclean (hacting customerSupportAgent) (htaken _) hran
    exact ⟨r, v, hrun, happroval, _, hcalled v.log rfl,
      ⟨⟨checkLoanEligibility .ascii, rfl, rfl⟩, rfl⟩⟩

end ExecutionPath

end AgentPlatform
