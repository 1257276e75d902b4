import AgentPlatform.Graph.Insistence

/-!
# Advertised tools

An agent offers the model its own tools, and the tool the model names is looked up among all
that are registered.  What keeps a run to the offered tools are the permissions of the caller.

* `ToolClass.ReachedBy` — the callers who can get a tool to run at all.
* `ExecutionPath.OnlyOffered` — only offered tools run, and none after the loop.
* `ExecutionPath.onlyOffered_iff` — **when only offered tools run, whatever the model says.**
-/

namespace AgentPlatform

/-! ## Who reaches a tool -/

/-- The caller can hold the permission of the tool: as it is, or in its self-scoped form on a
resource of its own. -/
def ToolClass.ReachedBy (tool : ToolClass) (ctx : ToolContext) : Prop :=
  tool.requiredPermission = none ∨ tool.requiredPermission = some "" ∨
    ∃ permission, tool.requiredPermission = some permission ∧
      (anyCan defaultRbac ctx.roles permission = true ∨
        selfPermission permission ≠ permission ∧
          anyCan defaultRbac ctx.roles (selfPermission permission) = true ∧
          ctx.resourceOwnerId = some ctx.userId)

section Reach

variable {tool : ToolClass} {ctx : ToolContext} {arguments : Dict}

theorem reachedBy_of_authorized (h : authorizeToolExecution tool ctx arguments = .ok ()) :
    tool.ReachedBy ctx := by
  obtain ⟨hheld, -, -⟩ := authorizeToolExecution_eq_ok_iff.1 h
  rcases hheld with hnone | hempty | ⟨permission, hp, hdirect | ⟨hne, hself, hown, -⟩⟩
  · exact Or.inl hnone
  · exact Or.inr (Or.inl hempty)
  · exact Or.inr (Or.inr ⟨permission, hp, Or.inl hdirect⟩)
  · exact Or.inr (Or.inr ⟨permission, hp, Or.inr ⟨hne, hself, hown⟩⟩)

/-- With an approval of its own, the call of a caller who reaches the tool is authorized. -/
theorem authorized_of_reachedBy (h : tool.ReachedBy ctx) :
    authorizeToolExecution tool ctx (selfApprovedCall ctx.userId).arguments = .ok () := by
  have howner : resourceOwner (selfApprovedCall ctx.userId).arguments = .str ctx.userId := rfl
  refine authorizeToolExecution_eq_ok_iff.2 ⟨?_, ?_, fun hsensitive => ⟨rfl, ?_⟩⟩
  · rcases h with hnone | hempty | ⟨permission, hp, hdirect | ⟨hne, hself, hown⟩⟩
    · exact Or.inl hnone
    · exact Or.inr (Or.inl hempty)
    · exact Or.inr (Or.inr ⟨permission, hp, Or.inl hdirect⟩)
    · exact Or.inr (Or.inr ⟨permission, hp, Or.inr ⟨hne, hself, hown, howner⟩⟩)
  · have haction : abacAction tool = "read" ∨ abacAction tool = "write" := by
      unfold abacAction
      split
      · exact Or.inl rfl
      · exact Or.inr rfl
    rw [defaultAbac_allows _ haction]
    simp [sameTenant, attributes, selfApprovedCall, Dict.get, Dict.getD, Dict.get?_cons, Json.pyEq]
  · have hgrant : ((selfApprovedCall ctx.userId).arguments.get "_approved").truthy = true := rfl
    rw [checkOpaPolicy, hgrant, hsensitive]
    rfl

end Reach

/-! ## Only offered tools -/

/-- The body of a tool ran only if the tool is one of the names. -/
def Event.RunsOnly (names : List String) : Event → Prop
  | .called invocation execution => execution.bodyRan = true → invocation.name ∈ names
  | _ => True

theorem Event.Uncalled.runsOnly {e : Event} (h : e.Uncalled) (names : List String) :
    e.RunsOnly names := by
  cases e with
  | called invocation execution => cases h
  | asked request answer => trivial
  | remembered agentKey inp reply => trivial
  | recorded report => trivial

namespace ExecutionPath

/-- The names of the tools the acting agent offers. -/
def offered (env : Env) (inp : AgentInput) (path : ExecutionPath) : List String :=
  match path.acting env inp with
  | none => []
  | some agent => agent.availableTools.map ToolClass.name

/-- Whatever the model says, only tools that the acting agent offers run; and once its loop has
ended, the supervisor calls none. -/
structure OnlyOffered (env : Env) (stores : Stores) (inp : AgentInput) (path : ExecutionPath)
    (w : World) : Prop where
  runs : ∀ complete, w.Since (Event.RunsOnly (path.offered env inp))
    (path.run ((env.on stores).answering complete) inp w).2
  supervisor : ∀ complete,
    (path.loop ((env.on stores).answering complete) inp w).2.Since Event.Uncalled
      (path.run ((env.on stores).answering complete) inp w).2

section Offered

variable {env : Env} {stores : Stores} {inp : AgentInput} {w : World} {path : ExecutionPath}

/-- Who acts does not depend on the model. -/
theorem acting_answering (path : ExecutionPath) (env : Env) (stores : Stores) (inp : AgentInput)
    (complete : List LLMRequest → Option LLMResponse) :
    path.acting ((env.on stores).answering complete) inp = path.acting env inp := by
  cases path with
  | specialist agent => rfl
  | supervisor reg => rfl
  | specialistGraph agent => rfl
  | supervisorGraph reg => rfl

/-- The call of a tool that is not offered, by a model that insists on it. -/
theorem not_onlyOffered {agent : Agent} {tool : Tool}
    (hclean : env.guard.detectPromptInjection inp.message = false)
    (hacting : path.acting env inp = some agent)
    (htool : tool ∈ (toolRegistry env.runtime stores).tools)
    (hreached : tool.toToolClass.ReachedBy inp.toolContext)
    (hoffered : tool.name ∉ agent.availableTools.map ToolClass.name) :
    ¬ path.OnlyOffered env stores inp w := by
  intro h
  let call : ToolCall := ⟨"call_1", tool.name, (selfApprovedCall inp.userId).arguments⟩
  have hguard : (env.on stores).guard.guardInput inp.message = .ok () :=
    env.guard.guardInput_of_not_injection hclean
  have hacting' : path.acting (env.on stores) inp = some agent :=
    (path.acting_answering env stores inp env.complete).trans hacting
  obtain ⟨asked, hprefix⟩ := asked_and_called call hguard hacting' w
  have hran : (executeTool (toolRegistry env.runtime stores) tool.name inp.toolContext
      (selfApprovedCall inp.userId).arguments).bodyRan = true :=
    bodyRan_executeTool_iff.2 ⟨tool, ToolRegistry.getTool_name htool,
      authorized_of_reachedBy hreached⟩
  have hname := (h.runs _).of_log hprefix _ (List.mem_cons_of_mem _ (List.mem_cons_self ..)) hran
  rw [offered, hacting] at hname
  exact hoffered hname

/-- **When only offered tools run**: the message is refused, or the acting agent offers every
registered tool that its caller reaches. -/
theorem onlyOffered_iff (env : Env) (stores : Stores) (inp : AgentInput) (path : ExecutionPath)
    (w : World) :
    path.OnlyOffered env stores inp w ↔
      env.guard.detectPromptInjection inp.message = true ∨
        ∀ agent, path.acting env inp = some agent →
          ∀ tool ∈ (toolRegistry env.runtime stores).tools,
            tool.toToolClass.ReachedBy inp.toolContext →
              tool.name ∈ agent.availableTools.map ToolClass.name := by
  constructor
  · intro h
    by_contra hnot
    push Not at hnot
    obtain ⟨hclean, agent, hacting, tool, htool, hreached, hoffered⟩ := hnot
    exact not_onlyOffered (by simpa using hclean) hacting htool hreached hoffered h
  · intro h
    refine ⟨fun complete => ?_, fun complete => (path.run_after _ inp w).uncalled⟩
    rcases h with hinjection | hreach
    · have hguard : ((env.on stores).answering complete).guard.guardInput inp.message = .error _ :=
        env.guard.guardInput_of_injection hinjection
      obtain ⟨e, v, hrun, huntouched, -⟩ := path.run_of_refused (w := w) hguard
      rw [hrun]
      exact ⟨[], by rw [huntouched.log, List.append_nil], by simp⟩
    · have hauthorized := path.run_authorized env stores complete inp w
      cases hacting : path.acting env inp with
      | none =>
        have hloop := loop_of_none
          ((path.acting_answering env stores inp complete).trans hacting) w
        have huncalled := (path.run_after ((env.on stores).answering complete) inp w).uncalled
        rw [hloop] at huncalled
        exact huncalled.mono fun _ he => he.runsOnly _
      | some agent =>
        rw [offered, hacting]
        refine hauthorized.mono fun e he => ?_
        cases e with
        | called invocation execution =>
          intro hran
          obtain ⟨tool, htool, hauth⟩ := he hran
          obtain ⟨hmem, hname⟩ := ToolRegistry.getTool_mem htool
          rw [← hname]
          exact hreach agent hacting tool hmem (reachedBy_of_authorized hauth)
        | asked request answer => trivial
        | remembered agentKey inp' reply => trivial
        | recorded report => trivial

end Offered

/-- A customer talks to the customer support, and the model assesses a loan. -/
theorem loan_assessed_by_customer_support :
    ¬ (specialist customerSupportAgent).OnlyOffered (demoEnv fun _ => none) demoStores demoInput
        World.initial ∧
      ¬ World.initial.Since (fun e => ¬ e.RunsSensitive (toolRegistry .ascii demoStores))
        ((specialist customerSupportAgent).run
          (demoEnv (callsOnce [selfApprovedCall "cust_1001"])) demoInput World.initial).2 := by
  let call := selfApprovedCall "cust_1001"
  let execution := executeOn .ascii demoStores [] (demoInput.invocation call)
  have hran : execution.bodyRan = true := by decide
  have hlog : ∃ asked, World.initial.log ++ [asked, .called (demoInput.invocation call) execution]
      <+: ((specialist customerSupportAgent).run (demoEnv (callsOnce [call])) demoInput
        World.initial).2.log := ⟨_, _, rfl⟩
  obtain ⟨asked, hprefix⟩ := hlog
  have hmem : Event.called (demoInput.invocation call) execution ∈
      [asked, .called (demoInput.invocation call) execution] :=
    List.mem_cons_of_mem _ (List.mem_cons_self ..)
  constructor
  · intro h
    have hname : "check_loan_eligibility" ∈ ["get_customer_profile"] :=
      (h.runs (callsOnce [call])).of_log hprefix _ hmem hran
    exact absurd hname (by decide)
  · intro hsafe
    exact hsafe.of_log hprefix _ hmem ⟨⟨checkLoanEligibility .ascii, rfl, rfl⟩, hran⟩

end ExecutionPath

end AgentPlatform
