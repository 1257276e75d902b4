import AgentPlatform.Agents.Dialogue
import AgentPlatform.Agents.Specialized
import AgentPlatform.Tools.Figures

/-!
# Who approves

A sensitive tool needs a ticket and, unless the caller is a compliance officer, a
grant.  Both are read off the arguments of the call, and these are what the model
wrote: where the other layers pass, the model decides.

* `AgreeOffApproval` — calls that differ in the approval only.
* `approval_decides_iff` — **which decisions depend on the approval**.
* `Event.RunsSensitive` — the body of a sensitive tool ran.
* `no_sensitive_run_iff` — **whose runs no model can lead to a sensitive tool**.
* `approval_iff` — both, for a caller who is not a compliance officer.
-/

namespace AgentPlatform

/-! ## Decisions -/

/-- The fields an approval is read off. -/
def approvalFields : List String := ["approval_ticket_id", "_approved"]

/-- Two calls that agree on everything but the approval. -/
def AgreeOffApproval (arguments arguments' : Dict) : Prop :=
  ∀ k, k ∉ approvalFields → arguments.get? k = arguments'.get? k

/-- The arguments with a ticket and a grant. -/
def approve (arguments : Dict) : Dict :=
  (arguments.set "approval_ticket_id" (.bool true)).set "_approved" (.bool true)

/-- The arguments without a ticket. -/
def withdraw (arguments : Dict) : Dict := arguments.set "approval_ticket_id" .null

section Decisions

variable {rbac : RBAC} {abac : ABACPolicy} {tool : ToolClass} {ctx : ToolContext}
  {arguments arguments' : Dict}

theorem agreeOffApproval_set {k : String} (hk : k ∈ approvalFields) (v : Json) :
    AgreeOffApproval arguments (arguments.set k v) := by
  intro k' hk'
  have hne : k' ≠ k := by
    rintro rfl
    exact hk' hk
  rw [Dict.get?_set, if_neg hne]

theorem agreeOffApproval_approve : AgreeOffApproval arguments (approve arguments) := by
  intro k hk
  rw [approve, ← agreeOffApproval_set (by decide) _ k hk, ← agreeOffApproval_set (by decide) _ k hk]

theorem agreeOffApproval_withdraw : AgreeOffApproval arguments (withdraw arguments) :=
  agreeOffApproval_set (by decide) _

/-- The layers before the approval do not read it. -/
theorem checkPermission_congr (h : AgreeOffApproval arguments arguments') :
    checkPermission rbac tool ctx arguments = checkPermission rbac tool ctx arguments' := by
  have howner : ownsResource ctx arguments = ownsResource ctx arguments' := by
    unfold ownsResource resourceOwner Dict.get
    rw [h "customer_id" (by decide), h "resource_owner_id" (by decide)]
  unfold checkPermission
  rw [howner]

theorem attributes_congr (h : AgreeOffApproval arguments arguments') :
    attributes ctx arguments = attributes ctx arguments' := by
  simp only [attributes, Dict.getD, h "tenant_id" (by decide)]

/-- The layers before the approval, as a condition. -/
def ReachesApproval (rbac : RBAC) (abac : ABACPolicy) (tool : ToolClass) (ctx : ToolContext)
    (arguments : Dict) : Prop :=
  PermissionHeld rbac tool ctx arguments ∧
    abac.allows (abacAction tool) "*" (attributes ctx arguments) = true

theorem reachesApproval_congr (h : AgreeOffApproval arguments arguments') :
    ReachesApproval rbac abac tool ctx arguments ↔
      ReachesApproval rbac abac tool ctx arguments' := by
  unfold ReachesApproval
  rw [← checkPermission_eq_ok_iff, ← checkPermission_eq_ok_iff, checkPermission_congr h,
    attributes_congr h]

/-- With a ticket and a grant in its arguments, a call that gets there is authorized. -/
theorem authorized_approve (h : ReachesApproval rbac abac tool ctx arguments) :
    authorizeToolExecution tool ctx (approve arguments) rbac abac = .ok () := by
  obtain ⟨hheld, hattributes⟩ := (reachesApproval_congr agreeOffApproval_approve).1 h
  refine authorizeToolExecution_eq_ok_iff.2 ⟨hheld, hattributes, fun _ => ?_⟩
  have hticket : (approve arguments).get "approval_ticket_id" = .bool true := by
    simp [approve, Dict.get, Dict.get?_set]
  have hgrant : (approve arguments).get "_approved" = .bool true := by
    simp [approve, Dict.get, Dict.get?_set]
  rw [hticket, checkOpaPolicy, hgrant]
  exact ⟨by decide, by split <;> simp [Json.truthy, PyNum.val]⟩

/-- Without a ticket, no call to a sensitive tool is. -/
theorem not_authorized_withdraw (hsensitive : tool.sensitive = true) :
    authorizeToolExecution tool ctx (withdraw arguments) rbac abac ≠ .ok () := by
  intro h
  obtain ⟨-, -, happroval⟩ := authorizeToolExecution_eq_ok_iff.1 h
  have hticket : (withdraw arguments).get "approval_ticket_id" = .null := by
    simp [withdraw, Dict.get, Dict.get?_set]
  have htruthy := (happroval hsensitive).1
  rw [hticket] at htruthy
  cases htruthy

/-- **Which decisions depend on the approval**: of a sensitive tool, those the other layers
let through. -/
theorem approval_decides_iff (hsensitive : tool.sensitive = true) :
    (∀ arguments', AgreeOffApproval arguments arguments' →
      authorizeToolExecution tool ctx arguments' rbac abac =
        authorizeToolExecution tool ctx arguments rbac abac) ↔
      ¬ ReachesApproval rbac abac tool ctx arguments := by
  constructor
  · intro hsame hreaches
    have happroved := authorized_approve hreaches
    rw [hsame _ agreeOffApproval_approve, ← hsame _ agreeOffApproval_withdraw] at happroved
    exact not_authorized_withdraw hsensitive happroved
  · intro hreaches arguments' hagree
    unfold authorizeToolExecution
    rw [← checkPermission_congr hagree]
    cases hperm : checkPermission rbac tool ctx arguments with
    | error e => rfl
    | ok u =>
      have hattributes : abac.allows (abacAction tool) "*" (attributes ctx arguments) = false := by
        by_contra hallowed
        exact hreaches ⟨checkPermission_eq_ok_iff.1 hperm, by simpa using hallowed⟩
      simp only [checkAttributes, ← attributes_congr hagree, hattributes]
      rfl

end Decisions

/-! ## Runs -/

/-- The body of a sensitive tool ran. -/
def Event.RunsSensitive (reg : ToolRegistry) : Event → Prop
  | .called invocation execution =>
    (∃ tool, reg.getTool invocation.name = some tool ∧ tool.sensitive = true) ∧
      execution.bodyRan = true
  | _ => False

/-- The caller may read loans, or loans of its own and it asks for itself. -/
def ReachesLoans (ctx : ToolContext) : Prop :=
  anyCan defaultRbac ctx.roles "loan:read" = true ∨
    anyCan defaultRbac ctx.roles "loan:self" = true ∧ ctx.resourceOwnerId = some ctx.userId

/-- The environment with another model. -/
def Env.answering (env : Env) (complete : List LLMRequest → Option LLMResponse) : Env :=
  { env with complete }

/-- A call of the eligibility tool with an approval of its own. -/
def selfApprovedCall (userId : String) : ToolCall :=
  ⟨"call_1", "check_loan_eligibility",
    [("resource_owner_id", .str userId), ("approval_ticket_id", .bool true),
      ("_approved", .bool true)]⟩

section Runs

variable {rt : PyRuntime} {stores : Stores} {ctx : ToolContext}

theorem anyCan_compliance {roles : List String} (hrole : "compliance_officer" ∉ roles) :
    anyCan defaultRbac roles "compliance:*" = false := by
  rw [anyCan, List.any_eq_false]
  intro role hmem hcan
  rw [defaultRbac_compliance] at hcan
  exact hrole (hcan ▸ hmem)

/-- Screening is for compliance officers. -/
theorem not_authorized_sanctionsScreen (hrole : "compliance_officer" ∉ ctx.roles)
    (arguments : Dict) :
    authorizeToolExecution (sanctionsScreen rt).toToolClass ctx arguments ≠ .ok () := by
  intro h
  obtain ⟨hheld, -, -⟩ := authorizeToolExecution_eq_ok_iff.1 h
  have hself : selfPermission "compliance:*" = "compliance:*" := by decide
  simp [PermissionHeld, sanctionsScreen, sanctionsScreenTool, hself, anyCan_compliance hrole]
    at hheld

/-- A sensitive body that runs for somebody else than a compliance officer assesses a loan
the caller may read. -/
theorem reachesLoans_of_bodyRan (hrole : "compliance_officer" ∉ ctx.roles) {name : String}
    {arguments : Dict} {tool : Tool} (htool : (toolRegistry rt stores).getTool name = some tool)
    (hsensitive : tool.sensitive = true)
    (hran : (executeTool (toolRegistry rt stores) name ctx arguments).bodyRan = true) :
    ReachesLoans ctx := by
  obtain ⟨tool', htool', hauth⟩ := bodyRan_executeTool_iff.1 hran
  obtain rfl : tool = tool' := Option.some.inj (htool.symm.trans htool')
  rcases sensitive_cases htool hsensitive with rfl | rfl
  · rcases mayAssess_of_authorized rfl hauth with hread | ⟨hself, hown, -⟩
    · exact Or.inl hread
    · exact Or.inr ⟨hself, hown⟩
  · exact absurd hauth (not_authorized_sanctionsScreen hrole arguments)

/-- Whoever may read loans gets the eligibility tool to run, with an approval of its own. -/
theorem bodyRan_of_reachesLoans (h : ReachesLoans ctx) :
    (executeTool (toolRegistry rt stores) "check_loan_eligibility" ctx
      (selfApprovedCall ctx.userId).arguments).bodyRan = true := by
  have hmay : MayAssess ctx none := by
    rcases h with hread | ⟨hself, hown⟩
    · exact Or.inl hread
    · exact Or.inr ⟨hself, hown, Or.inl rfl⟩
  have hauth : authorizeToolExecution (checkLoanEligibility rt).toToolClass ctx
      (selfApprovedCall ctx.userId).arguments = .ok () :=
    authorized_of_mayAssess hmay rfl rfl rfl rfl rfl
  exact bodyRan_executeTool_iff.2 ⟨checkLoanEligibility rt, rfl, hauth⟩

variable {env : Env} {agent : Agent} {inp : AgentInput} {w : World}

/-- The operations of a run for somebody who reaches no loans. -/
theorem loopKeeps_not_sensitive (hrole : "compliance_officer" ∉ inp.roles)
    (hloans : ¬ ReachesLoans inp.toolContext) (complete : List LLMRequest → Option LLMResponse)
    (agent : Agent) (w : World) :
    Agent.LoopKeeps ((env.on stores).answering complete) agent inp
      (w.Since fun e => ¬ e.RunsSensitive (toolRegistry env.runtime stores)) := by
  apply Agent.loopKeeps_since
  · exact fun _ _ => id
  · rintro tc before ⟨⟨tool, htool, hsensitive⟩, hran⟩
    exact hloans (reachesLoans_of_bodyRan hrole htool hsensitive hran)
  · intro e _ hnone
    cases e with
    | called invocation execution => cases hnone
    | asked request answer => exact id
    | remembered agentKey inp reply => exact id
    | recorded report => exact id

/-- The first round of a run whose model always asks for one tool. -/
theorem asked_and_called {env : Env} (hguard : env.guard.guardInput inp.message = .ok ())
    {call : ToolCall} (hcomplete : env.complete = fun _ => some (asksFor [call])) (agent : Agent)
    (w : World) : ∃ asked, w.log ++ [asked, .called (inp.invocation call)
        (env.execute (invocationsIn w.log) (inp.invocation call))] <+:
      (agent.invoke env inp w).2.log := by
  let request := agent.request env inp (agent.opening inp w)
  let asked := Event.asked request (some (asksFor [call]))
  let called := Event.called (inp.invocation call)
    (env.execute (invocationsIn w.log) (inp.invocation call))
  have hkeep := Agent.operationsKeep_log env agent inp (w.log ++ [asked, called])
  have hask : agent.askModel env inp (agent.opening inp w) w =
      (.ok (asksFor [call]), w.withLog (w.log ++ [asked])) := by
    have hanswer : env.answer w.log request = some (asksFor [call]) := by
      rw [Env.answer, hcomplete]
    have hclean := env.guard.guardOutput_eq_ok_iff.2 env.guard.clean_empty
    rw [askModel_apply, exchange]
    simp only [request] at hanswer
    simp only [hanswer, asksFor, hclean]
    rfl
  have hcall : w.log ++ [asked, called] <+:
      (Agent.callTools env inp [call] (w.withLog (w.log ++ [asked]))).2.log := by
    rw [callTools_apply]
    have hexecute : invocationsIn (w.log ++ [asked]) = invocationsIn w.log := by
      simp [invocationsIn, asked, Event.invocation?]
    simp [callAll, hexecute, called]
  have hrounds : w.log ++ [asked, called] <+:
      (agent.rounds env inp maxToolRounds (agent.opening inp w) [] [] w).2.log := by
    rw [show maxToolRounds = 5 + 1 from rfl, Agent.rounds, Effect.bind_of_ok hask]
    exact Keeps.bind_after hcall fun _ => hkeep.loop.run.rounds _ _ _ _
  have hinvoke : agent.invoke env inp w = _ :=
    (Effect.bind_of_ok (by rw [hguard]; rfl) _).trans (Effect.bind_of_ok rfl _)
  rw [hinvoke]
  exact ⟨asked, Keeps.bind_after hrounds fun e => hkeep.loop.run.closing e⟩

/-- **Whose runs no model can lead to a sensitive tool**: those whose message is refused, and
those for a caller who reaches no loans. -/
theorem no_sensitive_run_iff (env : Env) (stores : Stores) (agent : Agent) (inp : AgentInput)
    (w : World) (hrole : "compliance_officer" ∉ inp.roles) :
    (∀ complete, w.Since (fun e => ¬ e.RunsSensitive (toolRegistry env.runtime stores))
        (agent.invoke ((env.on stores).answering complete) inp w).2) ↔
      env.guard.detectPromptInjection inp.message = true ∨ ¬ ReachesLoans inp.toolContext := by
  constructor
  · intro h
    by_contra hnot
    push Not at hnot
    obtain ⟨hclean, hloans⟩ := hnot
    -- the model that asks for the tool with an approval of its own, whatever it is told
    let persistent := (env.on stores).answering fun _ =>
      some (asksFor [selfApprovedCall inp.userId])
    have hguard : persistent.guard.guardInput inp.message = .ok () :=
      env.guard.guardInput_of_not_injection (by simpa using hclean)
    obtain ⟨asked, hprefix⟩ := asked_and_called hguard rfl agent w
    refine (h _).of_log hprefix _ (List.mem_cons_of_mem _ (List.mem_cons_self ..)) ?_
    have hran : (executeTool (toolRegistry env.runtime stores) "check_loan_eligibility"
        inp.toolContext (selfApprovedCall inp.userId).arguments).bodyRan = true :=
      bodyRan_of_reachesLoans hloans
    exact ⟨⟨checkLoanEligibility env.runtime, rfl, rfl⟩, hran⟩
  · rintro (hinjection | hloans) complete
    · have hguard : ((env.on stores).answering complete).guard.guardInput inp.message = .error _ :=
        env.guard.guardInput_of_injection hinjection
      rw [Agent.invoke_of_refused hguard]
      exact World.Since.refl
    · exact (loopKeeps_not_sensitive hrole hloans complete agent w).run.invoke w World.Since.refl

end Runs

/-- **Who approves.**  The decision on a sensitive tool is independent of the approval in
the arguments if and only if a layer before it refuses.  And in the name of a caller who is
not a compliance officer, no model gets the body of a sensitive tool to run if and only if
the message is refused or the caller reaches no loans. -/
theorem approval_iff (rbac : RBAC) (abac : ABACPolicy) (tool : ToolClass)
    (hsensitive : tool.sensitive = true) (ctx : ToolContext) (arguments : Dict) (env : Env)
    (stores : Stores) (agent : Agent) (inp : AgentInput) (w : World)
    (hrole : "compliance_officer" ∉ inp.roles) :
    ((∀ arguments', AgreeOffApproval arguments arguments' →
        authorizeToolExecution tool ctx arguments' rbac abac =
          authorizeToolExecution tool ctx arguments rbac abac) ↔
      ¬ ReachesApproval rbac abac tool ctx arguments) ∧
    ((∀ complete, w.Since (fun e => ¬ e.RunsSensitive (toolRegistry env.runtime stores))
        (agent.invoke ((env.on stores).answering complete) inp w).2) ↔
      env.guard.detectPromptInjection inp.message = true ∨ ¬ ReachesLoans inp.toolContext) :=
  ⟨approval_decides_iff hsensitive, no_sensitive_run_iff env stores agent inp w hrole⟩

/-- A caller without roles, and a call it cannot make. -/
theorem approval_of_stranger :
    ((∀ arguments', AgreeOffApproval [] arguments' →
        authorizeToolExecution checkLoanEligibilityTool ⟨"t1", "u1", [], "c1", none⟩ arguments' =
          authorizeToolExecution checkLoanEligibilityTool ⟨"t1", "u1", [], "c1", none⟩ []) ↔
      ¬ ReachesApproval defaultRbac defaultAbac checkLoanEligibilityTool
        ⟨"t1", "u1", [], "c1", none⟩ []) ∧
    ((∀ complete, World.initial.Since
        (fun e => ¬ e.RunsSensitive (toolRegistry .ascii demoStores))
        (loanEligibilityAgent.invoke (((demoEnv fun _ => none).on demoStores).answering complete)
          { demoInput with roles := [] } World.initial).2) ↔
      (demoEnv fun _ => none).guard.detectPromptInjection demoInput.message = true ∨
        ¬ ReachesLoans ({ demoInput with roles := [] } : AgentInput).toolContext) :=
  approval_iff defaultRbac defaultAbac checkLoanEligibilityTool rfl ⟨"t1", "u1", [], "c1", none⟩ []
    (demoEnv fun _ => none) demoStores loanEligibilityAgent { demoInput with roles := [] }
    World.initial (by decide)

/-- A customer's model approves itself: with the ticket and the grant it wrote the call is
authorized and the body runs, without them the decision is another. -/
theorem self_approved_assessment :
    (∃ arguments', AgreeOffApproval (selfApprovedCall "cust_1001").arguments arguments' ∧
      authorizeToolExecution checkLoanEligibilityTool demoInput.toolContext arguments' ≠
        authorizeToolExecution checkLoanEligibilityTool demoInput.toolContext
          (selfApprovedCall "cust_1001").arguments) ∧
    "compliance_officer" ∉ demoInput.roles ∧
    ¬ World.initial.Since (fun e => ¬ e.RunsSensitive (toolRegistry .ascii demoStores))
      (loanEligibilityAgent.invoke (demoEnv (callsOnce [selfApprovedCall "cust_1001"])) demoInput
        World.initial).2 := by
  refine ⟨⟨withdraw (selfApprovedCall "cust_1001").arguments, agreeOffApproval_withdraw, ?_⟩,
    by decide, ?_⟩
  · have hauth : authorizeToolExecution checkLoanEligibilityTool demoInput.toolContext
        (selfApprovedCall "cust_1001").arguments = .ok () := by decide
    rw [hauth]
    exact not_authorized_withdraw rfl
  · intro hsafe
    let inp := demoInput
    let call := selfApprovedCall "cust_1001"
    let execution := executeOn .ascii demoStores [] (inp.invocation call)
    have hlog : ∃ asked, World.initial.log ++ [asked, .called (inp.invocation call) execution] <+:
        (loanEligibilityAgent.invoke (demoEnv (callsOnce [call])) inp World.initial).2.log :=
      ⟨_, _, rfl⟩
    obtain ⟨asked, hprefix⟩ := hlog
    refine hsafe.of_log hprefix _ (List.mem_cons_of_mem _ (List.mem_cons_self ..)) ?_
    exact ⟨⟨checkLoanEligibility .ascii, rfl, rfl⟩, by decide⟩

end AgentPlatform
