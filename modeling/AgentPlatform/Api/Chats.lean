import AgentPlatform.Api.Dependencies
import AgentPlatform.Services.AgentService
import AgentPlatform.Services.Documents
import AgentPlatform.Tools.Policy

/-!
# The chat endpoint

A message of a principal is run by an agent.  The tools of the run are called in the
name of the principal; who is not staff is the owner of the resources it asks for, who
is staff owns none.

* `chat` — the endpoint.
* `chat_authorized_mono_iff` — **when more roles keep a call authorized**: a role that makes
  its holder staff takes the self-scoped accesses away.
-/

namespace AgentPlatform

structure ChatRequest where
  message : String
  conversationId : Option String := none
  agentHint : Option String := none

structure ChatResponse where
  conversationId : String
  agent : String
  reply : String
  usedTools : List String
  delegatedTo : List String
  needsHumanApproval : Bool
  decision : Option Dict

/-- `principal.user_id if not principal.is_staff else None` -/
def Principal.resourceOwnerId (principal : Principal) : Option String :=
  if !principal.isStaff then some principal.userId else none

namespace ChatRequest

/-- What the agents are asked. -/
def input (body : ChatRequest) (principal : Principal) (correlationId conversationId : String) :
    AgentInput where
  tenantId := principal.tenantId
  userId := principal.userId
  roles := principal.roles
  correlationId
  message := body.message
  conversationId := some conversationId
  resourceOwnerId := principal.resourceOwnerId

/-- The context the tools of a message are called in. -/
def toolContext (body : ChatRequest) (principal : Principal)
    (correlationId conversationId : String) : ToolContext :=
  (body.input principal correlationId conversationId).toolContext

end ChatRequest

/-- How a failure of the service is answered. -/
def ServiceError.answered : ServiceError → ApiError
  | .agentExecution message => .http 422 message
  | .raised e => .uncaught e
  | .database => .uncaught .operationalError

/-- `chat`, with the correlation header and two new ids -/
def chat (env : Env) (reg : AgentRegistry) (takes : ℕ → Bool) (header : Option String)
    (newConversation newCorrelation : String) (body : ChatRequest) (principal : Principal) :
    Effect (Audited World) ApiError ChatResponse := fun w =>
  let conversationId := orElse body.conversationId newConversation
  let correlation := orElse header newCorrelation
  match runAgentForUser env reg takes (body.input principal correlation conversationId)
      body.agentHint w with
  | (.error e, w') => (.error e.answered, w')
  | (.ok result, w') =>
    (.ok ⟨conversationId, result.agent, result.reply, result.usedTools, result.delegatedTo,
      result.needsHumanApproval, result.decision⟩, w')

/-! ## More roles -/

/-- The same principal with other roles. -/
def Principal.withRoles (principal : Principal) (roles : List String) : Principal :=
  { principal with roles }

section Roles

variable {body : ChatRequest} {principal : Principal} {roles : List String}
  {correlationId conversationId : String} {tool : ToolClass} {arguments : Dict}

theorem anyCan_mono (h : principal.roles ⊆ roles) {permission : String}
    (hcan : anyCan defaultRbac principal.roles permission = true) :
    anyCan defaultRbac roles permission = true := by
  obtain ⟨role, hmem, hrole⟩ := List.any_eq_true.1 hcan
  exact List.any_eq_true.2 ⟨role, h hmem, hrole⟩

/-- The additional roles make the principal staff, and the call was authorized by a
self-scoped permission alone. -/
structure LosesSelfScope (principal : Principal) (roles : List String) (tool : ToolClass)
    (arguments : Dict) : Prop where
  wasNotStaff : principal.isStaff = false
  becomesStaff : (principal.withRoles roles).isStaff = true
  /-- The roles held the self-scoped form, and the new ones do not hold the permission. -/
  permission : ∃ permission, tool.requiredPermission = some permission ∧ permission ≠ "" ∧
    selfPermission permission ≠ permission ∧
    anyCan defaultRbac principal.roles (selfPermission permission) = true ∧
    anyCan defaultRbac roles permission = false
  own : resourceOwner arguments = .str principal.userId
  tenant : InTenant principal.tenantId arguments
  approved : ApprovalHeld tool principal.roles arguments

theorem resourceOwnerId_of_staff (h : principal.isStaff = true) :
    principal.resourceOwnerId = none := by
  simp [Principal.resourceOwnerId, h]

theorem resourceOwnerId_of_not_staff (h : principal.isStaff = false) :
    principal.resourceOwnerId = some principal.userId := by
  simp [Principal.resourceOwnerId, h]

/-- What is lost was authorized before. -/
theorem LosesSelfScope.authorized (h : LosesSelfScope principal roles tool arguments) :
    authorizeToolExecution tool
      (body.toolContext principal correlationId conversationId) arguments = .ok () := by
  obtain ⟨permission, hp, -, hform, hself, -⟩ := h.permission
  refine authorize_default_iff.2 ⟨Or.inr (Or.inr ⟨permission, hp, Or.inr ?_⟩), h.tenant, h.approved⟩
  exact ⟨hform, hself, resourceOwnerId_of_not_staff h.wasNotStaff, h.own⟩

/-- What is lost is not authorized any more: staff own nothing. -/
theorem LosesSelfScope.not_authorized (h : LosesSelfScope principal roles tool arguments) :
    authorizeToolExecution tool
      (body.toolContext (principal.withRoles roles) correlationId conversationId) arguments ≠
        .ok () := by
  intro hauth
  obtain ⟨permission, hp, hne, -, -, hlacks⟩ := h.permission
  have howner : (body.toolContext (principal.withRoles roles) correlationId
      conversationId).resourceOwnerId = none := resourceOwnerId_of_staff h.becomesStaff
  rcases (authorize_default_iff.1 hauth).1 with hnone | hempty | ⟨permission', hp', hheld⟩
  · rw [hp] at hnone
    cases hnone
  · rw [hp] at hempty
    exact hne (Option.some.inj hempty)
  · rw [hp] at hp'
    obtain rfl := Option.some.inj hp'
    rcases hheld with hdirect | ⟨-, -, hscope, -⟩
    · rw [show anyCan defaultRbac roles permission = true from hdirect] at hlacks
      cases hlacks
    · rw [howner] at hscope
      cases hscope

/-- More roles keep a permission, or the self-scoped access is lost. -/
theorem permissionHeld_or_loses (h : principal.roles ⊆ roles)
    (hheld : PermissionHeld defaultRbac tool
      (body.toolContext principal correlationId conversationId) arguments)
    (htenant : InTenant principal.tenantId arguments)
    (happroved : ApprovalHeld tool principal.roles arguments) :
    PermissionHeld defaultRbac tool
        (body.toolContext (principal.withRoles roles) correlationId conversationId) arguments ∨
      LosesSelfScope principal roles tool arguments := by
  rcases hheld with hnone | hempty | ⟨permission, hp, hdirect | ⟨hform, hself, hscope, hown⟩⟩
  · exact Or.inl (Or.inl hnone)
  · exact Or.inl (Or.inr (Or.inl hempty))
  · exact Or.inl (Or.inr (Or.inr ⟨permission, hp, Or.inl (anyCan_mono h hdirect)⟩))
  · cases hstaff' : (principal.withRoles roles).isStaff with
    | false =>
      -- still a customer: the self-scoped form serves as before
      exact Or.inl (Or.inr (Or.inr ⟨permission, hp, Or.inr ⟨hform, anyCan_mono h hself,
        resourceOwnerId_of_not_staff hstaff', hown⟩⟩))
    | true =>
      cases hfull : anyCan defaultRbac roles permission with
      | true => exact Or.inl (Or.inr (Or.inr ⟨permission, hp, Or.inl hfull⟩))
      | false =>
        refine Or.inr ⟨?_, hstaff', ⟨permission, hp, ?_, hform, hself, hfull⟩, hown, htenant,
          happroved⟩
        · -- an owner is not staff
          cases hstaff : principal.isStaff with
          | false => rfl
          | true =>
            have howner : (body.toolContext principal correlationId
                conversationId).resourceOwnerId = none := resourceOwnerId_of_staff hstaff
            rw [howner] at hscope
            cases hscope
        · rintro rfl
          exact hform (by decide)

/-- More roles keep a call authorized, or take a self-scoped access away. -/
theorem authorized_or_loses (h : principal.roles ⊆ roles)
    (hauth : authorizeToolExecution tool
      (body.toolContext principal correlationId conversationId) arguments = .ok ()) :
    authorizeToolExecution tool
        (body.toolContext (principal.withRoles roles) correlationId conversationId) arguments =
          .ok () ∨
      LosesSelfScope principal roles tool arguments := by
  obtain ⟨hheld, htenant, happroved⟩ := authorize_default_iff.1 hauth
  rcases permissionHeld_or_loses h hheld htenant happroved with hheld' | hloses
  · exact Or.inl (authorize_default_iff.2 ⟨hheld', htenant, happroved.mono h⟩)
  · exact Or.inr hloses

end Roles

/-- A tool call of a chat is authorized: the tool is registered, and its body runs. -/
def ChatAuthorized (reg : ToolRegistry) (body : ChatRequest) (principal : Principal)
    (correlationId conversationId name : String) (arguments : Dict) : Prop :=
  (executeTool reg name (body.toolContext principal correlationId conversationId)
    arguments).bodyRan = true

/-- **When more roles keep a call authorized.**  Unless they make a principal staff who was
not, and the call had no more than the self-scoped form of a permission the new roles do
not hold either. -/
theorem chat_authorized_mono_iff (reg : ToolRegistry) (body : ChatRequest)
    (principal : Principal) (roles : List String) (h : principal.roles ⊆ roles)
    (correlationId conversationId name : String) (arguments : Dict) :
    (ChatAuthorized reg body principal correlationId conversationId name arguments →
        ChatAuthorized reg body (principal.withRoles roles) correlationId conversationId name
          arguments) ↔
      ∀ tool, reg.getTool name = some tool →
        ¬ LosesSelfScope principal roles tool.toToolClass arguments := by
  simp only [ChatAuthorized, bodyRan_executeTool_iff]
  constructor
  · intro hmono tool htool hloses
    obtain ⟨tool', htool', hauth⟩ := hmono ⟨tool, htool, hloses.authorized⟩
    obtain rfl := Option.some.inj (htool.symm.trans htool')
    exact hloses.not_authorized hauth
  · rintro hkeeps ⟨tool, htool, hauth⟩
    refine ⟨tool, htool, ?_⟩
    exact (authorized_or_loses h hauth).resolve_right (hkeeps tool htool)

/-- A customer. -/
def chatCustomer : Principal := ⟨"user_1", "t1", ["customer"]⟩

/-- A customer asks for its own credit report, until it becomes a fraud analyst too. -/
theorem chatCustomer_loses_report :
    chatCustomer.roles ⊆ ["customer", "fraud_analyst"] ∧
      ChatAuthorized (toolRegistry .ascii demoStores) { message := "my credit report" }
        chatCustomer "c1" "v1" "get_credit_report" [("customer_id", .str "user_1")] ∧
      ¬ ChatAuthorized (toolRegistry .ascii demoStores) { message := "my credit report" }
        (chatCustomer.withRoles ["customer", "fraud_analyst"]) "c1" "v1" "get_credit_report"
        [("customer_id", .str "user_1")] := by
  refine ⟨by decide, ?_, ?_⟩
  · show _ = true
    decide
  · show ¬ _ = true
    decide

/-- The customer becomes a loan officer too, and keeps the access. -/
theorem chatCustomer_keeps_report :
    chatCustomer.roles ⊆ ["customer", "loan_officer"] ∧
      ((ChatAuthorized (toolRegistry .ascii demoStores) { message := "my credit report" }
          chatCustomer "c1" "v1" "get_credit_report" [("customer_id", .str "user_1")] →
        ChatAuthorized (toolRegistry .ascii demoStores) { message := "my credit report" }
          (chatCustomer.withRoles ["customer", "loan_officer"]) "c1" "v1" "get_credit_report"
          [("customer_id", .str "user_1")]) ↔
        ∀ tool, (toolRegistry .ascii demoStores).getTool "get_credit_report" = some tool →
          ¬ LosesSelfScope chatCustomer ["customer", "loan_officer"] tool.toToolClass
            [("customer_id", .str "user_1")]) :=
  ⟨by decide, chat_authorized_mono_iff _ _ _ _ (by decide) _ _ _ _⟩

end AgentPlatform
