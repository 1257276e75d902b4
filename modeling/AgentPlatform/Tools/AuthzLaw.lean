import AgentPlatform.Tools.Catalog

/-!
# The authorization law

When does the body of a tool run?  `Authorized` spells the four layers out as one
condition on the tables, the tool, the caller and the arguments.

* `executeToolWith_law` — **exactness**: the body runs when the condition holds, in
  every other case a `ToolAuthorizationError` is raised before it, and more roles
  or more grants never turn a permitted call into a refused one.
-/

namespace AgentPlatform

/-! ## The condition -/

/-- Everything the layers ask for; `owner` is how the owner of the resource is read
off the arguments. -/
structure Authorized (owner : Dict → Option Json) (rbac : RBAC) (abac : ABACPolicy)
    (tool : ToolClass) (ctx : ToolContext) (arguments : Dict) : Prop where
  /-- No permission is needed, or a role holds it, or a role holds its self-scoped
  form and the caller owns the resource. -/
  permission : tool.requiredPermission = none ∨ tool.requiredPermission = some "" ∨
    ∃ permission, tool.requiredPermission = some permission ∧
      ((∃ role ∈ ctx.roles, rbac.can role permission = true) ∨
        selfPermission permission ≠ permission ∧
          (∃ role ∈ ctx.roles, rbac.can role (selfPermission permission) = true) ∧
          ctx.resourceOwnerId = some ctx.userId ∧ owner arguments = some (.str ctx.userId))
  /-- A rule speaks about the action. -/
  ruled : ∃ r ∈ abac.rules, r.action = abacAction tool ∧ r.resource = "*"
  /-- Every rule that speaks about the action accepts the attributes. -/
  accepted : ∀ r ∈ abac.rules, r.action = abacAction tool → r.resource = "*" →
    r.condition (attributes ctx arguments) = true
  /-- A sensitive tool has a ticket, and an approval or a compliance officer. -/
  approved : tool.sensitive = true →
    (arguments.get "approval_ticket_id").truthy = true ∧
      ((arguments.get "_approved").truthy = true ∨ "compliance_officer" ∈ ctx.roles)

/-- The owner as the code reads it: `customer_id` if it is truthy, and whatever
`resource_owner_id` is otherwise. -/
def ownerOr (arguments : Dict) : Option Json := some (resourceOwner arguments)

/-- The first truthy of `customer_id` and `resource_owner_id`, if there is one. -/
def firstTruthyOwner (arguments : Dict) : Option Json :=
  [arguments.get "customer_id", arguments.get "resource_owner_id"].find? Json.truthy

section Law

variable {rbac : RBAC} {abac : ABACPolicy} {tool : ToolClass} {ctx : ToolContext}
  {arguments : Dict}

theorem checkOpaPolicy_of_sensitive (h : tool.sensitive = true) :
    checkOpaPolicy tool ctx arguments = true ↔
      (arguments.get "_approved").truthy = true ∨ "compliance_officer" ∈ ctx.roles := by
  simp [checkOpaPolicy, h]

/-- The layers let a call through exactly when it is authorized. -/
theorem authorizeToolExecution_iff_authorized :
    authorizeToolExecution tool ctx arguments rbac abac = .ok () ↔
      Authorized ownerOr rbac abac tool ctx arguments := by
  rw [authorizeToolExecution_eq_ok_iff, ABACPolicy.allows_iff]
  constructor
  · rintro ⟨hperm, ⟨hruled, haccepted⟩, happroved⟩
    refine ⟨?_, hruled, haccepted, ?_⟩
    · simpa [PermissionHeld, anyCan, ownerOr] using hperm
    · intro hs
      obtain ⟨hticket, hopa⟩ := happroved hs
      exact ⟨hticket, (checkOpaPolicy_of_sensitive hs).1 hopa⟩
  · rintro ⟨hperm, hruled, haccepted, happroved⟩
    refine ⟨?_, ⟨hruled, haccepted⟩, ?_⟩
    · simpa [PermissionHeld, anyCan, ownerOr] using hperm
    · intro hs
      obtain ⟨hticket, hopa⟩ := happroved hs
      exact ⟨hticket, (checkOpaPolicy_of_sensitive hs).2 hopa⟩

/-- More roles and more grants keep a call authorized. -/
theorem Authorized.mono {owner : Dict → Option Json} {rbac' : RBAC} {roles' : List String}
    (h : Authorized owner rbac abac tool ctx arguments) (hrbac : rbac'.Extends rbac)
    (hroles : ctx.roles ⊆ roles') :
    Authorized owner rbac' abac tool { ctx with roles := roles' } arguments := by
  have hholds : ∀ permission, (∃ role ∈ ctx.roles, rbac.can role permission = true) →
      ∃ role ∈ roles', rbac'.can role permission = true := by
    rintro permission ⟨role, hmem, hcan⟩
    exact ⟨role, hroles hmem, hrbac role permission hcan⟩
  refine ⟨?_, h.ruled, h.accepted, ?_⟩
  · rcases h.permission with hnone | hempty | ⟨permission, hp, hheld⟩
    · exact Or.inl hnone
    · exact Or.inr (Or.inl hempty)
    · refine Or.inr (Or.inr ⟨permission, hp, ?_⟩)
      rcases hheld with hdirect | ⟨hne, hself, howner⟩
      · exact Or.inl (hholds permission hdirect)
      · exact Or.inr ⟨hne, hholds _ hself, howner⟩
  · intro hs
    obtain ⟨hticket, hopa⟩ := h.approved hs
    exact ⟨hticket, hopa.imp_right fun hmem => hroles hmem⟩

end Law

/-! ## The law -/

/-- The body runs on the caller's context and arguments exactly when the tool is
registered and the call authorized. -/
theorem executeToolWith_bodyRan_iff {rbac : RBAC} {abac : ABACPolicy} {reg : ToolRegistry}
    {name : String} {ctx : ToolContext} {arguments : Dict} :
    (executeToolWith rbac abac reg name ctx arguments).bodyRan = true ↔
      ∃ tool, reg.getTool name = some tool ∧
        Authorized ownerOr rbac abac tool.toToolClass ctx arguments := by
  cases hexec : executeToolWith rbac abac reg name ctx arguments with
  | refused e =>
    have hnot : ¬ ∃ tool, reg.getTool name = some tool ∧
        Authorized ownerOr rbac abac tool.toToolClass ctx arguments := by
      rintro ⟨tool, hreg, hauth⟩
      have hran := executeToolWith_eq_ran_iff.2
        ⟨tool, hreg, authorizeToolExecution_iff_authorized.2 hauth, rfl⟩
      rw [hexec] at hran
      cases hran
    simpa [Execution.bodyRan] using hnot
  | ran outcome =>
    obtain ⟨tool, hreg, hauth, -⟩ := executeToolWith_eq_ran_iff.1 hexec
    simpa [Execution.bodyRan] using
      ⟨tool, hreg, authorizeToolExecution_iff_authorized.1 hauth⟩

theorem executeToolWith_refused {rbac : RBAC} {abac : ABACPolicy} {reg : ToolRegistry}
    {name : String} {ctx : ToolContext} {arguments : Dict}
    (h : (executeToolWith rbac abac reg name ctx arguments).bodyRan = false) :
    ∃ e, (executeToolWith rbac abac reg name ctx arguments).toExcept =
      .error (.toolAuthorizationError e) := by
  cases hexec : executeToolWith rbac abac reg name ctx arguments with
  | refused e => exact ⟨e, rfl⟩
  | ran outcome => rw [hexec] at h; cases h

/-- **The authorization law**, for every registry, every role table and every rule
list. -/
theorem executeToolWith_law (rbac : RBAC) (abac : ABACPolicy) (reg : ToolRegistry)
    (name : String) (ctx : ToolContext) (arguments : Dict) :
    ((executeToolWith rbac abac reg name ctx arguments).bodyRan = true ↔
        ∃ tool, reg.getTool name = some tool ∧
          Authorized ownerOr rbac abac tool.toToolClass ctx arguments) ∧
      ((executeToolWith rbac abac reg name ctx arguments).bodyRan = false →
        ∃ e, (executeToolWith rbac abac reg name ctx arguments).toExcept =
          .error (.toolAuthorizationError e)) ∧
      (∀ rbac' roles', rbac'.Extends rbac → ctx.roles ⊆ roles' →
        (executeToolWith rbac abac reg name ctx arguments).bodyRan = true →
        (executeToolWith rbac' abac reg name { ctx with roles := roles' } arguments).bodyRan =
          true) ∧
      ∀ role permission, (rbac.grant role permission).Extends rbac := by
  refine ⟨executeToolWith_bodyRan_iff, executeToolWith_refused, ?_, rbac.extends_grant⟩
  intro rbac' roles' hrbac hroles hran
  obtain ⟨tool, hreg, hauth⟩ := executeToolWith_bodyRan_iff.1 hran
  exact executeToolWith_bodyRan_iff.2 ⟨tool, hreg, hauth.mono hrbac hroles⟩

/-- A customer whose id is the empty string. -/
def namelessCustomer : ToolContext := ⟨"t1", "", ["customer"], "c1", some ""⟩

/-- A nameless customer, and arguments that name an empty owner: no argument is
truthy, and the call is let through all the same. -/
theorem executeTool_empty_owner :
    (executeTool (toolRegistry .ascii demoStores) "get_credit_report" namelessCustomer
        [("resource_owner_id", .str "")]).bodyRan = true ∧
      ¬ ∃ tool, (toolRegistry .ascii demoStores).getTool "get_credit_report" = some tool ∧
        Authorized firstTruthyOwner defaultRbac defaultAbac tool.toToolClass namelessCustomer
          [("resource_owner_id", .str "")] := by
  refine ⟨by decide, ?_⟩
  rintro ⟨tool, hreg, hauth⟩
  obtain rfl : getCreditReport .ascii demoStores.bureau = tool := Option.some.inj hreg
  rcases hauth.permission with hnone | hempty | ⟨permission, hp, hheld⟩
  · cases hnone
  · exact absurd hempty (by decide)
  · obtain rfl : "loan:read" = permission := Option.some.inj hp
    rcases hheld with ⟨role, hrole, hcan⟩ | ⟨-, -, -, howner⟩
    · obtain rfl : role = "customer" := by simpa [namelessCustomer] using hrole
      exact absurd hcan (by decide)
    · exact absurd howner (by simp [firstTruthyOwner, Dict.get, Dict.get?_cons, Json.truthy])

end AgentPlatform
