import AgentPlatform.Lib.Rego
import AgentPlatform.Tools.Catalog

/-!
# The external policy and its local fallback

Sensitive tools are also the subject of a policy for an external engine.  While the
engine is not there, a local fallback decides in its place.

* `authorize_default_iff` — what the shipped tables and the fallback let through.
* `toolAuthz` — the policy `bfsi.tools`; `opaInput` is what it would be asked.
* `toolAuthz_allows_iff`, `toolAuthz_denials_iff` — what the policy decides.
* `fallback_refines_iff` — **when the fallback is no weaker than the policy**: it lets
  approved calls through without looking at the roles, and those of compliance officers
  without an approval.
-/

namespace AgentPlatform

/-! ## What the shipped tables let through -/

/-- The tenant the arguments name, if they name one, is the caller's. -/
def InTenant (tenantId : String) (arguments : Dict) : Prop :=
  (Json.str tenantId).pyEq (arguments.getD "tenant_id" (.str tenantId)) = true

/-- The approval a sensitive tool asks of the arguments and the roles. -/
def ApprovalHeld (tool : ToolClass) (roles : List String) (arguments : Dict) : Prop :=
  tool.sensitive = true → (arguments.get "approval_ticket_id").truthy = true ∧
    ((arguments.get "_approved").truthy = true ∨ "compliance_officer" ∈ roles)

theorem ApprovalHeld.mono {tool : ToolClass} {roles roles' : List String} {arguments : Dict}
    (h : roles ⊆ roles') (happroved : ApprovalHeld tool roles arguments) :
    ApprovalHeld tool roles' arguments :=
  fun hsensitive => (happroved hsensitive).imp_right fun hgrant =>
    hgrant.imp_right fun hmem => h hmem

theorem inTenant_iff {tenantId : String} {arguments : Dict} :
    InTenant tenantId arguments ↔
      arguments.getD "tenant_id" (.str tenantId) = .str tenantId := by
  unfold InTenant
  cases arguments.getD "tenant_id" (.str tenantId) <;> simp [Json.pyEq, eq_comm]

section Law

variable {tool : ToolClass} {ctx : ToolContext} {arguments : Dict}

theorem abacAction_cases : abacAction tool = "read" ∨ abacAction tool = "write" := by
  unfold abacAction
  split
  · exact Or.inl rfl
  · exact Or.inr rfl

/-- The layers, under the shipped tables. -/
theorem authorize_default_iff : authorizeToolExecution tool ctx arguments = .ok () ↔
    PermissionHeld defaultRbac tool ctx arguments ∧ InTenant ctx.tenantId arguments ∧
      ApprovalHeld tool ctx.roles arguments := by
  rw [authorizeToolExecution_eq_ok_iff, defaultAbac_allows _ abacAction_cases]
  refine and_congr_right fun _ => and_congr Iff.rfl (imp_congr_right fun hsensitive => ?_)
  simp only [checkOpaPolicy, hsensitive, Bool.not_true, Bool.false_eq_true, if_false,
    Bool.or_eq_true, List.contains_iff_mem]

end Law

/-! ## The policy -/

/-- Is it `True` or `False`? -/
def Json.isBool : Json → Bool
  | .num (.bool _) => true
  | _ => false

/-- Values as documents of the policy engine, which tells truth values from numbers. -/
def jsonDocuments : Rego.Documents Json where
  field v k :=
    match v with
    | .obj fields => Dict.get? fields k
    | _ => none
  items v :=
    match v with
    | .arr xs => xs
    | .obj fields => fields.map Prod.snd
    | _ => []
  same v v' := v.isBool == v'.isBool && v.pyEq v'
  isFalse v :=
    match v with
    | .num (.bool b) => !b
    | _ => false

/-- The roles that may execute sensitive tools within their tenant. -/
def policyRoles : List String := ["compliance_officer", "fraud_analyst", "institution_admin"]

def highRiskTools : List String :=
  ["freeze_account", "reverse_transaction", "disburse_loan", "write_off_loan"]

/-- The package `bfsi.tools`. -/
def toolAuthz : Rego.Policy Json where
  allow :=
    [ [ .term (.ref ["tool", "sensitive"]),
        .eq (.ref ["subject", "tenant_id"]) (.ref ["resource", "tenant_id"]),
        .among (.each ["subject", "roles"]) (policyRoles.map .str),
        .eq (.ref ["approved"]) (.const (.bool true)) ],
      [ .among (.ref ["tool", "name"]) (highRiskTools.map .str),
        .ne (.ref ["approval", "ticket_id"]) (.const (.str "")),
        .among (.ref ["approval", "resolver_role"])
          ([.str "compliance_officer", .str "fraud_analyst"]) ] ]
  deny :=
    [ ("cross_tenant", [.ne (.ref ["subject", "tenant_id"]) (.ref ["resource", "tenant_id"])]),
      ("unknown_tool", [.not (.ref ["tool", "registered"])]) ]

/-- What the policy is asked about a call. -/
def opaInput (tool : ToolClass) (registered : Bool) (ctx : ToolContext) (arguments : Dict) :
    Json :=
  .obj
    [ ("tool", .obj [("name", .str tool.name), ("sensitive", .bool tool.sensitive),
        ("registered", .bool registered)]),
      ("subject", .obj [("tenant_id", .str ctx.tenantId), ("roles", .arr (ctx.roles.map .str))]),
      ("resource", .obj [("tenant_id", arguments.getD "tenant_id" (.str ctx.tenantId))]),
      ("approved", .bool (arguments.get "_approved").truthy),
      ("approval", .obj [("ticket_id", arguments.get "approval_ticket_id")]) ]

/-! ## What the policy decides -/

section Decision

variable {tool : ToolClass} {registered : Bool} {ctx : ToolContext} {arguments : Dict}

theorem jsonDocuments_same_str_iff {s : String} {v : Json} :
    jsonDocuments.same (.str s) v = true ↔ v = .str s := by
  cases v <;> simp [jsonDocuments, Json.isBool, Json.pyEq, eq_comm]

theorem jsonDocuments_same_bool_iff {b c : Bool} :
    jsonDocuments.same (.bool b) (.bool c) = true ↔ b = c := by
  cases b <;> cases c <;> simp [jsonDocuments, Json.isBool, Json.pyEq, PyNum.val]

theorem jsonDocuments_isFalse_bool (b : Bool) : jsonDocuments.isFalse (.bool b) = !b := rfl

/-- The tenants agree. -/
theorem tenants_eq_iff :
    (Rego.Expr.eq (.ref ["subject", "tenant_id"]) (.ref ["resource", "tenant_id"])).holds
        jsonDocuments (opaInput tool registered ctx arguments) = true ↔
      InTenant ctx.tenantId arguments := by
  have hsubject : jsonDocuments.lookup (opaInput tool registered ctx arguments)
      ["subject", "tenant_id"] = some (.str ctx.tenantId) := rfl
  have hresource : jsonDocuments.lookup (opaInput tool registered ctx arguments)
      ["resource", "tenant_id"] = some (arguments.getD "tenant_id" (.str ctx.tenantId)) := rfl
  simp [Rego.Expr.holds, Rego.Term.values_ref hsubject, Rego.Term.values_ref hresource,
    jsonDocuments_same_str_iff, inTenant_iff]

/-- One of the roles is one of the policy's. -/
theorem roles_among_iff :
    (Rego.Expr.among (.each ["subject", "roles"]) (policyRoles.map .str)).holds
        jsonDocuments (opaInput tool registered ctx arguments) = true ↔
      ∃ role ∈ ctx.roles, role ∈ policyRoles := by
  have hroles : (Rego.Term.each ["subject", "roles"]).values jsonDocuments
      (opaInput tool registered ctx arguments) = ctx.roles.map .str := rfl
  simp only [Rego.Expr.holds, hroles, List.any_map, List.any_eq_true, Function.comp_apply,
    jsonDocuments_same_str_iff, Json.str.injEq]
  constructor
  · rintro ⟨role, hrole, policyRole, hpolicy, rfl⟩
    exact ⟨_, hrole, hpolicy⟩
  · rintro ⟨role, hrole, hpolicy⟩
    exact ⟨role, hrole, role, hpolicy, rfl⟩

/-- The second rule asks for a resolver, and is never told of one. -/
theorem resolver_not_among (set : List Json) :
    (Rego.Expr.among (.ref ["approval", "resolver_role"]) set).holds
      jsonDocuments (opaInput tool registered ctx arguments) = false := by
  refine Rego.Expr.not_holds_among ?_ set
  rfl

theorem toolAuthz_allows_iff :
    toolAuthz.allows jsonDocuments (opaInput tool registered ctx arguments) = true ↔
      tool.sensitive = true ∧ InTenant ctx.tenantId arguments ∧
        (∃ role ∈ ctx.roles, role ∈ policyRoles) ∧
        (arguments.get "_approved").truthy = true := by
  have hsensitive : jsonDocuments.lookup (opaInput tool registered ctx arguments)
      ["tool", "sensitive"] = some (.bool tool.sensitive) := rfl
  have happroved : jsonDocuments.lookup (opaInput tool registered ctx arguments)
      ["approved"] = some (.bool (arguments.get "_approved").truthy) := rfl
  have hterm : (Rego.Expr.term (.ref ["tool", "sensitive"])).holds jsonDocuments
      (opaInput tool registered ctx arguments) = tool.sensitive := by
    simp [Rego.Expr.holds, Rego.Term.values_ref hsensitive, jsonDocuments_isFalse_bool]
  have heq : (Rego.Expr.eq (.ref ["approved"]) (.const (.bool true))).holds jsonDocuments
      (opaInput tool registered ctx arguments) = true ↔
        (arguments.get "_approved").truthy = true := by
    simp [Rego.Expr.holds, Rego.Term.values_ref happroved, jsonDocuments_same_bool_iff]
  rw [Rego.Policy.allows_iff]
  simp only [toolAuthz, List.mem_cons, List.not_mem_nil, or_false, exists_eq_or_imp,
    exists_eq_left, forall_eq_or_imp, forall_eq, hterm, tenants_eq_iff, roles_among_iff, heq,
    resolver_not_among, Bool.false_eq_true, and_false]

theorem toolAuthz_denials_iff :
    toolAuthz.denials jsonDocuments (opaInput tool registered ctx arguments) = [] ↔
      InTenant ctx.tenantId arguments ∧ registered = true := by
  have hsubject : jsonDocuments.lookup (opaInput tool registered ctx arguments)
      ["subject", "tenant_id"] = some (.str ctx.tenantId) := rfl
  have hresource : jsonDocuments.lookup (opaInput tool registered ctx arguments)
      ["resource", "tenant_id"] = some (arguments.getD "tenant_id" (.str ctx.tenantId)) := rfl
  have hregistered : jsonDocuments.lookup (opaInput tool registered ctx arguments)
      ["tool", "registered"] = some (.bool registered) := rfl
  have hcross : (Rego.Expr.ne (.ref ["subject", "tenant_id"])
      (.ref ["resource", "tenant_id"])).holds jsonDocuments
        (opaInput tool registered ctx arguments) = true ↔ ¬ InTenant ctx.tenantId arguments := by
    simp only [Rego.Expr.holds, Rego.Term.values_ref hsubject, Rego.Term.values_ref hresource,
      List.any_cons, List.any_nil, Bool.or_false, Bool.not_eq_true', inTenant_iff,
      ← jsonDocuments_same_str_iff, Bool.not_eq_true]
  have hunknown : (Rego.Expr.not (.ref ["tool", "registered"])).holds
      jsonDocuments (opaInput tool registered ctx arguments) = true ↔ registered = false := by
    simp [Rego.Expr.holds, Rego.Term.values_ref hregistered, jsonDocuments_isFalse_bool]
  rw [Rego.Policy.denials_eq_nil_iff]
  simp only [toolAuthz, List.mem_cons, List.not_mem_nil, or_false, forall_eq_or_imp, forall_eq,
    hcross, hunknown, not_not, Bool.not_eq_false]

end Decision

/-! ## The fallback against the policy -/

section Refinement

variable {reg : ToolRegistry} {tool : ToolClass} {ctx : ToolContext} {arguments : Dict}

/-- The policy permits the call of a tool: it allows it, and denies nothing. -/
def PolicyPermits (reg : ToolRegistry) (tool : ToolClass) (ctx : ToolContext)
    (arguments : Dict) : Prop :=
  let input := opaInput tool (reg.getTool tool.name).isSome ctx arguments
  toolAuthz.allows jsonDocuments input = true ∧ toolAuthz.denials jsonDocuments input = []

theorem policyPermits_iff : PolicyPermits reg tool ctx arguments ↔
    (tool.sensitive = true ∧ InTenant ctx.tenantId arguments ∧
      (∃ role ∈ ctx.roles, role ∈ policyRoles) ∧ (arguments.get "_approved").truthy = true) ∧
      (reg.getTool tool.name).isSome = true := by
  unfold PolicyPermits
  dsimp only
  rw [toolAuthz_allows_iff, toolAuthz_denials_iff]
  tauto

/-- A call the local layers let through although the policy does not permit it: one that is
approved, by nobody of the policy's roles, or one of a compliance officer that is not
approved. -/
structure FallbackGap (tool : ToolClass) (ctx : ToolContext) (arguments : Dict) : Prop where
  permission : PermissionHeld defaultRbac tool ctx arguments
  tenant : InTenant ctx.tenantId arguments
  ticket : (arguments.get "approval_ticket_id").truthy = true
  gap : (arguments.get "_approved").truthy = true ∧ (∀ role ∈ ctx.roles, role ∉ policyRoles) ∨
    (arguments.get "_approved").truthy = false ∧ "compliance_officer" ∈ ctx.roles

/-- **When the fallback is no weaker than the policy**, for a sensitive tool of a registry. -/
theorem fallback_refines_iff (reg : ToolRegistry) (tool : Tool)
    (hreg : reg.getTool tool.name = some tool) (hsensitive : tool.sensitive = true)
    (ctx : ToolContext) (arguments : Dict) :
    (authorizeToolExecution tool.toToolClass ctx arguments = .ok () →
        PolicyPermits reg tool.toToolClass ctx arguments) ↔
      ¬ FallbackGap tool.toToolClass ctx arguments := by
  rw [authorize_default_iff, policyPermits_iff]
  constructor
  · rintro hrefines ⟨hheld, htenant, hticket, hgap⟩
    have happroval : ApprovalHeld tool.toToolClass ctx.roles arguments := fun _ =>
      ⟨hticket, hgap.imp And.left And.right⟩
    obtain ⟨⟨-, -, ⟨role, hrole, hpolicy⟩, happroved⟩, -⟩ :=
      hrefines ⟨hheld, htenant, happroval⟩
    rcases hgap with ⟨-, hnobody⟩ | ⟨hnot, -⟩
    · exact hnobody role hrole hpolicy
    · rw [happroved] at hnot
      cases hnot
  · rintro hgap ⟨hheld, htenant, happroval⟩
    obtain ⟨hticket, hgrant⟩ := happroval hsensitive
    refine ⟨⟨hsensitive, htenant, ?_⟩, Option.isSome_iff_exists.2 ⟨tool, hreg⟩⟩
    cases happroved : (arguments.get "_approved").truthy with
    | true =>
      refine ⟨by_contra fun hnobody => hgap ⟨hheld, htenant, hticket, Or.inl ⟨happroved, ?_⟩⟩, rfl⟩
      exact fun role hrole hpolicy => hnobody ⟨role, hrole, hpolicy⟩
    | false =>
      -- only a compliance officer goes without an approval
      have hofficer : "compliance_officer" ∈ ctx.roles := by simpa [happroved] using hgrant
      exact absurd ⟨hheld, htenant, hticket, Or.inr ⟨happroved, hofficer⟩⟩ hgap

/-- A loan officer, and an application with a ticket and an approval. -/
def policyOfficer : ToolContext := ⟨"t1", "officer_1", ["loan_officer"], "c1", none⟩

def approvedLoan : Dict :=
  [("customer_id", .str "cust_1001"), ("approval_ticket_id", .str "AP-001"),
    ("_approved", .bool true)]

/-- A loan officer assesses an approved loan, which the policy does not permit. -/
theorem approvedLoan_not_permitted :
    (toolRegistry .ascii demoStores).getTool "check_loan_eligibility" =
        some (checkLoanEligibility .ascii) ∧
      (checkLoanEligibility .ascii).sensitive = true ∧
      authorizeToolExecution (checkLoanEligibility .ascii).toToolClass policyOfficer approvedLoan =
        .ok () ∧
      ¬ PolicyPermits (toolRegistry .ascii demoStores) (checkLoanEligibility .ascii).toToolClass
        policyOfficer approvedLoan := by
  refine ⟨rfl, rfl, rfl, fun hpermits => ?_⟩
  obtain ⟨⟨-, -, ⟨role, hrole, hpolicy⟩, -⟩, -⟩ := policyPermits_iff.1 hpermits
  obtain rfl : role = "loan_officer" := List.mem_singleton.1 hrole
  exact absurd hpolicy (by decide)

theorem approvedLoan_refines_iff :
    (authorizeToolExecution (checkLoanEligibility .ascii).toToolClass policyOfficer approvedLoan =
        .ok () →
      PolicyPermits (toolRegistry .ascii demoStores) (checkLoanEligibility .ascii).toToolClass
        policyOfficer approvedLoan) ↔
      ¬ FallbackGap (checkLoanEligibility .ascii).toToolClass policyOfficer approvedLoan :=
  fallback_refines_iff (toolRegistry .ascii demoStores) (checkLoanEligibility .ascii) rfl rfl
    policyOfficer approvedLoan

end Refinement

end AgentPlatform
