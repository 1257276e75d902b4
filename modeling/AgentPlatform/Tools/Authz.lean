import AgentPlatform.Security.Rbac
import AgentPlatform.Tools.Base

/-!
# Tool authorization

The enforcement point between an agent and any tool.  Every layer must pass:

1. the tool is registered,
2. a role of the caller holds the tool's permission, or its self-scoped form and
   the caller owns the resource,
3. the attribute rules accept,
4. a sensitive tool has an approval ticket and the policy fallback accepts.

`authorizeToolExecution` walks the layers in this order and raises at the first
one that fails; `executeTool` runs the body only after it.  An `Execution` says
which of the two happened, so that a refusal can be told from a body that raised.
-/

namespace AgentPlatform

/-! ## The self-scoped permission -/

/-- `s.replace(old, new)` on characters; `skip` counts the characters of a match
that are still to be passed over. -/
def replaceChars (old new : List Char) : ℕ → List Char → List Char
  | _, [] => []
  | skip + 1, _ :: cs => replaceChars old new skip cs
  | 0, c :: cs =>
    if old.isPrefixOf (c :: cs) then new ++ replaceChars old new (old.length - 1) cs
    else c :: replaceChars old new 0 cs

/-- `s.replace(old, new)` -/
def pyReplace (s old new : String) : String :=
  String.ofList (replaceChars old.toList new.toList 0 s.toList)

/-- The self-scoped form of a permission. -/
def selfPermission (permission : String) : String :=
  pyReplace (pyReplace permission ":read" ":self") ":write" ":self"

/-! ## The layers -/

/-- The local fallback of the external policy. -/
def checkOpaPolicy (tool : ToolClass) (ctx : ToolContext) (arguments : Dict) : Bool :=
  if !tool.sensitive then true
  else (arguments.get "_approved").truthy || ctx.roles.contains "compliance_officer"

/-- A sensitive tool needs an approval ticket. -/
def requireApprovalOk (tool : ToolClass) (arguments : Dict) : Bool :=
  if !tool.sensitive then true else (arguments.get "approval_ticket_id").truthy

/-- The owner the arguments name. -/
def resourceOwner (arguments : Dict) : Json :=
  pyOr (arguments.get "customer_id") (arguments.get "resource_owner_id")

/-- The caller acts for itself, on a resource it owns. -/
def ownsResource (ctx : ToolContext) (arguments : Dict) : Bool :=
  match ctx.resourceOwnerId with
  | none => false
  | some owner => owner = ctx.userId && (resourceOwner arguments).pyEq (.str owner)

/-- Layer two: the permission itself, or its self-scoped form with ownership. -/
def checkPermission (rbac : RBAC) (tool : ToolClass) (ctx : ToolContext) (arguments : Dict) :
    Except ToolAuthorizationError Unit :=
  match tool.requiredPermission with
  | none => .ok ()
  | some permission =>
    if permission = "" then .ok ()
    else
      let granted := anyCan rbac ctx.roles permission
      let selfForm := selfPermission permission
      let usedSelf := !granted && selfForm ≠ permission && anyCan rbac ctx.roles selfForm
      if !granted && !usedSelf then
        .error ⟨s!"role lacks permission {permission}", .insufficientPermission⟩
      else if usedSelf && !ownsResource ctx arguments then
        .error ⟨"self-scoped access requires resource ownership", .ownershipRequired⟩
      else .ok ()

/-- The attributes a decision is made on. -/
def attributes (ctx : ToolContext) (arguments : Dict) : Dict :=
  [("subject_tenant_id", .str ctx.tenantId),
    ("subject_user_id", .str ctx.userId),
    ("resource_tenant_id", arguments.getD "tenant_id" (.str ctx.tenantId)),
    ("resource_owner_id", .ofOption ctx.resourceOwnerId)]

/-- The action a tool stands for in the attribute rules. -/
def abacAction (tool : ToolClass) : String :=
  if tool.requiredPermission.isNone then "read" else "write"

/-- Layer three: the attribute rules. -/
def checkAttributes (abac : ABACPolicy) (tool : ToolClass) (ctx : ToolContext)
    (arguments : Dict) : Except ToolAuthorizationError Unit :=
  if abac.allows (abacAction tool) "*" (attributes ctx arguments) then .ok ()
  else .error ⟨"attribute policy denied access", .policyDenied⟩

/-- Layer four: the approval of a sensitive tool. -/
def checkApproval (tool : ToolClass) (ctx : ToolContext) (arguments : Dict) :
    Except ToolAuthorizationError Unit :=
  if !tool.sensitive then .ok ()
  else if !requireApprovalOk tool arguments then
    .error ⟨"human approval required", .approvalRequired⟩
  else if !checkOpaPolicy tool ctx arguments then
    .error ⟨"OPA policy denied tool execution", .opaDenied⟩
  else .ok ()

/-- Every layer in turn; the tables default to the shipped ones. -/
def authorizeToolExecution (tool : ToolClass) (ctx : ToolContext) (arguments : Dict)
    (rbac : RBAC := defaultRbac) (abac : ABACPolicy := defaultAbac) :
    Except ToolAuthorizationError Unit := do
  checkPermission rbac tool ctx arguments
  checkAttributes abac tool ctx arguments
  checkApproval tool ctx arguments

/-! ## Execution -/

/-- What became of a tool call: refused before the body, or run to an outcome. -/
inductive Execution where
  | refused (e : ToolAuthorizationError)
  | ran (outcome : Except PyErr ToolResult)

namespace Execution

/-- What the caller of `execute_tool` gets: a result or an exception. -/
def toExcept : Execution → Except PyErr ToolResult
  | refused e => .error (.toolAuthorizationError e)
  | ran outcome => outcome

/-- Did the body of the tool run? -/
def bodyRan : Execution → Bool
  | refused _ => false
  | ran _ => true

/-- Does `execute_tool` raise? -/
def raises (x : Execution) : Bool :=
  match x.toExcept with
  | .error _ => true
  | .ok _ => false

end Execution

/-- Authorize, then run the body, under given tables. -/
def executeToolWith (rbac : RBAC) (abac : ABACPolicy) (reg : ToolRegistry) (name : String)
    (ctx : ToolContext) (arguments : Dict) : Execution :=
  match reg.getTool name with
  | none => .refused ⟨s!"unregistered tool: {name}", .toolNotFound⟩
  | some tool =>
    match authorizeToolExecution tool.toToolClass ctx arguments rbac abac with
    | .error e => .refused e
    | .ok () => .ran (tool.run ctx arguments)

/-- Authorize, then run the body, under the shipped tables. -/
def executeTool : ToolRegistry → String → ToolContext → Dict → Execution :=
  executeToolWith defaultRbac defaultAbac

/-! ## What each layer decides -/

section Layers

variable {rbac : RBAC} {abac : ABACPolicy} {tool : ToolClass} {ctx : ToolContext}
  {arguments : Dict}

theorem ownsResource_iff : ownsResource ctx arguments = true ↔
    ctx.resourceOwnerId = some ctx.userId ∧ resourceOwner arguments = .str ctx.userId := by
  unfold ownsResource
  cases h : ctx.resourceOwnerId with
  | none => simp
  | some owner =>
    simp only [Bool.and_eq_true, decide_eq_true_eq, Json.pyEq_str_iff, Option.some.injEq]
    constructor
    · rintro ⟨rfl, hown⟩
      exact ⟨rfl, hown⟩
    · rintro ⟨rfl, hown⟩
      exact ⟨rfl, hown⟩

/-- The second layer, as a condition. -/
def PermissionHeld (rbac : RBAC) (tool : ToolClass) (ctx : ToolContext) (arguments : Dict) :
    Prop :=
  tool.requiredPermission = none ∨ tool.requiredPermission = some "" ∨
    ∃ permission, tool.requiredPermission = some permission ∧
      (anyCan rbac ctx.roles permission = true ∨
        selfPermission permission ≠ permission ∧
          anyCan rbac ctx.roles (selfPermission permission) = true ∧
          ctx.resourceOwnerId = some ctx.userId ∧ resourceOwner arguments = .str ctx.userId)

theorem checkPermission_eq_ok_iff :
    checkPermission rbac tool ctx arguments = .ok () ↔ PermissionHeld rbac tool ctx arguments := by
  unfold checkPermission PermissionHeld
  cases hp : tool.requiredPermission with
  | none => simp
  | some permission =>
    by_cases hempty : permission = ""
    · simp [hempty]
    · simp only [hempty, if_false, Option.some.injEq, reduceCtorEq, false_or, exists_eq_left']
      rw [← ownsResource_iff]
      cases hg : anyCan rbac ctx.roles permission
      · by_cases hs : selfPermission permission = permission
        · simp [hs]
        · cases hself : anyCan rbac ctx.roles (selfPermission permission) <;>
            cases hown : ownsResource ctx arguments <;> simp [hs]
      · simp

theorem checkAttributes_eq_ok_iff : checkAttributes abac tool ctx arguments = .ok () ↔
    abac.allows (abacAction tool) "*" (attributes ctx arguments) = true := by
  unfold checkAttributes
  split <;> simp_all

theorem checkApproval_eq_ok_iff : checkApproval tool ctx arguments = .ok () ↔
    (tool.sensitive = true →
      (arguments.get "approval_ticket_id").truthy = true ∧
        checkOpaPolicy tool ctx arguments = true) := by
  unfold checkApproval requireApprovalOk
  cases tool.sensitive <;> cases (arguments.get "approval_ticket_id").truthy <;>
    cases checkOpaPolicy tool ctx arguments <;> simp

/-- A sequence of checks passes when each of them does. -/
theorem andThen_eq_ok_iff {ε : Type} {a b : Except ε Unit} :
    (a >>= fun _ => b) = .ok () ↔ a = .ok () ∧ b = .ok () := by
  cases a with
  | error e => simp [bind, Except.bind]
  | ok u => simp [bind, Except.bind]

/-- The layers, put together. -/
theorem authorizeToolExecution_eq_ok_iff :
    authorizeToolExecution tool ctx arguments rbac abac = .ok () ↔
      PermissionHeld rbac tool ctx arguments ∧
        abac.allows (abacAction tool) "*" (attributes ctx arguments) = true ∧
        (tool.sensitive = true →
          (arguments.get "approval_ticket_id").truthy = true ∧
            checkOpaPolicy tool ctx arguments = true) := by
  unfold authorizeToolExecution
  rw [andThen_eq_ok_iff, andThen_eq_ok_iff, checkPermission_eq_ok_iff,
    checkAttributes_eq_ok_iff, checkApproval_eq_ok_iff]

/-- The body of a tool runs when the tool is registered and authorized, on the
caller's context and arguments. -/
theorem executeToolWith_eq_ran_iff {reg : ToolRegistry} {name : String}
    {outcome : Except PyErr ToolResult} :
    executeToolWith rbac abac reg name ctx arguments = .ran outcome ↔
      ∃ tool, reg.getTool name = some tool ∧
        authorizeToolExecution tool.toToolClass ctx arguments rbac abac = .ok () ∧
        tool.run ctx arguments = outcome := by
  unfold executeToolWith
  cases hreg : reg.getTool name with
  | none => simp
  | some tool =>
    cases hauth : authorizeToolExecution tool.toToolClass ctx arguments rbac abac <;> simp [hauth]

/-- Under the shipped tables, the body runs when the tool is registered and authorized. -/
theorem bodyRan_executeTool_iff {reg : ToolRegistry} {name : String} :
    (executeTool reg name ctx arguments).bodyRan = true ↔
      ∃ tool, reg.getTool name = some tool ∧
        authorizeToolExecution tool.toToolClass ctx arguments = .ok () := by
  unfold executeTool executeToolWith
  cases hreg : reg.getTool name with
  | none => simp [Execution.bodyRan]
  | some tool =>
    cases hauth : authorizeToolExecution tool.toToolClass ctx arguments <;>
      simp [hauth, Execution.bodyRan]

end Layers

end AgentPlatform
