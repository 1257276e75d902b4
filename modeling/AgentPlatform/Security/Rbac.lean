import AgentPlatform.Python.Value

/-!
# Roles and attributes

The two authorization primitives: a static table from roles to permissions, and a
list of attribute rules that are asked at decision time.

* `RBAC.can_grant` — granting adds one entry to the table and takes none away.
* `ABACPolicy.allows_iff` — a request passes when some rule applies to it and all
  the rules that apply accept; no rule is a refusal.
* `defaultAbac_allows` — the shipped rules compare tenants and nothing else.
-/

namespace AgentPlatform

/-! ## Roles -/

/-- A static table from roles to the permissions they hold. -/
structure RBAC where
  rolePermissions : List (String × List String) := []

namespace RBAC

/-- Does the role hold the permission? -/
def can (rbac : RBAC) (role permission : String) : Bool :=
  permission ∈ (rbac.rolePermissions.lookup role).getD []

/-- Add a permission to a role's row, opening the row if there is none. -/
def grantIn (role permission : String) :
    List (String × List String) → List (String × List String)
  | [] => [(role, [permission])]
  | (r, ps) :: rows =>
    if r = role then (r, permission :: ps) :: rows else (r, ps) :: grantIn role permission rows

/-- The table with one more permission. -/
def grant (rbac : RBAC) (role permission : String) : RBAC :=
  ⟨grantIn role permission rbac.rolePermissions⟩

theorem lookup_grantIn (role permission r : String) (rows : List (String × List String)) :
    ((grantIn role permission rows).lookup r).getD [] =
      if r = role then permission :: (rows.lookup r).getD [] else (rows.lookup r).getD [] := by
  induction rows with
  | nil =>
    by_cases h : r = role
    · simp [grantIn, h]
    · simp [grantIn, List.lookup_cons, beq_eq_false_iff_ne.2 h, h]
  | cons row rows ih =>
    obtain ⟨r', ps⟩ := row
    by_cases h' : r' = role
    · subst h'
      by_cases h : r = r'
      · simp [grantIn, h]
      · simp [grantIn, List.lookup_cons, beq_eq_false_iff_ne.2 h, h]
    · by_cases h : r = r'
      · subst h; simp [grantIn, h']
      · simp only [grantIn, if_neg h', List.lookup_cons, beq_eq_false_iff_ne.2 h, ih]

/-- A grant adds one entry and takes none away. -/
theorem can_grant (rbac : RBAC) (role permission r p : String) :
    (rbac.grant role permission).can r p =
      ((r = role ∧ p = permission : Bool) || rbac.can r p) := by
  rw [can, grant, lookup_grantIn]
  by_cases h : r = role <;> by_cases hp : p = permission <;> simp [can, h, hp]

/-- One table holds every entry of another. -/
def Extends (rbac' rbac : RBAC) : Prop :=
  ∀ role permission, rbac.can role permission = true → rbac'.can role permission = true

theorem extends_grant (rbac : RBAC) (role permission : String) :
    (rbac.grant role permission).Extends rbac := by
  intro r p h
  rw [can_grant, h, Bool.or_true]

end RBAC

/-- Does one of the roles hold the permission? -/
def anyCan (rbac : RBAC) (roles : List String) (permission : String) : Bool :=
  roles.any fun role => rbac.can role permission

/-! ## Attributes -/

/-- A rule for one action on one resource. -/
structure ABACRule where
  action : String
  resource : String
  condition : Dict → Bool

/-- The rules in force. -/
structure ABACPolicy where
  rules : List ABACRule := []

namespace ABACPolicy

/-- One rule more. -/
def add (abac : ABACPolicy) (action resource : String) (condition : Dict → Bool) : ABACPolicy :=
  ⟨abac.rules ++ [⟨action, resource, condition⟩]⟩

/-- The rules that speak about an action on a resource. -/
def applicable (abac : ABACPolicy) (action resource : String) : List ABACRule :=
  abac.rules.filter fun r => r.action = action && r.resource = resource

/-- Every applicable rule accepts; without one the answer is no. -/
def allows (abac : ABACPolicy) (action resource : String) (attributes : Dict) : Bool :=
  let applicable := abac.applicable action resource
  if applicable.isEmpty then false
  else applicable.all fun r => r.condition attributes

theorem allows_iff (abac : ABACPolicy) (action resource : String) (attributes : Dict) :
    abac.allows action resource attributes = true ↔
      (∃ r ∈ abac.rules, r.action = action ∧ r.resource = resource) ∧
        ∀ r ∈ abac.rules, r.action = action → r.resource = resource →
          r.condition attributes = true := by
  have hmem : ∀ r, r ∈ abac.applicable action resource ↔
      r ∈ abac.rules ∧ r.action = action ∧ r.resource = resource := by
    intro r
    simp [applicable, List.mem_filter]
  by_cases hnil : abac.applicable action resource = []
  · have hnone : ¬ ∃ r ∈ abac.rules, r.action = action ∧ r.resource = resource := by
      rintro ⟨r, hr⟩
      have := (hmem r).2 hr
      rw [hnil] at this
      exact absurd this (by simp)
    simp [allows, hnil, hnone]
  · obtain ⟨r, hr⟩ := List.exists_mem_of_ne_nil _ hnil
    have hsome : ∃ r ∈ abac.rules, r.action = action ∧ r.resource = resource :=
      ⟨r, (hmem r).1 hr⟩
    have hfalse : (abac.applicable action resource).isEmpty = false := by
      simpa [List.isEmpty_eq_false_iff] using hnil
    simp only [allows, hfalse, Bool.false_eq_true, if_false, List.all_eq_true, hsome, true_and]
    constructor
    · intro h s hs ha hres
      exact h s ((hmem s).2 ⟨hs, ha, hres⟩)
    · intro h s hs
      obtain ⟨hs1, hs2, hs3⟩ := (hmem s).1 hs
      exact h s hs1 hs2 hs3

end ABACPolicy

/-! ## The shipped tables -/

/-- The shipped role table. -/
def defaultRbac : RBAC :=
  [ -- Platform roles
    ("platform_admin", "tenant:*"),
    ("platform_admin", "institution:*"),
    ("platform_admin", "user:write"),
    -- Institution roles
    ("institution_admin", "institution:*"),
    ("institution_admin", "loan:read"),
    ("institution_admin", "customer:read"),
    ("institution_admin", "user:write"),
    -- Staff roles
    ("loan_officer", "loan:read"),
    ("loan_officer", "loan:write"),
    ("loan_officer", "customer:read"),
    ("compliance_officer", "compliance:*"),
    ("compliance_officer", "audit:read"),
    ("fraud_analyst", "fraud:read"),
    ("fraud_analyst", "fraud:write"),
    -- Customer roles
    ("customer", "customer:self"),
    ("customer", "loan:self") ].foldl (fun rbac g => rbac.grant g.1 g.2) {}

/-- The subject's tenant is the resource's tenant. -/
def sameTenant (attributes : Dict) : Bool :=
  (attributes.get "subject_tenant_id").pyEq (attributes.get "resource_tenant_id")

/-- The subject owns the resource. -/
def isOwner (attributes : Dict) : Bool :=
  (attributes.get "subject_user_id").pyEq (attributes.get "resource_owner_id")

/-- The shipped attribute rules. -/
def defaultAbac : ABACPolicy :=
  ((((({} : ABACPolicy).add "read" "*" sameTenant).add "write" "*" sameTenant).add
    "*" "customer:self" isOwner).add "*" "loan:self" isOwner)

/-- For a read or a write the shipped rules compare the tenants. -/
theorem defaultAbac_allows (action : String) (h : action = "read" ∨ action = "write")
    (attributes : Dict) : defaultAbac.allows action "*" attributes = sameTenant attributes := by
  have happ : defaultAbac.applicable action "*" = [⟨action, "*", sameTenant⟩] := by
    rcases h with rfl | rfl <;> rfl
  simp [ABACPolicy.allows, happ]

/-- Nobody holds a document permission: neither the permission nor its self form. -/
theorem defaultRbac_no_document (role : String) :
    defaultRbac.can role "document:read" = false ∧
      defaultRbac.can role "document:self" = false := by
  simp only [defaultRbac, List.foldl_cons, List.foldl_nil, RBAC.can_grant]
  simp [RBAC.can]

/-- Only the compliance officer holds the compliance permission. -/
theorem defaultRbac_compliance (role : String) :
    defaultRbac.can role "compliance:*" = true ↔ role = "compliance_officer" := by
  simp only [defaultRbac, List.foldl_cons, List.foldl_nil, RBAC.can_grant]
  simp [RBAC.can]

example : defaultRbac.can "customer" "loan:self" = true := by decide

end AgentPlatform
