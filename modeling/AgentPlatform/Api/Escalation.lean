import AgentPlatform.Api.Tenants
import Mathlib.Logic.Relation

/-!
# What user administration can pass on

Whoever may write users names the roles of the users they create, and these may create users
in turn.  A principal without `platform_admin` who comes to the commit is an administrator of
an institution; nothing compares the roles it names with its own.

* `UserCall` — a call of `create_user`, and `UserCall.Commits` — whether a user comes of it.
* `UserCall.Made` — who makes whom in a run of calls.
* `NoEscalation` — nobody below a principal without `platform_admin` can do what it cannot.
* `attenuates_iff` — when the roles of a new user hold nothing new.
* `escalation_iff` — **when user administration does not escalate**, over every run of calls.
-/

namespace AgentPlatform

/-- The roles a table speaks about. -/
def RBAC.roles (rbac : RBAC) : List String := rbac.rolePermissions.map Prod.fst

/-- The principal a user is when logged in. -/
def User.principal (user : User) : Principal := ⟨user.id, user.tenantId, user.roles⟩

/-! ## The shipped roles -/

/-- The permission only this role holds, of all but the administrator of an institution. -/
def ownPermission : String → String
  | "platform_admin" => "tenant:*"
  | "loan_officer" => "loan:write"
  | "compliance_officer" => "compliance:*"
  | "fraud_analyst" => "fraud:read"
  | _ => "customer:self"

theorem defaultRbac_roles : defaultRbac.roles = ["platform_admin", "institution_admin",
    "loan_officer", "compliance_officer", "fraud_analyst", "customer"] := rfl

/-- A role's own permission is held by that role and by no other. -/
theorem can_ownPermission {role other : String} (hrole : role ∈ defaultRbac.roles)
    (hadmin : role ≠ "institution_admin") :
    defaultRbac.can other (ownPermission role) = true ↔ other = role := by
  rw [defaultRbac_roles] at hrole
  simp only [List.mem_cons, List.not_mem_nil, or_false] at hrole
  rcases hrole with rfl | rfl | rfl | rfl | rfl | rfl
  case inr.inl => exact absurd rfl hadmin
  all_goals
    simp only [ownPermission, defaultRbac, List.foldl_cons, List.foldl_nil, RBAC.can_grant]
    simp [RBAC.can]

/-- Only a role the table speaks about holds anything. -/
theorem mem_roles_of_can {role permission : String}
    (h : defaultRbac.can role permission = true) : role ∈ defaultRbac.roles := by
  unfold RBAC.can at h
  cases hrow : defaultRbac.rolePermissions.lookup role with
  | none => rw [hrow] at h; simp at h
  | some permissions =>
    obtain ⟨before, after, hrows, -⟩ := List.lookup_eq_some_iff.1 hrow
    refine List.mem_map.2 ⟨(role, permissions), ?_, rfl⟩
    rw [hrows]
    simp

theorem can_userWrite {role : String} : defaultRbac.can role "user:write" = true ↔
    role = "platform_admin" ∨ role = "institution_admin" := by
  simp only [defaultRbac, List.foldl_cons, List.foldl_nil, RBAC.can_grant]
  simp [RBAC.can, or_comm]

/-- The roles hold no permission that the others do not. -/
def Attenuates (roles others : List String) : Prop :=
  ∀ permission, anyCan defaultRbac roles permission = true →
    anyCan defaultRbac others permission = true

theorem anyCan_iff {roles : List String} {permission : String} :
    anyCan defaultRbac roles permission = true ↔
      ∃ role ∈ roles, defaultRbac.can role permission = true :=
  List.any_eq_true

/-- **When new roles hold nothing new** for the administrator of an institution: if it has every
one of them that the table speaks about. -/
theorem attenuates_iff {roles own : List String} (hown : "institution_admin" ∈ own) :
    Attenuates roles own ↔ ∀ role ∈ roles, role ∈ defaultRbac.roles → role ∈ own := by
  constructor
  · intro hattenuates role hrole hknown
    by_cases hadmin : role = "institution_admin"
    · rw [hadmin]
      exact hown
    · have hcan : defaultRbac.can role (ownPermission role) = true :=
        (can_ownPermission hknown hadmin).2 rfl
      obtain ⟨other, hother, hholds⟩ :=
        anyCan_iff.1 (hattenuates _ (anyCan_iff.2 ⟨role, hrole, hcan⟩))
      rwa [← (can_ownPermission hknown hadmin).1 hholds]
  · intro hsubset permission hcan
    obtain ⟨role, hrole, hholds⟩ := anyCan_iff.1 hcan
    exact anyCan_iff.2 ⟨role, hsubset role hrole (mem_roles_of_can hholds), hholds⟩

/-! ## Runs of calls -/

/-- A call of `create_user`. -/
structure UserCall where
  env : AdminEnv
  caller : Principal
  tenantId : String
  email : String
  fullName : String
  password : String
  roles : List String

namespace UserCall

variable (c : UserCall)

def serve (w : Audited Database) : Audited Database :=
  (c.env.createUser c.caller c.tenantId c.email c.fullName c.password c.roles w).2

/-- The call is not refused, and its row is committed. -/
def Commits : Prop :=
  anyCan defaultRbac c.caller.roles "user:write" = true ∧ 8 ≤ c.password.length ∧
    (c.tenantId = c.caller.tenantId ∨ "platform_admin" ∈ c.caller.roles) ∧
    (∃ passwordHash, c.env.hashPassword c.password = .ok passwordHash) ∧ c.env.commits = true

/-- The call, in a state, makes a principal. -/
def Makes (w : Audited Database) (p : Principal) : Prop :=
  ∃ user : User, (c.serve w).world = w.world ++ [.user user] ∧ user.principal = p

/-- Who makes whom in a run of calls: the callers are any principals, among them the users made
earlier in the run. -/
def Made (w : Audited Database) : List UserCall → Principal → Principal → Prop
  | [], _, _ => False
  | c :: later, creator, p =>
    (creator = c.caller ∧ c.Makes w p) ∨ Made (c.serve w) later creator p

/-- Directly or through others. -/
def Descends (w : Audited Database) (calls : List UserCall) : Principal → Principal → Prop :=
  Relation.TransGen (Made w calls)

variable {c} {w : Audited Database}

/-- What a call comes to. -/
theorem serve_cases (c : UserCall) (w : Audited Database) :
    (¬ c.Commits ∧ c.serve w = w) ∨
      (c.Commits ∧ ∃ passwordHash, c.serve w = { w with world := w.world ++
        [.user ⟨c.env.uuid, c.tenantId, c.email, c.fullName, passwordHash, c.roles⟩] }) := by
  rw [serve, AdminEnv.createUser_apply]
  by_cases hcan : anyCan defaultRbac c.caller.roles "user:write" = true
  · rw [if_pos hcan]
    by_cases hshort : c.password.length < 8
    · rw [if_pos hshort]
      exact Or.inl ⟨fun h => absurd h.2.1 (not_le.2 hshort), rfl⟩
    · rw [if_neg hshort]
      by_cases hdenied : c.tenantId ≠ c.caller.tenantId ∧ "platform_admin" ∉ c.caller.roles
      · rw [if_pos hdenied]
        exact Or.inl ⟨fun h => h.2.2.1.elim hdenied.1 hdenied.2, rfl⟩
      · have hmay : c.tenantId = c.caller.tenantId ∨ "platform_admin" ∈ c.caller.roles := by
          by_contra hnot
          exact hdenied (not_or.1 hnot)
        rw [if_neg hdenied]
        cases hhash : c.env.hashPassword c.password with
        | error e =>
          refine Or.inl ⟨fun h => ?_, rfl⟩
          obtain ⟨passwordHash, hok⟩ := h.2.2.2.1
          rw [hhash] at hok
          cases hok
        | ok passwordHash =>
          dsimp only
          by_cases hcommits : c.env.commits = true
          · rw [if_pos hcommits]
            exact Or.inr ⟨⟨hcan, not_lt.1 hshort, hmay, ⟨passwordHash, hhash⟩, hcommits⟩,
              passwordHash, rfl⟩
          · rw [if_neg hcommits]
            exact Or.inl ⟨fun h => hcommits h.2.2.2.2, rfl⟩
  · rw [if_neg hcan]
    exact Or.inl ⟨fun h => hcan h.1, rfl⟩

/-- Whom a call makes: its user, with the roles it names. -/
theorem makes_iff {p : Principal} :
    c.Makes w p ↔ c.Commits ∧ p = ⟨c.env.uuid, c.tenantId, c.roles⟩ := by
  rcases serve_cases c w with ⟨hnot, hserve⟩ | ⟨hcommits, passwordHash, hserve⟩
  · refine iff_of_false ?_ fun h => hnot h.1
    rintro ⟨user, hworld, -⟩
    rw [hserve] at hworld
    simp at hworld
  · rw [and_iff_right hcommits]
    constructor
    · rintro ⟨user, hworld, rfl⟩
      rw [hserve, List.append_cancel_left_eq] at hworld
      rw [← Row.user.inj (List.cons.inj hworld).1]
      rfl
    · rintro rfl
      exact ⟨_, by rw [hserve], rfl⟩

/-- Who makes whom can be read off the calls. -/
theorem made_iff {calls : List UserCall} {creator p : Principal} : Made w calls creator p ↔
    ∃ c ∈ calls, c.Commits ∧ creator = c.caller ∧ p = ⟨c.env.uuid, c.tenantId, c.roles⟩ := by
  induction calls generalizing w with
  | nil => simp [Made]
  | cons c later ih =>
    rw [Made, makes_iff, ih]
    simp only [List.mem_cons, exists_eq_or_imp]
    refine or_congr_left ?_
    rw [← and_assoc, ← and_assoc, and_comm (a := creator = c.caller)]

end UserCall

/-- In the state a run leads to, nobody who was made by a principal without `platform_admin`,
directly or through others, can do what that principal cannot. -/
def NoEscalation (w : Audited Database) (calls : List UserCall) : Prop :=
  ∀ origin p, UserCall.Descends w calls origin p → "platform_admin" ∉ origin.roles →
    Attenuates p.roles origin.roles

/-- The call names only roles of its caller, of those the table speaks about. -/
def UserCall.NamesOwnRoles (c : UserCall) : Prop :=
  ∀ role ∈ c.roles, role ∈ defaultRbac.roles → role ∈ c.caller.roles

/-- A caller who comes to the commit administrates the platform or an institution. -/
theorem UserCall.Commits.mem_admin {c : UserCall} (h : c.Commits)
    (hplatform : "platform_admin" ∉ c.caller.roles) : "institution_admin" ∈ c.caller.roles := by
  obtain ⟨role, hrole, hcan⟩ := anyCan_iff.1 h.1
  rcases can_userWrite.1 hcan with rfl | rfl
  · exact absurd hrole hplatform
  · exact hrole

/-- **When user administration does not escalate.**  Over every run of calls by any principals,
the users made on the way among them: if and only if every call that is committed names, unless
its caller has `platform_admin`, only roles its caller has. -/
theorem escalation_iff (w : Audited Database) (calls : List UserCall) :
    NoEscalation w calls ↔ ∀ c ∈ calls, c.Commits → "platform_admin" ∉ c.caller.roles →
      c.NamesOwnRoles := by
  constructor
  · intro hnone c hc hcommits hplatform
    have hmade : UserCall.Made w calls c.caller ⟨c.env.uuid, c.tenantId, c.roles⟩ :=
      UserCall.made_iff.2 ⟨c, hc, hcommits, rfl, rfl⟩
    exact (attenuates_iff (hcommits.mem_admin hplatform)).1
      (hnone _ _ (Relation.TransGen.single hmade) hplatform)
  · intro hown origin p hdescends hplatform
    -- along the chain no new role comes in that the table speaks about
    have hchain : "institution_admin" ∈ origin.roles ∧
        ∀ role ∈ p.roles, role ∈ defaultRbac.roles → role ∈ origin.roles := by
      induction hdescends with
      | single hmade =>
        obtain ⟨c, hc, hcommits, rfl, rfl⟩ := UserCall.made_iff.1 hmade
        exact ⟨hcommits.mem_admin hplatform, hown c hc hcommits hplatform⟩
      | tail _ hmade ih =>
        obtain ⟨hadmin, hroles⟩ := ih
        obtain ⟨c, hc, hcommits, rfl, rfl⟩ := UserCall.made_iff.1 hmade
        have hnot : "platform_admin" ∉ c.caller.roles := fun hmem =>
          hplatform (hroles _ hmem (by rw [defaultRbac_roles]; simp))
        exact ⟨hadmin, fun role hrole hknown =>
          hroles role (hown c hc hcommits hnot role hrole hknown) hknown⟩
    exact (attenuates_iff hchain.1).2 hchain.2

/-- The administrator of an institution makes a platform administrator of its own tenant. -/
def promotion : UserCall where
  env := AdminEnv.demo true
  caller := ⟨"admin_7", "t1", ["institution_admin"]⟩
  tenantId := "t1"
  email := "user@example.com"
  fullName := "Asha Mehta"
  password := "StrongPassword123!"
  roles := ["platform_admin"]

theorem promotion_escalates : ¬ NoEscalation ⟨[], {}⟩ [promotion] := by
  intro hnone
  have hcommits : promotion.Commits :=
    ⟨by decide, by decide, Or.inl rfl, ⟨_, rfl⟩, rfl⟩
  have hmade : UserCall.Made ⟨[], {}⟩ [promotion] promotion.caller
      ⟨promotion.env.uuid, promotion.tenantId, promotion.roles⟩ :=
    UserCall.made_iff.2 ⟨promotion, List.mem_singleton_self _, hcommits, rfl, rfl⟩
  have hheld := hnone _ _ (Relation.TransGen.single hmade) (by decide) "tenant:*" (by decide)
  exact absurd hheld (by decide)

end AgentPlatform
