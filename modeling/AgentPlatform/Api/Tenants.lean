import AgentPlatform.Api.Dependencies
import AgentPlatform.Services.Audit

/-!
# Administration of the tenants

The endpoints that create tenants, users and institutions.  A row is written in a
session of its own; only the creation of a tenant is audited, in a second session that is
committed before the first one.

* `createTenant`, `createUser`, `createInstitution` — the endpoints, and `AdminEnv.serve` — any
  of them.
* `createTenant_apply`, `createUser_apply`, `createInstitution_apply` — what each of them does.
* `audit_agrees_iff` — **when the audit log and the tables agree**, wherever the database fails.
-/

namespace AgentPlatform

/-! ## The tables -/

structure Tenant where
  id : String
  name : String
  slug : String
  dataResidency : String

structure User where
  id : String
  tenantId : String
  email : String
  fullName : String
  passwordHash : String
  roles : List String

structure Institution where
  id : String
  tenantId : String
  name : String
  code : String

/-- A row of the tables. -/
inductive Row where
  | tenant (tenant : Tenant)
  | user (user : User)
  | institution (institution : Institution)

namespace Row

/-- What a row is called in the audit log. -/
def resourceType : Row → String
  | tenant _ => "tenant"
  | user _ => "user"
  | institution _ => "institution"

def id : Row → String
  | tenant t => t.id
  | user u => u.id
  | institution i => i.id

/-- The tenant a row belongs to; the row of a tenant belongs to none. -/
def tenantId? : Row → Option String
  | tenant _ => none
  | user u => some u.tenantId
  | institution i => some i.tenantId

end Row

/-- The rows that are committed. -/
abbrev Database := List Row

/-- What the endpoints run against, and how the database operations of a call end. -/
structure AdminEnv where
  runtime : PyRuntime
  hashPassword : String → Except PyErr String
  /-- The id of the new row. -/
  uuid : String
  /-- Does `session.flush()` go through? -/
  flushes : Bool
  /-- Does `session.commit()` go through? -/
  commits : Bool
  /-- Does the database take the audit row, when it is asked for the time of that number? -/
  takes : ℕ → Bool

/-! ## The endpoints -/

def databaseError : ApiError := .uncaught .operationalError

namespace AdminEnv

variable (env : AdminEnv)

/-- `session.flush()` -/
def flush : Effect (Audited Database) ApiError Unit :=
  if env.flushes then pure () else Effect.raise databaseError

/-- `session.commit()` of a session with a new row -/
def commit (row : Row) : Effect (Audited Database) ApiError Unit :=
  if env.commits then Effect.modify fun w => { w with world := w.world ++ [row] }
  else Effect.raise databaseError

/-- The audit row of a new tenant. -/
def tenantAudit (principal : Principal) (tenant : Tenant) : AuditLog where
  tenantId := tenant.id
  correlationId := "tenant-create"
  actorType := "user"
  actorId := principal.userId
  action := "tenant.create"
  resourceType := "tenant"
  resourceId := tenant.id
  outcome := "success"

/-- `create_tenant` -/
def createTenant (principal : Principal) (name slug : String) (dataResidency : Option String) :
    Effect (Audited Database) ApiError Dict := do
  let principal ← Effect.ofExcept (requirePermission "tenant:*" principal)
  let tenant : Tenant :=
    { id := env.uuid, name, slug, dataResidency := dataResidency.getD "in" }
  env.flush
  record env.runtime env.takes databaseError (tenantAudit principal tenant)
  env.commit (.tenant tenant)
  return [("tenant_id", .str tenant.id)]

/-- The answer to a password with fewer than eight characters. -/
def passwordTooShort : ApiError := .http 422 "String should have at least 8 characters"

/-- `create_user` -/
def createUser (principal : Principal) (tenantId email fullName password : String)
    (roles : List String) : Effect (Audited Database) ApiError Dict := do
  let principal ← Effect.ofExcept (requirePermission "user:write" principal)
  if password.length < 8 then Effect.raise passwordTooShort
  else if tenantId ≠ principal.tenantId ∧ "platform_admin" ∉ principal.roles then
    Effect.raise (.http 403 "tenant access denied")
  else do
    let passwordHash ← Effect.ofExcept ((env.hashPassword password).mapError .uncaught)
    env.commit (.user { id := env.uuid, tenantId, email, fullName, passwordHash, roles })
    return [("user_id", .str env.uuid), ("tenant_id", .str tenantId)]

/-- `create_institution` -/
def createInstitution (_principal : Principal) (tenantId name code : String) :
    Effect (Audited Database) ApiError Dict := do
  env.commit (.institution { id := env.uuid, tenantId, name, code })
  return [("institution_id", .str env.uuid), ("tenant_id", .str tenantId)]

end AdminEnv

/-- A call of one of the endpoints. -/
inductive AdminCall where
  | createTenant (name slug : String) (dataResidency : Option String)
  | createUser (tenantId email fullName password : String) (roles : List String)
  | createInstitution (tenantId name code : String)

namespace AdminEnv

variable (env : AdminEnv)

def serve (principal : Principal) : AdminCall → Effect (Audited Database) ApiError Dict
  | .createTenant name slug dataResidency => env.createTenant principal name slug dataResidency
  | .createUser tenantId email fullName password roles =>
    env.createUser principal tenantId email fullName password roles
  | .createInstitution tenantId name code => env.createInstitution principal tenantId name code

/-! ## What the endpoints do -/

variable {env} {principal : Principal} {w : Audited Database}

theorem bind_flush (f : Unit → Effect (Audited Database) ApiError Dict) :
    (env.flush >>= f) w = if env.flushes then f () w else (.error databaseError, w) := by
  unfold flush
  cases env.flushes <;> rfl

theorem bind_commit (row : Row) (f : Unit → Effect (Audited Database) ApiError Dict) :
    (env.commit row >>= f) w =
      if env.commits then f () { w with world := w.world ++ [row] }
      else (.error databaseError, w) := by
  unfold commit
  cases env.commits <;> rfl

theorem bind_requirePermission {permission : String}
    (f : Principal → Effect (Audited Database) ApiError Dict) :
    (Effect.ofExcept (requirePermission permission principal) >>= f) w =
      if anyCan defaultRbac principal.roles permission then f principal w
      else (.error (.http 403 "insufficient permissions"), w) := by
  unfold requirePermission
  cases anyCan defaultRbac principal.roles permission <;> rfl

/-- What `create_tenant` does, wherever the database fails. -/
theorem createTenant_apply (name slug : String) (dataResidency : Option String) :
    env.createTenant principal name slug dataResidency w =
      let tenant : Tenant := ⟨env.uuid, name, slug, dataResidency.getD "in"⟩
      let audited := { w with
        audits := w.audits.taken ((tenantAudit principal tenant).masked env.runtime) }
      if anyCan defaultRbac principal.roles "tenant:*" then
        if env.flushes then
          if env.takes w.audits.asked then
            if env.commits then
              (.ok [("tenant_id", .str env.uuid)],
                { audited with world := w.world ++ [.tenant tenant] })
            else (.error databaseError, audited)
          else (.error databaseError, { w with audits := w.audits.refused })
        else (.error databaseError, w)
      else (.error (.http 403 "insufficient permissions"), w) := by
  rw [createTenant, bind_requirePermission, bind_flush, bind_record, bind_commit]
  rfl

/-- The user an account is made of. -/
theorem createUser_apply (tenantId email fullName password : String) (roles : List String) :
    env.createUser principal tenantId email fullName password roles w =
      if anyCan defaultRbac principal.roles "user:write" then
        if password.length < 8 then (.error passwordTooShort, w)
        else if tenantId ≠ principal.tenantId ∧ "platform_admin" ∉ principal.roles then
          (.error (.http 403 "tenant access denied"), w)
        else match env.hashPassword password with
        | .error e => (.error (.uncaught e), w)
        | .ok passwordHash =>
          if env.commits then
            (.ok [("user_id", .str env.uuid), ("tenant_id", .str tenantId)],
              { w with world := w.world ++
                [.user ⟨env.uuid, tenantId, email, fullName, passwordHash, roles⟩] })
          else (.error databaseError, w)
      else (.error (.http 403 "insufficient permissions"), w) := by
  rw [createUser, bind_requirePermission]
  split
  · split
    · rfl
    · split
      · rfl
      · cases hhash : env.hashPassword password with
        | error e => rfl
        | ok passwordHash => exact bind_commit _ _
  · rfl

theorem createInstitution_apply (tenantId name code : String) :
    env.createInstitution principal tenantId name code w =
      if env.commits then
        (.ok [("institution_id", .str env.uuid), ("tenant_id", .str tenantId)],
          { w with world := w.world ++ [.institution ⟨env.uuid, tenantId, name, code⟩] })
      else (.error databaseError, w) :=
  bind_commit _ _

/-- The call comes to the commit of its row: it is not refused, and no database operation before
the commit fails. -/
def ReachesCommit (env : AdminEnv) (principal : Principal) (w : Audited Database) :
    AdminCall → Prop
  | .createTenant _ _ _ =>
    anyCan defaultRbac principal.roles "tenant:*" = true ∧ env.flushes = true ∧
      env.takes w.audits.asked = true
  | .createUser tenantId _ _ password _ =>
    anyCan defaultRbac principal.roles "user:write" = true ∧ 8 ≤ password.length ∧
      (tenantId = principal.tenantId ∨ "platform_admin" ∈ principal.roles) ∧
      ∃ passwordHash, env.hashPassword password = .ok passwordHash
  | .createInstitution _ _ _ => True

/-- What a call does to the tables and to the audit log. -/
inductive Served (env : AdminEnv) (principal : Principal) (w : Audited Database) :
    AdminCall → Audited Database → Prop
  /-- The call does not come to its commit; an audit row may have been refused. -/
  | stopped {call : AdminCall} (hreaches : ¬ env.ReachesCommit principal w call)
      (audits : Journal AuditLog) (hrows : audits.rows = w.audits.rows) :
      Served env principal w call { w with audits }
  /-- The commit fails; a new tenant is audited by then. -/
  | onlyAudited {name slug : String} {dataResidency : Option String} {entry : AuditLog}
      (hreaches : env.ReachesCommit principal w (.createTenant name slug dataResidency))
      (hfails : env.commits = false) (houtcome : entry.outcome = "success")
      (htype : entry.resourceType = "tenant") (hid : entry.resourceId = env.uuid) :
      Served env principal w (.createTenant name slug dataResidency)
        { w with audits := w.audits.taken entry }
  | notCommitted {call : AdminCall} (hfails : env.commits = false)
      (hcall : ∀ name slug dataResidency, call ≠ .createTenant name slug dataResidency) :
      Served env principal w call w
  | tenant {name slug : String} {dataResidency : Option String} {entry : AuditLog}
      (hreaches : env.ReachesCommit principal w (.createTenant name slug dataResidency))
      (hcommits : env.commits = true) (houtcome : entry.outcome = "success")
      (htype : entry.resourceType = "tenant") (hid : entry.resourceId = env.uuid) :
      Served env principal w (.createTenant name slug dataResidency)
        ⟨w.world ++ [.tenant ⟨env.uuid, name, slug, dataResidency.getD "in"⟩],
          w.audits.taken entry⟩
  | user {tenantId email fullName password passwordHash : String} {roles : List String}
      (hreaches : env.ReachesCommit principal w
        (.createUser tenantId email fullName password roles))
      (hcommits : env.commits = true) :
      Served env principal w (.createUser tenantId email fullName password roles)
        { w with world := w.world ++
          [.user ⟨env.uuid, tenantId, email, fullName, passwordHash, roles⟩] }
  | institution {tenantId name code : String} (hcommits : env.commits = true) :
      Served env principal w (.createInstitution tenantId name code)
        { w with world := w.world ++ [.institution ⟨env.uuid, tenantId, name, code⟩] }

theorem served_of_stopped {call : AdminCall} (hreaches : ¬ env.ReachesCommit principal w call) :
    Served env principal w call w :=
  .stopped hreaches w.audits rfl

theorem served_createTenant (name slug : String) (dataResidency : Option String) :
    Served env principal w (.createTenant name slug dataResidency)
      (env.createTenant principal name slug dataResidency w).2 := by
  rw [createTenant_apply]
  dsimp only
  split
  · rename_i hcan
    split
    · rename_i hflushes
      split
      · rename_i htaken
        have hreaches : env.ReachesCommit principal w (.createTenant name slug dataResidency) :=
          ⟨hcan, hflushes, htaken⟩
        split
        · rename_i hcommits
          exact .tenant hreaches hcommits rfl rfl rfl
        · rename_i hfails
          exact .onlyAudited hreaches (Bool.eq_false_of_not_eq_true hfails) rfl rfl rfl
      · rename_i htaken
        have hrefused : ¬ env.ReachesCommit principal w (.createTenant name slug dataResidency) :=
          fun h => htaken h.2.2
        exact .stopped hrefused w.audits.refused rfl
    · rename_i hflushes
      exact served_of_stopped fun h => hflushes h.2.1
  · rename_i hcan
    exact served_of_stopped fun h => hcan h.1

theorem served_createUser (tenantId email fullName password : String) (roles : List String) :
    Served env principal w (.createUser tenantId email fullName password roles)
      (env.createUser principal tenantId email fullName password roles w).2 := by
  rw [createUser_apply]
  split
  · rename_i hcan
    split
    · rename_i hshort
      exact served_of_stopped fun h => absurd h.2.1 (not_le.2 hshort)
    · rename_i hlong
      split
      · rename_i hother
        exact served_of_stopped fun h => h.2.2.1.elim hother.1 hother.2
      · rename_i hown
        split
        · rename_i e hhash
          refine served_of_stopped fun h => ?_
          obtain ⟨-, -, -, passwordHash, hok⟩ := h
          rw [hhash] at hok
          cases hok
        · rename_i passwordHash hhash
          have hmay : tenantId = principal.tenantId ∨ "platform_admin" ∈ principal.roles := by
            by_contra hnot
            exact hown (not_or.1 hnot)
          split
          · rename_i hcommits
            exact .user ⟨hcan, not_lt.1 hlong, hmay, passwordHash, hhash⟩ hcommits
          · rename_i hfails
            exact .notCommitted (Bool.eq_false_of_not_eq_true hfails) (by simp)
  · rename_i hcan
    exact served_of_stopped fun h => hcan h.1

theorem served_createInstitution (tenantId name code : String) :
    Served env principal w (.createInstitution tenantId name code)
      (env.createInstitution principal tenantId name code w).2 := by
  rw [createInstitution_apply]
  split
  · rename_i hcommits
    exact .institution hcommits
  · rename_i hfails
    exact .notCommitted (Bool.eq_false_of_not_eq_true hfails) (by simp)

/-- **What a call does**, wherever the database fails. -/
theorem served (env : AdminEnv) (principal : Principal) (call : AdminCall)
    (w : Audited Database) : Served env principal w call (env.serve principal call w).2 := by
  cases call with
  | createTenant name slug dataResidency => exact served_createTenant name slug dataResidency
  | createUser tenantId email fullName password roles =>
    exact served_createUser tenantId email fullName password roles
  | createInstitution tenantId name code => exact served_createInstitution tenantId name code

/-! ## The audit log and the tables -/

/-- A row is committed exactly if a success is audited that names it. -/
def AuditAgrees (w w' : Audited Database) : Prop :=
  ∀ resourceType id,
    (∃ row : Row, w'.world = w.world ++ [row] ∧ row.resourceType = resourceType ∧ row.id = id) ↔
      ∃ entry : AuditLog, w'.audits.rows = w.audits.rows ++ [entry] ∧ entry.outcome = "success" ∧
        entry.resourceType = resourceType ∧ entry.resourceId = id

theorem auditAgrees_of_same {audits : Journal AuditLog} (h : audits.rows = w.audits.rows) :
    AuditAgrees w { w with audits } := by
  intro resourceType id
  constructor
  · rintro ⟨row, hrow, -⟩
    exact absurd hrow (by simp)
  · rintro ⟨entry, hentry, -⟩
    exact absurd (h.symm.trans hentry) (by simp)

/-- A row that nothing is audited of. -/
theorem not_auditAgrees_of_row (row : Row) :
    ¬ AuditAgrees w { w with world := w.world ++ [row] } := by
  intro h
  obtain ⟨entry, hentry, -⟩ := (h row.resourceType row.id).1 ⟨row, rfl, rfl, rfl⟩
  exact absurd hentry (by simp)

/-- A success of a row that is not there. -/
theorem not_auditAgrees_of_entry {entry : AuditLog} (houtcome : entry.outcome = "success") :
    ¬ AuditAgrees w { w with audits := w.audits.taken entry } := by
  intro h
  obtain ⟨row, hrow, -⟩ :=
    (h entry.resourceType entry.resourceId).2 ⟨entry, rfl, houtcome, rfl, rfl⟩
  exact absurd hrow (by simp)

theorem auditAgrees_of_both {row : Row} {entry : AuditLog} (houtcome : entry.outcome = "success")
    (htype : entry.resourceType = row.resourceType) (hid : entry.resourceId = row.id) :
    AuditAgrees w ⟨w.world ++ [row], w.audits.taken entry⟩ := by
  intro resourceType id
  constructor
  · rintro ⟨row', hrow', rfl, rfl⟩
    obtain rfl : row = row' := by simpa using hrow'
    exact ⟨entry, rfl, houtcome, htype, hid⟩
  · rintro ⟨entry', hentry', -, rfl, rfl⟩
    obtain rfl : entry = entry' := by simpa using hentry'
    exact ⟨row, rfl, htype.symm, hid.symm⟩

/-- The audit is kept: the commit of a tenant does not fail once it is reached, and no user and no
institution is committed. -/
def KeepsAudit (env : AdminEnv) (principal : Principal) (w : Audited Database)
    (call : AdminCall) : Prop :=
  match call with
  | .createTenant _ _ _ => env.ReachesCommit principal w call → env.commits = true
  | .createUser _ _ _ _ _ | .createInstitution _ _ _ =>
    env.ReachesCommit principal w call → env.commits = false

theorem keepsAudit_of_stopped {call : AdminCall} (h : ¬ env.ReachesCommit principal w call) :
    env.KeepsAudit principal w call := by
  cases call <;> exact fun hreaches => absurd hreaches h

/-- **When the audit log and the tables agree** after a call, wherever the database fails. -/
theorem audit_agrees_iff (env : AdminEnv) (principal : Principal) (call : AdminCall)
    (w : Audited Database) :
    AuditAgrees w (env.serve principal call w).2 ↔ env.KeepsAudit principal w call := by
  have hserved := served env principal call w
  generalize (env.serve principal call w).2 = w' at hserved ⊢
  cases hserved with
  | stopped hreaches audits hrows =>
    exact iff_of_true (auditAgrees_of_same hrows) (keepsAudit_of_stopped hreaches)
  | onlyAudited hreaches hfails houtcome htype hid =>
    refine iff_of_false (not_auditAgrees_of_entry houtcome) fun h => ?_
    rw [h hreaches] at hfails
    cases hfails
  | notCommitted hfails hcall =>
    refine iff_of_true (auditAgrees_of_same rfl) ?_
    cases call with
    | createTenant name slug dataResidency => exact absurd rfl (hcall name slug dataResidency)
    | createUser tenantId email fullName password roles => exact fun _ => hfails
    | createInstitution tenantId name code => exact fun _ => hfails
  | tenant hreaches hcommits houtcome htype hid =>
    exact iff_of_true (auditAgrees_of_both houtcome htype hid) fun _ => hcommits
  | user hreaches hcommits =>
    refine iff_of_false (not_auditAgrees_of_row _) fun h => ?_
    rw [h hreaches] at hcommits
    cases hcommits
  | institution hcommits =>
    refine iff_of_false (not_auditAgrees_of_row _) fun h => ?_
    rw [h trivial] at hcommits
    cases hcommits

/-- A call whose audit row is taken, and whose commit may fail. -/
def demo (commits : Bool) : AdminEnv where
  runtime := .ascii
  hashPassword password := .ok ("hash of " ++ password)
  uuid := "0f8fad5b"
  flushes := true
  commits
  takes _ := true

/-- A tenant that does not exist is audited as created, and a user that does exist is not
audited at all. -/
theorem demo_not_agrees :
    ¬ AuditAgrees ⟨[], {}⟩ ((demo false).serve ⟨"admin", "platform", ["platform_admin"]⟩
        (.createTenant "Axis Demo Bank" "axis-demo-bank" none) ⟨[], {}⟩).2 ∧
      ¬ AuditAgrees ⟨[], {}⟩ ((demo true).serve ⟨"admin", "platform", ["platform_admin"]⟩
        (.createUser "platform" "user@example.com" "Asha Mehta" "StrongPassword123!" ["customer"])
        ⟨[], {}⟩).2 := by
  constructor
  · exact not_auditAgrees_of_entry rfl
  · exact not_auditAgrees_of_row _

end AdminEnv

end AgentPlatform
