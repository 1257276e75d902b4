import AgentPlatform.Api.Correlation
import AgentPlatform.Api.Sessions
import AgentPlatform.Api.TenantWrites
import AgentPlatform.Middleware.RateLimit
import AgentPlatform.Services.Continuity

/-!
# The application

Every endpoint of the router behind the middlewares, over one state: a request is given its
correlation id, its token is read for the tenant, the limiter lets it through or not, and the
endpoint serves it, after it has found the principal where it asks for one.

* `Probes.readiness`, `AgentRegistry.listAgents` — what the probes and the consoles are told.
* `App.handle` — the endpoints, `App.serve` — a request.
* `App.Run` — what can happen to the application, with clients that present the tokens
  they were given.
* `AuditLog.By` — an audit row of something the principal does, with a rule for each endpoint.
* `App.Handled` — **what a request does**: nothing, a login, a refresh, or something in the
  name of its principal.
-/

namespace AgentPlatform

variable {Token L S : Type} {view : RowView S}

/-! ## Probes and consoles -/

/-- What the probes of the container find. -/
structure Probes where
  appEnv : String
  /-- `check_database` returns. -/
  database : Bool
  /-- The ping of redis returns. -/
  redis : Bool
  /-- Has the event broker started? `none` while there is none. -/
  eventsStarted : Option Bool

/-- `Container.readiness` -/
def Probes.readiness (p : Probes) : List (String × Bool) :=
  [("database", p.database), ("redis", p.redis),
    ("events", if p.appEnv = "production" then p.eventsStarted = some true else true)]

/-- The endpoint `ready`: its status, or the checks that go out with a 503. -/
def Probes.ready (p : Probes) : Except (List (String × Bool)) String :=
  if p.readiness.all Prod.snd then .ok "ready" else .error p.readiness

/-- What a console is told of an agent. -/
structure AgentSpec where
  key : String
  name : String
  description : String
  capabilities : List String
  version : String
  routingPriority : ℤ

/-- The entries of `Agent.spec` that `AgentSpec` has. -/
def Agent.spec (a : Agent) : AgentSpec where
  key := a.key
  name := a.name
  description := a.description
  capabilities := a.capabilities
  version := a.version
  routingPriority := a.routingPriority

/-- `list_agents`, in the order of the keys. -/
def AgentRegistry.listAgents (reg : AgentRegistry) : List AgentSpec :=
  (reg.agents.mergeSort fun a b => a.key ≤ b.key).map Agent.spec

/-- The names and descriptions of `list_specs`, in the order of registration. -/
def ToolRegistry.listRegisteredTools (reg : ToolRegistry) : List (String × String) :=
  reg.tools.map fun tool => (tool.name, tool.description)

/-! ## Requests and replies -/

/-- What a request asks for, with what the environment decides while it is served. -/
inductive Endpoint (Token : Type) {S : Type} (view : RowView S) where
  | live
  | ready (probes : Probes)
  | login (body : LoginRequest)
  | refresh (refreshToken : Token)
  | chat (body : ChatRequest)
  | agents
  | tools
  | admin (env : AdminEnv) (call : AdminCall)
  | document (env : DocumentEnv view) (filename : Option String) (content : List UInt8)
      (documentId : Option String)

def AdminCall.path : AdminCall → String
  | .createTenant _ _ _ => "/api/v1/tenants"
  | .createUser tenantId _ _ _ _ => s!"/api/v1/tenants/{tenantId}/users"
  | .createInstitution tenantId _ _ => s!"/api/v1/tenants/{tenantId}/institutions"

def Endpoint.path : Endpoint Token view → String
  | live => "/api/v1/health/live"
  | ready _ => "/api/v1/health/ready"
  | login _ => "/api/v1/auth/login"
  | refresh _ => "/api/v1/auth/refresh"
  | chat _ => "/api/v1/chats"
  | agents => "/api/v1/agents"
  | tools => "/api/v1/agents/tools"
  | admin _ call => call.path
  | document _ _ _ _ => "/api/v1/documents"

/-- A request, at a time. -/
structure Request (Token : Type) {S : Type} (view : RowView S) where
  now : ℤ
  endpoint : Endpoint Token view
  authorization : Option (AuthorizationHeader Token) := none
  /-- The header `X-Correlation-ID`. -/
  correlation : Option String := none
  /-- The header `X-Forwarded-For`. -/
  forwardedFor : Option String := none
  host : Option String := none
  /-- The ids that are made for it. -/
  ids : ChatIds

/-- What an endpoint answers. -/
inductive Answer (Token : Type) where
  | health (status : String)
  | session (response : LoginResponse Token)
  | refreshed (accessToken : Token)
  | chat (response : ChatResponse)
  | agents (specs : List AgentSpec)
  | tools (specs : List (String × String))
  | created (ids : Dict)
  | uploaded (response : DocumentUploadResponse)

/-- The tokens in an answer. -/
def Answer.tokens : Answer Token → List Token
  | session response => [response.accessToken, response.refreshToken]
  | refreshed accessToken => [accessToken]
  | _ => []

/-- How a request fails. -/
inductive RequestError where
  | notReady (checks : List (String × Bool))
  | api (e : ApiError)
  | upload (e : UploadError)

def RequestError.isAnswered : RequestError → Bool
  | notReady _ => true
  | api e => e.isAnswered
  | upload e => e.isAnswered

/-- What is sent back. -/
abbrev Reply (Token : Type) := TracedReply RequestError (Answer Token)

/-- The tokens a client is given. -/
def Reply.tokens (reply : Reply Token) : List Token :=
  match reply.result with
  | .ok answer => answer.tokens
  | .error _ => []

/-! ## The application -/

/-- What the application is made of; the limiter may be any. -/
structure App (Token L : Type) where
  sessions : SessionEnv Token
  agents : Env
  registry : AgentRegistry
  tools : ToolRegistry
  /-- Does the database take the audit row, when it is asked for the time of that number? -/
  takes : ℕ → Bool
  /-- Is the request let through, at a time? -/
  limit : ℤ → HttpRequest → L → Bool × L

/-- What the requests share. -/
structure AppState (L S : Type) where
  world : World
  platform : Platform S
  limiter : L

namespace Request

/-- `HTTPBearer`: the credentials of a header whose scheme is `bearer`, in any case. -/
def credentials (rt : PyRuntime) (r : Request Token view) : Option Token :=
  r.authorization.bind fun header =>
    if rt.lower header.scheme = "bearer" then some header.credentials else none

/-- What the limiter reads of the request. -/
def httpRequest (r : Request Token view) (context : TenantContext) : HttpRequest where
  tenantId := context.state.map Principal.tenantId
  userId := context.state.map Principal.userId
  forwardedFor := r.forwardedFor
  host := r.host
  path := r.endpoint.path

/-- The tokens a request comes with. -/
def presented (r : Request Token view) : List Token :=
  (r.authorization.map AuthorizationHeader.credentials).toList ++
    match r.endpoint with
    | .refresh refreshToken => [refreshToken]
    | _ => []

end Request

namespace App

variable (app : App Token L)

/-- `get_principal` of a request. -/
def principal (r : Request Token view) : Except ApiError Principal :=
  getPrincipal app.sessions.jwt r.now (r.credentials app.sessions.runtime)

/-- An endpoint that asks who is asking. -/
def asPrincipal (r : Request Token view)
    (f : Principal → Effect (AppState L S) RequestError (Answer Token)) :
    Effect (AppState L S) RequestError (Answer Token) :=
  match app.principal r with
  | .error e => Effect.raise (.api e)
  | .ok principal => f principal

/-- What is answered for what an endpoint returned or raised. -/
def answered {E α : Type} (fail : E → RequestError) (answer : α → Answer Token)
    (result : Except E α) : Except RequestError (Answer Token) :=
  (result.mapError fail).map answer

/-- The endpoint of a request. -/
def handle (r : Request Token view) : Effect (AppState L S) RequestError (Answer Token) :=
  match r.endpoint with
  | .live => pure (.health "ok")
  | .ready probes => Effect.ofExcept ((probes.ready.mapError .notReady).map .health)
  | .login body => fun s =>
    let (result, w) := app.sessions.login r.now body (⟨(), s.platform.audits⟩ : Audited Unit)
    (answered .api .session result, { s with platform := { s.platform with audits := w.audits } })
  | .refresh refreshToken => fun s =>
    (answered .api .refreshed (app.sessions.refresh r.now refreshToken), s)
  | .chat body => app.asPrincipal r fun principal s =>
    let (result, w) := AgentPlatform.chat app.agents app.registry app.takes r.correlation
      r.ids.conversation r.ids.correlation body principal ⟨s.world, s.platform.audits⟩
    (answered .api .chat result,
      { s with world := w.world, platform := { s.platform with audits := w.audits } })
  | .agents => app.asPrincipal r fun _ => pure (.agents app.registry.listAgents)
  | .tools => app.asPrincipal r fun _ => pure (.tools app.tools.listRegisteredTools)
  | .admin env call => app.asPrincipal r fun principal s =>
    let (result, w) := env.serve principal call ⟨s.platform.rows, s.platform.audits⟩
    (answered .api .created result,
      { s with platform := { s.platform with rows := w.world, audits := w.audits } })
  | .document env filename content documentId => app.asPrincipal r fun principal s =>
    let (result, w) := uploadDocument env.uploadEnv
      ⟨principal.tenantId, principal.userId, filename, content, documentId⟩
      ⟨s.platform.store, s.platform.audits⟩
    (answered .upload .uploaded result,
      { s with platform := { s.platform with store := w.world, audits := w.audits } })

/-- The limiter, around the endpoints. -/
def limited (r : Request Token view) : Effect (AppState L S) RequestError (Answer Token) := fun s =>
  let context := TenantContext.dispatch app.sessions.jwt r.now r.authorization
  let (allowed, limiter) := app.limit r.now (r.httpRequest context) s.limiter
  if allowed then app.handle r { s with limiter }
  else (.error (.api RateLimiter.rateLimited), { s with limiter })

/-- A request, through all middlewares. -/
def serve (r : Request Token view) (s : AppState L S) : Reply Token × AppState L S :=
  dispatch RequestError.isAnswered r.correlation r.ids.middleware (app.limited r) s

/-! ## What can happen -/

/-- A request with its reply. -/
structure Exchange (Token : Type) {S : Type} (view : RowView S) where
  request : Request Token view
  reply : Reply Token

/-- Nobody makes up a token: what a request comes with and is accepted now was given to a client
before. -/
def Unforged (log : List (Exchange Token view)) (r : Request Token view) : Prop :=
  ∀ token ∈ r.presented, (∃ claims, app.sessions.jwt.decode r.now token = some claims) →
    ∃ e ∈ log, token ∈ e.reply.tokens

/-- The requests so far, with their replies, and what they have left. -/
inductive Run (s₀ : AppState L S) : List (Exchange Token view) → AppState L S → Prop
  | start : Run s₀ [] s₀
  | step {log : List (Exchange Token view)} {s : AppState L S} {r : Request Token view}
      (hrun : Run s₀ log s) (hunforged : app.Unforged log r) :
      Run s₀ (log ++ [⟨r, (app.serve r s).1⟩]) (app.serve r s).2

end App

/-! ## In whose name -/

/-- A row of something the principal does; the row of a new tenant is under that tenant. -/
structure AuditLog.By (principal : Principal) (row : AuditLog) : Prop where
  actor : row.actorId = principal.userId
  tenant : row.resourceType ≠ "tenant" → row.tenantId = principal.tenantId

section By

variable {principal : Principal} {before : List AuditLog}

theorem runAgentForUser_adds {inp : AgentInput} (huser : inp.userId = principal.userId)
    (htenant : inp.tenantId = principal.tenantId) (env : Env) (reg : AgentRegistry)
    (takes : ℕ → Bool) (hint : Option String) :
    Keeps (Audited.Adds (AuditLog.By principal) before)
      (runAgentForUser env reg takes inp hint) := by
  have hby : ∀ (agent : Agent) (outcome : String) (detail : Dict),
      AuditLog.By principal ((inp.audit agent outcome detail).masked env.runtime) :=
    fun _ _ _ => ⟨huser, fun _ => htenant⟩
  unfold runAgentForUser
  dsimp only
  cases reg.getAgent (agentKeyOr (reg.route env.runtime inp hint)) with
  | none => exact Keeps.raise _
  | some agent =>
    refine Keeps.bind (attempt_adds _) fun ran => ?_
    cases ran with
    | ok result => exact Keeps.bind (record_adds (hby _ _ _)) fun _ => Keeps.pure _
    | error e =>
      dsimp only
      cases e.denied? env.runtime with
      | none => exact Keeps.raise _
      | some reason => exact Keeps.bind (record_adds (hby _ _ _)) fun _ => Keeps.raise _

/-- The rows of the runs of a call are of its input. -/
theorem runAgentForUser_rowsOf (env : Env) (reg : AgentRegistry) (takes : ℕ → Bool)
    (inp : AgentInput) (hint : Option String) (w : Audited World) :
    World.RowsOf env.runtime inp w.world (runAgentForUser env reg takes inp hint w).2.world := by
  let call : ChatCall := ⟨inp, hint⟩
  cases hagent : call.agent? env reg with
  | none =>
    obtain ⟨e, hrun⟩ := call.run_of_no_agent takes w hagent
    have hworld : (runAgentForUser env reg takes inp hint w).2 = w := congrArg Prod.snd hrun
    rw [hworld]
    exact World.RowsOf.refl
  | some agent =>
    have hworld : (runAgentForUser env reg takes inp hint w).2.world = _ :=
      ChatCall.run_world hagent
    rw [hworld]
    exact (agent.path env reg).run_rowsOf env inp w.world

/-- A chat leaves what the call of the service leaves. -/
theorem chat_world (env : Env) (reg : AgentRegistry) (takes : ℕ → Bool) (header : Option String)
    (ids : ChatIds) (body : ChatRequest) (principal : Principal) (w : Audited World) :
    (chat env reg takes header ids.conversation ids.correlation body principal w).2 =
      (runAgentForUser env reg takes (ids.input header body principal) body.agentHint w).2 := by
  unfold chat ChatIds.input
  dsimp only
  cases runAgentForUser env reg takes _ body.agentHint w with
  | mk r w' => cases r <;> rfl

theorem uploadDocument_adds {r : UploadRequest} (huser : r.userId = principal.userId)
    (htenant : r.tenantId = principal.tenantId) (env : UploadEnv S) :
    Keeps (Audited.Adds (AuditLog.By principal) before) (uploadDocument env r) := by
  have hby : ∀ (outcome : String) (detail : Dict), AuditLog.By principal
      ((r.audit env.uuid env.correlationId outcome detail).masked env.runtime) :=
    fun _ _ => ⟨huser, fun _ => htenant⟩
  unfold uploadDocument
  split
  · exact Keeps.raise _
  · refine Keeps.bind (attempt_adds _) fun ran => ?_
    cases ran with
    | ok records => exact Keeps.bind (record_adds (hby _ _)) fun _ => Keeps.pure _
    | error e =>
      dsimp only
      cases e.caught? env.runtime with
      | none => exact Keeps.raise _
      | some detail => exact Keeps.bind (record_adds (hby _ _)) fun _ => Keeps.raise _

namespace AdminEnv

variable {P : AuditLog → Prop}

theorem flush_adds (env : AdminEnv) : Keeps (Audited.Adds P before) env.flush := by
  unfold flush
  split
  · exact Keeps.pure _
  · exact Keeps.raise _

theorem commit_adds (env : AdminEnv) (row : Row) :
    Keeps (Audited.Adds P before) (env.commit row) := by
  unfold commit
  split
  · exact fun _ hw => hw
  · exact Keeps.raise _

theorem serve_adds (env : AdminEnv) (call : AdminCall) :
    Keeps (Audited.Adds (AuditLog.By principal) before) (env.serve principal call) := by
  intro w hw
  cases call with
  | createTenant name slug dataResidency =>
    rw [serve, createTenant, bind_requirePermission]
    split
    · have hby : ∀ tenant : Tenant,
          AuditLog.By principal ((tenantAudit principal tenant).masked env.runtime) :=
        fun _ => ⟨rfl, fun h => absurd rfl h⟩
      exact Keeps.bind env.flush_adds (fun _ => Keeps.bind (record_adds (hby _)) fun _ =>
        Keeps.bind (env.commit_adds _) fun _ => Keeps.pure _) w hw
    · exact hw
  | createUser tenantId email fullName password roles =>
    rw [serve, createUser, bind_requirePermission]
    split
    · split
      · exact hw
      · split
        · exact hw
        · exact Keeps.bind (Keeps.ofExcept _) (fun _ => Keeps.bind (env.commit_adds _) fun _ =>
            Keeps.pure _) w hw
    · exact hw
  | createInstitution tenantId name code =>
    exact Keeps.bind (env.commit_adds _) (fun _ => Keeps.pure _) w hw

end AdminEnv

end By

/-! ## What a request does -/

/-- What is written in the name of a principal: audit rows, and rows of runs. -/
structure InName (principal : Principal) (s s' : AppState L S) : Prop where
  audits : ∃ rows, s'.platform.audits.rows = s.platform.audits.rows ++ rows ∧
    ∀ row ∈ rows, AuditLog.By principal row
  runs : ∃ runs, s'.world.runs.rows = s.world.runs.rows ++ runs ∧
    ∀ run ∈ runs, run.triggeredByUserId = principal.userId ∧ run.tenantId = principal.tenantId

theorem InName.refl {principal : Principal} {s : AppState L S} : InName principal s s :=
  ⟨⟨[], by simp, by simp⟩, [], by simp, by simp⟩

namespace App

variable (app : App Token L)

/-- The answer to a login. -/
def session (now : ℤ) (body : LoginRequest) (demo : DemoUser) : LoginResponse Token where
  accessToken := (Mint.access (app.sessions.userId body.email) demo.tenantId demo.roles).token
    app.sessions.jwt app.sessions.settings now
  refreshToken := (Mint.refresh (app.sessions.userId body.email) demo.tenantId).token
    app.sessions.jwt app.sessions.settings now
  userId := app.sessions.userId body.email
  tenantId := demo.tenantId
  roles := demo.roles
  expiresIn := app.sessions.settings.accessTokenTtlMinutes * 60

/-- What a request does. -/
inductive Handled (r : Request Token view) (s : AppState L S) :
    Except RequestError (Answer Token) → AppState L S → Prop
  /-- It fails, and nothing is done; the row of a login may have been refused. -/
  | refused (e : RequestError) (audits : Journal AuditLog)
      (hrows : audits.rows = s.platform.audits.rows) :
      Handled r s (.error e) { s with platform := { s.platform with audits } }
  | health (status : String) : Handled r s (.ok (.health status)) s
  /-- The password is the account's, and the login is audited. -/
  | loggedIn {body : LoginRequest} {demo : DemoUser} (hendpoint : r.endpoint = .login body)
      (haccount : app.sessions.account? body.email = some demo)
      (hverify : app.sessions.verifyPassword body.password demo.password = true) :
      Handled r s (.ok (.session (app.session r.now body demo))) { s with
        platform := { s.platform with
          audits := s.platform.audits.taken
            ((SessionEnv.loginAudit (app.sessions.userId body.email) demo).masked
              app.sessions.runtime) } }
  | refreshed {refreshToken token : Token} (hendpoint : r.endpoint = .refresh refreshToken)
      (htoken : app.sessions.refresh r.now refreshToken = .ok token) :
      Handled r s (.ok (.refreshed token)) s
  /-- Something is done in the name of the principal, which gives out no token. -/
  | acted {principal : Principal} {result : Except RequestError (Answer Token)}
      {s' : AppState L S} (hprincipal : app.principal r = .ok principal)
      (hname : InName principal s s') (htokens : ∀ answer, result = .ok answer →
        answer.tokens = []) : Handled r s result s'

variable {app} {r : Request Token view} {s : AppState L S}

theorem handled_of_error (e : RequestError) : app.Handled r s (.error e) s :=
  .refused e s.platform.audits rfl

/-- A login fails and writes nothing, or the password is the account's and it can be audited. -/
theorem login_cases (now : ℤ) (body : LoginRequest) (w : Audited Unit) :
    (∃ e audits, audits.rows = w.audits.rows ∧
      app.sessions.login now body w = (.error e, { w with audits })) ∨
      ∃ demo, app.sessions.account? body.email = some demo ∧
        app.sessions.verifyPassword body.password demo.password = true ∧
        app.sessions.login now body w = (.ok (app.session now body demo), { w with
          audits := w.audits.taken
            ((SessionEnv.loginAudit (app.sessions.userId body.email) demo).masked
              app.sessions.runtime) }) := by
  cases haccount : app.sessions.account? body.email with
  | none =>
    refine Or.inl ⟨.http 401 "invalid credentials", w.audits, rfl, ?_⟩
    rw [SessionEnv.login, haccount]
    rfl
  | some demo =>
    cases hverify : app.sessions.verifyPassword body.password demo.password with
    | false =>
      refine Or.inl ⟨.http 401 "invalid credentials", w.audits, rfl, ?_⟩
      rw [SessionEnv.login, haccount]
      dsimp only
      rw [hverify, Bool.not_false, if_pos rfl]
      rfl
    | true =>
      cases htakes : app.sessions.takes w.audits.asked with
      | true =>
        exact Or.inr ⟨demo, rfl, hverify, SessionEnv.login_of_verified haccount hverify htakes⟩
      | false =>
        refine Or.inl ⟨.uncaught .operationalError, w.audits.refused, rfl, ?_⟩
        rw [SessionEnv.login, haccount]
        dsimp only
        rw [hverify, Bool.not_true, if_neg Bool.false_ne_true, bind_record, htakes,
          if_neg Bool.false_ne_true]

/-- An endpoint that asks who is asking does nothing, or something in the name of who is. -/
theorem handled_asPrincipal {f : Principal → Effect (AppState L S) RequestError (Answer Token)}
    (hname : ∀ principal, InName principal s (f principal s).2)
    (htokens : ∀ principal answer, (f principal s).1 = .ok answer → answer.tokens = []) :
    app.Handled r s (app.asPrincipal r f s).1 (app.asPrincipal r f s).2 := by
  unfold asPrincipal
  cases hprincipal : app.principal r with
  | error e => exact handled_of_error _
  | ok principal => exact .acted hprincipal (hname principal) (htokens principal)

/-- What is answered for a result is made of what was returned. -/
theorem answered_eq_ok {E α : Type} {fail : E → RequestError} {answer : α → Answer Token}
    {result : Except E α} {a : Answer Token} (h : answered fail answer result = .ok a) :
    ∃ x, a = answer x := by
  cases result with
  | error e => cases h
  | ok x => exact ⟨x, (Except.ok.inj h).symm⟩

/-- A chat writes in the name of who is asking. -/
theorem chat_inName (principal : Principal) (body : ChatRequest) :
    let w := (AgentPlatform.chat app.agents app.registry app.takes r.correlation
      r.ids.conversation r.ids.correlation body principal ⟨s.world, s.platform.audits⟩).2
    InName principal s
      { s with world := w.world, platform := { s.platform with audits := w.audits } } := by
  dsimp only
  rw [chat_world]
  refine ⟨runAgentForUser_adds rfl rfl _ _ _ _ _ (Audited.adds_refl _), ?_⟩
  obtain ⟨reports, hruns, hinp⟩ := runAgentForUser_rowsOf app.agents app.registry app.takes
    (r.ids.input r.correlation body principal) body.agentHint ⟨s.world, s.platform.audits⟩
  refine ⟨_, hruns, fun run hrun => ?_⟩
  obtain ⟨report, hreport, rfl⟩ := List.mem_map.1 hrun
  have hinput := hinp report hreport
  exact ⟨congrArg AgentInput.userId hinput, congrArg AgentInput.tenantId hinput⟩

/-- **What an endpoint does.** -/
theorem handle_handled (r : Request Token view) (s : AppState L S) :
    app.Handled r s (app.handle r s).1 (app.handle r s).2 := by
  unfold handle
  cases hendpoint : r.endpoint with
  | live => exact .health "ok"
  | ready probes =>
    dsimp only
    cases probes.ready with
    | error checks => exact handled_of_error _
    | ok status => exact .health status
  | agents => exact handled_asPrincipal (fun _ => InName.refl) fun _ _ h => by cases h; rfl
  | tools => exact handled_asPrincipal (fun _ => InName.refl) fun _ _ h => by cases h; rfl
  | login body =>
    dsimp only
    rcases login_cases r.now body (⟨(), s.platform.audits⟩ : Audited Unit) with
      ⟨e, audits, hrows, hlogin⟩ | ⟨demo, haccount, hverify, hlogin⟩
    · rw [hlogin]
      exact .refused _ audits hrows
    · rw [hlogin]
      exact .loggedIn hendpoint haccount hverify
  | refresh refreshToken =>
    dsimp only
    cases htoken : app.sessions.refresh r.now refreshToken with
    | error e => exact handled_of_error _
    | ok token => exact .refreshed hendpoint htoken
  | chat body =>
    refine handled_asPrincipal (fun principal => chat_inName principal body)
      fun principal answer hanswer => ?_
    obtain ⟨response, rfl⟩ := answered_eq_ok hanswer
    rfl
  | admin env call =>
    refine handled_asPrincipal (fun principal => ⟨?_, [], by simp, by simp⟩)
      fun principal answer hanswer => ?_
    · exact env.serve_adds call _ (Audited.adds_refl _)
    · obtain ⟨ids, rfl⟩ := answered_eq_ok hanswer
      rfl
  | document env filename content documentId =>
    refine handled_asPrincipal (fun principal => ⟨?_, [], by simp, by simp⟩)
      fun principal answer hanswer => ?_
    · exact uploadDocument_adds rfl rfl _ _ (Audited.adds_refl _)
    · obtain ⟨response, rfl⟩ := answered_eq_ok hanswer
      rfl

variable (app) in
/-- **What a request does**, through all middlewares: only the limiter has moved on before. -/
theorem serve_handled (r : Request Token view) (s : AppState L S) :
    ∃ limiter, app.Handled r { s with limiter } (app.serve r s).1.result (app.serve r s).2 := by
  rw [serve, dispatch_result, dispatch_world, limited]
  dsimp only
  split
  · exact ⟨_, handle_handled r _⟩
  · exact ⟨_, handled_of_error _⟩

end App

end AgentPlatform
