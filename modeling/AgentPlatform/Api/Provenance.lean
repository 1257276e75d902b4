import AgentPlatform.Api.Application
import AgentPlatform.Lib.Transitions

/-!
# Everything starts with a login

Clients cannot make up tokens, so whatever the application does for a request goes back to a login
with the password of an account: the token was signed for it, at once or in exchange for its
refresh token.

* `SignedFor` — what is signed for a login, and until when it can be used.
* `App.Rooted` — **the invariant of the runs**: every token that was given out was signed
  for a login that is in the audit log, and so is everything that was written.
* `acts_since_login` — **who a request can be of**, and for how long after the login.
* `audits_since_login` — **what the audit log accounts for**.
-/

namespace AgentPlatform

open Transitions

/-! ## What is signed for a login -/

/-- What is signed for a login to an account: two tokens at once, and access tokens without roles
for as long as the refresh token lasts. -/
inductive SignedFor (settings : TokenSettings) (loggedIn : ℤ) (userId : String)
    (demo : DemoUser) : Mint → ℤ → Prop
  | access : SignedFor settings loggedIn userId demo
      (.access userId demo.tenantId demo.roles) loggedIn
  | refresh : SignedFor settings loggedIn userId demo (.refresh userId demo.tenantId) loggedIn
  | refreshed {now : ℤ} (hlasts : now ≤ settings.refreshExpiry loggedIn) :
      SignedFor settings loggedIn userId demo (.access userId demo.tenantId []) now

/-- Who somebody is at a time, by a login: with the roles of the account for as long as the first
access token lasts, then without roles. -/
structure StandsFor (settings : TokenSettings) (loggedIn : ℤ) (userId : String) (demo : DemoUser)
    (now : ℤ) (principal : Principal) : Prop where
  userId_eq : principal.userId = userId
  tenantId_eq : principal.tenantId = demo.tenantId
  roles : principal.roles = demo.roles ∧ now ≤ settings.accessExpiry loggedIn ∨
    principal.roles = [] ∧ now ≤ settings.accessExpiry (settings.refreshExpiry loggedIn)

namespace SignedFor

variable {Token : Type} {jwt : Jwt Token} {settings : TokenSettings} {loggedIn minted now : ℤ}
  {userId : String} {demo : DemoUser} {m : Mint}

/-- The principal of a token of a login. -/
theorem standsFor (h : SignedFor settings loggedIn userId demo m minted) {principal : Principal}
    (hprincipal : getPrincipal jwt now (some (m.token jwt settings minted)) = .ok principal) :
    StandsFor settings loggedIn userId demo now principal := by
  rw [getPrincipal_token] at hprincipal
  split at hprincipal
  · cases hprincipal
  · rename_i hexpiry
    obtain rfl := Except.ok.inj hprincipal
    have hlasts : now ≤ m.expiry settings minted := not_lt.1 hexpiry
    cases h with
    | access => exact ⟨rfl, rfl, Or.inl ⟨rfl, hlasts⟩⟩
    | refresh =>
      refine ⟨rfl, rfl, Or.inr ⟨rfl, hlasts.trans ?_⟩⟩
      show settings.refreshExpiry loggedIn ≤ settings.accessExpiry (settings.refreshExpiry loggedIn)
      unfold TokenSettings.accessExpiry
      omega
    | refreshed hrefresh =>
      refine ⟨rfl, rfl, Or.inr ⟨rfl, hlasts.trans ?_⟩⟩
      show settings.accessExpiry minted ≤ settings.accessExpiry (settings.refreshExpiry loggedIn)
      unfold TokenSettings.accessExpiry
      omega

/-- What the refresh endpoint signs for a token of a login is signed for the login. -/
theorem refresh_signedFor {env : SessionEnv Token} {token : Token}
    (h : SignedFor env.settings loggedIn userId demo m minted)
    (htoken : env.refresh now (m.token env.jwt env.settings minted) = .ok token) :
    ∃ m' : Mint, token = m'.token env.jwt env.settings now ∧
      SignedFor env.settings loggedIn userId demo m' now := by
  rw [SessionEnv.refresh_token] at htoken
  split at htoken
  · cases htoken
  · rename_i hexpiry
    split at htoken
    · cases htoken
    · rename_i hkind
      refine ⟨_, (Except.ok.inj htoken).symm, ?_⟩
      cases h with
      | access => exact absurd rfl hkind
      | refresh => exact .refreshed (not_lt.1 hexpiry)
      | refreshed hlasts => exact absurd rfl hkind

end SignedFor

/-! ## The audit log -/

/-- The row of a login, of somebody to a tenant. -/
structure AuditLog.IsLogin (userId tenantId : String) (row : AuditLog) : Prop where
  action : row.action = "auth.login"
  outcome : row.outcome = "success"
  actor : row.actorId = userId
  tenant : row.tenantId = tenantId

/-- The entry is of a login of the user of the row, to its tenant; the row of a new tenant is under
that tenant. -/
structure AuditLog.Opens (entry row : AuditLog) : Prop where
  login : entry.IsLogin row.actorId entry.tenantId
  tenant : row.resourceType ≠ "tenant" → entry.tenantId = row.tenantId

section Accepted

variable {Token : Type} {jwt : Jwt Token} {now : ℤ} {token : Token}

/-- A principal is read from a token that is decoded. -/
theorem decode_of_getPrincipal {principal : Principal}
    (h : getPrincipal jwt now (some token) = .ok principal) :
    ∃ claims, jwt.decode now token = some claims := by
  rw [getPrincipal] at h
  cases hdecode : jwt.decode now token with
  | none =>
    rw [hdecode] at h
    cases h
  | some claims => exact ⟨claims, rfl⟩

/-- What is refreshed is decoded. -/
theorem decode_of_refresh {env : SessionEnv Token} {fresh : Token}
    (h : env.refresh now token = .ok fresh) : ∃ claims, env.jwt.decode now token = some claims := by
  rw [SessionEnv.refresh] at h
  cases hdecode : env.jwt.decode now token with
  | none =>
    rw [hdecode] at h
    cases h
  | some claims => exact ⟨claims, rfl⟩

end Accepted

namespace App

variable {Token L S : Type} {view : RowView S} (app : App Token L)

/-- The row of a login. -/
def loginRow (body : LoginRequest) (demo : DemoUser) : AuditLog :=
  (SessionEnv.loginAudit (app.sessions.userId body.email) demo).masked app.sessions.runtime

theorem loginRow_isLogin (body : LoginRequest) (demo : DemoUser) :
    (app.loginRow body demo).IsLogin (app.sessions.userId body.email) demo.tenantId :=
  ⟨rfl, rfl, rfl, rfl⟩

/-- A login with the password of the account, which was answered with its two tokens. -/
structure LoggedIn (e : Exchange Token view) (body : LoginRequest) (demo : DemoUser) : Prop where
  endpoint : e.request.endpoint = .login body
  account : app.sessions.account? body.email = some demo
  verified : app.sessions.verifyPassword body.password demo.password = true
  answered : e.reply.result = .ok (.session (app.session e.request.now body demo))

/-- Something is signed, or somebody stands, for a login that is in the log and in the audit
log. -/
def SinceLogin (log : List (Exchange Token view)) (rows : List AuditLog)
    (P : ℤ → String → DemoUser → Prop) : Prop :=
  ∃ e ∈ log, ∃ body demo, app.LoggedIn e body demo ∧ app.loginRow body demo ∈ rows ∧
    P e.request.now (app.sessions.userId body.email) demo

/-- A token that was signed for a login. -/
def Signed (log : List (Exchange Token view)) (rows : List AuditLog) (token : Token) : Prop :=
  ∃ (m : Mint) (minted : ℤ), token = m.token app.sessions.jwt app.sessions.settings minted ∧
    app.SinceLogin log rows fun loggedIn userId demo =>
      SignedFor app.sessions.settings loggedIn userId demo m minted

/-- What holds in every state that is reached: what was written and what was given out since the
start goes back to logins. -/
structure Rooted (s₀ : AppState L S) (log : List (Exchange Token view)) (s : AppState L S)
    (rows : List AuditLog) : Prop where
  audits : s.platform.audits.rows = s₀.platform.audits.rows ++ rows
  accountable : Grounded AuditLog.Opens rows
  runs : ∃ runs, s.world.runs.rows = s₀.world.runs.rows ++ runs ∧ ∀ run ∈ runs, ∃ entry ∈ rows,
    entry.IsLogin run.triggeredByUserId run.tenantId
  tokens : ∀ e ∈ log, ∀ token ∈ e.reply.tokens, app.Signed log rows token

variable {app} {s₀ s s' : AppState L S} {log : List (Exchange Token view)}
  {rows : List AuditLog} {r : Request Token view}

theorem SinceLogin.mono {P : ℤ → String → DemoUser → Prop} (h : app.SinceLogin log rows P)
    (later : List (Exchange Token view)) (new : List AuditLog) :
    app.SinceLogin (log ++ later) (rows ++ new) P := by
  obtain ⟨e, he, body, demo, hlogin, hrow, hP⟩ := h
  exact ⟨e, List.mem_append_left _ he, body, demo, hlogin, List.mem_append_left _ hrow, hP⟩

theorem Signed.mono {token : Token} (h : app.Signed log rows token)
    (later : List (Exchange Token view)) (new : List AuditLog) :
    app.Signed (log ++ later) (rows ++ new) token := by
  obtain ⟨m, minted, htoken, hsince⟩ := h
  exact ⟨m, minted, htoken, hsince.mono later new⟩

theorem Rooted.start : app.Rooted s₀ ([] : List (Exchange Token view)) s₀ [] :=
  ⟨by simp, Grounded.nil, ⟨[], by simp, by simp⟩, by simp⟩

/-- A token that is accepted was signed for a login. -/
theorem Rooted.presented (h : app.Rooted s₀ log s rows) (hunforged : app.Unforged log r)
    {token : Token} (htoken : token ∈ r.presented) {claims : Dict}
    (hdecode : app.sessions.jwt.decode r.now token = some claims) :
    app.Signed log rows token := by
  obtain ⟨e, he, hgiven⟩ := hunforged token htoken ⟨claims, hdecode⟩
  exact h.tokens e he token hgiven

/-- The principal of a request stands for a login. -/
theorem Rooted.principal (h : app.Rooted s₀ log s rows) (hunforged : app.Unforged log r)
    {principal : Principal} (hprincipal : app.principal r = .ok principal) :
    app.SinceLogin log rows fun loggedIn userId demo =>
      StandsFor app.sessions.settings loggedIn userId demo r.now principal := by
  unfold App.principal Request.credentials at hprincipal
  cases hheader : r.authorization with
  | none =>
    rw [hheader] at hprincipal
    cases hprincipal
  | some header =>
    rw [hheader, Option.bind_some] at hprincipal
    split at hprincipal
    · -- the token of the header is decoded, so it was given out
      have hpresented : header.credentials ∈ r.presented := by
        rw [Request.presented, hheader]
        exact List.mem_append_left _ (List.mem_singleton.2 rfl)
      obtain ⟨claims, hdecode⟩ := decode_of_getPrincipal hprincipal
      obtain ⟨m, minted, htoken, e, he, body, demo, hlogin, hrow, hsigned⟩ :=
        h.presented hunforged hpresented hdecode
      rw [htoken] at hprincipal
      exact ⟨e, he, body, demo, hlogin, hrow, hsigned.standsFor hprincipal⟩
    · cases hprincipal

/-- What the refresh endpoint gives out is signed for the login of the refresh token. -/
theorem Rooted.refreshed (h : app.Rooted s₀ log s rows) (hunforged : app.Unforged log r)
    {refreshToken token : Token} (hendpoint : r.endpoint = .refresh refreshToken)
    (htoken : app.sessions.refresh r.now refreshToken = .ok token) :
    app.Signed log rows token := by
  have hpresented : refreshToken ∈ r.presented := by
    rw [Request.presented, hendpoint]
    exact List.mem_append_right _ (List.mem_singleton.2 rfl)
  obtain ⟨claims, hdecode⟩ := decode_of_refresh htoken
  obtain ⟨m, minted, heq, e, he, body, demo, hlogin, hrow, hsigned⟩ :=
    h.presented hunforged hpresented hdecode
  rw [heq] at htoken
  obtain ⟨m', heq', hsigned'⟩ := hsigned.refresh_signedFor htoken
  exact ⟨m', r.now, heq', e, he, body, demo, hlogin, hrow, hsigned'⟩

/-- What a request adds to what goes back to logins. -/
theorem Rooted.extend (h : app.Rooted s₀ log s rows) {e : Exchange Token view}
    {new : List AuditLog} (haudits : s'.platform.audits.rows = s.platform.audits.rows ++ new)
    (hnew : ∀ row ∈ new, row.Opens row ∨ ∃ entry ∈ rows, entry.Opens row)
    (hruns : ∃ runs, s'.world.runs.rows = s.world.runs.rows ++ runs ∧ ∀ run ∈ runs,
      ∃ entry ∈ rows, entry.IsLogin run.triggeredByUserId run.tenantId)
    (htokens : ∀ token ∈ e.reply.tokens, app.Signed (log ++ [e]) (rows ++ new) token) :
    app.Rooted s₀ (log ++ [e]) s' (rows ++ new) := by
  obtain ⟨before, hbefore, hlogins⟩ := h.runs
  obtain ⟨runs, hafter, hlogins'⟩ := hruns
  refine ⟨by rw [haudits, h.audits, List.append_assoc], h.accountable.append hnew,
    ⟨before ++ runs, by rw [hafter, hbefore, List.append_assoc], fun run hrun => ?_⟩, ?_⟩
  · obtain ⟨entry, hentry, hlogin⟩ : ∃ entry ∈ rows,
        entry.IsLogin run.triggeredByUserId run.tenantId :=
      (List.mem_append.1 hrun).elim (hlogins run) (hlogins' run)
    exact ⟨entry, List.mem_append_left _ hentry, hlogin⟩
  · intro e' he' token htoken
    rcases List.mem_append.1 he' with hold | hlast
    · exact (h.tokens e' hold token htoken).mono [e] new
    · obtain rfl := List.mem_singleton.1 hlast
      exact htokens token htoken

/-- Both tokens of a login are signed for this very login. -/
theorem Rooted.loggedIn (h : app.Rooted s₀ log s rows) {body : LoginRequest} {demo : DemoUser}
    {header : Option String} (hendpoint : r.endpoint = .login body)
    (haccount : app.sessions.account? body.email = some demo)
    (hverify : app.sessions.verifyPassword body.password demo.password = true)
    (haudits : s'.platform.audits.rows = s.platform.audits.rows ++ [app.loginRow body demo])
    (hworld : s'.world = s.world) :
    app.Rooted s₀ (log ++ [⟨r, ⟨.ok (.session (app.session r.now body demo)), header⟩⟩]) s'
      (rows ++ [app.loginRow body demo]) := by
  refine h.extend haudits ?_ ⟨[], by simp [hworld], by simp⟩ ?_
  · intro row hrow
    obtain rfl := List.mem_singleton.1 hrow
    exact Or.inl ⟨⟨rfl, rfl, rfl, rfl⟩, fun _ => rfl⟩
  · have hsince : ∀ {P : ℤ → String → DemoUser → Prop},
        P r.now (app.sessions.userId body.email) demo →
          app.SinceLogin (log ++ [⟨r, ⟨.ok (.session (app.session r.now body demo)), header⟩⟩])
            (rows ++ [app.loginRow body demo]) P := fun hP =>
      ⟨_, List.mem_append_right _ (List.mem_singleton_self _), body, demo,
        ⟨hendpoint, haccount, hverify, rfl⟩,
        List.mem_append_right _ (List.mem_singleton_self _), hP⟩
    intro token htoken
    rcases List.mem_cons.1 htoken with rfl | hrefresh
    · exact ⟨_, r.now, rfl, hsince .access⟩
    · obtain rfl := List.mem_singleton.1 hrefresh
      exact ⟨_, r.now, rfl, hsince .refresh⟩

/-- What is done in the name of a principal goes back to the login the principal stands for. -/
theorem Rooted.acted (h : app.Rooted s₀ log s rows) (hunforged : app.Unforged log r)
    {principal : Principal} {e : Exchange Token view} (hprincipal : app.principal r = .ok principal)
    (hname : InName principal s s') (htokens : e.reply.tokens = []) :
    ∃ new, app.Rooted s₀ (log ++ [e]) s' (rows ++ new) := by
  obtain ⟨⟨new, haudits, hby⟩, runs, hruns, hof⟩ := hname
  obtain ⟨_, -, body, demo, -, hrow, hstands⟩ := h.principal hunforged hprincipal
  have hopens := app.loginRow_isLogin body demo
  refine ⟨new, h.extend haudits ?_ ⟨runs, hruns, ?_⟩ ?_⟩
  · intro row hmem
    refine Or.inr ⟨app.loginRow body demo, hrow, ?_, fun hkind => ?_⟩
    · rw [(hby row hmem).actor, hstands.userId_eq]
      exact hopens
    · rw [(hby row hmem).tenant hkind, hstands.tenantId_eq]
      rfl
  · intro run hmem
    obtain ⟨huser, htenant⟩ := hof run hmem
    refine ⟨app.loginRow body demo, hrow, ?_⟩
    rw [huser, htenant, hstands.userId_eq, hstands.tenantId_eq]
    exact hopens
  · intro token htoken
    rw [htokens] at htoken
    cases htoken

/-- **What one request keeps.** -/
theorem Rooted.handled (h : app.Rooted s₀ log s rows) (hunforged : app.Unforged log r)
    {reply : Reply Token} {limiter : L}
    (hhandled : app.Handled r { s with limiter } reply.result s') :
    ∃ new, app.Rooted s₀ (log ++ [⟨r, reply⟩]) s' (rows ++ new) := by
  obtain ⟨result, header⟩ := reply
  cases hhandled with
  | refused e audits hrows =>
    exact ⟨[], h.extend (by simp [hrows]) (by simp) ⟨[], by simp, by simp⟩
      (by simp [Reply.tokens])⟩
  | health status =>
    exact ⟨[], h.extend (by simp) (by simp) ⟨[], by simp, by simp⟩
      (by simp [Reply.tokens, Answer.tokens])⟩
  | @loggedIn body demo hendpoint haccount hverify =>
    exact ⟨[app.loginRow body demo], h.loggedIn hendpoint haccount hverify rfl rfl⟩
  | @refreshed refreshToken token hendpoint htoken =>
    refine ⟨[], h.extend (by simp) (by simp) ⟨[], by simp, by simp⟩ ?_⟩
    intro token' htoken'
    obtain rfl := List.mem_singleton.1 htoken'
    exact (h.refreshed hunforged hendpoint htoken).mono _ []
  | acted hprincipal hname htokens =>
    refine h.acted hunforged hprincipal ⟨hname.audits, hname.runs⟩ ?_
    cases result with
    | error e => rfl
    | ok answer => exact htokens answer rfl

/-- **What every run keeps.** -/
theorem Run.rooted (h : app.Run s₀ log s) : ∃ rows, app.Rooted s₀ log s rows := by
  induction h with
  | start => exact ⟨[], Rooted.start⟩
  | @step log s r hrun hunforged ih =>
    obtain ⟨rows, hrooted⟩ := ih
    obtain ⟨limiter, hhandled⟩ := serve_handled app r s
    obtain ⟨new, hnext⟩ := hrooted.handled hunforged hhandled
    exact ⟨rows ++ new, hnext⟩

/-! ## Who a request can be of -/

/-- **What the audit log accounts for.**  In every such run the log only grows; every new row is of
somebody whose login to the tenant is not after it in the log, and so is every row of a run. -/
theorem audits_since_login (hrun : app.Run s₀ log s) :
    ∃ rows runs, s.platform.audits.rows = s₀.platform.audits.rows ++ rows ∧
      s.world.runs.rows = s₀.world.runs.rows ++ runs ∧ Grounded AuditLog.Opens rows ∧
      ∀ run ∈ runs, ∃ entry ∈ rows, entry.IsLogin run.triggeredByUserId run.tenantId := by
  obtain ⟨rows, hrooted⟩ := hrun.rooted
  obtain ⟨runs, hruns, hlogins⟩ := hrooted.runs
  exact ⟨rows, runs, hrooted.audits, hruns, hrooted.accountable, hlogins⟩

end App

/-! ## A customer's week -/

/-- The application, for the customer of the demonstration. -/
def customerApplication : App Dict Unit where
  sessions := { customerSessions with runtime := .ascii }
  agents := demoEnv (callsOnce [profileCall])
  registry := agentRegistry
  tools := toolRegistry .ascii demoStores
  takes _ := true
  limit _ _ limiter := (true, limiter)

def customerStart : AppState Unit InMemoryVectorStore := ⟨World.initial, ⟨[], ⟨[]⟩, {}⟩, ()⟩

/-- The customer logs in. -/
def firstRequest : Request Dict InMemoryVectorStore.view where
  now := 0
  endpoint := .login ⟨"customer@demo.com", "demo1234"⟩
  ids := ⟨"id-1", "id-2", "id-3"⟩

/-- The refresh token is exchanged in the second it expires. -/
def secondRequest : Request Dict InMemoryVectorStore.view where
  now := 604800
  endpoint := .refresh customerLogin.refreshToken
  ids := ⟨"id-4", "id-5", "id-6"⟩

/-- The token that is given out then. -/
def lastToken : Dict :=
  (Mint.access customerRefresh.subject "t_axisdemo" []).token .unsigned {} 604800

/-- A chat with it, in the second it expires. -/
def lastRequest : Request Dict InMemoryVectorStore.view where
  now := 605700
  endpoint := .chat { message := "What is on my profile?", agentHint := some "support" }
  authorization := some ⟨"Bearer", lastToken⟩
  ids := ⟨"id-7", "id-8", "id-9"⟩

namespace App

/-- The customer's login is answered. -/
theorem firstRequest_result :
    (customerApplication.serve firstRequest customerStart).1.result =
      .ok (.session customerLogin) := by
  have haccount : customerApplication.sessions.account? "customer@demo.com" =
      some customerAccount := by
    have hlower : "customer@demo.com".map Char.toLower = "customer@demo.com" := by
      decide +kernel
    simp [SessionEnv.account?, customerApplication, customerSessions, PyRuntime.ascii, hlower]
  have hverify : customerApplication.sessions.verifyPassword "demo1234"
      customerAccount.password = true := by
    simp [customerApplication, customerSessions, customerAccount]
  have hlogin : customerApplication.sessions.login 0 ⟨"customer@demo.com", "demo1234"⟩
      (⟨(), {}⟩ : Audited Unit) = _ := SessionEnv.login_of_verified haccount hverify rfl
  rw [serve, dispatch_result]
  show answered .api .session (customerApplication.sessions.login 0
    ⟨"customer@demo.com", "demo1234"⟩ (⟨(), {}⟩ : Audited Unit)).1 = _
  rw [hlogin]
  rfl

/-- The customer logs in, and refreshes the access token at the last moment. -/
def customerLog : List (Exchange Dict InMemoryVectorStore.view) :=
  [⟨firstRequest, (customerApplication.serve firstRequest customerStart).1⟩] ++
    [⟨secondRequest, (customerApplication.serve secondRequest
      (customerApplication.serve firstRequest customerStart).2).1⟩]

def customerState : AppState Unit InMemoryVectorStore :=
  (customerApplication.serve secondRequest
    (customerApplication.serve firstRequest customerStart).2).2

theorem customerRun : customerApplication.Run customerStart customerLog customerState := by
  have hfirst : customerApplication.Run customerStart
      ([] ++ [⟨firstRequest, (customerApplication.serve firstRequest customerStart).1⟩])
      (customerApplication.serve firstRequest customerStart).2 :=
    .step .start fun token htoken => by simp [Request.presented, firstRequest] at htoken
  refine .step hfirst fun token htoken hdecode => ⟨_, List.mem_singleton_self _, ?_⟩
  have htoken : token = customerLogin.refreshToken := by
    simpa [Request.presented, secondRequest] using htoken
  rw [Reply.tokens, firstRequest_result, htoken]
  simp [Answer.tokens]

/-- The customer's last token was given out. -/
theorem lastRequest_unforged : customerApplication.Unforged customerLog lastRequest := by
  intro token htoken hdecode
  have htoken : token = lastToken := by simpa [Request.presented, lastRequest] using htoken
  refine ⟨_, List.mem_append_right _ (List.mem_singleton_self _), ?_⟩
  have hresult : (customerApplication.serve secondRequest
      (customerApplication.serve firstRequest customerStart).2).1.result =
        .ok (.refreshed lastToken) := rfl
  rw [Reply.tokens, hresult, htoken]
  exact List.mem_singleton_self _

/-- The login and the chat are in the audit log, and the run of the chat rests on the login. -/
theorem customerAudits_since_login :
    ∃ rows runs, (customerApplication.serve lastRequest customerState).2.platform.audits.rows =
        customerStart.platform.audits.rows ++ rows ∧
      (customerApplication.serve lastRequest customerState).2.world.runs.rows =
        customerStart.world.runs.rows ++ runs ∧
      rows.length = 2 ∧ runs.length = 1 ∧ Grounded AuditLog.Opens rows ∧
      ∀ run ∈ runs, ∃ entry ∈ rows, entry.IsLogin run.triggeredByUserId run.tenantId := by
  obtain ⟨rows, runs, haudits, hruns, hgrounded, hlogins⟩ :=
    audits_since_login (.step customerRun lastRequest_unforged)
  refine ⟨rows, runs, haudits, hruns, ?_, ?_, hgrounded, hlogins⟩
  · have hlength : (customerApplication.serve lastRequest
        customerState).2.platform.audits.rows.length = 2 := by decide +kernel
    rwa [haudits] at hlength
  · have hlength : (customerApplication.serve lastRequest
        customerState).2.world.runs.rows.length = 1 := by decide +kernel
    rwa [hruns] at hlength

end App

end AgentPlatform
