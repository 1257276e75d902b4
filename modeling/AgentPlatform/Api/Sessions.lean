import AgentPlatform.Api.Dependencies
import AgentPlatform.Services.Audit

/-!
# Sessions

A user logs in with a password and gets an access token and a refresh token; the
refresh token is exchanged for further access tokens.  A middleware reads the token of
every request once more, to set the tenant of the request.

* `login`, `refresh` — the endpoints.
* `TenantContext.dispatch` — the middleware.
* `session_preserves_iff` — **when a session keeps its principal**: a refresh drops the roles.
* `mint_keptApart_iff` — **when the two kinds of tokens are kept apart**: only the refresh
  endpoint asks which kind it has.
-/

namespace AgentPlatform

/-! ## Logging in -/

structure LoginRequest where
  email : String
  password : String

structure LoginResponse (Token : Type) where
  accessToken : Token
  refreshToken : Token
  userId : String
  tenantId : String
  roles : List String
  expiresIn : ℕ

/-- An account, with the hash of its password. -/
structure DemoUser where
  tenantId : String
  roles : List String
  password : String

/-- The hexadecimal digit of a number below sixteen. -/
def hexDigit (n : ℕ) : Char := "0123456789abcdef".toList.getD n '0'

/-- `digest.hex()` -/
def hexdigest (digest : List UInt8) : String :=
  String.ofList (digest.flatMap fun b => [hexDigit (b.toNat / 16), hexDigit (b.toNat % 16)])

/-- What the endpoints of a session run against. -/
structure SessionEnv (Token : Type) where
  runtime : PyRuntime
  jwt : Jwt Token
  settings : TokenSettings
  /-- `_DEMO_USERS` -/
  users : List (String × DemoUser)
  /-- `verify_password(plain, hashed)` -/
  verifyPassword : String → String → Bool
  /-- Does the database take the audit row, when it is asked for the time of that number? -/
  takes : ℕ → Bool

namespace SessionEnv

variable {Token : Type} (env : SessionEnv Token)

/-- The account an address selects. -/
def account? (email : String) : Option DemoUser := env.users.lookup (env.runtime.lower email)

/-- The id of the user with an address. -/
def userId (email : String) : String :=
  "user_" ++ String.ofList ((hexdigest (env.runtime.md5 email.toUTF8.toList)).toList.take 8)

/-- The audit row of a login. -/
def loginAudit (userId : String) (demo : DemoUser) : AuditLog where
  tenantId := demo.tenantId
  correlationId := "login"
  actorType := "user"
  actorId := userId
  action := "auth.login"
  resourceType := "session"
  resourceId := userId
  outcome := "success"

/-- `login` at a time -/
def login {W : Type} (now : ℤ) (body : LoginRequest) :
    Effect (Audited W) ApiError (LoginResponse Token) :=
  match env.account? body.email with
  | none => Effect.raise (.http 401 "invalid credentials")
  | some demo =>
    if !env.verifyPassword body.password demo.password then
      Effect.raise (.http 401 "invalid credentials")
    else do
      let userId := env.userId body.email
      record env.runtime env.takes (.uncaught .operationalError) (loginAudit userId demo)
      return {
        accessToken := createAccessToken env.jwt env.settings now userId demo.tenantId demo.roles
        refreshToken := createRefreshToken env.jwt env.settings now userId demo.tenantId
        userId
        tenantId := demo.tenantId
        roles := demo.roles
        expiresIn := env.settings.accessTokenTtlMinutes * 60 }

/-- `refresh` at a time -/
def refresh (now : ℤ) (refreshToken : Token) : Except ApiError Token :=
  match env.jwt.decode now refreshToken with
  | none => .error (.http 401 "invalid refresh token")
  | some claims =>
    if !(claims.get "typ").pyEq (.str "refresh") then .error (.http 401 "not a refresh token")
    else
      match claims.get? "sub", claims.get? "tenant_id" with
      | some _, some _ =>
        .ok (createAccessToken env.jwt env.settings now (claims.text "sub")
          (claims.text "tenant_id") (claims.texts "roles"))
      | none, _ => .error (.uncaught (.keyError "sub"))
      | _, none => .error (.uncaught (.keyError "tenant_id"))

/-! ## What the endpoints sign -/

variable {env}

/-- What a successful login answers. -/
theorem login_response {W : Type} {now : ℤ} {body : LoginRequest} {w w' : Audited W}
    {response : LoginResponse Token} (h : env.login now body w = (.ok response, w')) :
    ∃ demo, env.account? body.email = some demo ∧ response = {
      accessToken := (Mint.access (env.userId body.email) demo.tenantId demo.roles).token
        env.jwt env.settings now
      refreshToken := (Mint.refresh (env.userId body.email) demo.tenantId).token
        env.jwt env.settings now
      userId := env.userId body.email
      tenantId := demo.tenantId
      roles := demo.roles
      expiresIn := env.settings.accessTokenTtlMinutes * 60 } := by
  unfold login at h
  cases haccount : env.account? body.email with
  | none => simp [haccount] at h
  | some demo =>
    rw [haccount] at h
    dsimp only at h
    split at h
    · simp at h
    · rw [bind_record] at h
      split at h
      · obtain ⟨hresponse, -⟩ := Prod.mk.inj h
        exact ⟨demo, rfl, (Except.ok.inj hresponse).symm⟩
      · simp at h

/-- A login signs an access token and a refresh token for the account. -/
theorem login_eq_ok {W : Type} {now : ℤ} {body : LoginRequest} {w w' : Audited W}
    {response : LoginResponse Token} (h : env.login now body w = (.ok response, w')) :
    ∃ demo, env.account? body.email = some demo ∧
      response.accessToken = (Mint.access (env.userId body.email) demo.tenantId demo.roles).token
        env.jwt env.settings now ∧
      response.refreshToken = (Mint.refresh (env.userId body.email) demo.tenantId).token
        env.jwt env.settings now := by
  obtain ⟨demo, haccount, rfl⟩ := login_response h
  exact ⟨demo, haccount, rfl, rfl⟩

/-- A login with the right password, if it can be audited. -/
theorem login_of_verified {W : Type} {now : ℤ} {body : LoginRequest} {demo : DemoUser}
    {w : Audited W} (haccount : env.account? body.email = some demo)
    (hverify : env.verifyPassword body.password demo.password = true)
    (htakes : env.takes w.audits.asked = true) :
    env.login now body w = (.ok {
      accessToken := (Mint.access (env.userId body.email) demo.tenantId demo.roles).token
        env.jwt env.settings now
      refreshToken := (Mint.refresh (env.userId body.email) demo.tenantId).token
        env.jwt env.settings now
      userId := env.userId body.email
      tenantId := demo.tenantId
      roles := demo.roles
      expiresIn := env.settings.accessTokenTtlMinutes * 60 },
      ⟨w.world, w.audits.taken
        ((loginAudit (env.userId body.email) demo).masked env.runtime)⟩) := by
  rw [login, haccount]
  dsimp only
  rw [hverify, Bool.not_true, if_neg Bool.false_ne_true, bind_record, if_pos htakes]
  rfl

/-- The refresh endpoint takes a refresh token that has not expired, and signs an access
token with what is in it. -/
theorem refresh_token (m : Mint) (minted now : ℤ) :
    env.refresh now (m.token env.jwt env.settings minted) =
      if m.expiry env.settings minted < now then .error (.http 401 "invalid refresh token")
      else if m.isAccess then .error (.http 401 "not a refresh token")
      else .ok ((Mint.access m.subject m.tenantId m.roles).token env.jwt env.settings now) := by
  rw [refresh, m.decode_token]
  by_cases hexpired : m.expiry env.settings minted < now
  · rw [if_pos hexpired, if_pos hexpired]
  · rw [if_neg hexpired, if_neg hexpired]
    dsimp only
    cases haccess : m.isAccess with
    | true =>
      have htyp : (m.claims env.settings minted).get "typ" = .null := by
        simp [Dict.get, m.get?_typ, haccess]
      simp [htyp, Json.pyEq]
    | false =>
      have htyp : (m.claims env.settings minted).get "typ" = .str "refresh" := by
        simp [Dict.get, m.get?_typ, haccess]
      rw [htyp, m.get?_sub, m.get?_tenantId, m.texts_roles,
        Dict.text_of_get? (m.get?_sub env.settings minted),
        Dict.text_of_get? (m.get?_tenantId env.settings minted)]
      simp [Json.pyEq, Mint.token]

end SessionEnv

/-! ## The principal of a session -/

section Principal

variable {Token : Type} {env : SessionEnv Token} {jwt : Jwt Token} {settings : TokenSettings}

/-- Whenever both tokens are accepted, they stand for the same principal. -/
def SamePrincipal (jwt : Jwt Token) (a b : Token) : Prop :=
  ∀ now now' p p', getPrincipal jwt now (some a) = .ok p →
    getPrincipal jwt now' (some b) = .ok p' → p' = p

theorem samePrincipal_token_iff {m m' : Mint} {minted minted' : ℤ} :
    SamePrincipal jwt (m.token jwt settings minted) (m'.token jwt settings minted') ↔
      m'.principal = m.principal := by
  constructor
  · intro h
    refine h (m.expiry settings minted) (m'.expiry settings minted') _ _ ?_ ?_
    · rw [getPrincipal_token, if_neg (lt_irrefl _)]
    · rw [getPrincipal_token, if_neg (lt_irrefl _)]
  · intro h now now' p p' hp hp'
    rw [getPrincipal_token] at hp hp'
    split at hp
    · cases hp
    · split at hp'
      · cases hp'
      · rw [← Except.ok.inj hp, ← Except.ok.inj hp', h]

/-- A session: a login, and refreshes that all succeeded, with the access tokens they
returned. -/
structure Session (env : SessionEnv Token) (demo : DemoUser) (response : LoginResponse Token)
    (times : List ℤ) (tokens : List Token) : Prop where
  loggedIn : ∃ (start : ℤ) (body : LoginRequest) (w w' : Audited Unit),
    env.account? body.email = some demo ∧ env.login start body w = (.ok response, w')
  refreshed : List.Forall₂ (fun now token => env.refresh now response.refreshToken = .ok token)
    times tokens

/-- Every access token of the session stands for the principal of the login. -/
def PreservesPrincipal (env : SessionEnv Token) (response : LoginResponse Token)
    (tokens : List Token) : Prop :=
  ∀ token ∈ response.accessToken :: tokens, SamePrincipal env.jwt response.accessToken token

/-- What a relation on two lists pairs with a member of the second. -/
theorem exists_of_mem_forall₂ {α β : Type} {R : α → β → Prop} {l : List α} {l' : List β}
    (h : List.Forall₂ R l l') {b : β} (hb : b ∈ l') : ∃ a ∈ l, R a b := by
  induction h with
  | nil => cases hb
  | @cons a b' l l' hab hrest ih =>
    rcases List.mem_cons.1 hb with rfl | hmem
    · exact ⟨a, by simp, hab⟩
    · obtain ⟨a', ha', hR⟩ := ih hmem
      exact ⟨a', List.mem_cons_of_mem _ ha', hR⟩

/-- A refresh with a token of a login signs an access token without roles. -/
theorem refresh_drops_roles {userId tenantId : String} {minted now : ℤ} {token : Token}
    (h : env.refresh now ((Mint.refresh userId tenantId).token env.jwt env.settings minted) =
      .ok token) :
    token = (Mint.access userId tenantId []).token env.jwt env.settings now := by
  rw [SessionEnv.refresh_token] at h
  split at h
  · cases h
  · exact (Except.ok.inj h).symm

/-- **When a session keeps its principal.**  The roles are lost with the first refresh, so the
account has none or nothing is refreshed. -/
theorem session_preserves_iff {demo : DemoUser} {response : LoginResponse Token}
    {times : List ℤ} {tokens : List Token} (h : Session env demo response times tokens) :
    PreservesPrincipal env response tokens ↔ demo.roles = [] ∨ times = [] := by
  obtain ⟨⟨start, body, w, w', haccount, hlogin⟩, hrefreshed⟩ := h
  obtain ⟨demo', haccount', haccess, hrefresh⟩ := SessionEnv.login_eq_ok hlogin
  obtain rfl := Option.some.inj (haccount.symm.trans haccount')
  constructor
  · intro hpreserves
    cases hrefreshed with
    | nil => exact Or.inr rfl
    | @cons now token times tokens hfirst hrest =>
      rw [hrefresh] at hfirst
      have hsame := hpreserves token (by simp)
      rw [haccess, refresh_drops_roles hfirst, samePrincipal_token_iff] at hsame
      exact Or.inl (congrArg Principal.roles hsame).symm
  · intro hcondition token htoken
    rcases List.mem_cons.1 htoken with rfl | hmem
    · rw [haccess]
      exact samePrincipal_token_iff.2 rfl
    · -- a token of a refresh, so something was refreshed
      obtain ⟨now, hnow, hmint⟩ := exists_of_mem_forall₂ hrefreshed hmem
      have hroles : demo.roles = [] := by
        rcases hcondition with hroles | rfl
        · exact hroles
        · cases hnow
      rw [hrefresh] at hmint
      rw [haccess, refresh_drops_roles hmint, samePrincipal_token_iff, Mint.principal,
        Mint.principal, Mint.roles, Mint.roles, hroles]

end Principal

/-- The account of the demonstration's customer. -/
def customerAccount : DemoUser := ⟨"t_axisdemo", ["customer"], "demo1234"⟩

/-- The endpoints with that account. -/
def customerSessions : SessionEnv Dict where
  runtime := { PyRuntime.ascii with lower := fun s => s }
  jwt := .unsigned
  settings := {}
  users := [("customer@demo.com", customerAccount)]
  verifyPassword plain hashed := plain = hashed
  takes _ := true

/-- The tokens of the customer, signed at the start, and the one for a refresh. -/
def customerAccess : Mint :=
  .access (customerSessions.userId "customer@demo.com") "t_axisdemo" ["customer"]

def customerRefresh : Mint := .refresh (customerSessions.userId "customer@demo.com") "t_axisdemo"

/-- What the customer's login is answered with. -/
def customerLogin : LoginResponse Dict where
  accessToken := customerAccess.token .unsigned {} 0
  refreshToken := customerRefresh.token .unsigned {} 0
  userId := customerSessions.userId "customer@demo.com"
  tenantId := "t_axisdemo"
  roles := ["customer"]
  expiresIn := 900

/-- The access token the customer gets a minute later carries no roles. -/
theorem customerSession : Session customerSessions customerAccount customerLogin [60]
    [(Mint.access customerRefresh.subject "t_axisdemo" []).token .unsigned {} 60] where
  loggedIn := by
    have haccount : customerSessions.account? "customer@demo.com" = some customerAccount := by
      simp [SessionEnv.account?, customerSessions]
    have hverify : customerSessions.verifyPassword "demo1234" customerAccount.password = true := by
      simp [customerSessions, customerAccount]
    have hlogin : customerSessions.login 0 ⟨"customer@demo.com", "demo1234"⟩
        (⟨(), {}⟩ : Audited Unit) = _ := SessionEnv.login_of_verified haccount hverify rfl
    exact ⟨0, _, _, _, haccount, hlogin⟩
  refreshed := by
    have hvalid : ¬ customerRefresh.expiry customerSessions.settings 0 < 60 := by decide
    have hrefresh : customerSessions.refresh 60 customerLogin.refreshToken = _ :=
      SessionEnv.refresh_token customerRefresh 0 60
    rw [if_neg hvalid, if_neg (by decide)] at hrefresh
    exact .cons hrefresh .nil

/-- The customer is a customer only until the first refresh. -/
theorem customerSession_not_preserves :
    ∃ tokens, Session customerSessions customerAccount customerLogin [60] tokens ∧
      ¬ PreservesPrincipal customerSessions customerLogin tokens := by
  refine ⟨_, customerSession, fun h => ?_⟩
  have hsame : (Mint.access customerRefresh.subject "t_axisdemo" []).principal =
      customerAccess.principal :=
    samePrincipal_token_iff.1 (h _ (List.mem_cons_of_mem _ (List.mem_singleton.2 rfl)))
  cases congrArg Principal.roles hsame

theorem customerSession_preserves_iff : ∃ tokens,
    Session customerSessions customerAccount customerLogin [60] tokens ∧
      (PreservesPrincipal customerSessions customerLogin tokens ↔
        customerAccount.roles = [] ∨ ([60] : List ℤ) = []) :=
  ⟨_, customerSession, session_preserves_iff customerSession⟩

/-! ## Which tokens are accepted where -/

section Kinds

variable {Token : Type}

/-- The header of a request that carries a token. -/
structure AuthorizationHeader (Token : Type) where
  scheme : String
  credentials : Token

/-- What is known of a request while it is served: the context variables of the database
session, and what the middleware leaves on the request. -/
structure TenantContext where
  currentTenantId : Option String := none
  currentUserId : Option String := none
  state : Option Principal := none

/-- `TenantContextMiddleware.dispatch`, up to the call of the next handler -/
def TenantContext.dispatch (jwt : Jwt Token) (now : ℤ)
    (authorization : Option (AuthorizationHeader Token)) : TenantContext :=
  match authorization with
  | none => {}
  | some header =>
    if header.scheme ≠ "Bearer" then {}
    else
      match jwt.decode now header.credentials with
      -- the exception is left to the dependency that answers with 401
      | none => {}
      | some claims =>
        let sub := claims.text "sub"
        { currentTenantId := some (claims.text "tenant_id")
          currentUserId := if sub = "" then none else some sub
          state := some ⟨sub, claims.text "tenant_id", claims.texts "roles"⟩ }

/-- The middleware takes the tenant of every token of the platform, of either kind. -/
theorem TenantContext.dispatch_token {jwt : Jwt Token} {settings : TokenSettings} (m : Mint)
    (minted now : ℤ) :
    (TenantContext.dispatch jwt now
        (some ⟨"Bearer", m.token jwt settings minted⟩)).currentTenantId =
      if m.expiry settings minted < now then none else some m.tenantId := by
  rw [dispatch]
  dsimp only
  rw [if_neg (by simp), m.decode_token]
  by_cases hexpired : m.expiry settings minted < now
  · rw [if_pos hexpired, if_pos hexpired]
  · rw [if_neg hexpired, if_neg hexpired]
    dsimp only
    rw [Dict.text_of_get? (m.get?_tenantId settings minted)]

/-- A token is accepted only by the endpoints of its kind: a refresh token stands for no
principal and sets no tenant, an access token is not refreshed, and no token does both. -/
structure KeptApart (env : SessionEnv Token) (m : Mint) (minted now : ℤ) : Prop where
  principal : m.isAccess = false →
    ∀ p, getPrincipal env.jwt now (some (m.token env.jwt env.settings minted)) ≠ .ok p
  tenant : m.isAccess = false →
    (TenantContext.dispatch env.jwt now
      (some ⟨"Bearer", m.token env.jwt env.settings minted⟩)).currentTenantId = none
  refresh : m.isAccess = true →
    ∀ token, env.refresh now (m.token env.jwt env.settings minted) ≠ .ok token
  disjoint :
    ¬ ((∃ p, getPrincipal env.jwt now (some (m.token env.jwt env.settings minted)) = .ok p) ∧
      ∃ token, env.refresh now (m.token env.jwt env.settings minted) = .ok token)

/-- An expired token is accepted nowhere. -/
theorem keptApart_of_expired {env : SessionEnv Token} {m : Mint} {minted now : ℤ}
    (h : m.expiry env.settings minted < now) : KeptApart env m minted now := by
  have hprincipal : ∀ p,
      getPrincipal env.jwt now (some (m.token env.jwt env.settings minted)) ≠ .ok p := by
    intro p
    rw [getPrincipal_token, if_pos h]
    simp
  refine ⟨fun _ => hprincipal, fun _ => ?_, fun _ token => ?_, ?_⟩
  · rw [TenantContext.dispatch_token, if_pos h]
  · rw [SessionEnv.refresh_token, if_pos h]
    simp
  · rintro ⟨⟨p, hp⟩, -⟩
    exact hprincipal p hp

/-- An access token is not refreshed. -/
theorem keptApart_of_access {env : SessionEnv Token} {m : Mint} {minted now : ℤ}
    (h : m.isAccess = true) : KeptApart env m minted now := by
  have hrefresh : ∀ token, env.refresh now (m.token env.jwt env.settings minted) ≠ .ok token := by
    intro token
    rw [SessionEnv.refresh_token, if_pos h]
    split <;> simp
  refine ⟨fun hfalse => ?_, fun hfalse => ?_, fun _ => hrefresh, ?_⟩
  · rw [h] at hfalse
    cases hfalse
  · rw [h] at hfalse
    cases hfalse
  · rintro ⟨-, token, htoken⟩
    exact hrefresh token htoken

/-- **When the two kinds of tokens are kept apart.**  Exactly for access tokens, and for tokens
that have expired: a refresh token that has not expired is accepted as an access token. -/
theorem mint_keptApart_iff (env : SessionEnv Token) (m : Mint) (minted now : ℤ) :
    KeptApart env m minted now ↔
      m.isAccess = true ∨ m.expiry env.settings minted < now := by
  constructor
  · intro h
    by_contra hnot
    rw [not_or] at hnot
    have hkind : m.isAccess = false := Bool.not_eq_true _ ▸ hnot.1
    refine h.principal hkind m.principal ?_
    rw [getPrincipal_token, if_neg hnot.2]
  · rintro (haccess | hexpired)
    · exact keptApart_of_access haccess
    · exact keptApart_of_expired hexpired

/-- The customer's refresh token, used as a bearer token a day later. -/
theorem customerRefresh_not_keptApart : ¬ KeptApart customerSessions customerRefresh 0 86400 := by
  intro h
  have hvalid : ¬ customerRefresh.expiry customerSessions.settings 0 < 86400 := by decide
  refine h.principal rfl customerRefresh.principal ?_
  rw [getPrincipal_token, if_neg hvalid]

end Kinds

end AgentPlatform
