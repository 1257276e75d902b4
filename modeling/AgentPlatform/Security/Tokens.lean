import AgentPlatform.Python.Value

/-!
# Tokens

A session is carried by two signed tokens: an access token with the subject, its
tenant and its roles, and a refresh token with the subject and its tenant.

* `Jwt` — the token library: what was encoded is decoded again, until it expires.
* `createAccessToken`, `createRefreshToken` — the two kinds of tokens.
* `Mint` — everything the platform signs, with the claims and the expiry of each.
-/

namespace AgentPlatform

/-! ## The token library -/

/-- Claims the token library accepts: a subject, the times of issue and of expiry, and
none of the claims that are checked against something else. -/
structure StandardClaims (claims : Dict) (exp : ℤ) : Prop where
  sub : ∃ subject, claims.get? "sub" = some (.str subject)
  iat : ∃ issued, claims.get? "iat" = some (.int issued)
  exp : claims.get? "exp" = some (.int exp)
  unchecked : ∀ k ∈ ["nbf", "aud", "jti", "at_hash"], claims.get? k = none

/-- The token library, with the platform's secret: what is encoded is decoded again, until
the second of its expiry has passed. -/
structure Jwt (Token : Type) where
  encode : Dict → Token
  /-- The claims of a token at a time; every failure is one `JWTError`. -/
  decode : ℤ → Token → Option Dict
  decode_encode : ∀ {claims : Dict} {exp : ℤ}, StandardClaims claims exp → ∀ now,
    decode now (encode claims) = if exp < now then none else some claims

/-- The token library without a signature. -/
def Jwt.unsigned : Jwt Dict where
  encode claims := claims
  decode now claims :=
    match claims.get? "exp" with
    | some (.num (.int exp)) => if exp < now then none else some claims
    | _ => some claims
  decode_encode h now := by simp [h.exp]

/-- The settings of the tokens. -/
structure TokenSettings where
  accessTokenTtlMinutes : ℕ := 15
  refreshTokenTtlDays : ℕ := 7
  appName : String := "bfsi-ai-agent"

/-! ## The two kinds of tokens -/

section Create

variable {Token : Type} (jwt : Jwt Token) (settings : TokenSettings) (now : ℤ)

/-- When an access token expires. -/
def TokenSettings.accessExpiry : ℤ := now + settings.accessTokenTtlMinutes * 60

/-- When a refresh token expires. -/
def TokenSettings.refreshExpiry : ℤ := now + settings.refreshTokenTtlDays * 86400

def accessClaims (subject tenantId : String) (roles : List String) : Dict :=
  [("sub", .str subject), ("tenant_id", .str tenantId), ("roles", .arr (roles.map .str)),
    ("iat", .int now), ("exp", .int (settings.accessExpiry now)), ("iss", .str settings.appName)]

def refreshClaims (subject tenantId : String) : Dict :=
  [("sub", .str subject), ("tenant_id", .str tenantId), ("iat", .int now),
    ("exp", .int (settings.refreshExpiry now)), ("iss", .str settings.appName),
    ("typ", .str "refresh")]

def createAccessToken (subject tenantId : String) (roles : List String) (extra : Dict := []) :
    Token :=
  jwt.encode ((accessClaims settings now subject tenantId roles).update extra)

def createRefreshToken (subject tenantId : String) : Token :=
  jwt.encode (refreshClaims settings now subject tenantId)

end Create

/-! ## What is signed -/

/-- A token the platform signs; the endpoints pass no extra claims. -/
inductive Mint where
  | access (subject tenantId : String) (roles : List String)
  | refresh (subject tenantId : String)

namespace Mint

variable {Token : Type} (jwt : Jwt Token) (settings : TokenSettings)

/-- Is it an access token? -/
def isAccess : Mint → Bool
  | access .. => true
  | refresh .. => false

def subject : Mint → String
  | access subject _ _ => subject
  | refresh subject _ => subject

def tenantId : Mint → String
  | access _ tenantId _ => tenantId
  | refresh _ tenantId => tenantId

/-- The roles in the token. -/
def roles : Mint → List String
  | access _ _ roles => roles
  | refresh .. => []

/-- When it expires, if it is signed now. -/
def expiry (now : ℤ) : Mint → ℤ
  | access .. => settings.accessExpiry now
  | refresh .. => settings.refreshExpiry now

def claims (now : ℤ) : Mint → Dict
  | access subject tenantId roles => accessClaims settings now subject tenantId roles
  | refresh subject tenantId => refreshClaims settings now subject tenantId

/-- The token, signed at a time. -/
def token (now : ℤ) : Mint → Token
  | access subject tenantId roles => createAccessToken jwt settings now subject tenantId roles
  | refresh subject tenantId => createRefreshToken jwt settings now subject tenantId

theorem token_eq (now : ℤ) (m : Mint) :
    m.token jwt settings now = jwt.encode (m.claims settings now) := by
  cases m <;> rfl

theorem standardClaims (now : ℤ) (m : Mint) :
    StandardClaims (m.claims settings now) (m.expiry settings now) := by
  cases m with
  | access subject tenantId roles =>
    refine ⟨⟨subject, ?_⟩, ⟨now, ?_⟩, ?_, ?_⟩ <;>
      simp [claims, accessClaims, expiry, Dict.get?_cons]
  | refresh subject tenantId =>
    refine ⟨⟨subject, ?_⟩, ⟨now, ?_⟩, ?_, ?_⟩ <;>
      simp [claims, refreshClaims, expiry, Dict.get?_cons]

/-- A token of the platform decodes to its claims until it expires. -/
theorem decode_token {jwt : Jwt Token} {settings : TokenSettings} (m : Mint) (minted now : ℤ) :
    jwt.decode now (m.token jwt settings minted) =
      if m.expiry settings minted < now then none else some (m.claims settings minted) := by
  rw [token_eq, jwt.decode_encode (m.standardClaims settings minted)]

/-- A refresh token says that it is one, and an access token says nothing. -/
theorem get?_typ (now : ℤ) (m : Mint) :
    (m.claims settings now).get? "typ" = if m.isAccess then none else some (.str "refresh") := by
  cases m <;> simp [claims, accessClaims, refreshClaims, isAccess, Dict.get?_cons]

theorem get?_sub (now : ℤ) (m : Mint) :
    (m.claims settings now).get? "sub" = some (.str m.subject) := by
  cases m <;> simp [claims, accessClaims, refreshClaims, subject]

theorem get?_tenantId (now : ℤ) (m : Mint) :
    (m.claims settings now).get? "tenant_id" = some (.str m.tenantId) := by
  cases m <;> simp [claims, accessClaims, refreshClaims, tenantId, Dict.get?_cons]

/-- Only an access token carries roles. -/
theorem get?_roles (now : ℤ) (m : Mint) :
    (m.claims settings now).get? "roles" =
      if m.isAccess then some (.arr (m.roles.map .str)) else none := by
  cases m <;> simp [claims, accessClaims, refreshClaims, isAccess, roles, Dict.get?_cons]

end Mint

end AgentPlatform
