import AgentPlatform.Security.Rbac
import AgentPlatform.Security.Tokens

/-!
# Who is asking

What the endpoints share: the principal behind a bearer token, and the permission an
endpoint may ask for.

* `Principal` — the subject of a token, with its tenant and its roles.
* `getPrincipal` — the principal of the credentials; `getPrincipal_token` says what it is
  for everything the platform signs.
* `requirePermission_eq_ok_iff` — when a permission is granted.
-/

namespace AgentPlatform

/-- How a request to an endpoint fails. -/
inductive ApiError where
  /-- An answer with an error status. -/
  | http (status : ℕ) (detail : String)
  /-- An exception the endpoint does not catch. -/
  | uncaught (e : PyErr)
  deriving DecidableEq

structure Principal where
  userId : String
  tenantId : String
  roles : List String
  deriving DecidableEq

/-- The roles of the staff of an institution. -/
def staffRoles : List String :=
  ["institution_admin", "compliance_officer", "fraud_analyst", "loan_officer"]

/-- `Principal.is_staff` -/
def Principal.isStaff (principal : Principal) : Bool :=
  principal.roles.any fun role => role ∈ staffRoles

theorem Principal.isStaff_iff {principal : Principal} :
    principal.isStaff = true ↔ ∃ role ∈ principal.roles, role ∈ staffRoles := by
  simp [isStaff]

/-! ## Reading claims -/

/-- A claim that is a text, or nothing. -/
def Json.asText? : Json → Option String
  | .str s => some s
  | _ => none

/-- `claims.get(k, "")` of a claim that is signed as a text. -/
def Dict.text (claims : Dict) (k : String) : String :=
  ((claims.get? k).bind Json.asText?).getD ""

/-- `claims.get(k, [])` of a claim that is signed as a list of texts. -/
def Dict.texts (claims : Dict) (k : String) : List String :=
  match claims.get? k with
  | some (.arr xs) => xs.filterMap Json.asText?
  | _ => []

theorem Dict.text_of_get? {claims : Dict} {k s : String} (h : claims.get? k = some (.str s)) :
    claims.text k = s := by
  simp [text, h, Json.asText?]

theorem Dict.texts_of_get? {claims : Dict} {k : String} {xs : List String}
    (h : claims.get? k = some (.arr (xs.map .str))) : claims.texts k = xs := by
  simp [texts, h, List.filterMap_map, Function.comp_def, Json.asText?]

theorem Dict.texts_of_none {claims : Dict} {k : String} (h : claims.get? k = none) :
    claims.texts k = [] := by
  simp [texts, h]

/-! ## The principal -/

section Principal

variable {Token : Type} {jwt : Jwt Token} {settings : TokenSettings}

/-- `get_principal` -/
def getPrincipal (jwt : Jwt Token) (now : ℤ) (credentials : Option Token) :
    Except ApiError Principal :=
  match credentials with
  | none => .error (.http 401 "missing bearer token")
  | some token =>
    match jwt.decode now token with
    | none => .error (.http 401 "invalid token")
    | some claims => .ok ⟨claims.text "sub", claims.text "tenant_id", claims.texts "roles"⟩

/-- The principal a token of the platform stands for. -/
def Mint.principal (m : Mint) : Principal := ⟨m.subject, m.tenantId, m.roles⟩

theorem Mint.texts_roles (now : ℤ) (m : Mint) :
    (m.claims settings now).texts "roles" = m.roles := by
  cases m with
  | access subject tenantId roles => exact Dict.texts_of_get? (get?_roles settings now _)
  | refresh subject tenantId => exact Dict.texts_of_none (get?_roles settings now _)

/-- Every token of the platform, of either kind, stands for its principal until it expires. -/
theorem getPrincipal_token (m : Mint) (minted now : ℤ) :
    getPrincipal jwt now (some (m.token jwt settings minted)) =
      if m.expiry settings minted < now then .error (.http 401 "invalid token")
      else .ok m.principal := by
  rw [getPrincipal, m.decode_token]
  by_cases h : m.expiry settings minted < now
  · rw [if_pos h, if_pos h]
  · rw [if_neg h, if_neg h]
    simp only [Mint.principal, Dict.text_of_get? (m.get?_sub settings minted),
      Dict.text_of_get? (m.get?_tenantId settings minted), m.texts_roles]

end Principal

/-- `require_permission` -/
def requirePermission (permission : String) (principal : Principal) :
    Except ApiError Principal :=
  if anyCan defaultRbac principal.roles permission then .ok principal
  else .error (.http 403 "insufficient permissions")

theorem requirePermission_eq_ok_iff {permission : String} {principal p : Principal} :
    requirePermission permission principal = .ok p ↔
      anyCan defaultRbac principal.roles permission = true ∧ p = principal := by
  unfold requirePermission
  cases h : anyCan defaultRbac principal.roles permission with
  | true => simp [eq_comm]
  | false => simp

end AgentPlatform
