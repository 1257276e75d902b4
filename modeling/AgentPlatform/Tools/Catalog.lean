import AgentPlatform.Decisioning.Eligibility
import AgentPlatform.Rag.VectorStore
import AgentPlatform.Security.Pii
import AgentPlatform.Tools.Authz

/-!
# The tools

The six registered tools, over the stores they look into: customers, bureau
reports, KYC records and documents.

* `Store` — records by id; the empty string is nobody's id, and a `Store` carries
  this as a field.
* `Stores` — what all the tools together can see.
* `toolRegistry` — the registration, in the order of the source.
-/

namespace AgentPlatform

/-! ## The stores -/

/-- Records by id. -/
structure Store where
  /-- The record of an id. -/
  get? : String → Option Dict
  /-- No record is kept under the empty id. -/
  get?_empty : get? "" = none

namespace Store

/-- A store of listed records, none of them under the empty id. -/
def ofList (records : List (String × Dict)) (h : "" ∉ records.map Prod.fst := by decide) :
    Store where
  get? id := records.lookup id
  get?_empty := by
    rw [List.lookup_eq_none_iff]
    intro p hp
    rw [bne_iff_ne]
    rintro hid
    exact h (List.mem_map.2 ⟨p, hp, hid.symm⟩)

/-- `_DB.get(key)`: a key that cannot be hashed raises, one that is not a string is
in no store. -/
def find (store : Store) (key : Json) : Except PyErr (Option Dict) :=
  match key with
  | .str id => .ok (store.get? id)
  | .arr _ => .error .typeError
  | .obj _ => .error .typeError
  | _ => .ok none

/-- Two stores with the same record of an id are asked alike about it. -/
theorem find_congr {s t : Store} {id : String} (h : s.get? id = t.get? id) :
    s.find (.str id) = t.find (.str id) := by
  rw [find, find, h]

/-- Without an id, every store answers alike. -/
theorem find_of_not_truthy {key : Json} (h : key.truthy = false) (s t : Store) :
    s.find key = t.find key := by
  cases key with
  | str id =>
    have hid : id = "" := by simpa [Json.truthy] using h
    rw [hid, find, find, s.get?_empty, t.get?_empty]
  | null => rfl
  | num n => rfl
  | arr xs => rfl
  | obj fields => rfl

end Store

/-- The stores the tools look into. -/
structure Stores where
  customers : Store
  bureau : Store
  kyc : Store
  vector : InMemoryVectorStore := {}

/-! ## Profiles, reports and KYC records -/

/-- The parameters of a tool that asks for one id. -/
def customerIdParameters : Json :=
  .obj [("type", .str "object"),
    ("properties", .obj [("customer_id", .obj [("type", .str "string")])]),
    ("required", .arr [.str "customer_id"])]

/-- Is the record outside the caller's scope?  The condition the profile and the
bureau tool share. -/
def outsideScope (ctx : ToolContext) (customerId : Json) : Bool :=
  match ctx.resourceOwnerId with
  | none => false
  | some owner =>
    owner ≠ "" && !customerId.pyEq (.str owner) && !ctx.roles.contains "customer:read"

/-- A record with one field masked. -/
def maskIn (rt : PyRuntime) (record : Dict) (field : String) : Except PyErr Dict := do
  let value ← record.getItem field
  .ok (record.set field (maskField rt field value))

def getCustomerProfileTool : ToolClass where
  name := "get_customer_profile"
  description := "Retrieve a customer's profile summary with masked PII."
  parameters := customerIdParameters
  requiredPermission := some "customer:read"

def getCustomerProfile (rt : PyRuntime) (customers : Store) : Tool where
  toToolClass := getCustomerProfileTool
  run ctx arguments := do
    let customerId := arguments.getD "customer_id" (.str "")
    match ← customers.find customerId with
    | none => .ok (.failure s!"customer {rt.str customerId} not found")
    | some record =>
      if outsideScope ctx customerId then
        .ok (.failure "customer is outside your authorized scope")
      else do
        let safe ← maskIn rt record "email"
        let safe ← maskIn rt safe "phone"
        let safe ← maskIn rt safe "pan"
        .ok (.success [("profile", .obj safe), ("masked", .bool true)])

def getCreditReportTool : ToolClass where
  name := "get_credit_report"
  description := "Retrieve a masked credit bureau summary for a customer."
  parameters := customerIdParameters
  requiredPermission := some "loan:read"

def getCreditReport (rt : PyRuntime) (bureau : Store) : Tool where
  toToolClass := getCreditReportTool
  run ctx arguments := do
    let customerId := arguments.getD "customer_id" (.str "")
    match ← bureau.find customerId with
    | none => .ok (.failure s!"no bureau report for {rt.str customerId}")
    | some report =>
      if outsideScope ctx customerId then
        .ok (.failure "bureau report outside your authorized scope")
      else .ok (.success [("credit_report", .obj report), ("source", .str "demo-bureau")])

def checkKycStatusTool : ToolClass where
  name := "check_kyc_status"
  description := "Check a customer's KYC/AML verification status."
  parameters := customerIdParameters
  requiredPermission := some "customer:read"

def checkKycStatus (rt : PyRuntime) (kyc : Store) : Tool where
  toToolClass := checkKycStatusTool
  run _ arguments := do
    let customerId := arguments.getD "customer_id" (.str "")
    match ← kyc.find customerId with
    | none => .ok (.failure s!"no KYC record for {rt.str customerId}")
    | some status => do
      let kycStatus ← status.getItem "kyc_status"
      let level ← status.getItem "level"
      let verifiedAt ← status.getItem "verified_at"
      let amlPending ← status.getItem "aml_pending"
      .ok (.success [("kyc_status", kycStatus), ("level", level), ("verified_at", verifiedAt),
        ("aml_pending", amlPending)])

/-! ## Eligibility -/

def checkLoanEligibilityTool : ToolClass where
  name := "check_loan_eligibility"
  description :=
    "Deterministic loan eligibility assessment. Returns explainable decision with reasons."
  parameters :=
    .obj [("type", .str "object"),
      ("properties", .obj
        [("customer_id", .obj [("type", .str "string")]),
          ("income", .obj [("type", .str "number")]),
          ("cibil_score", .obj [("type", .str "integer")]),
          ("existing_emis", .obj [("type", .str "number")]),
          ("requested_amount", .obj [("type", .str "number")]),
          ("tenure_months", .obj [("type", .str "integer")])]),
      ("required", .arr [.str "customer_id", .str "income", .str "cibil_score",
        .str "existing_emis", .str "requested_amount", .str "tenure_months"])]
  requiredPermission := some "loan:read"
  sensitive := true

def checkLoanEligibility (rt : PyRuntime) : Tool where
  toToolClass := checkLoanEligibilityTool
  run _ arguments := do
    let income ← arguments.getItem "income"
    let cibilScore ← arguments.getItem "cibil_score"
    let existingEmis ← arguments.getItem "existing_emis"
    let requestedAmount ← arguments.getItem "requested_amount"
    let tenureMonths ← arguments.getItem "tenure_months"
    let decision ←
      assessEligibility rt income cibilScore existingEmis requestedAmount tenureMonths
    .ok (.success [("decision", .obj decision.toDict),
      ("advisory_note",
        .str "Decision is deterministic and policy-controlled; not an LLM output.")])

/-! ## Documents -/

/-- `d.startswith(user_id)`, which only a string has. -/
def Json.startsWith (d : Json) (start : String) : Except PyErr Bool := do
  let d ← d.asStr
  .ok (start.toList.isPrefixOf d.toList)

/-- The items of a list that pass a test that may raise. -/
def filterItems (test : Json → Except PyErr Bool) : List Json → Except PyErr (List Json)
  | [] => .ok []
  | x :: xs => do
    let keep ← test x
    let rest ← filterItems test xs
    .ok (if keep then x :: rest else rest)

/-- May the caller search whatever it asks for? -/
def isDocumentStaff (ctx : ToolContext) : Bool :=
  ctx.roles.contains "compliance_officer" || ctx.roles.contains "institution_admin"

/-- The documents the caller may see of those it asks for. -/
def documentAcl (ctx : ToolContext) (requested : Json) : Except PyErr Json :=
  if isDocumentStaff ctx then .ok requested
  else if requested.truthy then do
    let items ← requested.items
    let owned ← filterItems (fun d => d.startsWith ctx.userId) items
    .ok (.arr owned)
  else .ok (.arr [])

/-- `int(x)` -/
def Json.toInt (rt : PyRuntime) : Json → Except PyErr ℤ
  | .num n => .ok n.trunc
  | .str s =>
    match rt.parseInt s with
    | none => .error (.valueError s!"invalid literal for int() with base 10: {rt.repr (.str s)}")
    | some n => .ok n
  | _ => .error .typeError

/-- How a hit is handed to a model. -/
def SearchHit.asdict (h : SearchHit) : Json :=
  .obj [("document_id", .str h.documentId), ("score", .float (round4 h.score)),
    ("metadata", .obj h.metadata)]

/-- The placeholder query vector. -/
def queryVector : List ℚ := List.replicate 384 (1 / 10)

def searchDocumentsTool : ToolClass where
  name := "search_documents"
  description := "Semantic search over institution documents the user is permitted to read."
  parameters :=
    .obj [("type", .str "object"),
      ("properties", .obj
        [("query", .obj [("type", .str "string")]),
          ("top_k", .obj [("type", .str "integer")]),
          ("document_ids", .obj [("type", .str "array"),
            ("items", .obj [("type", .str "string")])])]),
      ("required", .arr [.str "query"])]
  requiredPermission := some "document:read"

def searchDocuments (rt : PyRuntime) (vector : InMemoryVectorStore) : Tool where
  toToolClass := searchDocumentsTool
  run ctx arguments := do
    let query := arguments.getD "query" (.str "")
    let topK ← (pyOr (arguments.get "top_k") (.int 5)).toInt rt
    let permitted ← documentAcl ctx (arguments.get "document_ids")
    let hits ← vector.search ctx.tenantId queryVector topK permitted
    .ok (.success [("query", query), ("hits", .arr (hits.map SearchHit.asdict))])

/-! ## Sanctions -/

def sanctioned : List String := ["BLACKLISTED USER", "AL-QAEDA-ADJACENT ENTITY"]

def sanctionsScreenTool : ToolClass where
  name := "sanctions_screen"
  description := "Screen a party against sanctions lists. Used by KYC/AML workflows."
  parameters :=
    .obj [("type", .str "object"),
      ("properties", .obj
        [("party_name", .obj [("type", .str "string")]),
          ("country", .obj [("type", .str "string")]),
          ("id_number", .obj [("type", .str "string")])]),
      ("required", .arr [.str "party_name"])]
  requiredPermission := some "compliance:*"
  sensitive := true

def sanctionsScreen (rt : PyRuntime) : Tool where
  toToolClass := sanctionsScreenTool
  run _ arguments := do
    let partyName ← (arguments.getD "party_name" (.str "")).asStr
    let name := rt.upper (rt.strip partyName)
    let hit := sanctioned.contains name
    .ok (.success [("screened", .bool true), ("hit", .bool hit),
      ("matched_entity", if hit then .str name else .null),
      ("list_version", .str "un-eu-ofac-2026.03")])

/-! ## Registration -/

/-- The registered tools. -/
def toolRegistry (rt : PyRuntime) (stores : Stores) : ToolRegistry where
  tools :=
    [checkLoanEligibility rt, getCreditReport rt stores.bureau, checkKycStatus rt stores.kyc,
      getCustomerProfile rt stores.customers, searchDocuments rt stores.vector,
      sanctionsScreen rt]
  nodup := by
    show ["check_loan_eligibility", "get_credit_report", "check_kyc_status",
      "get_customer_profile", "search_documents", "sanctions_screen"].Nodup
    decide

/-- A registered tool is one of the six. -/
theorem getTool_cases {rt : PyRuntime} {stores : Stores} {name : String} {tool : Tool}
    (h : (toolRegistry rt stores).getTool name = some tool) :
    tool = checkLoanEligibility rt ∨ tool = getCreditReport rt stores.bureau ∨
      tool = checkKycStatus rt stores.kyc ∨ tool = getCustomerProfile rt stores.customers ∨
      tool = searchDocuments rt stores.vector ∨ tool = sanctionsScreen rt := by
  have hmem := (ToolRegistry.getTool_mem h).1
  simpa [toolRegistry] using hmem

/-- The sensitive tools are the loan assessment and the sanctions screening. -/
theorem sensitive_cases {rt : PyRuntime} {stores : Stores} {name : String} {tool : Tool}
    (h : (toolRegistry rt stores).getTool name = some tool) (hsensitive : tool.sensitive = true) :
    tool = checkLoanEligibility rt ∨ tool = sanctionsScreen rt := by
  rcases getTool_cases h with rfl | rfl | rfl | rfl | rfl | rfl
  · exact Or.inl rfl
  · cases hsensitive
  · cases hsensitive
  · cases hsensitive
  · cases hsensitive
  · exact Or.inr rfl

/-! ## The demo records -/

/-- The customers, reports and KYC records the platform is shipped with. -/
def demoStores : Stores where
  customers := .ofList
    [("cust_1001",
      [("customer_id", .str "cust_1001"), ("name", .str "Priya Sharma"),
        ("email", .str "priya@example.com"), ("phone", .str "+919800001234"),
        ("pan", .str "ABCDE1234F"), ("income", .int 850000), ("cibil_score", .int 742),
        ("existing_emis", .int 12000), ("active_loans", .int 1)]),
      ("cust_1002",
      [("customer_id", .str "cust_1002"), ("name", .str "Rahul Verma"),
        ("email", .str "rahul@example.com"), ("phone", .str "+919811112222"),
        ("pan", .str "GHIJK5678L"), ("income", .int 240000), ("cibil_score", .int 512),
        ("existing_emis", .int 9000), ("active_loans", .int 2)])]
  bureau := .ofList
    [("cust_1001",
      [("cibil_score", .int 742), ("on_time_payments_pct", .float (984 / 10)),
        ("active_loans", .int 1), ("inquiries_6m", .int 1)]),
      ("cust_1002",
      [("cibil_score", .int 512), ("on_time_payments_pct", .float (721 / 10)),
        ("active_loans", .int 2), ("inquiries_6m", .int 6)])]
  kyc := .ofList
    [("cust_1001",
      [("kyc_status", .str "verified"), ("level", .str "L2"),
        ("verified_at", .str "2026-01-15"), ("aml_pending", .bool false)]),
      ("cust_1002",
      [("kyc_status", .str "pending"), ("level", .str "L0"), ("verified_at", .null),
        ("aml_pending", .bool true)])]

end AgentPlatform
