import AgentPlatform.Api.Tenants
import AgentPlatform.Services.Documents

/-!
# Who writes into a tenant

The endpoints that write rows of a tenant, in any order: users and institutions are
created, documents are uploaded.  The upload takes the tenant of the principal, the creation
of a user compares the tenant in the path with it, the creation of an institution does not.

* `RowStore` — a store of chunks whose rows can be looked at; in memory and in an index.
* `Platform.serve` — one request.
* `Platform.Wrote` — what a request has written.
* `confined_iff` — **when the writes of a tenant's principals stay in their tenant**, over every
  run of requests.
-/

namespace AgentPlatform

open KeyedStore

/-! ## The rows of a store -/

/-- How the rows of a store are looked at. -/
structure RowView (S : Type) where
  Key : Type
  Row : Type
  row? : S → Key → Option Row
  tenantId : Row → String

/-- A store where every row an upsert leaves was there before, or is of the tenant of one of the
records. -/
structure RowStore {S : Type} (view : RowView S) extends VectorStore S where
  upsert_rows : ∀ records s key row, view.row? (upsert records s).2 key = some row →
    view.row? s key = some row ∨ ∃ r ∈ records, r.tenantId = view.tenantId row

namespace InMemoryVectorStore

def view : RowView InMemoryVectorStore where
  Key := ℕ
  Row := EmbeddingRecord
  row? store n := store.records[n]?
  tenantId := EmbeddingRecord.tenantId

def rowStore : RowStore view where
  toVectorStore := vectorStore
  upsert_rows := by
    intro records store (n : ℕ) row h
    change (store.records ++ records)[n]? = some row at h
    by_cases hn : n < store.records.length
    · rw [List.getElem?_append_left hn] at h
      exact Or.inl h
    · rw [List.getElem?_append_right (not_lt.1 hn)] at h
      exact Or.inr ⟨row, List.mem_of_getElem? h, rfl⟩

end InMemoryVectorStore

namespace OpenSearchVectorStore

variable (Index : Type) [KeyedStore Index String IndexedDocument]

def view : RowView Index where
  Key := String
  Row := IndexedDocument
  row? := get?
  tenantId := IndexedDocument.tenantId

def rowStore (address : String → Target String) (outcome : ℕ → Delivery) :
    RowStore (view Index) where
  toVectorStore := vectorStore address outcome
  upsert_rows := by
    intro records index id doc h
    rcases get?_sendAll_cases IngestError.transport outcome (puts address records) index id with
      ⟨n, doc', ⟨hwrites, -⟩, hget⟩ | ⟨-, hkept⟩
    · obtain rfl := Option.some.inj (hget.symm.trans h)
      obtain ⟨r, hr, heq⟩ := List.mem_map.1 (List.mem_of_getElem? hwrites.1)
      obtain ⟨-, rfl⟩ := Prod.mk.inj heq
      exact Or.inr ⟨r, hr, rfl⟩
    · exact Or.inl (hkept.symm.trans h)

end OpenSearchVectorStore

/-! ## The platform -/

/-- What the endpoints share. -/
structure Platform (S : Type) where
  rows : Database
  store : S
  audits : Journal AuditLog

/-- What an upload runs against: stages that fail as `faults` says, ids, the audit log, and the
store. -/
structure DocumentEnv {S : Type} (view : RowView S) where
  runtime : PyRuntime
  faults : ℕ → Option PyErr
  uuid : String
  correlationId : String
  takes : ℕ → Bool
  store : RowStore view

def DocumentEnv.uploadEnv {S : Type} {view : RowView S} (env : DocumentEnv view) : UploadEnv S :=
  documentsEnv env.runtime env.faults env.uuid env.correlationId env.takes env.store.toVectorStore

/-- A request of an authenticated principal. -/
inductive PlatformRequest {S : Type} (view : RowView S) where
  | admin (env : AdminEnv) (principal : Principal) (call : AdminCall)
  | document (env : DocumentEnv view) (principal : Principal) (filename : Option String)
      (content : List UInt8) (documentId : Option String)

namespace PlatformRequest

variable {S : Type} {view : RowView S}

def principal : PlatformRequest view → Principal
  | admin _ principal _ => principal
  | document _ principal _ _ _ => principal

/-- What the request leaves of what there was. -/
def serve (p : Platform S) : PlatformRequest view → Platform S
  | admin env principal call =>
    let w := (env.serve principal call ⟨p.rows, p.audits⟩).2
    { p with rows := w.world, audits := w.audits }
  | document env principal filename content documentId =>
    let w := (uploadDocument env.uploadEnv
      ⟨principal.tenantId, principal.userId, filename, content, documentId⟩
      ⟨p.store, p.audits⟩).2
    { p with store := w.world, audits := w.audits }

end PlatformRequest

namespace Platform

variable {S : Type} {view : RowView S}

/-- A user, an institution or an indexed row of a tenant has been written. -/
def Wrote (view : RowView S) (p p' : Platform S) (tenantId : String) : Prop :=
  (∃ new row, p'.rows = p.rows ++ new ∧ row ∈ new ∧ row.tenantId? = some tenantId) ∨
    ∃ key row, view.row? p'.store key = some row ∧ view.row? p.store key ≠ some row ∧
      view.tenantId row = tenantId

/-- In every request of a run that is not a platform administrator's, what is written is of the
tenant of the principal. -/
def Confined (p : Platform S) : List (PlatformRequest view) → Prop
  | [] => True
  | r :: later =>
    ("platform_admin" ∉ r.principal.roles → ∀ tenantId, Wrote view p (r.serve p) tenantId →
      tenantId = r.principal.tenantId) ∧ Confined (r.serve p) later

end Platform

/-! ## What an upload writes -/

section Upload

variable {S : Type} {view : RowView S}

/-- An upload leaves the store alone, or hands it the records of the pipeline. -/
theorem uploadDocument_world (env : UploadEnv S) (r : UploadRequest) (w : Audited S) :
    (uploadDocument env r w).2.world = w.world ∨
      ∃ records, Pipeline.recordsOf env.steps (r.upload env.uuid) = .ok records ∧
        (uploadDocument env r w).2.world = (env.store.upsert records w.world).2 := by
  by_cases hlarge : maxUploadBytes < r.content.length
  · rw [uploadDocument_of_too_large hlarge]
    exact Or.inl rfl
  · cases hrecords : Pipeline.recordsOf env.steps (r.upload env.uuid) with
    | error e =>
      left
      exact (uploadDocument_of_error hlarge (Pipeline.runOn_of_error hrecords)).2
    | ok records =>
      refine Or.inr ⟨records, rfl, ?_⟩
      have hrun : Pipeline.runOn env.store env.steps (r.upload env.uuid) w.world = _ :=
        Pipeline.runOn_of_ok hrecords
      cases hsent : env.store.upsert records w.world with
      | mk result s =>
        rw [hsent] at hrun
        cases result with
        | error e => exact (uploadDocument_of_error hlarge hrun).2
        | ok a =>
          rw [uploadDocument_of_ok hlarge hrun]
          split <;> rfl

/-- The rows an upload writes are of the tenant it is made for. -/
theorem tenantId_of_upload (env : DocumentEnv view) (r : UploadRequest) (w : Audited S)
    {key : view.Key} {row : view.Row}
    (hrow : view.row? (uploadDocument env.uploadEnv r w).2.world key = some row)
    (hnew : view.row? w.world key ≠ some row) : view.tenantId row = r.tenantId := by
  rcases uploadDocument_world env.uploadEnv r w with hsame | ⟨records, hrecords, hsent⟩
  · rw [hsame] at hrow
    exact absurd hrow hnew
  · rw [hsent] at hrow
    rcases env.store.upsert_rows records w.world key row hrow with hbefore | ⟨record, hmem, heq⟩
    · exact absurd hbefore hnew
    · have hmade : Pipeline.embeddings env.runtime (r.upload env.uuid) = .ok records :=
        (recordsOf_faulty.1 hrecords).2
      rw [← heq]
      exact (Pipeline.tagged_of_embeddings hmade record hmem).1

end Upload

/-! ## What a request writes -/

namespace PlatformRequest

variable {S : Type} {view : RowView S}

/-- An institution that is committed for a principal without `platform_admin` is one of the
principal's own tenant. -/
def NamesOwnTenant : PlatformRequest view → Prop
  | admin env principal (.createInstitution tenantId _ _) =>
    env.commits = true → "platform_admin" ∉ principal.roles → tenantId = principal.tenantId
  | _ => True

end PlatformRequest

namespace Platform

variable {S : Type} {view : RowView S} {p : Platform S}

theorem wrote_of_rows {p' : Platform S} {t : String} (h : Wrote view p p' t)
    (hstore : p'.store = p.store) :
    ∃ new row, p'.rows = p.rows ++ new ∧ row ∈ new ∧ row.tenantId? = some t := by
  rcases h with hrows | ⟨key, row, hrow, hnew, -⟩
  · exact hrows
  · rw [hstore] at hrow
    exact absurd hrow hnew

theorem wrote_row {row : Row} {audits : Journal AuditLog} {t : String}
    (h : Wrote view p ⟨p.rows ++ [row], p.store, audits⟩ t) : row.tenantId? = some t := by
  obtain ⟨new, row', heq, hmem, htenant⟩ := wrote_of_rows h rfl
  obtain rfl := List.append_cancel_left heq
  rw [List.mem_singleton.1 hmem] at htenant
  exact htenant

theorem not_wrote_of_rows {p' : Platform S} {t : String} (hstore : p'.store = p.store)
    (hrows : p'.rows = p.rows) : ¬ Wrote view p p' t := by
  intro h
  obtain ⟨new, row, heq, hmem, -⟩ := wrote_of_rows h hstore
  rw [hrows, List.self_eq_append_right] at heq
  rw [heq] at hmem
  cases hmem

/-- What a call of the administration writes, of a principal without `platform_admin`. -/
theorem confined_admin_iff {env : AdminEnv} {principal : Principal} {call : AdminCall}
    {w' : Audited Database} (h : AdminEnv.Served env principal ⟨p.rows, p.audits⟩ call w') :
    ("platform_admin" ∉ principal.roles → ∀ tenantId,
        Wrote view p ⟨w'.world, p.store, w'.audits⟩ tenantId → tenantId = principal.tenantId) ↔
      (.admin env principal call : PlatformRequest view).NamesOwnTenant := by
  have hnothing : ∀ {q : Platform S}, q.store = p.store → q.rows = p.rows →
      ("platform_admin" ∉ principal.roles → ∀ tenantId, Wrote view p q tenantId →
        tenantId = principal.tenantId) :=
    fun hstore hrows _ t hwrote => absurd hwrote (not_wrote_of_rows hstore hrows)
  cases h with
  | stopped hreaches =>
    refine iff_of_true (hnothing rfl rfl) ?_
    cases call with
    | createTenant name slug dataResidency => trivial
    | createUser tenantId email fullName password roles => trivial
    | createInstitution tenantId name code => exact absurd trivial hreaches
  | onlyAudited hreaches hfails houtcome htype hid => exact iff_of_true (hnothing rfl rfl) trivial
  | notCommitted hfails hcall =>
    refine iff_of_true (hnothing rfl rfl) ?_
    cases call with
    | createTenant name slug dataResidency => trivial
    | createUser tenantId email fullName password roles => trivial
    | createInstitution tenantId name code =>
      intro hcommits
      rw [hfails] at hcommits
      cases hcommits
  | tenant hreaches hcommits houtcome htype hid =>
    refine iff_of_true (fun _ t hwrote => ?_) trivial
    cases wrote_row hwrote
  | @user tenantId email fullName password passwordHash roles hreaches hcommits =>
    refine iff_of_true (fun hadmin t hwrote => ?_) trivial
    obtain ⟨-, -, hown, -⟩ := hreaches
    obtain rfl : tenantId = t := Option.some.inj (wrote_row hwrote)
    exact hown.resolve_right hadmin
  | @institution tenantId name code hcommits =>
    constructor
    · intro hconfined _ hadmin
      exact hconfined hadmin tenantId (Or.inl ⟨_, _, rfl, List.mem_singleton_self _, rfl⟩)
    · intro hnames hadmin t hwrote
      obtain rfl : tenantId = t := Option.some.inj (wrote_row hwrote)
      exact hnames hcommits hadmin

/-- **What one request writes**, of a principal without `platform_admin`. -/
theorem confined_step_iff (p : Platform S) (r : PlatformRequest view) :
    ("platform_admin" ∉ r.principal.roles → ∀ tenantId, Wrote view p (r.serve p) tenantId →
      tenantId = r.principal.tenantId) ↔ r.NamesOwnTenant := by
  cases r with
  | admin env principal call =>
    exact confined_admin_iff (AdminEnv.served env principal call ⟨p.rows, p.audits⟩)
  | document env principal filename content documentId =>
    refine iff_of_true (fun _ t hwrote => ?_) trivial
    rcases hwrote with ⟨new, row, heq, hmem, -⟩ | ⟨key, row, hrow, hnew, rfl⟩
    · have hnone : new = [] := List.self_eq_append_right.1 heq
      rw [hnone] at hmem
      cases hmem
    · exact tenantId_of_upload env _ ⟨p.store, p.audits⟩ hrow hnew

/-- **When the writes of a tenant's principals stay in their tenant**, over every run of
requests: if they create institutions in their own tenant only. -/
theorem confined_iff (p : Platform S) (requests : List (PlatformRequest view)) :
    Confined p requests ↔ ∀ r ∈ requests, r.NamesOwnTenant := by
  induction requests generalizing p with
  | nil => simp [Confined]
  | cons r later ih => rw [Confined, confined_step_iff, ih, List.forall_mem_cons]

/-- A customer of one bank. -/
def bankCustomer : Principal := ⟨"user_1", "bank-a", ["customer"]⟩

/-- The customer uploads a note, and opens an institution in another bank. -/
def customerRequests : List (PlatformRequest InMemoryVectorStore.view) :=
  [.document ⟨.ascii, fun _ => none, "d-1", "c-1", fun _ => true, InMemoryVectorStore.rowStore⟩
      bankCustomer (some "note.txt") [72, 105] none,
    .admin (AdminEnv.demo true) bankCustomer
      (.createInstitution "bank-b" "Axis Demo Bank" "AXIS-DEMO")]

theorem customerRequests_not_confined : ¬ Confined ⟨[], ⟨[]⟩, {}⟩ customerRequests := by
  rintro ⟨-, hconfined, -⟩
  have hother := hconfined (by decide) "bank-b" (Or.inl ⟨_, _, rfl, List.mem_singleton_self _, rfl⟩)
  exact absurd hother (by decide)

end Platform

end AgentPlatform
