import AgentPlatform.Lib.KeyedStore
import AgentPlatform.Rag.Records

/-!
# The index behind the pipeline

A deployment keeps its embeddings in OpenSearch: every record is put to the URL its id makes,
and a put replaces the entry it leads to.  The id goes into the URL as it is, so that with `#`,
`?`, `/`, `%` or dots in it the put leads to another entry than the one of that id, or to none.
What becomes of a put is not looked at; only a lost connection, or a URL that is none, raises.

* `VectorStore` — a store as the pipeline uses it, in memory or behind a connection.
* `Pipeline.runOn` — the pipeline over a store.
* `OpenSearchVectorStore.sameEntriesOf_iff` — **when an ingestion leaves the entries of
  another tenant alone**: no chunk may be written to an entry of that tenant.
-/

namespace AgentPlatform

open KeyedStore

/-! ## Stores -/

/-- What an ingestion raises. -/
inductive IngestError where
  /-- A step of the pipeline raised. -/
  | raised (e : PyErr)
  /-- The client of the index raised. -/
  | transport
  deriving DecidableEq

/-- A vector store, as the pipeline uses it, and what there is to say of its content. -/
structure VectorStore (S : Type) where
  upsert : List EmbeddingRecord → Effect S IngestError Unit
  /-- Every one of the records is stored. -/
  Holds : S → List EmbeddingRecord → Prop
  /-- Nothing has changed from one store to the other. -/
  Unchanged : S → S → Prop
  /-- The records are what is stored of a document of a tenant. -/
  AreEntries : S → (tenantId documentId : String) → List EmbeddingRecord → Prop

namespace InMemoryVectorStore

/-- The records of a document of a tenant. -/
def entries (store : InMemoryVectorStore) (tenantId documentId : String) : List EmbeddingRecord :=
  store.records.filter fun r => r.tenantId = tenantId && r.documentId = documentId

def vectorStore : VectorStore InMemoryVectorStore where
  upsert records := Effect.modify fun store => store.upsert records
  Holds store records := ∀ r ∈ records, r ∈ store.records
  Unchanged store store' := store'.records = store.records
  AreEntries store t d records := store.entries t d = records

end InMemoryVectorStore

/-- An entry of the index. -/
structure IndexedDocument where
  tenantId : String
  documentId : String
  chunkIndex : ℕ
  vector : List ℚ
  metadata : Dict

/-- What is sent for a record. -/
def EmbeddingRecord.body (r : EmbeddingRecord) : IndexedDocument :=
  ⟨r.tenantId, r.documentId, r.chunkIndex, r.vector, r.metadata⟩

namespace OpenSearchVectorStore

/-- The puts for a list of records; `address` says where the URL of an id leads. -/
def puts (address : String → Target String) (records : List EmbeddingRecord) :
    List (Target String × IndexedDocument) :=
  records.map fun r => (address r.id, r.body)

variable {Index : Type} [KeyedStore Index String IndexedDocument]

/-- One put after the other.  The answers are not looked at: an error status goes
unnoticed, and only the client raises. -/
def upsert (address : String → Target String) (outcome : ℕ → Delivery)
    (records : List EmbeddingRecord) : Effect Index IngestError Unit :=
  sendAll .transport outcome (puts address records)

/-- The records are what the index has of a document of a tenant, each of them once. -/
structure AreEntries (index : Index) (tenantId documentId : String)
    (records : List EmbeddingRecord) : Prop where
  found_iff : ∀ doc, (∃ id, get? index id = some doc ∧ doc.tenantId = tenantId ∧
    doc.documentId = documentId) ↔ doc ∈ records.map EmbeddingRecord.body
  once : ∀ id id' doc, get? index id = some doc → get? index id' = some doc →
    doc.tenantId = tenantId → doc.documentId = documentId → id = id'

/-- The index, where the puts of an ingestion lead where `address` says, and end as `outcome`
says. -/
def vectorStore (address : String → Target String) (outcome : ℕ → Delivery) :
    VectorStore Index where
  upsert := upsert address outcome
  Holds index records := Holds index (puts address records)
  Unchanged index index' := SameContent index index'
  AreEntries := AreEntries

end OpenSearchVectorStore

/-! ## The pipeline over a store -/

namespace Pipeline

/-- The records the steps make of an upload. -/
def recordsOf (steps : List Step) (u : Upload) : Except PyErr (List EmbeddingRecord) := do
  let ctx ← runSteps steps (context u)
  need "embeddings" ctx.embeddings

/-- Ingest a document into a store. -/
def runOn {S : Type} (store : VectorStore S) (steps : List Step) (u : Upload) :
    Effect S IngestError (List EmbeddingRecord) := do
  let records ← Effect.ofExcept ((recordsOf steps u).mapError .raised)
  store.upsert records
  return records

section RunOn

variable {S : Type} {store : VectorStore S} {steps : List Step} {u : Upload} {s : S}

theorem runOn_of_error {e : PyErr} (h : recordsOf steps u = .error e) :
    runOn store steps u s = (.error (.raised e), s) := by
  rw [runOn, h]
  rfl

theorem runOn_of_ok {records : List EmbeddingRecord} (h : recordsOf steps u = .ok records) :
    runOn store steps u s = ((store.upsert records s).1.map fun _ => records,
      (store.upsert records s).2) := by
  rw [runOn, h]
  show (store.upsert records >>= fun _ => pure records) s = _
  rw [Effect.bind_apply]
  cases hupsert : store.upsert records s with
  | mk r s' =>
    cases r with
    | error e => rfl
    | ok a => rfl

end RunOn

/-- The pipeline of the process is the one over the store in memory. -/
theorem runOn_inMemory (rt : PyRuntime) (u : Upload) (store : InMemoryVectorStore) :
    runOn InMemoryVectorStore.vectorStore (pipelineSteps rt) u store =
      ((run rt u store).1.mapError .raised, (run rt u store).2) := by
  have hrecords : recordsOf (pipelineSteps rt) u = embeddings rt u := rfl
  unfold run
  cases h : embeddings rt u with
  | error e => rw [runOn_of_error (hrecords.trans h)]; rfl
  | ok records => rw [runOn_of_ok (hrecords.trans h)]; rfl

end Pipeline

/-! ## The puts of an upload -/

namespace Upload

/-- The put of that chunk is made, and writes it to the entry. -/
def Writes (rt : PyRuntime) (address : String → Target String) (outcome : ℕ → Delivery)
    (u : Upload) (i : ℕ) (id : String) : Prop :=
  i < u.chunks rt ∧ address (chunkId u.documentId i) = .key id ∧ (outcome i).stores = true ∧
    ∀ j < i, (address (chunkId u.documentId j)).raises (outcome j) = false

namespace IsRecords

open OpenSearchVectorStore

variable {rt : PyRuntime} {address : String → Target String} {outcome : ℕ → Delivery}
  {u : Upload} {records : List EmbeddingRecord} {n : ℕ}

theorem length_puts (h : u.IsRecords rt records) :
    (puts address records).length = u.chunks rt := by
  rw [puts, List.length_map, h.length_eq]

/-- No body is put twice. -/
theorem nodup_puts (h : u.IsRecords rt records) :
    ((puts address records).map Prod.snd).Nodup := by
  have hbodies : ((puts address records).map Prod.snd).map IndexedDocument.chunkIndex =
      List.range (u.chunks rt) := by
    rw [puts, List.map_map, List.map_map, ← h.indices]
    rfl
  exact List.Nodup.of_map _ (hbodies ▸ List.nodup_range)

/-- The body of that number is of the chunk of that number. -/
theorem body_getElem? (h : u.IsRecords rt records) {doc : IndexedDocument}
    (hdoc : (records.map EmbeddingRecord.body)[n]? = some doc) :
    n < u.chunks rt ∧ doc.tenantId = u.tenantId ∧ doc.documentId = u.documentId ∧
      doc.chunkIndex = n := by
  rw [List.getElem?_map, Option.map_eq_some_iff] at hdoc
  obtain ⟨r, hr, rfl⟩ := hdoc
  have hmem := List.mem_of_getElem? hr
  exact ⟨h.length_eq ▸ (List.getElem?_eq_some_iff.1 hr).1, h.tenant_eq r hmem,
    h.document_eq r hmem, (h.id_getElem? hr).1⟩

/-- Every chunk has a body. -/
theorem exists_body (h : u.IsRecords rt records) (hn : n < u.chunks rt) :
    ∃ doc, (records.map EmbeddingRecord.body)[n]? = some doc := by
  have hlt : n < (records.map EmbeddingRecord.body).length := by
    rw [List.length_map, h.length_eq]
    exact hn
  exact ⟨_, List.getElem?_eq_getElem hlt⟩

/-- The put of that number leads where the URL of the chunk of that number does. -/
theorem puts_getElem? (h : u.IsRecords rt records) {kv : Target String × IndexedDocument}
    (hkv : (puts address records)[n]? = some kv) :
    n < u.chunks rt ∧ kv.1 = address (chunkId u.documentId n) := by
  have hlength : n < u.chunks rt := h.length_puts ▸ (List.getElem?_eq_some_iff.1 hkv).1
  rw [puts, List.getElem?_map, Option.map_eq_some_iff] at hkv
  obtain ⟨r, hr, rfl⟩ := hkv
  exact ⟨hlength, congrArg address (h.id_getElem? hr).2⟩

/-- Every chunk is put. -/
theorem exists_puts (h : u.IsRecords rt records) (address : String → Target String)
    (hn : n < u.chunks rt) :
    ∃ doc, (puts address records)[n]? = some (address (chunkId u.documentId n), doc) := by
  have hlength : n < (puts address records).length := by rw [h.length_puts]; exact hn
  obtain ⟨kv, hkv⟩ : ∃ kv, (puts address records)[n]? = some kv :=
    ⟨_, List.getElem?_eq_getElem hlength⟩
  exact ⟨kv.2, by rw [hkv, ← (h.puts_getElem? hkv).2]⟩

/-- The put of a chunk raises as the URL of its id and the connection have it. -/
theorem raises_iff (h : u.IsRecords rt records) (hn : n < u.chunks rt) :
    Raises outcome (puts address records) n ↔
      (address (chunkId u.documentId n)).raises (outcome n) = true := by
  obtain ⟨doc, hput⟩ := h.exists_puts address hn
  constructor
  · rintro ⟨t, v, hkv, hraises⟩
    obtain ⟨rfl, -⟩ := Prod.mk.inj (Option.some.inj (hput.symm.trans hkv))
    exact hraises
  · exact fun hraises => ⟨_, doc, hput, hraises⟩

/-- The puts go through if none of them raises. -/
theorem sendAll_ok_iff {Index : Type} [KeyedStore Index String IndexedDocument]
    (h : u.IsRecords rt records) (index : Index) :
    (sendAll IngestError.transport outcome (puts address records) index).1 = .ok () ↔
      ∀ i < u.chunks rt, (address (chunkId u.documentId i)).raises (outcome i) = false := by
  rw [sendAll_eq_ok_iff]
  constructor
  · intro hquiet i hi
    rw [← Bool.not_eq_true, ← h.raises_iff hi]
    exact hquiet i
  · intro hquiet n hraises
    have hn : n < u.chunks rt := h.length_puts ▸ hraises.lt_length
    have hfalse := hquiet n hn
    rw [(h.raises_iff hn).1 hraises] at hfalse
    cases hfalse

/-- **What the puts write** is what the upload writes. -/
theorem writes_iff (h : u.IsRecords rt records) {id : String} :
    (∃ doc, KeyedStore.Writes outcome (puts address records) n id doc) ↔
      u.Writes rt address outcome n id := by
  have hbefore : n < u.chunks rt → ((∀ m < n, ¬ Raises outcome (puts address records) m) ↔
      ∀ m < n, (address (chunkId u.documentId m)).raises (outcome m) = false) := by
    intro hn
    refine forall₂_congr fun m hm => ?_
    rw [h.raises_iff (hm.trans hn), Bool.not_eq_true]
  constructor
  · rintro ⟨doc, hput, hstores, hquiet⟩
    obtain ⟨hn, hid⟩ := h.puts_getElem? hput
    exact ⟨hn, hid.symm, hstores, (hbefore hn).1 hquiet⟩
  · rintro ⟨hn, hid, hstores, hquiet⟩
    obtain ⟨doc, hput⟩ := h.exists_puts address hn
    exact ⟨doc, hid ▸ hput, hstores, (hbefore hn).2 hquiet⟩

end IsRecords

end Upload

/-! ## Tenants -/

namespace OpenSearchVectorStore

variable {Index : Type} [KeyedStore Index String IndexedDocument]

/-- The entries of a tenant are the same in two indexes. -/
def SameEntriesOf (tenantId : String) (index index' : Index) : Prop :=
  ∀ id doc, doc.tenantId = tenantId → (get? index' id = some doc ↔ get? index id = some doc)

section Ingest

variable {rt : PyRuntime} {address : String → Target String} {outcome : ℕ → Delivery}
  {u : Upload} {index : Index} {id : String}

/-- What the ingestion of those records leaves under an id: the body of the last chunk it wrote
there, or what was there. -/
theorem get?_runOn_of_ok {records : List EmbeddingRecord}
    (h : Pipeline.embeddings rt u = .ok records) (address : String → Target String)
    (outcome : ℕ → Delivery) (index : Index) (id : String) :
    (∃ i doc, u.Writes rt address outcome i id ∧
      (records.map EmbeddingRecord.body)[i]? = some doc ∧
      get? (Pipeline.runOn (vectorStore address outcome) (pipelineSteps rt) u index).2 id =
        some doc) ∨
    ((∀ i, ¬ u.Writes rt address outcome i id) ∧
      get? (Pipeline.runOn (vectorStore address outcome) (pipelineSteps rt) u index).2 id =
        get? index id) := by
  have hspec := Upload.records_spec h
  rw [Pipeline.runOn_of_ok h]
  rcases get?_sendAll_cases IngestError.transport outcome (puts address records) index id with
    ⟨n, doc, ⟨hwrites, -⟩, hget⟩ | ⟨hno, hget⟩
  · refine Or.inl ⟨n, doc, hspec.writes_iff.1 ⟨doc, hwrites⟩, ?_, hget⟩
    have hput := hwrites.1
    rw [puts, List.getElem?_map, Option.map_eq_some_iff] at hput
    obtain ⟨r, hr, heq⟩ := hput
    obtain ⟨-, rfl⟩ := Prod.mk.inj heq
    rw [List.getElem?_map, hr]
    rfl
  · refine Or.inr ⟨fun i hi => ?_, hget⟩
    obtain ⟨doc, hdoc⟩ := hspec.writes_iff.2 hi
    exact hno i doc hdoc

/-- The ingestion of those records returns if no put of them raises. -/
theorem runOn_eq_ok_iff {records records' : List EmbeddingRecord}
    (h : Pipeline.embeddings rt u = .ok records) :
    (Pipeline.runOn (vectorStore address outcome) (pipelineSteps rt) u index).1 = .ok records' ↔
      (∀ i < u.chunks rt, (address (chunkId u.documentId i)).raises (outcome i) = false) ∧
        records = records' := by
  have hrun : (Pipeline.runOn (vectorStore address outcome) (pipelineSteps rt) u index).1 =
      (sendAll IngestError.transport outcome (puts address records) index).1.map
        fun _ => records := by
    rw [Pipeline.runOn_of_ok h]
    rfl
  rw [hrun, ← (Upload.records_spec h).sendAll_ok_iff index]
  cases (sendAll IngestError.transport outcome (puts address records) index).1 with
  | error e => simp [Except.map]
  | ok a => simp [Except.map]

/-- **What an ingestion leaves under an id**: a chunk it wrote there, with the tenant it was
written for, or what was there. -/
theorem get?_runOn_cases (rt : PyRuntime) (address : String → Target String)
    (outcome : ℕ → Delivery) (u : Upload) (index : Index) (id : String) :
    (∃ doc, u.Writes rt address outcome doc.chunkIndex id ∧
      get? (Pipeline.runOn (vectorStore address outcome) (pipelineSteps rt) u index).2 id =
        some doc ∧
      doc.tenantId = u.tenantId ∧ doc.documentId = u.documentId) ∨
    ((∀ i, ¬ u.Writes rt address outcome i id) ∧
      get? (Pipeline.runOn (vectorStore address outcome) (pipelineSteps rt) u index).2 id =
        get? index id) := by
  cases hrecords : Pipeline.embeddings rt u with
  | error e =>
    refine Or.inr ⟨?_, by rw [Pipeline.runOn_of_error hrecords]⟩
    rintro i ⟨hi, -⟩
    rw [Upload.chunks_of_error hrecords] at hi
    exact absurd hi (Nat.not_lt_zero i)
  | ok records =>
    refine (get?_runOn_of_ok hrecords address outcome index id).imp_left ?_
    rintro ⟨i, doc, hwrites, hbody, hget⟩
    obtain ⟨-, htenant, hdocument, rfl⟩ := (Upload.records_spec hrecords).body_getElem? hbody
    exact ⟨doc, hwrites, hget, htenant, hdocument⟩

end Ingest

/-- **When an ingestion leaves the entries of another tenant alone.**  The id of a chunk says
nothing of the tenant: a chunk that is written takes the place of whatever entry its URL leads
to. -/
theorem sameEntriesOf_iff (rt : PyRuntime) (address : String → Target String)
    (outcome : ℕ → Delivery) (u : Upload) (index : Index) {tenantId : String}
    (hne : tenantId ≠ u.tenantId) :
    SameEntriesOf tenantId index
        (Pipeline.runOn (vectorStore address outcome) (pipelineSteps rt) u index).2 ↔
      ∀ i id, u.Writes rt address outcome i id →
        ∀ doc, get? index id = some doc → doc.tenantId ≠ tenantId := by
  constructor
  · intro h i id hwrites doc hdoc htenant
    have hafter := (h id doc htenant).2 hdoc
    rcases get?_runOn_cases rt address outcome u index id with
      ⟨doc', -, hget, htenant', -⟩ | ⟨hno, -⟩
    · obtain rfl := Option.some.inj (hget.symm.trans hafter)
      exact hne (htenant.symm.trans htenant')
    · exact hno i hwrites
  · intro h id doc htenant
    rcases get?_runOn_cases rt address outcome u index id with
      ⟨doc', hwrites, hget, htenant', -⟩ | ⟨-, hget⟩
    · rw [hget]
      refine iff_of_false (fun heq => ?_) fun hbefore => h _ id hwrites doc hbefore htenant
      obtain rfl := Option.some.inj heq
      exact hne (htenant.symm.trans htenant')
    · rw [hget]

/-- The policy of a bank, uploaded under the id its client chose. -/
def policyUpload (tenantId : String) : Upload :=
  ⟨tenantId, "policy", "policy.txt", [112], "u-1"⟩

/-- The index after the upload of a bank's policy; its id needs no escaping. -/
def policyIndex : Table String IndexedDocument :=
  (Pipeline.runOn (vectorStore .key fun _ => .stored) (pipelineSteps .ascii)
    (policyUpload "bank-a") KeyedStore.empty).2

theorem sameEntriesOf_iff_of_policy :
    SameEntriesOf "bank-a" policyIndex (Pipeline.runOn (vectorStore .key fun _ => .stored)
        (pipelineSteps .ascii) (policyUpload "bank-b") policyIndex).2 ↔
      ∀ i id, (policyUpload "bank-b").Writes .ascii .key (fun _ => .stored) i id →
        ∀ doc, get? policyIndex id = some doc → doc.tenantId ≠ "bank-a" :=
  sameEntriesOf_iff .ascii .key _ (policyUpload "bank-b") policyIndex (by decide)

/-- The policy of a bank is one chunk, and is written. -/
theorem policyUpload_writes (tenantId : String) :
    (policyUpload tenantId).Writes .ascii .key (fun _ => .stored) 0 (chunkId "policy" 0) := by
  refine ⟨?_, rfl, rfl, fun j hj => absurd hj (Nat.not_lt_zero j)⟩
  show 0 < (policyUpload "").chunks .ascii
  decide +kernel

/-- Two banks call their policy the same: the second upload takes the place of the first. -/
theorem policy_of_other_tenant_overwritten :
    ¬ SameEntriesOf "bank-a" policyIndex (Pipeline.runOn (vectorStore .key fun _ => .stored)
        (pipelineSteps .ascii) (policyUpload "bank-b") policyIndex).2 := by
  intro h
  rcases get?_runOn_cases .ascii .key (fun _ => .stored) (policyUpload "bank-a")
    (KeyedStore.empty : Table String IndexedDocument) (chunkId "policy" 0) with
    ⟨doc, -, hdoc, htenant, -⟩ | ⟨hno, -⟩
  · rcases get?_runOn_cases .ascii .key (fun _ => .stored) (policyUpload "bank-b") policyIndex
      (chunkId "policy" 0) with ⟨doc', -, hdoc', htenant', -⟩ | ⟨hno, -⟩
    · have hsame := (h _ doc htenant).2 hdoc
      obtain rfl := Option.some.inj (hdoc'.symm.trans hsame)
      exact absurd (htenant.symm.trans htenant') (by decide)
    · exact hno 0 (policyUpload_writes "bank-b")
  · exact hno 0 (policyUpload_writes "bank-a")

end OpenSearchVectorStore

end AgentPlatform
