import AgentPlatform.Lib.Unwinding
import AgentPlatform.Rag.Pipeline

/-!
# One vector store, many tenants

The ingestion and retrieval state as a machine shared by the tenants: documents
are ingested, documents are deleted, and searches are answered, in any order.

* `storeMachine` — the three operations as steps of one store.
* `storeMachine_unwinds` — a tenant sees its own records: its operations depend on
  nothing else and the operations of the others leave them alone.
* `storeMachine_tenant_isolation` — **the result**: a tenant is answered as if it
  were alone, and every hit carries the tenant and the document it belongs to.
-/

namespace AgentPlatform

open Unwinding

/-- What a tenant asks of the store. -/
inductive StoreOp where
  /-- `Pipeline.run` -/
  | ingest (upload : Upload)
  /-- `delete_document` -/
  | delete (tenantId documentId : String)
  /-- `search` -/
  | search (tenantId : String) (vector : List ℚ) (topK : ℤ) (allowedDocumentIds : Json)

/-- The tenant an operation is issued by. -/
def StoreOp.tenant : StoreOp → String
  | ingest upload => upload.tenantId
  | delete tenantId _ => tenantId
  | search tenantId _ _ _ => tenantId

/-- How the store answers. -/
inductive StoreReply where
  | ingested (records : Except PyErr (List EmbeddingRecord))
  | deleted
  | hits (hits : Except PyErr (List SearchHit))

/-- The store as a machine. -/
def storeMachine (rt : PyRuntime) : Machine InMemoryVectorStore StoreOp StoreReply where
  step store
    | .ingest upload =>
      let (records, store) := Pipeline.run rt upload store
      (.ingested records, store)
    | .delete tenantId documentId => (.deleted, store.deleteDocument tenantId documentId)
    | .search tenantId vector topK ids => (.hits (store.search tenantId vector topK ids), store)

/-! ## What an ingestion does to the records of a tenant -/

/-- The records an upload adds: none if a step raised. -/
def Pipeline.added (rt : PyRuntime) (upload : Upload) : List EmbeddingRecord :=
  match Pipeline.embeddings rt upload with
  | .error _ => []
  | .ok records => records

theorem Pipeline.run_eq (rt : PyRuntime) (upload : Upload) (store : InMemoryVectorStore) :
    Pipeline.run rt upload store =
      (Pipeline.embeddings rt upload, store.upsert (Pipeline.added rt upload)) := by
  unfold Pipeline.run Pipeline.added
  cases Pipeline.embeddings rt upload with
  | error e => simp [InMemoryVectorStore.upsert]
  | ok records => rfl

theorem Pipeline.added_tagged {rt : PyRuntime} {upload : Upload} {r : EmbeddingRecord}
    (h : r ∈ Pipeline.added rt upload) : r.tenantId = upload.tenantId ∧ r.Tagged := by
  unfold Pipeline.added at h
  cases hemb : Pipeline.embeddings rt upload with
  | error e => rw [hemb] at h; exact absurd h (by simp)
  | ok records =>
    rw [hemb] at h
    obtain ⟨ht, -, htag⟩ := Pipeline.tagged_of_embeddings hemb r h
    exact ⟨ht, htag⟩

/-- An upload of another tenant adds nothing to the records of a tenant. -/
theorem Pipeline.filter_added_of_ne {rt : PyRuntime} {upload : Upload} {t : String}
    (h : upload.tenantId ≠ t) :
    (Pipeline.added rt upload).filter (fun r => r.tenantId = t) = [] := by
  apply List.filter_eq_nil_iff.2
  intro r hr
  have hu : r.tenantId = upload.tenantId := (Pipeline.added_tagged hr).1
  simpa [hu] using h

/-! ## Isolation -/

/-- The unwinding conditions of a tenant that sees its own records. -/
theorem storeMachine_unwinds (rt : PyRuntime) (t : String) :
    Unwinds (storeMachine rt) StoreOp.tenant t (fun store => store.ofTenant t) where
  output_eq := by
    intro store store' op hop hview
    cases op with
    | ingest upload => simp [storeMachine, Pipeline.run_eq]
    | delete tenantId documentId => rfl
    | search tenantId vector topK ids =>
      obtain rfl : tenantId = t := hop
      show StoreReply.hits _ = StoreReply.hits _
      rw [InMemoryVectorStore.search_congr hview]
  view_step_eq := by
    intro store store' op hop hview
    cases op with
    | ingest upload =>
      simp only [storeMachine, Pipeline.run_eq, InMemoryVectorStore.ofTenant_upsert]
      rw [hview]
    | delete tenantId documentId =>
      simp only [storeMachine, InMemoryVectorStore.ofTenant_deleteDocument]
      rw [hview]
    | search tenantId vector topK ids => exact hview
  view_step_other := by
    intro store op hop
    cases op with
    | ingest upload =>
      simp only [storeMachine, Pipeline.run_eq, InMemoryVectorStore.ofTenant_upsert]
      rw [Pipeline.filter_added_of_ne hop, List.append_nil]
    | delete tenantId documentId =>
      have hne : tenantId ≠ t := hop
      simp only [storeMachine, InMemoryVectorStore.ofTenant_deleteDocument]
      apply List.filter_eq_self.2
      intro r hr
      have ht : r.tenantId = t := by simpa using (List.mem_filter.1 hr).2
      simp [ht, Ne.symm hne]
    | search tenantId vector topK ids => rfl

/-! ## Tagged stores -/

/-- Every record of the store carries its tenant and its document. -/
def InMemoryVectorStore.Tagged (store : InMemoryVectorStore) : Prop :=
  ∀ r ∈ store.records, r.Tagged

/-- Every operation keeps a tagged store tagged. -/
theorem storeMachine_tagged (rt : PyRuntime) (store : InMemoryVectorStore) (op : StoreOp)
    (h : store.Tagged) : ((storeMachine rt).step store op).2.Tagged := by
  cases op with
  | ingest upload =>
    simp only [storeMachine, Pipeline.run_eq]
    intro r hr
    rcases List.mem_append.1 hr with hold | hnew
    · exact h r hold
    · exact (Pipeline.added_tagged hnew).2
  | delete tenantId documentId =>
    intro r hr
    exact h r (List.mem_filter.1 hr).1
  | search tenantId vector topK ids => exact h

/-- The hits of a search carry the tenant that asked and the document they are from. -/
def HitsTagged (op : StoreOp) (reply : StoreReply) : Prop :=
  ∀ hits, reply = .hits (.ok hits) → ∀ h ∈ hits,
    h.metadata.get? "tenant_id" = some (.str op.tenant) ∧
      h.metadata.get? "document_id" = some (.str h.documentId)

theorem hitsTagged_of_tagged (rt : PyRuntime) (store : InMemoryVectorStore) (op : StoreOp)
    (h : store.Tagged) : HitsTagged op ((storeMachine rt).step store op).1 := by
  intro hits hreply hit hmem
  cases op with
  | ingest upload => cases hreply
  | delete tenantId documentId => cases hreply
  | search tenantId vector topK ids =>
    have hs : store.search tenantId vector topK ids = .ok hits := StoreReply.hits.inj hreply
    obtain ⟨r, hr, ht, rfl, -⟩ := InMemoryVectorStore.mem_search hs hmem
    obtain ⟨htenant, hdoc⟩ := h r hr
    rw [ht] at htenant
    exact ⟨htenant, hdoc⟩

/-- **Tenants are isolated in the store.**  Whatever the tenants do, in whatever
order, a tenant is answered exactly as if it had been alone, and every hit of
every search carries the tenant that asked and the document it is from. -/
theorem storeMachine_tenant_isolation (rt : PyRuntime) (ops : List StoreOp) :
    (∀ t, ((storeMachine rt).outputs {} ops).filter (fun p => p.1.tenant = t) =
        (storeMachine rt).outputs {} (ops.filter (fun op => op.tenant = t))) ∧
      ∀ p ∈ (storeMachine rt).outputs {} ops, HitsTagged p.1 p.2 := by
  refine ⟨?_, ?_⟩
  · intro t
    exact (storeMachine_unwinds rt t).outputs_purge ops rfl
  · refine (storeMachine rt).outputs_forall (I := InMemoryVectorStore.Tagged)
      (storeMachine_tagged rt) (hitsTagged_of_tagged rt) ops ?_
    intro r hr
    exact absurd hr (by simp)

end AgentPlatform
