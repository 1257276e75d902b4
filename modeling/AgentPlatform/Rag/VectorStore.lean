import Mathlib.Data.List.Sort
import AgentPlatform.Python.Value

/-!
# The vector store

Every embedding is tagged with its tenant and its document, and retrieval filters
on both.  This is the in-memory store; scores are exact.

* `InMemoryVectorStore.search` — filter, score, sort by score, keep the first few.
* `InMemoryVectorStore.mem_search` — every hit comes from a record of the tenant
  that passed the document filter.
* `InMemoryVectorStore.search_congr` — a search sees the records of its tenant and
  no others.
-/

namespace AgentPlatform

structure EmbeddingRecord where
  id : String
  tenantId : String
  documentId : String
  chunkIndex : ℕ
  vector : List ℚ
  metadata : Dict := []

structure SearchHit where
  documentId : String
  chunkIndex : ℕ
  score : ℚ
  metadata : Dict := []

/-! ## Python on lists -/

/-- `xs[:k]`; a negative `k` counts from the end. -/
def sliceTo {α : Type*} (xs : List α) (k : ℤ) : List α :=
  if 0 ≤ k then xs.take k.toNat else xs.take (xs.length - k.natAbs)

theorem sliceTo_sublist {α : Type*} (xs : List α) (k : ℤ) : (sliceTo xs k).Sublist xs := by
  unfold sliceTo
  split <;> exact List.take_sublist _ _

theorem length_sliceTo {α : Type*} (xs : List α) (k : ℤ) :
    (sliceTo xs k).length =
      if 0 ≤ k then min k.toNat xs.length else xs.length - k.natAbs := by
  unfold sliceTo
  split <;> simp [List.length_take]

/-- Can the value be an element of a set? -/
def Json.hashable : Json → Bool
  | .arr _ => false
  | .obj _ => false
  | _ => true

/-- `set(xs) if xs else None`: no set at all for an empty or missing list. -/
def setOrNone (xs : Json) : Except PyErr (Option (List Json)) :=
  if xs.truthy then do
    let items ← xs.items
    if items.all Json.hashable then .ok (some items) else .error .typeError
  else .ok none

/-! ## The store -/

structure InMemoryVectorStore where
  records : List EmbeddingRecord := []

namespace InMemoryVectorStore

/-- Add the records at the end. -/
def upsert (store : InMemoryVectorStore) (records : List EmbeddingRecord) : InMemoryVectorStore :=
  ⟨store.records ++ records⟩

/-- Drop every record of a document of a tenant. -/
def deleteDocument (store : InMemoryVectorStore) (tenantId documentId : String) :
    InMemoryVectorStore :=
  ⟨store.records.filter fun r => !(r.tenantId = tenantId && r.documentId = documentId)⟩

/-- The records of one tenant. -/
def ofTenant (store : InMemoryVectorStore) (tenantId : String) : List EmbeddingRecord :=
  store.records.filter fun r => r.tenantId = tenantId

/-- Is the document in the allowed set?  Without a set every document is. -/
def inAllowed (allowed : Option (List Json)) (documentId : String) : Bool :=
  match allowed with
  | none => true
  | some ids => ids.any fun id => id.pyEq (.str documentId)

/-- The hit a record makes for a query vector. -/
def hitOf (vector : List ℚ) (r : EmbeddingRecord) : SearchHit :=
  ⟨r.documentId, r.chunkIndex, (List.zipWith (· * ·) vector r.vector).sum, r.metadata⟩

/-- Highest score first; hits of equal score stay in order. -/
def sortByScore : List SearchHit → List SearchHit :=
  List.insertionSort fun a b => b.score ≤ a.score

/-- The scored hits of a tenant, in record order. -/
def scored (store : InMemoryVectorStore) (tenantId : String) (vector : List ℚ)
    (allowed : Option (List Json)) : List SearchHit :=
  ((store.ofTenant tenantId).filter fun r => inAllowed allowed r.documentId).map (hitOf vector)

def search (store : InMemoryVectorStore) (tenantId : String) (vector : List ℚ) (topK : ℤ)
    (allowedDocumentIds : Json) : Except PyErr (List SearchHit) := do
  let allowed ← setOrNone allowedDocumentIds
  .ok (sliceTo (sortByScore (store.scored tenantId vector allowed)) topK)

/-! ### What a search sees -/

theorem mem_scored {store : InMemoryVectorStore} {tenantId : String} {vector : List ℚ}
    {allowed : Option (List Json)} {h : SearchHit} :
    h ∈ store.scored tenantId vector allowed ↔
      ∃ r ∈ store.records, r.tenantId = tenantId ∧ inAllowed allowed r.documentId = true ∧
        hitOf vector r = h := by
  simp only [scored, ofTenant, List.mem_map, List.mem_filter, decide_eq_true_eq]
  constructor
  · rintro ⟨r, ⟨⟨hr, ht⟩, ha⟩, rfl⟩
    exact ⟨r, hr, ht, ha, rfl⟩
  · rintro ⟨r, hr, ht, ha, rfl⟩
    exact ⟨r, ⟨⟨hr, ht⟩, ha⟩, rfl⟩

theorem mem_sliceTo_sortByScore {hits : List SearchHit} {k : ℤ} {h : SearchHit}
    (hmem : h ∈ sliceTo (sortByScore hits) k) : h ∈ hits :=
  (List.mem_insertionSort _).1 ((sliceTo_sublist _ _).subset hmem)

/-- Every hit comes from a record of the tenant that the document filter lets through. -/
theorem mem_search {store : InMemoryVectorStore} {tenantId : String} {vector : List ℚ} {topK : ℤ}
    {ids : Json} {hits : List SearchHit} (hs : store.search tenantId vector topK ids = .ok hits)
    {h : SearchHit} (hmem : h ∈ hits) :
    ∃ r ∈ store.records, r.tenantId = tenantId ∧ hitOf vector r = h ∧
      ∃ allowed, setOrNone ids = .ok allowed ∧ inAllowed allowed r.documentId = true := by
  unfold search at hs
  cases ha : setOrNone ids with
  | error e => rw [ha] at hs; cases hs
  | ok allowed =>
    rw [ha] at hs
    obtain rfl := Except.ok.inj hs
    obtain ⟨r, hr, ht, hin, hhit⟩ := mem_scored.1 (mem_sliceTo_sortByScore hmem)
    exact ⟨r, hr, ht, hhit, allowed, rfl, hin⟩

/-- Two stores with the same records of a tenant answer its searches alike. -/
theorem search_congr {s t : InMemoryVectorStore} {tenantId : String}
    (h : s.ofTenant tenantId = t.ofTenant tenantId) (vector : List ℚ) (topK : ℤ) (ids : Json) :
    s.search tenantId vector topK ids = t.search tenantId vector topK ids := by
  unfold search scored
  rw [h]

/-! ### What an update does to a tenant's records -/

theorem ofTenant_upsert (store : InMemoryVectorStore) (records : List EmbeddingRecord)
    (tenantId : String) :
    (store.upsert records).ofTenant tenantId =
      store.ofTenant tenantId ++ records.filter fun r => r.tenantId = tenantId := by
  simp [ofTenant, upsert, List.filter_append]

theorem ofTenant_deleteDocument (store : InMemoryVectorStore) (tenantId documentId u : String) :
    (store.deleteDocument tenantId documentId).ofTenant u =
      (store.ofTenant u).filter fun r => !(r.tenantId = tenantId && r.documentId = documentId) := by
  simp only [ofTenant, deleteDocument, List.filter_filter]
  exact List.filter_congr fun r _ => by rw [Bool.and_comm]

end InMemoryVectorStore

end AgentPlatform
