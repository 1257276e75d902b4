import AgentPlatform.Rag.VectorStore
import AgentPlatform.Security.Pii

/-!
# The ingestion pipeline

Scan, parse, classify, chunk, extract metadata, embed, store.  A step reads and
writes the keys of a shared context; a key that is not there yet raises.

* `Chunker.chunkFrom` — the sliding window over the text.
* `Pipeline.embeddings` — the steps, up to the records.
* `Pipeline.run` — the steps and then the store, which is touched only when every
  step went through.
* `Ingests` — what every step keeps of the context, and `Pipeline.tagged_of_embeddings`
  — **every record is tagged**: it carries the tenant and the document the pipeline
  was run for, in its fields and in its metadata.
-/

namespace AgentPlatform

structure Chunk where
  text : String
  index : ℕ
  metadata : Dict := []

/-- The context the steps share. -/
structure IngestContext where
  tenantId : String
  documentId : String
  filename : String
  content : List UInt8
  uploadedBy : String
  simulateMalware : Bool := false
  text : Option String := none
  docType : Option String := none
  sensitivity : Option String := none
  retentionDays : Option ℕ := none
  chunks : Option (List Chunk) := none
  metadata : Option Dict := none
  embeddings : Option (List EmbeddingRecord) := none

/-- A key of the context, which may not be there yet. -/
def need {α : Type} (key : String) (v : Option α) : Except PyErr α :=
  match v with
  | none => .error (.keyError key)
  | some a => .ok a

/-- A step of the pipeline. -/
abbrev Step := IngestContext → Except PyErr IngestContext

def malwareScan : Step := fun ctx =>
  if ctx.simulateMalware then .error (.ingestionError "malware detected") else .ok ctx

/-- `filename.rsplit(".", 1)[-1]` -/
def lastPart (filename : String) : String :=
  String.ofList (filename.toList.reverse.takeWhile (· ≠ '.')).reverse

def ocrText : String := "extracted text from image (OCR placeholder)"

def parser (rt : PyRuntime) : Step := fun ctx =>
  let ext := rt.lower (lastPart ctx.filename)
  if ["pdf", "doc", "docx", "txt", "md"].contains ext then
    .ok { ctx with text := some (rt.decode ctx.content) }
  else if ["png", "jpg", "jpeg", "tiff"].contains ext then .ok { ctx with text := some ocrText }
  else .error (.ingestionError s!"unsupported file type: {ext}")

def classifier (rt : PyRuntime) : Step := fun ctx => do
  let text ← need "text" ctx.text
  let lower := rt.lower text
  let (docType, sensitivity) :=
    if ["passport", "pan card", "aadhaar"].any (contains lower) then ("identity", "high")
    else if ["financial statement", "balance sheet", "p&l"].any (contains lower) then
      ("financial", "medium")
    else ("general", "low")
  .ok { ctx with
    docType := some docType
    sensitivity := some sensitivity
    retentionDays := some (if sensitivity = "high" then 2555 else 1825) }

/-! ## Chunks -/

/-- A window of `size` characters that is moved on by less than its size. -/
structure Chunker where
  size : ℕ := 512
  overlap : ℕ := 64
  overlap_lt : overlap < size := by decide

namespace Chunker

/-- The window, from `start` on.  Every round moves it by at least one character,
so the length of the text is enough `fuel`. -/
def chunkFrom (c : Chunker) (metadata : Dict) (text : List Char) : ℕ → ℕ → ℕ → List Chunk
  | 0, _, _ => []
  | fuel + 1, start, idx =>
    if start < text.length then
      let stop := start + c.size
      let chunk := ⟨String.ofList ((text.drop start).take c.size), idx, metadata⟩
      if text.length ≤ stop then [chunk]
      else chunk :: chunkFrom c metadata text fuel (stop - c.overlap) (idx + 1)
    else []

def run (c : Chunker) : Step := fun ctx => do
  let text ← need "text" ctx.text
  let metadata : Dict :=
    [("doc_id", .str ctx.documentId),
      ("doc_type", .str (ctx.docType.getD "general")),
      ("sensitivity", .str (ctx.sensitivity.getD "low"))]
  .ok { ctx with chunks := some (c.chunkFrom metadata text.toList text.toList.length 0 0) }

end Chunker

/-! ## Records -/

/-- The metadata every record of a document carries. -/
def extractedMetadata (rt : PyRuntime) (ctx : IngestContext) : Dict :=
  [("tenant_id", .str ctx.tenantId),
    ("document_id", .str ctx.documentId),
    ("filename", .str ctx.filename),
    ("doc_type", .ofOption ctx.docType),
    ("sensitivity", .ofOption ctx.sensitivity),
    ("uploaded_by", .str ctx.uploadedBy),
    ("content_hash", .str (rt.sha256 ctx.content))]

def metadataExtractor (rt : PyRuntime) : Step := fun ctx =>
  .ok { ctx with metadata := some (extractedMetadata rt ctx) }

/-- The placeholder embedding: the digest of the text, repeated to the dimension. -/
def embed (rt : PyRuntime) (dimension : ℕ) (text : String) : List ℚ :=
  let vec := (rt.md5 text.toUTF8.toList).map fun b => (b.toNat : ℚ) / 255
  ((List.replicate (dimension / 16 + 1) vec).flatten).take dimension

/-- The record of a chunk. -/
def recordOf (rt : PyRuntime) (dimension : ℕ) (ctx : IngestContext) (metadata : Dict) (c : Chunk) :
    EmbeddingRecord where
  id := ctx.documentId ++ ":" ++ toString c.index
  tenantId := ctx.tenantId
  documentId := ctx.documentId
  chunkIndex := c.index
  vector := embed rt dimension c.text
  metadata := c.metadata.update metadata

def embedder (rt : PyRuntime) (dimension : ℕ) : Step := fun ctx => do
  let chunks ← need "chunks" ctx.chunks
  if chunks.isEmpty then .ok { ctx with embeddings := some [] }
  else
    let metadata ← need "metadata" ctx.metadata
    .ok { ctx with embeddings := some (chunks.map (recordOf rt dimension ctx metadata)) }

/-! ## The pipeline -/

/-- The steps of `build_pipeline`. -/
def pipelineSteps (rt : PyRuntime) : List Step :=
  [malwareScan, parser rt, classifier rt, ({} : Chunker).run, metadataExtractor rt,
    embedder rt 384]

/-- What a document is ingested from. -/
structure Upload where
  tenantId : String
  documentId : String
  filename : String
  content : List UInt8
  uploadedBy : String

namespace Pipeline

def context (u : Upload) : IngestContext :=
  { tenantId := u.tenantId, documentId := u.documentId, filename := u.filename,
    content := u.content, uploadedBy := u.uploadedBy }

/-- One step after the other. -/
def runSteps (steps : List Step) (ctx : IngestContext) : Except PyErr IngestContext :=
  match steps with
  | [] => .ok ctx
  | step :: steps => step ctx >>= runSteps steps

/-- The records of a document. -/
def embeddings (rt : PyRuntime) (u : Upload) : Except PyErr (List EmbeddingRecord) := do
  let ctx ← runSteps (pipelineSteps rt) (context u)
  need "embeddings" ctx.embeddings

/-- Ingest a document into the store. -/
def run (rt : PyRuntime) (u : Upload) (store : InMemoryVectorStore) :
    Except PyErr (List EmbeddingRecord) × InMemoryVectorStore :=
  match embeddings rt u with
  | .error e => (.error e, store)
  | .ok records => (.ok records, store.upsert records)

end Pipeline

/-! ## What the pipeline writes -/

/-- A record that carries its tenant and its document in its metadata too. -/
def EmbeddingRecord.Tagged (r : EmbeddingRecord) : Prop :=
  r.metadata.get? "tenant_id" = some (.str r.tenantId) ∧
    r.metadata.get? "document_id" = some (.str r.documentId)

/-- A context that ingests document `d` for tenant `t`. -/
structure Ingests (t d : String) (ctx : IngestContext) : Prop where
  tenant_eq : ctx.tenantId = t
  document_eq : ctx.documentId = d
  metadata_eq : ∀ m, ctx.metadata = some m →
    (m.map Prod.fst).Nodup ∧ ("tenant_id", Json.str t) ∈ m ∧ ("document_id", Json.str d) ∈ m
  embeddings_eq : ∀ rs, ctx.embeddings = some rs →
    ∀ r ∈ rs, r.tenantId = t ∧ r.documentId = d ∧ r.Tagged

/-- A step that leaves a context a context of the same document. -/
def Step.Keeps (step : Step) (t d : String) : Prop :=
  ∀ ctx ctx', Ingests t d ctx → step ctx = .ok ctx' → Ingests t d ctx'

theorem Ingests.of_eq {t d : String} {ctx ctx' : IngestContext} (h : Ingests t d ctx)
    (ht : ctx'.tenantId = ctx.tenantId) (hd : ctx'.documentId = ctx.documentId)
    (hm : ctx'.metadata = ctx.metadata) (he : ctx'.embeddings = ctx.embeddings) :
    Ingests t d ctx' :=
  ⟨ht.trans h.tenant_eq, hd.trans h.document_eq, by rw [hm]; exact h.metadata_eq,
    by rw [he]; exact h.embeddings_eq⟩

section Steps

variable {t d : String}

theorem malwareScan_keeps : Step.Keeps malwareScan t d := by
  intro ctx ctx' h hstep
  unfold malwareScan at hstep
  split at hstep
  · cases hstep
  · cases hstep; exact h

theorem parser_keeps (rt : PyRuntime) : Step.Keeps (parser rt) t d := by
  intro ctx ctx' h hstep
  simp only [parser] at hstep
  split at hstep
  · cases hstep; exact h.of_eq rfl rfl rfl rfl
  · split at hstep
    · cases hstep; exact h.of_eq rfl rfl rfl rfl
    · cases hstep

theorem classifier_keeps (rt : PyRuntime) : Step.Keeps (classifier rt) t d := by
  intro ctx ctx' h hstep
  unfold classifier at hstep
  cases htext : need "text" ctx.text with
  | error e => rw [htext] at hstep; cases hstep
  | ok text => rw [htext] at hstep; cases hstep; exact h.of_eq rfl rfl rfl rfl

theorem chunker_keeps (c : Chunker) : Step.Keeps c.run t d := by
  intro ctx ctx' h hstep
  unfold Chunker.run at hstep
  cases htext : need "text" ctx.text with
  | error e => rw [htext] at hstep; cases hstep
  | ok text => rw [htext] at hstep; cases hstep; exact h.of_eq rfl rfl rfl rfl

theorem metadataExtractor_keeps (rt : PyRuntime) : Step.Keeps (metadataExtractor rt) t d := by
  intro ctx ctx' h hstep
  obtain rfl := Except.ok.inj hstep
  refine ⟨h.tenant_eq, h.document_eq, ?_, h.embeddings_eq⟩
  rintro m hm
  obtain rfl := Option.some.inj hm
  refine ⟨by simp [extractedMetadata], ?_, ?_⟩
  · simp [extractedMetadata, h.tenant_eq]
  · simp [extractedMetadata, h.document_eq]

/-- The metadata of a record are those of its chunk, overwritten by the document's. -/
theorem tagged_recordOf {rt : PyRuntime} {n : ℕ} {ctx : IngestContext} (h : Ingests t d ctx)
    {m : Dict} (hm : ctx.metadata = some m) (c : Chunk) :
    (recordOf rt n ctx m c).tenantId = t ∧ (recordOf rt n ctx m c).documentId = d ∧
      (recordOf rt n ctx m c).Tagged := by
  obtain ⟨hnd, ht, hd⟩ := h.metadata_eq m hm
  refine ⟨h.tenant_eq, h.document_eq, ?_, ?_⟩
  · show (c.metadata.update m).get? "tenant_id" = some (.str ctx.tenantId)
    rw [h.tenant_eq]
    exact Dict.get?_update_of_mem _ hnd ht
  · show (c.metadata.update m).get? "document_id" = some (.str ctx.documentId)
    rw [h.document_eq]
    exact Dict.get?_update_of_mem _ hnd hd

theorem embedder_keeps (rt : PyRuntime) (n : ℕ) : Step.Keeps (embedder rt n) t d := by
  intro ctx ctx' h hstep
  unfold embedder at hstep
  cases hchunks : need "chunks" ctx.chunks with
  | error e => rw [hchunks] at hstep; cases hstep
  | ok chunks =>
    rw [hchunks] at hstep
    change (if chunks.isEmpty then _ else _) = _ at hstep
    split at hstep
    · cases hstep
      refine ⟨h.tenant_eq, h.document_eq, h.metadata_eq, ?_⟩
      rintro rs hrs r hr
      obtain rfl := Option.some.inj hrs
      exact absurd hr (by simp)
    · cases hmeta : ctx.metadata with
      | none => rw [hmeta] at hstep; cases hstep
      | some m =>
        rw [hmeta] at hstep
        cases hstep
        refine ⟨h.tenant_eq, h.document_eq, by rw [← hmeta]; exact h.metadata_eq, ?_⟩
        rintro rs hrs r hr
        obtain rfl := Option.some.inj hrs
        obtain ⟨c, -, rfl⟩ := List.mem_map.1 hr
        exact tagged_recordOf h hmeta c

end Steps

namespace Pipeline

/-- Steps that keep the document keep it one after the other. -/
theorem runSteps_keeps {t d : String} {steps : List Step} (h : ∀ s ∈ steps, s.Keeps t d) :
    Step.Keeps (runSteps steps) t d := by
  induction steps with
  | nil =>
    intro ctx ctx' hctx hrun
    obtain rfl := Except.ok.inj hrun
    exact hctx
  | cons step steps ih =>
    intro ctx ctx' hctx hrun
    rw [runSteps] at hrun
    cases hstep : step ctx with
    | error e => rw [hstep] at hrun; cases hrun
    | ok mid =>
      rw [hstep] at hrun
      have hmid : Ingests t d mid := h step (List.mem_cons_self ..) ctx mid hctx hstep
      exact ih (fun s hs => h s (List.mem_cons_of_mem _ hs)) mid ctx' hmid hrun

theorem ingests_context (u : Upload) : Ingests u.tenantId u.documentId (context u) :=
  ⟨rfl, rfl, fun _ h => (by cases h), fun _ h => (by cases h)⟩

/-- **Every record is tagged** with the tenant and the document of its upload. -/
theorem tagged_of_embeddings {rt : PyRuntime} {u : Upload} {records : List EmbeddingRecord}
    (h : embeddings rt u = .ok records) :
    ∀ r ∈ records, r.tenantId = u.tenantId ∧ r.documentId = u.documentId ∧ r.Tagged := by
  unfold embeddings at h
  cases hrun : runSteps (pipelineSteps rt) (context u) with
  | error e => rw [hrun] at h; cases h
  | ok ctx =>
    rw [hrun] at h
    have hkeeps : Step.Keeps (runSteps (pipelineSteps rt)) u.tenantId u.documentId := by
      apply runSteps_keeps
      intro s hs
      simp only [pipelineSteps, List.mem_cons, List.not_mem_nil, or_false] at hs
      rcases hs with rfl | rfl | rfl | rfl | rfl | rfl
      · exact malwareScan_keeps
      · exact parser_keeps rt
      · exact classifier_keeps rt
      · exact chunker_keeps _
      · exact metadataExtractor_keeps rt
      · exact embedder_keeps rt 384
    have hctx := hkeeps (context u) ctx (ingests_context u) hrun
    cases hemb : ctx.embeddings with
    | none => simp [need, hemb, bind, Except.bind] at h
    | some rs =>
      simp only [need, hemb, bind, Except.bind, Except.ok.injEq] at h
      subst h
      exact hctx.embeddings_eq rs hemb

end Pipeline

end AgentPlatform
