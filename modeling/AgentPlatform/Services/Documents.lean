import AgentPlatform.Rag.Replacement
import AgentPlatform.Services.Audit

/-!
# Uploading a document

The endpoint takes a file, runs the pipeline over the store, and answers that the document
is indexed.  A file that is refused is audited as an error; what else goes wrong is not
caught.

* `uploadDocument` — the endpoint.
* `recordsOf_faulty` — a stage that fails ends the pipeline, whichever stage it is.
* `allOrNothing_iff` — **when an ingestion is all or nothing**, over any store.
* `ingestion_allOrNothing_iff` — the same for the store in memory and for an index.
-/

namespace AgentPlatform

open KeyedStore

/-! ## Stages that fail -/

/-- The stages, where the one of a number raises what `faults` says. -/
def faulty (faults : ℕ → Option PyErr) : List Step → List Step
  | [] => []
  | step :: steps =>
    (fun ctx => match faults 0 with
      | none => step ctx
      | some e => .error e) :: faulty (fun n => faults (n + 1)) steps

/-- The stages go through if none of them fails. -/
theorem runSteps_faulty {faults : ℕ → Option PyErr} {steps : List Step}
    {ctx ctx' : IngestContext} : Pipeline.runSteps (faulty faults steps) ctx = .ok ctx' ↔
      (∀ n < steps.length, faults n = none) ∧ Pipeline.runSteps steps ctx = .ok ctx' := by
  induction steps generalizing faults ctx with
  | nil => simp [faulty]
  | cons step steps ih =>
    rw [faulty, Pipeline.runSteps, List.length_cons, Nat.forall_lt_succ_left', Pipeline.runSteps]
    cases hfault : faults 0 with
    | some e => simp [bind, Except.bind]
    | none =>
      rw [bind_eq_ok_iff, bind_eq_ok_iff]
      constructor
      · rintro ⟨mid, hstep, hrest⟩
        obtain ⟨hnone, hrun⟩ := ih.1 hrest
        exact ⟨⟨rfl, hnone⟩, mid, hstep, hrun⟩
      · rintro ⟨⟨-, hnone⟩, mid, hstep, hrun⟩
        exact ⟨mid, hstep, ih.2 ⟨hnone, hrun⟩⟩

/-- **A stage that fails ends the pipeline.** -/
theorem recordsOf_faulty {rt : PyRuntime} {faults : ℕ → Option PyErr} {u : Upload}
    {records : List EmbeddingRecord} :
    Pipeline.recordsOf (faulty faults (pipelineSteps rt)) u = .ok records ↔
      (∀ n < 6, faults n = none) ∧ Pipeline.embeddings rt u = .ok records := by
  unfold Pipeline.recordsOf Pipeline.embeddings
  rw [bind_eq_ok_iff, bind_eq_ok_iff]
  constructor
  · rintro ⟨ctx, hrun, hneed⟩
    obtain ⟨hnone, hrun⟩ := runSteps_faulty.1 hrun
    exact ⟨hnone, ctx, hrun, hneed⟩
  · rintro ⟨hnone, ctx, hrun, hneed⟩
    exact ⟨ctx, runSteps_faulty.2 ⟨hnone, hrun⟩, hneed⟩

/-! ## The endpoint -/

def maxUploadBytes : ℕ := 25 * 1024 * 1024

/-- What a client sends, with who sent it. -/
structure UploadRequest where
  tenantId : String
  userId : String
  filename : Option String
  content : List UInt8
  documentId : Option String

/-- `x or default` of a text. -/
def orElse (x : Option String) (default : String) : String :=
  match x with
  | none => default
  | some s => if s = "" then default else s

namespace UploadRequest

/-- The id of the document: the client's, or a new one. -/
def docId (r : UploadRequest) (uuid : String) : String := orElse r.documentId uuid

/-- What the pipeline is run for. -/
def upload (r : UploadRequest) (uuid : String) : Upload :=
  ⟨r.tenantId, r.docId uuid, orElse r.filename "unnamed", r.content, r.userId⟩

/-- What is audited of a request. -/
def audit (r : UploadRequest) (uuid correlationId outcome : String) (detail : Dict) : AuditLog where
  tenantId := r.tenantId
  correlationId := correlationId
  actorType := "user"
  actorId := r.userId
  action := "document.ingest"
  resourceType := "document"
  resourceId := r.docId uuid
  outcome := outcome
  detail := detail

end UploadRequest

structure DocumentUploadResponse where
  documentId : String
  status : String
  message : String

/-- How a request fails. -/
inductive UploadError where
  /-- An answer with an error status. -/
  | http (status : ℕ) (detail : String)
  /-- An exception of the pipeline that is not caught. -/
  | ingest (e : IngestError)
  /-- The audit log could not be written. -/
  | database

/-- The detail of an exception the endpoint catches. -/
def IngestError.caught? (rt : PyRuntime) : IngestError → Option String
  | .raised (.ingestionError message) => some (rt.strExc (.ingestionError message))
  | _ => none

/-- What a request is answered with. -/
structure UploadEnv (S : Type) where
  runtime : PyRuntime
  store : VectorStore S
  steps : List Step
  /-- A new id for the document, and one for the request. -/
  uuid : String
  correlationId : String
  /-- Does the database take the audit row, when it is asked for the time of that number? -/
  takes : ℕ → Bool

variable {S : Type}

/-- `upload_document` -/
def uploadDocument (env : UploadEnv S) (r : UploadRequest) :
    Effect (Audited S) UploadError DocumentUploadResponse :=
  if maxUploadBytes < r.content.length then Effect.raise (.http 413 "file too large")
  else do
    let ran ← attempt (Pipeline.runOn env.store env.steps (r.upload env.uuid))
    match ran with
    | .error e =>
      match e.caught? env.runtime with
      | none => Effect.raise (.ingest e)
      | some detail => do
        record env.runtime env.takes .database
          (r.audit env.uuid env.correlationId "error" [("error", .str detail)])
        Effect.raise (.http 422 detail)
    | .ok _ => do
      record env.runtime env.takes .database
        (r.audit env.uuid env.correlationId "success" [("filename", .ofOption r.filename)])
      return ⟨r.docId env.uuid, "indexed", "document indexed"⟩

section Upload

variable {env : UploadEnv S} {r : UploadRequest} {w : Audited S}

theorem uploadDocument_of_too_large (h : maxUploadBytes < r.content.length) :
    uploadDocument env r w = (.error (.http 413 "file too large"), w) := by
  rw [uploadDocument, if_pos h]
  rfl

/-- An upload whose pipeline raised is not answered, whatever is audited of it. -/
theorem uploadDocument_of_error {e : IngestError} {s : S} (h : ¬ maxUploadBytes < r.content.length)
    (hrun : Pipeline.runOn env.store env.steps (r.upload env.uuid) w.world = (.error e, s)) :
    (∃ failure, (uploadDocument env r w).1 = .error failure) ∧
      (uploadDocument env r w).2.world = s := by
  rw [uploadDocument, if_neg h, bind_attempt hrun]
  dsimp only
  cases e.caught? env.runtime with
  | none => exact ⟨⟨_, rfl⟩, rfl⟩
  | some detail =>
    dsimp only
    rw [bind_record]
    split
    · exact ⟨⟨_, rfl⟩, rfl⟩
    · exact ⟨⟨_, rfl⟩, rfl⟩

/-- What is audited of an upload that went through. -/
def successAudit (env : UploadEnv S) (r : UploadRequest) : AuditLog :=
  (r.audit env.uuid env.correlationId "success"
    [("filename", .ofOption r.filename)]).masked env.runtime

/-- An upload whose pipeline returned is answered if it can be audited. -/
theorem uploadDocument_of_ok {records : List EmbeddingRecord} {s : S}
    (h : ¬ maxUploadBytes < r.content.length)
    (hrun : Pipeline.runOn env.store env.steps (r.upload env.uuid) w.world = (.ok records, s)) :
    uploadDocument env r w =
      if env.takes w.audits.asked then
        (.ok ⟨r.docId env.uuid, "indexed", "document indexed"⟩,
          ⟨s, w.audits.taken (successAudit env r)⟩)
      else (.error .database, ⟨s, w.audits.refused⟩) := by
  rw [uploadDocument, if_neg h, bind_attempt hrun]
  dsimp only
  rw [bind_record]
  rfl

end Upload

/-! ## All or nothing -/

variable (env : UploadEnv S) (r : UploadRequest) (w : Audited S)

/-- Every chunk record the stages make of the document is stored. -/
def Stored (s : S) : Prop :=
  ∃ records, Pipeline.recordsOf env.steps (r.upload env.uuid) = .ok records ∧
    env.store.Holds s records

/-- The upload is answered as indexed, and audited as a success. -/
def ReportsIndexed : Prop :=
  (uploadDocument env r w).1 = .ok ⟨r.docId env.uuid, "indexed", "document indexed"⟩ ∧
    (uploadDocument env r w).2.audits.rows = w.audits.rows ++ [successAudit env r]

/-- An ingestion is all or nothing: the pipeline returns exactly if the document is stored,
and where it raises the store is what it was; the upload is reported as indexed exactly if
the document is stored. -/
structure AllOrNothingIngestion : Prop where
  returns_iff : (∃ records, (Pipeline.runOn env.store env.steps (r.upload env.uuid) w.world).1 =
      .ok records) ↔
    Stored env r (Pipeline.runOn env.store env.steps (r.upload env.uuid) w.world).2
  unchanged : (∀ records, (Pipeline.runOn env.store env.steps (r.upload env.uuid) w.world).1 ≠
      .ok records) →
    env.store.Unchanged w.world
      (Pipeline.runOn env.store env.steps (r.upload env.uuid) w.world).2
  reports_iff : ReportsIndexed env r w ↔ Stored env r (uploadDocument env r w).2.world

variable {env r w}

theorem not_reportsIndexed {failure : UploadError}
    (h : (uploadDocument env r w).1 = .error failure) : ¬ ReportsIndexed env r w := by
  rintro ⟨hok, -⟩
  rw [h] at hok
  cases hok

/-- An ingestion whose stages fail is all or nothing. -/
theorem allOrNothing_of_error (hrefl : ∀ s, env.store.Unchanged s s) {e : PyErr}
    (h : Pipeline.recordsOf env.steps (r.upload env.uuid) = .error e) :
    AllOrNothingIngestion env r w := by
  have hrun : Pipeline.runOn env.store env.steps (r.upload env.uuid) w.world = _ :=
    Pipeline.runOn_of_error h
  have hstored : ∀ s, ¬ Stored env r s := by
    rintro s ⟨records, hrecords, -⟩
    rw [h] at hrecords
    cases hrecords
  refine ⟨iff_of_false ?_ (hstored _), ?_, iff_of_false ?_ (hstored _)⟩
  · rintro ⟨records, hrecords⟩
    rw [hrun] at hrecords
    cases hrecords
  · intro _
    rw [hrun]
    exact hrefl _
  · by_cases hlarge : maxUploadBytes < r.content.length
    · exact not_reportsIndexed (by rw [uploadDocument_of_too_large hlarge])
    · obtain ⟨⟨failure, hfailure⟩, -⟩ := uploadDocument_of_error hlarge hrun
      exact not_reportsIndexed hfailure

section Made

variable {records : List EmbeddingRecord}
  (h : Pipeline.recordsOf env.steps (r.upload env.uuid) = .ok records)

include h

theorem stored_iff_holds {s : S} : Stored env r s ↔ env.store.Holds s records := by
  constructor
  · rintro ⟨records', hrecords, hholds⟩
    obtain rfl := Except.ok.inj (h.symm.trans hrecords)
    exact hholds
  · intro hholds
    exact ⟨records, h, hholds⟩

/-- The report of an upload whose stages went through. -/
theorem reports_iff_stored_iff
    (hwrites : (env.store.upsert records w.world).1 = .ok () ↔
      env.store.Holds (env.store.upsert records w.world).2 records) :
    (ReportsIndexed env r w ↔ Stored env r (uploadDocument env r w).2.world) ↔
      (if maxUploadBytes < r.content.length then ¬ env.store.Holds w.world records
        else (env.store.upsert records w.world).1 = .ok () →
          env.takes w.audits.asked = true) := by
  have hrun : Pipeline.runOn env.store env.steps (r.upload env.uuid) w.world = _ :=
    Pipeline.runOn_of_ok h
  rw [stored_iff_holds h]
  by_cases hlarge : maxUploadBytes < r.content.length
  · have hno : uploadDocument env r w = _ := uploadDocument_of_too_large hlarge
    rw [if_pos hlarge, iff_false_intro (not_reportsIndexed (by rw [hno])), hno, false_iff]
  · rw [if_neg hlarge]
    cases hsent : env.store.upsert records w.world with
    | mk result s =>
      rw [hsent] at hrun hwrites
      cases result with
      | error e =>
        obtain ⟨⟨failure, hfailure⟩, hworld⟩ := uploadDocument_of_error hlarge hrun
        rw [iff_false_intro (not_reportsIndexed hfailure), hworld, ← hwrites]
        simp
      | ok a =>
        have hholds : env.store.Holds s records := hwrites.1 rfl
        have hanswer := uploadDocument_of_ok hlarge hrun
        cases htake : env.takes w.audits.asked with
        | true =>
          rw [htake, if_pos rfl] at hanswer
          refine iff_of_true (iff_of_true ⟨?_, ?_⟩ ?_) fun _ => rfl
          · rw [hanswer]
          · rw [hanswer]
            rfl
          · rw [hanswer]
            exact hholds
        | false =>
          rw [htake, if_neg Bool.false_ne_true] at hanswer
          have hno : ¬ ReportsIndexed env r w := not_reportsIndexed (by rw [hanswer])
          rw [iff_false_intro hno, hanswer, iff_true_intro hholds]
          simp

end Made

/-- **When an ingestion is all or nothing**, over any store: a stage fails, or the writes of
the store are all or nothing, the audit log takes the success of a document of the right
size, and a document that is too large is not there already. -/
theorem allOrNothing_iff (hrefl : ∀ s, env.store.Unchanged s s) :
    AllOrNothingIngestion env r w ↔
      ∀ records, Pipeline.recordsOf env.steps (r.upload env.uuid) = .ok records →
        (((env.store.upsert records w.world).1 = .ok () ↔
            env.store.Holds (env.store.upsert records w.world).2 records) ∧
          ((env.store.upsert records w.world).1 ≠ .ok () →
            env.store.Unchanged w.world (env.store.upsert records w.world).2)) ∧
        (if maxUploadBytes < r.content.length then ¬ env.store.Holds w.world records
          else (env.store.upsert records w.world).1 = .ok () →
            env.takes w.audits.asked = true) := by
  cases h : Pipeline.recordsOf env.steps (r.upload env.uuid) with
  | error e =>
    refine iff_of_true (allOrNothing_of_error hrefl h) ?_
    intro records hrecords
    cases hrecords
  | ok records =>
    have hrun : Pipeline.runOn env.store env.steps (r.upload env.uuid) w.world = _ :=
      Pipeline.runOn_of_ok h
    have hreturns : (∃ records', (Pipeline.runOn env.store env.steps (r.upload env.uuid)
        w.world).1 = .ok records') ↔ (env.store.upsert records w.world).1 = .ok () := by
      rw [hrun]
      cases (env.store.upsert records w.world).1 with
      | error e => simp [Except.map]
      | ok a => simp [Except.map]
    have hworld : (Pipeline.runOn env.store env.steps (r.upload env.uuid) w.world).2 =
        (env.store.upsert records w.world).2 := by rw [hrun]
    constructor
    · rintro ⟨hret, hunchanged, hreports⟩
      rintro records' hrecords'
      obtain rfl := Except.ok.inj hrecords'
      rw [hreturns, hworld, stored_iff_holds h] at hret
      refine ⟨⟨hret, ?_⟩, (reports_iff_stored_iff h hret).1 hreports⟩
      intro hne
      rw [← hworld]
      exact hunchanged fun records' hok => hne (hreturns.1 ⟨records', hok⟩)
    · intro hall
      obtain ⟨⟨hret, hunchanged⟩, hreports⟩ := hall records rfl
      refine ⟨?_, ?_, (reports_iff_stored_iff h hret).2 hreports⟩
      · rw [hreturns, hworld, stored_iff_holds h]
        exact hret
      · intro hne
        rw [hworld]
        apply hunchanged
        intro hok
        obtain ⟨records', hrecords'⟩ := hreturns.2 hok
        exact hne records' hrecords'

/-! ## The stores of the process -/

section Process

variable (rt : PyRuntime) (faults : ℕ → Option PyErr) (address : String → Target String)
  (outcome : ℕ → Delivery) (uuid correlationId : String) (takes : ℕ → Bool) (r : UploadRequest)

/-- The endpoint over a store, with stages that fail as `faults` says. -/
def documentsEnv (store : VectorStore S) : UploadEnv S where
  runtime := rt
  store := store
  steps := faulty faults (pipelineSteps rt)
  uuid := uuid
  correlationId := correlationId
  takes := takes

/-- **In memory** nothing gets lost: what can go wrong is the audit. -/
theorem inMemory_allOrNothing_iff (w : Audited InMemoryVectorStore) :
    AllOrNothingIngestion (documentsEnv rt faults uuid correlationId takes
        InMemoryVectorStore.vectorStore) r w ↔
      ((∀ n < 6, faults n = none) →
        ∀ records, Pipeline.embeddings rt (r.upload uuid) = .ok records →
        if maxUploadBytes < r.content.length then ∃ x ∈ records, x ∉ w.world.records
        else takes w.audits.asked = true) := by
  rw [allOrNothing_iff fun _ => rfl]
  have hmade : ∀ records, Pipeline.recordsOf (documentsEnv rt faults uuid correlationId takes
      InMemoryVectorStore.vectorStore).steps (r.upload uuid) = .ok records ↔
        (∀ n < 6, faults n = none) ∧ Pipeline.embeddings rt (r.upload uuid) = .ok records :=
    fun records => recordsOf_faulty
  have hwrites : ∀ records, ∀ x ∈ records, x ∈ (w.world.upsert records).records := by
    intro records x hx
    exact List.mem_append_right _ hx
  constructor
  · intro h hnone records hrecords
    have hcase := (h records ((hmade records).2 ⟨hnone, hrecords⟩)).2
    split at hcase
    · rename_i hlarge
      have hnot : ¬ ∀ x ∈ records, x ∈ w.world.records := hcase
      rw [if_pos hlarge]
      push Not at hnot
      exact hnot
    · rename_i hsmall
      rw [if_neg hsmall]
      exact hcase rfl
  · intro h records hrecords
    obtain ⟨hnone, hrecords⟩ := (hmade records).1 hrecords
    have hcase := h hnone records hrecords
    refine ⟨⟨iff_of_true rfl (hwrites records), fun hne => absurd rfl hne⟩, ?_⟩
    split
    · rename_i hlarge
      rw [if_pos hlarge] at hcase
      obtain ⟨x, hx, hnot⟩ := hcase
      exact fun hholds => hnot (hholds x hx)
    · rename_i hsmall
      rw [if_neg hsmall] at hcase
      exact fun _ => hcase

variable {Index : Type} [KeyedStore Index String IndexedDocument]

variable {rt address outcome uuid r} in
open OpenSearchVectorStore in
/-- The puts of an upload are all or nothing if none is lost on the way, or if what they write
before one raises was there, and not everything was. -/
theorem allOrNothing_puts_iff {records : List EmbeddingRecord}
    (hrecords : Pipeline.embeddings rt (r.upload uuid) = .ok records) (index : Index) :
    AllOrNothing IngestError.transport outcome (puts address records) index ↔
      ((∀ n, ¬ Raises outcome (puts address records) n) →
        ∀ n < records.length, Stays outcome (puts address records) n ∨
          Spared outcome (puts address records) n ∧ Found index (puts address records) n) ∧
      ((∃ n, Raises outcome (puts address records) n) →
        (∀ n, Stays outcome (puts address records) n → Found index (puts address records) n) ∧
        ∃ n < records.length, ¬ Found index (puts address records) n) := by
  have hlength : (puts address records).length = records.length := List.length_map ..
  rw [allOrNothing_sendAll_iff (Upload.records_spec hrecords).nodup_puts, hlength]

variable {address} in
open OpenSearchVectorStore in
/-- Not everything is in the index if the entry of some chunk is another. -/
theorem not_holds_puts_iff (records : List EmbeddingRecord) (index : Index) :
    ¬ Holds index (puts address records) ↔
      ∃ n < records.length, ¬ Found index (puts address records) n := by
  have hlength : (puts address records).length = records.length := List.length_map ..
  rw [holds_iff_found, hlength]
  push Not
  rfl

open OpenSearchVectorStore in
/-- **In an index** a refused put goes unnoticed, a put over another chunk, or past the index,
loses one, and a lost connection leaves what was written before it. -/
theorem index_allOrNothing_iff (w : Audited Index) :
    AllOrNothingIngestion (documentsEnv rt faults uuid correlationId takes
        (OpenSearchVectorStore.vectorStore address outcome)) r w ↔
      ((∀ n < 6, faults n = none) →
        ∀ records, Pipeline.embeddings rt (r.upload uuid) = .ok records →
        ((∀ n, ¬ Raises outcome (puts address records) n) →
          ∀ n < records.length, Stays outcome (puts address records) n ∨
            Spared outcome (puts address records) n ∧ Found w.world (puts address records) n) ∧
        ((∃ n, Raises outcome (puts address records) n) →
          (∀ n, Stays outcome (puts address records) n →
            Found w.world (puts address records) n) ∧
          ∃ n < records.length, ¬ Found w.world (puts address records) n) ∧
        (if maxUploadBytes < r.content.length then
          ∃ n < records.length, ¬ Found w.world (puts address records) n
        else (∀ n, ¬ Raises outcome (puts address records) n) →
          takes w.audits.asked = true)) := by
  rw [allOrNothing_iff fun _ _ => rfl]
  let store : VectorStore Index := OpenSearchVectorStore.vectorStore address outcome
  have hmade : ∀ records, Pipeline.recordsOf
      (documentsEnv rt faults uuid correlationId takes store).steps (r.upload uuid) =
        .ok records ↔
      (∀ n < 6, faults n = none) ∧ Pipeline.embeddings rt (r.upload uuid) = .ok records :=
    fun records => recordsOf_faulty
  have hsent : ∀ records, (sendAll IngestError.transport outcome (puts address records)
      w.world).1 = .ok () ↔ ∀ n, ¬ Raises outcome (puts address records) n :=
    fun records => sendAll_eq_ok_iff
  constructor
  · intro h hnone records hrecords
    obtain ⟨hall, hcase⟩ := h records ((hmade records).2 ⟨hnone, hrecords⟩)
    obtain ⟨hquiet, hloud⟩ := (allOrNothing_puts_iff hrecords _).1 hall
    refine ⟨hquiet, hloud, ?_⟩
    rw [← not_holds_puts_iff, ← hsent]
    exact hcase
  · intro h records hrecords
    obtain ⟨hnone, hrecords⟩ := (hmade records).1 hrecords
    obtain ⟨hquiet, hloud, hcase⟩ := h hnone records hrecords
    rw [← not_holds_puts_iff, ← hsent] at hcase
    exact ⟨(allOrNothing_puts_iff hrecords _).2 ⟨hquiet, hloud⟩, hcase⟩

open OpenSearchVectorStore in
/-- **When an ingestion is all or nothing**, for whatever stages fail, wherever the puts lead and
however they end, in memory and in any index. -/
theorem ingestion_allOrNothing_iff (memory : Audited InMemoryVectorStore)
    (index : Audited Index) :
    (AllOrNothingIngestion (documentsEnv rt faults uuid correlationId takes
        InMemoryVectorStore.vectorStore) r memory ↔
      ((∀ n < 6, faults n = none) →
        ∀ records, Pipeline.embeddings rt (r.upload uuid) = .ok records →
        if maxUploadBytes < r.content.length then ∃ x ∈ records, x ∉ memory.world.records
        else takes memory.audits.asked = true)) ∧
    (AllOrNothingIngestion (documentsEnv rt faults uuid correlationId takes
        (OpenSearchVectorStore.vectorStore address outcome)) r index ↔
      ((∀ n < 6, faults n = none) →
        ∀ records, Pipeline.embeddings rt (r.upload uuid) = .ok records →
        ((∀ n, ¬ Raises outcome (puts address records) n) →
          ∀ n < records.length, Stays outcome (puts address records) n ∨
            Spared outcome (puts address records) n ∧
              Found index.world (puts address records) n) ∧
        ((∃ n, Raises outcome (puts address records) n) →
          (∀ n, Stays outcome (puts address records) n →
            Found index.world (puts address records) n) ∧
          ∃ n < records.length, ¬ Found index.world (puts address records) n) ∧
        (if maxUploadBytes < r.content.length then
          ∃ n < records.length, ¬ Found index.world (puts address records) n
        else (∀ n, ¬ Raises outcome (puts address records) n) →
          takes index.audits.asked = true))) :=
  ⟨inMemory_allOrNothing_iff rt faults uuid correlationId takes r memory,
    index_allOrNothing_iff rt faults address outcome uuid correlationId takes r index⟩

end Process

/-! ### A policy that gets lost -/

/-- The upload of a bank's policy, of a number of characters. -/
def policyRequest (length : ℕ) : UploadRequest :=
  ⟨"bank-a", "u-1", some "policy.txt", List.replicate length 112, some "policy"⟩

/-- An index that answers the first put with an error status, and the connection of which is
lost with the second. -/
def failingPuts (first : Delivery) : ℕ → Delivery
  | 0 => first
  | _ => .lost false

/-- The records of a policy, as many as it has chunks. -/
theorem exists_policyRecords (length : ℕ) :
    ∃ records, Pipeline.embeddings .ascii (policyVersion length) = .ok records ∧
      records.length = ({} : Chunker).count length := by
  obtain ⟨records, hrecords⟩ : ∃ records,
      Pipeline.embeddings .ascii (policyVersion length) = .ok records := by
    apply embeddings_ok_iff.2
    rw [text_policyVersion]
    rfl
  refine ⟨records, hrecords, ?_⟩
  rw [(Upload.records_spec hrecords).length_eq, chunks_policyVersion]

/-- The put of a chunk of a policy raises if the connection is lost. -/
theorem raises_policy_iff {length n : ℕ} {records : List EmbeddingRecord}
    {outcome : ℕ → Delivery}
    (h : Pipeline.embeddings .ascii (policyVersion length) = .ok records)
    (hn : n < records.length) :
    Raises outcome (OpenSearchVectorStore.puts .key records) n ↔ (outcome n).raises = true :=
  (Upload.records_spec h).raises_iff ((Upload.records_spec h).length_eq ▸ hn)

/-- A policy of one chunk that the index refuses is reported as indexed, and a policy of two
chunks whose second put is lost leaves its first chunk in the index. -/
theorem policy_lost :
    ¬ AllOrNothingIngestion (documentsEnv .ascii (fun _ => none) "d-1" "c-1" (fun _ => true)
        (OpenSearchVectorStore.vectorStore .key (failingPuts .refused))) (policyRequest 9)
        ⟨(KeyedStore.empty : Table String IndexedDocument), {}⟩ ∧
      ¬ AllOrNothingIngestion (documentsEnv .ascii (fun _ => none) "d-1" "c-1" (fun _ => true)
        (OpenSearchVectorStore.vectorStore .key (failingPuts .stored))) (policyRequest 600)
        ⟨(KeyedStore.empty : Table String IndexedDocument), {}⟩ := by
  have hupload : ∀ n, (policyRequest n).upload "d-1" = policyVersion n := fun n => rfl
  have hone : ({} : Chunker).count 9 = 1 := by decide
  have htwo : ({} : Chunker).count 600 = 2 := by decide
  constructor
  · rw [index_allOrNothing_iff, hupload]
    intro h
    obtain ⟨records, hrecords, hlength⟩ := exists_policyRecords 9
    obtain ⟨hquiet, -, -⟩ := h (fun _ _ => rfl) records hrecords
    have hsilent : ∀ n, ¬ Raises (failingPuts .refused)
        (OpenSearchVectorStore.puts .key records) n := by
      intro n hraises
      have hn : n < records.length := by
        simpa [OpenSearchVectorStore.puts] using hraises.lt_length
      obtain rfl : n = 0 := by omega
      cases (raises_policy_iff hrecords hn).1 hraises
    rcases hquiet hsilent 0 (by omega) with ⟨k, v, ⟨-, hstores, -⟩, -⟩ | ⟨-, hthere⟩
    · cases hstores
    · exact not_found_empty hthere
  · rw [index_allOrNothing_iff, hupload]
    intro h
    obtain ⟨records, hrecords, hlength⟩ := exists_policyRecords 600
    have hspec := Upload.records_spec hrecords
    obtain ⟨-, hloud, -⟩ := h (fun _ _ => rfl) records hrecords
    obtain ⟨hstays, -⟩ := hloud ⟨1, (raises_policy_iff hrecords (by omega)).2 rfl⟩
    -- the first chunk is written, and after the second put nothing is
    obtain ⟨doc, hput⟩ := hspec.exists_puts .key (show 0 < (policyVersion 600).chunks .ascii by
      rw [← hspec.length_eq]
      omega)
    refine not_found_empty (hstays 0 ⟨_, doc, ⟨hput, rfl, fun m hm => ?_⟩, fun m v' hm => ?_⟩)
    · exact absurd hm (Nat.not_lt_zero m)
    · rintro ⟨-, hstores, -⟩
      obtain ⟨m, rfl⟩ := Nat.exists_eq_add_one.2 hm
      cases hstores

end AgentPlatform
