import AgentPlatform.Rag.TenantIsolation

/-!
# The records of a document

What the pipeline makes of an upload, without running it: which files it takes, how many
chunks a text is cut into, and under which ids the chunks are stored.

* `Chunker.count` — the number of chunks of a text, and `Chunker.indices_run`, their
  numbers.
* `chunkId_inj` — an id tells the document and the chunk.
* `Upload.records_spec` — **the records of an upload**: one for every chunk, in order.
-/

namespace AgentPlatform

/-! ## Chunks -/

namespace Chunker

variable (c : Chunker)

/-- By how much the window is moved on. -/
def stride : ℕ := c.size - c.overlap

/-- The number of chunks of a text of some length. -/
def count (length : ℕ) : ℕ :=
  if length = 0 then 0 else (length - c.size + (c.stride - 1)) / c.stride + 1

variable {c}

theorem stride_pos : 0 < c.stride := Nat.sub_pos_of_lt c.overlap_lt

theorem count_of_le {length : ℕ} (hpos : 0 < length) (hle : length ≤ c.size) :
    c.count length = 1 := by
  have hstride := c.stride_pos
  rw [count, if_neg (by omega), Nat.sub_eq_zero_of_le hle, Nat.zero_add,
    Nat.div_eq_of_lt (by omega)]

/-- A text longer than the window has one chunk more than what is left when it is moved on. -/
theorem count_of_lt {length : ℕ} (hlt : c.size < length) :
    c.count length = c.count (length - c.stride) + 1 := by
  have hstride := c.stride_pos
  have hsize : c.stride ≤ c.size := Nat.sub_le _ _
  rw [count, count, if_neg (by omega), if_neg (by omega), Nat.add_right_cancel_iff]
  by_cases hle : length - c.size < c.stride
  · have hzero : length - c.stride - c.size = 0 := by omega
    rw [hzero, Nat.zero_add, Nat.div_eq_of_lt (show c.stride - 1 < c.stride by omega)]
    exact Nat.div_eq_of_lt_le (by omega) (by omega)
  · have hsplit : length - c.size + (c.stride - 1) =
        length - c.stride - c.size + (c.stride - 1) + c.stride := by omega
    rw [hsplit, Nat.add_div_right _ hstride]

/-- The chunks are numbered one after the other. -/
theorem indices_chunkFrom (metadata : Dict) (text : List Char) (fuel start idx : ℕ)
    (hfuel : text.length ≤ start + fuel) :
    (c.chunkFrom metadata text fuel start idx).map Chunk.index =
      List.range' idx (c.count (text.length - start)) := by
  induction fuel generalizing start idx with
  | zero =>
    have hzero : text.length - start = 0 := by omega
    simp [chunkFrom, count, hzero]
  | succ fuel ih =>
    have hstride := c.stride_pos
    have hsize : c.stride ≤ c.size := Nat.sub_le _ _
    have hnext : start + c.size - c.overlap = start + c.stride := by
      have := c.overlap_lt
      unfold stride
      omega
    rw [chunkFrom]
    by_cases hstart : start < text.length
    · rw [if_pos hstart]
      by_cases hstop : text.length ≤ start + c.size
      · rw [if_pos hstop, count_of_le (by omega) (by omega)]
        rfl
      · rw [if_neg hstop, List.map_cons, hnext, ih (start + c.stride) (idx + 1) (by omega),
          count_of_lt (show c.size < text.length - start by omega), List.range'_succ,
          Nat.sub_sub]
    · have hzero : text.length - start = 0 := by omega
      simp [hstart, count, hzero]

end Chunker

/-! ## Ids -/

/-- The id a chunk of a document is stored under. -/
def chunkId (documentId : String) (index : ℕ) : String := documentId ++ ":" ++ toString index

/-- What comes after the last separator, and what comes before it. -/
theorem append_cons_inj {α : Type} [DecidableEq α] {l l' r r' : List α} {a : α} (hr : a ∉ r)
    (hr' : a ∉ r') (h : l ++ a :: r = l' ++ a :: r') : l = l' ∧ r = r' := by
  have hlast : ∀ {l r : List α}, a ∉ r →
      (l ++ a :: r).reverse.takeWhile (fun x => x ≠ a) = r.reverse := by
    intro l r hr
    rw [List.reverse_append, List.reverse_cons, List.append_assoc,
      List.takeWhile_append_of_pos]
    · simp
    · intro x hx
      have hne : x ≠ a := by
        rintro rfl
        exact hr (List.mem_reverse.1 hx)
      simpa using hne
  have hreverse : r.reverse = r'.reverse := by rw [← hlast hr, h, hlast hr']
  obtain rfl := List.reverse_injective hreverse
  exact ⟨List.append_cancel_right h, rfl⟩

/-- **An id tells the document and the chunk**: a number has no separator in it. -/
theorem chunkId_inj {d d' : String} {i i' : ℕ} :
    chunkId d i = chunkId d' i' ↔ d = d' ∧ i = i' := by
  refine ⟨fun h => ?_, fun h => by rw [h.1, h.2]⟩
  have hdigits : ∀ n : ℕ, ':' ∉ (toString n).toList := by
    intro n hmem
    rw [Nat.toString_eq_repr, Nat.toList_repr] at hmem
    exact absurd (Nat.isDigit_of_mem_toDigits (by decide) (by decide) hmem) (by decide)
  have hchars : d.toList ++ ':' :: (toString i).toList =
      d'.toList ++ ':' :: (toString i').toList := by
    simpa [chunkId, String.toList_append] using congrArg String.toList h
  obtain ⟨hd, hi⟩ := append_cons_inj (hdigits i) (hdigits i') hchars
  refine ⟨String.toList_injective hd, ?_⟩
  rw [Nat.toString_eq_repr, Nat.toString_eq_repr, Nat.toList_repr, Nat.toList_repr] at hi
  rw [← Nat.ofDigitChars_ten_toDigits (n := i), hi, Nat.ofDigitChars_ten_toDigits]

/-! ## Uploads -/

/-- The text of a file, if its type is supported. -/
def textOf (rt : PyRuntime) (filename : String) (content : List UInt8) : Option String :=
  let ext := rt.lower (lastPart filename)
  if ["pdf", "doc", "docx", "txt", "md"].contains ext then some (rt.decode content)
  else if ["png", "jpg", "jpeg", "tiff"].contains ext then some ocrText
  else none

namespace Upload

/-- The text of an upload. -/
def text? (rt : PyRuntime) (u : Upload) : Option String := textOf rt u.filename u.content

theorem overlap_lt_size : 64 < 512 := by decide

/-- The number of chunks of an upload. -/
def chunks (rt : PyRuntime) (u : Upload) : ℕ :=
  match u.text? rt with
  | none => 0
  | some text => ({ overlap_lt := overlap_lt_size } : Chunker).count text.toList.length

end Upload

section Steps

variable {rt : PyRuntime} {ctx : IngestContext}

theorem parser_eq (rt : PyRuntime) (ctx : IngestContext) :
    parser rt ctx =
      match textOf rt ctx.filename ctx.content with
      | some text => .ok { ctx with text := some text }
      | none => .error
          (.ingestionError s!"unsupported file type: {rt.lower (lastPart ctx.filename)}") := by
  unfold parser textOf
  dsimp only
  split
  · rfl
  · split <;> rfl

theorem classifier_eq (rt : PyRuntime) {text : String} (h : ctx.text = some text) :
    ∃ ctx', classifier rt ctx = .ok ctx' ∧ ctx'.documentId = ctx.documentId ∧
      ctx'.text = some text := by
  unfold classifier
  rw [h]
  exact ⟨_, rfl, rfl, rfl⟩

theorem chunker_eq {c : Chunker} {text : String} (h : ctx.text = some text) :
    ∃ ctx' m, c.run ctx = .ok ctx' ∧ ctx'.documentId = ctx.documentId ∧
      ctx'.chunks = some (c.chunkFrom m text.toList text.toList.length 0 0) := by
  unfold Chunker.run
  rw [h]
  exact ⟨_, _, rfl, rfl, rfl⟩

theorem embedder_eq {n : ℕ} {cs : List Chunk} {m : Dict} (hchunks : ctx.chunks = some cs)
    (hmetadata : ctx.metadata = some m) : embedder rt n ctx =
      .ok { ctx with embeddings := some (cs.map (recordOf rt n ctx m)) } := by
  unfold embedder
  rw [hchunks, hmetadata]
  cases cs with
  | nil => rfl
  | cons c cs => rfl

theorem runSteps_cons_of_ok {step : Step} {steps : List Step} {ctx' : IngestContext}
    (h : step ctx = .ok ctx') :
    Pipeline.runSteps (step :: steps) ctx = Pipeline.runSteps steps ctx' := by
  rw [Pipeline.runSteps, h]
  rfl

end Steps

section Records

variable {rt : PyRuntime} {u : Upload}

/-- A file whose type is not supported is refused. -/
theorem embeddings_of_no_text (h : u.text? rt = none) : Pipeline.embeddings rt u =
    .error (.ingestionError s!"unsupported file type: {rt.lower (lastPart u.filename)}") := by
  have hscan : malwareScan (Pipeline.context u) = .ok (Pipeline.context u) := rfl
  have hparser := parser_eq rt (Pipeline.context u)
  rw [show textOf rt (Pipeline.context u).filename (Pipeline.context u).content = none from h]
    at hparser
  rw [Pipeline.embeddings, pipelineSteps, runSteps_cons_of_ok hscan, Pipeline.runSteps, hparser]
  rfl

/-- What comes out of the pipeline for a text: a record of every chunk. -/
theorem embeddings_of_text {text : String} (h : u.text? rt = some text) :
    ∃ ctx m m', ctx.documentId = u.documentId ∧ Pipeline.embeddings rt u =
      .ok ((({} : Chunker).chunkFrom m text.toList text.toList.length 0 0).map
        (recordOf rt 384 ctx m')) := by
  have hscan : malwareScan (Pipeline.context u) = .ok (Pipeline.context u) := rfl
  have hparser := parser_eq rt (Pipeline.context u)
  rw [show textOf rt (Pipeline.context u).filename (Pipeline.context u).content = some text from h]
    at hparser
  let ctx₀ : IngestContext := { Pipeline.context u with text := some text }
  obtain ⟨ctx₁, hclassifier, hdoc₁, htext⟩ := classifier_eq rt (show ctx₀.text = some text from rfl)
  obtain ⟨ctx₂, m, hchunker, hdoc₂, hchunks⟩ := chunker_eq (c := {}) htext
  let ctx₃ : IngestContext := { ctx₂ with metadata := some (extractedMetadata rt ctx₂) }
  have hmetadata : metadataExtractor rt ctx₂ = .ok ctx₃ := rfl
  have hembedder : embedder rt 384 ctx₃ = _ := embedder_eq hchunks rfl
  refine ⟨ctx₃, m, extractedMetadata rt ctx₂, hdoc₂.trans hdoc₁, ?_⟩
  rw [Pipeline.embeddings, pipelineSteps, runSteps_cons_of_ok hscan, runSteps_cons_of_ok hparser,
    runSteps_cons_of_ok hclassifier, runSteps_cons_of_ok hchunker, runSteps_cons_of_ok hmetadata,
    runSteps_cons_of_ok hembedder]
  rfl

/-- The pipeline goes through for the supported file types. -/
theorem embeddings_ok_iff :
    (∃ records, Pipeline.embeddings rt u = .ok records) ↔ (u.text? rt).isSome = true := by
  cases h : u.text? rt with
  | none => simp [embeddings_of_no_text h]
  | some text =>
    obtain ⟨ctx, m, m', -, hemb⟩ := embeddings_of_text h
    exact iff_of_true ⟨_, hemb⟩ rfl

/-- An upload whose text cannot be read has no chunks. -/
theorem Upload.chunks_of_error {e : PyErr} (h : Pipeline.embeddings rt u = .error e) :
    u.chunks rt = 0 := by
  have hno : ¬ (u.text? rt).isSome = true := by
    rw [← embeddings_ok_iff, h]
    rintro ⟨records, hrecords⟩
    cases hrecords
  rw [Bool.not_eq_true, Option.isSome_eq_false_iff, Option.isNone_iff_eq_none] at hno
  rw [Upload.chunks, hno]

/-- The records of an upload: one for every chunk, in order, each under the id of its
document and its chunk. -/
structure Upload.IsRecords (rt : PyRuntime) (u : Upload) (records : List EmbeddingRecord) :
    Prop where
  indices : records.map EmbeddingRecord.chunkIndex = List.range (u.chunks rt)
  id_eq : ∀ r ∈ records, r.id = chunkId u.documentId r.chunkIndex
  tenant_eq : ∀ r ∈ records, r.tenantId = u.tenantId
  document_eq : ∀ r ∈ records, r.documentId = u.documentId

/-- **The records of an upload.** -/
theorem Upload.records_spec {records : List EmbeddingRecord}
    (h : Pipeline.embeddings rt u = .ok records) : u.IsRecords rt records := by
  have htagged := Pipeline.tagged_of_embeddings h
  cases htext : u.text? rt with
  | none => rw [embeddings_of_no_text htext] at h; cases h
  | some text =>
    obtain ⟨ctx, m, m', hdoc, hemb⟩ := embeddings_of_text htext
    rw [hemb] at h
    obtain rfl := Except.ok.inj h
    refine ⟨?_, ?_, fun r hr => (htagged r hr).1, fun r hr => (htagged r hr).2.1⟩
    · have hindex : EmbeddingRecord.chunkIndex ∘ recordOf rt 384 ctx m' = Chunk.index := rfl
      rw [List.map_map, hindex, Chunker.indices_chunkFrom _ _ _ _ _ (by omega),
        List.range_eq_range', Upload.chunks, htext]
      rfl
    · intro r hr
      obtain ⟨c, -, rfl⟩ := List.mem_map.1 hr
      show ctx.documentId ++ ":" ++ toString c.index = chunkId u.documentId c.index
      rw [hdoc, chunkId]

end Records

namespace Upload.IsRecords

variable {rt : PyRuntime} {u : Upload} {records : List EmbeddingRecord}

theorem length_eq (h : u.IsRecords rt records) : records.length = u.chunks rt := by
  have := congrArg List.length h.indices
  simpa using this

/-- The record of that number is of the chunk of that number. -/
theorem id_getElem? (h : u.IsRecords rt records) {n : ℕ} {r : EmbeddingRecord}
    (hr : records[n]? = some r) : r.chunkIndex = n ∧ r.id = chunkId u.documentId n := by
  have hn : n < u.chunks rt := h.length_eq ▸ (List.getElem?_eq_some_iff.1 hr).1
  have hindex : (records.map EmbeddingRecord.chunkIndex)[n]? = some n := by
    rw [h.indices, List.getElem?_range hn]
  rw [List.getElem?_map, hr] at hindex
  have hchunk : r.chunkIndex = n := Option.some.inj hindex
  exact ⟨hchunk, by rw [h.id_eq r (List.mem_of_getElem? hr), hchunk]⟩

end Upload.IsRecords

end AgentPlatform
