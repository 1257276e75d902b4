import AgentPlatform.Rag.OpenSearch

/-!
# Uploading a document again

A client uploads a document, and later a newer version of it.  What is found then should
be the newer version and nothing else.  The store in memory adds the new records to the old
ones; the index puts the new chunks where those of the same numbers were put.

* `Replaces` — what an upload should do to a store that has taken others before.
* `lastUpload` — the upload an entry of the index comes from, and `entry_of_get?`,
  `get?_of_lastUpload`, what the index holds after a sequence of uploads.
* `replaces_iff` — **when an upload replaces**, in memory and in the index.
-/

namespace AgentPlatform

open KeyedStore

variable {S : Type}

/-- The store after a sequence of uploads, whatever became of each of them. -/
def Pipeline.ingestAll (store : VectorStore S) (rt : PyRuntime) (history : List Upload) (s : S) :
    S :=
  history.foldl (fun s u => (runOn store (pipelineSteps rt) u s).2) s

/-- After a sequence of uploads, an upload that returns leaves its records, one for every
chunk, and nothing else of its document. -/
def Replaces (store : VectorStore S) (rt : PyRuntime) (s : S) (history : List Upload)
    (u : Upload) : Prop :=
  let before := Pipeline.ingestAll store rt history s
  ∀ records, (Pipeline.runOn store (pipelineSteps rt) u before).1 = .ok records →
    records.map EmbeddingRecord.chunkIndex = List.range records.length ∧
      store.AreEntries (Pipeline.runOn store (pipelineSteps rt) u before).2 u.tenantId
        u.documentId records

theorem Pipeline.ingestAll_concat {store : VectorStore S} {rt : PyRuntime}
    {history : List Upload} {u : Upload} {s : S} :
    Pipeline.ingestAll store rt (history ++ [u]) s =
      (Pipeline.runOn store (pipelineSteps rt) u (Pipeline.ingestAll store rt history s)).2 := by
  simp [Pipeline.ingestAll]

/-! ## Entries and uploads -/

namespace Upload

variable (rt : PyRuntime) (address : String → Target String) (u : Upload)

/-- The URL of every chunk is one. -/
def Sendable : Prop := ∀ i < u.chunks rt, address (chunkId u.documentId i) ≠ .unsendable

/-- Every chunk has an entry of its own. -/
def Separate : Prop :=
  ∀ i < u.chunks rt, ∃ id, address (chunkId u.documentId i) = .key id ∧
    ∀ j < u.chunks rt, address (chunkId u.documentId j) = .key id → j = i

/-- A chunk of the upload is put to the entry, where every put that is made is stored. -/
def Covers (id : String) : Prop := ∃ i, u.Writes rt address (fun _ => .stored) i id

instance (i : ℕ) (id : String) : Decidable (u.Writes rt address (fun _ => .stored) i id) :=
  inferInstanceAs (Decidable (_ ∧ _ ∧ _ ∧ _))

instance (id : String) : Decidable (u.Covers rt address id) :=
  decidable_of_iff (∃ i, i < u.chunks rt ∧ u.Writes rt address (fun _ => .stored) i id)
    ⟨fun ⟨i, _, h⟩ => ⟨i, h⟩, fun ⟨i, h⟩ => ⟨i, h.1, h⟩⟩

variable {rt address u}

theorem raises_stored_iff {t : Target String} : t.raises .stored = true ↔ t = .unsendable := by
  cases t <;> simp [Target.raises, Delivery.raises]

theorem sendable_iff : u.Sendable rt address ↔
    ∀ i < u.chunks rt, (address (chunkId u.documentId i)).raises .stored = false := by
  refine forall₂_congr fun i _ => ?_
  rw [← Bool.not_eq_true, raises_stored_iff]

theorem writes_stored_iff (h : u.Sendable rt address) {i : ℕ} {id : String} :
    u.Writes rt address (fun _ => .stored) i id ↔
      i < u.chunks rt ∧ address (chunkId u.documentId i) = .key id := by
  refine ⟨fun hwrites => ⟨hwrites.1, hwrites.2.1⟩, ?_⟩
  rintro ⟨hi, hid⟩
  exact ⟨hi, hid, rfl, fun j hj => sendable_iff.1 h j (hj.trans hi)⟩

end Upload

/-- The last upload that put a chunk to the entry. -/
def lastUpload (rt : PyRuntime) (address : String → Target String) (history : List Upload)
    (id : String) : Option Upload :=
  history.reverse.find? fun v => v.Covers rt address id

/-- The upload is put over every entry that was last put by one of its document, by its tenant. -/
def Upload.PutsOver (rt : PyRuntime) (address : String → Target String) (history : List Upload)
    (u : Upload) : Prop :=
  ∀ id v, lastUpload rt address history id = some v → v.tenantId = u.tenantId →
    v.documentId = u.documentId → u.Covers rt address id

theorem lastUpload_concat {rt : PyRuntime} {address : String → Target String}
    {history : List Upload} {u : Upload} {id : String} :
    lastUpload rt address (history ++ [u]) id =
      if u.Covers rt address id then some u else lastUpload rt address history id := by
  unfold lastUpload
  rw [List.reverse_append, List.reverse_singleton, List.singleton_append, List.find?_cons]
  by_cases h : u.Covers rt address id
  · simp [h]
  · simp [h]

/-! ## In memory -/

section InMemory

variable {rt : PyRuntime} {u : Upload} {store : InMemoryVectorStore} {t d : String}

/-- What an upload adds, when it is looked at as a whole. -/
theorem Upload.length_added (rt : PyRuntime) (u : Upload) :
    (Pipeline.added rt u).length = u.chunks rt := by
  unfold Pipeline.added
  cases h : Pipeline.embeddings rt u with
  | error e => rw [Upload.chunks_of_error h]; rfl
  | ok records => exact (Upload.records_spec h).length_eq

theorem Upload.added_of {r : EmbeddingRecord} (h : r ∈ Pipeline.added rt u) :
    r.tenantId = u.tenantId ∧ r.documentId = u.documentId := by
  unfold Pipeline.added at h
  cases hemb : Pipeline.embeddings rt u with
  | error e => rw [hemb] at h; exact absurd h (by simp)
  | ok records =>
    rw [hemb] at h
    have hspec := Upload.records_spec hemb
    exact ⟨hspec.tenant_eq r h, hspec.document_eq r h⟩

namespace InMemoryVectorStore

/-- The store after an upload. -/
theorem runOn_snd (rt : PyRuntime) (u : Upload) (store : InMemoryVectorStore) :
    (Pipeline.runOn vectorStore (pipelineSteps rt) u store).2 =
      store.upsert (Pipeline.added rt u) := by
  rw [Pipeline.runOn_inMemory, Pipeline.run_eq]

/-- An upload adds its records to those of its document, and none to those of others. -/
theorem entries_upsert_added : (store.upsert (Pipeline.added rt u)).entries t d =
    store.entries t d ++
      if u.tenantId = t ∧ u.documentId = d then Pipeline.added rt u else [] := by
  have hfilter : (Pipeline.added rt u).filter (fun r => r.tenantId = t && r.documentId = d) =
      if u.tenantId = t ∧ u.documentId = d then Pipeline.added rt u else [] := by
    split
    · apply List.filter_eq_self.2
      intro r hr
      obtain ⟨htenant, hdocument⟩ := Upload.added_of hr
      simp_all
    · apply List.filter_eq_nil_iff.2
      intro r hr
      obtain ⟨htenant, hdocument⟩ := Upload.added_of hr
      simp_all
  rw [entries, upsert, List.filter_append, hfilter]
  rfl

/-- Nothing is stored of a document if no upload of it had a chunk. -/
theorem entries_ingestAll_eq_nil_iff (history : List Upload) :
    (Pipeline.ingestAll vectorStore rt history {}).entries t d = [] ↔
      ∀ v ∈ history, v.tenantId = t → v.documentId = d → v.chunks rt = 0 := by
  induction history using List.reverseRecOn with
  | nil => simp [Pipeline.ingestAll, entries]
  | append_singleton history u ih =>
    have hlast : (if u.tenantId = t ∧ u.documentId = d then Pipeline.added rt u else []) = [] ↔
        (u.tenantId = t → u.documentId = d → u.chunks rt = 0) := by
      split <;> rename_i h
      · rw [← List.length_eq_zero_iff, Upload.length_added]
        exact ⟨fun hzero _ _ => hzero, fun himp => himp h.1 h.2⟩
      · exact iff_of_true rfl fun htenant hdocument => absurd ⟨htenant, hdocument⟩ h
    rw [Pipeline.ingestAll_concat, runOn_snd, entries_upsert_added, List.append_eq_nil_iff, ih,
      hlast]
    simp [or_imp, forall_and]

end InMemoryVectorStore

end InMemory

/-! ## In the index -/

namespace OpenSearchVectorStore

variable {Index : Type} [KeyedStore Index String IndexedDocument] {rt : PyRuntime}
  {address : String → Target String} {u : Upload} {id : String}

/-- The index after a sequence of uploads, all the puts of which are stored where they lead. -/
def indexAfter (Index : Type) [KeyedStore Index String IndexedDocument] (rt : PyRuntime)
    (address : String → Target String) (history : List Upload) : Index :=
  Pipeline.ingestAll (vectorStore address fun _ => .stored) rt history KeyedStore.empty

/-- An entry is a chunk of the last upload that put one there. -/
theorem entry_of_get? (history : List Upload) {doc : IndexedDocument}
    (h : get? (indexAfter Index rt address history) id = some doc) :
    ∃ v, lastUpload rt address history id = some v ∧ doc.tenantId = v.tenantId ∧
      doc.documentId = v.documentId ∧ address (chunkId doc.documentId doc.chunkIndex) =
        .key id := by
  induction history using List.reverseRecOn with
  | nil =>
    rw [indexAfter, Pipeline.ingestAll, List.foldl_nil, get?_empty] at h
    cases h
  | append_singleton history u ih =>
    rw [indexAfter, Pipeline.ingestAll_concat] at h
    rw [lastUpload_concat]
    rcases get?_runOn_cases rt address (fun _ => .stored) u (indexAfter Index rt address history)
      id with ⟨doc', hwrites, hget, htenant, hdocument⟩ | ⟨hno, hget⟩
    · obtain rfl := Option.some.inj (hget.symm.trans h)
      exact ⟨u, if_pos ⟨_, hwrites⟩, htenant, hdocument, hdocument ▸ hwrites.2.1⟩
    · have hout : ¬ u.Covers rt address id := not_exists.2 hno
      rw [if_neg hout]
      exact ih (hget.symm.trans h)

/-- A chunk of the last upload that put one there is there. -/
theorem get?_of_lastUpload (Index : Type) [KeyedStore Index String IndexedDocument]
    (history : List Upload) {v : Upload} (h : lastUpload rt address history id = some v) :
    ∃ doc, get? (indexAfter Index rt address history) id = some doc ∧
      doc.tenantId = v.tenantId ∧ doc.documentId = v.documentId := by
  induction history using List.reverseRecOn with
  | nil => cases h
  | append_singleton history u ih =>
    rw [indexAfter, Pipeline.ingestAll_concat]
    rw [lastUpload_concat] at h
    rcases get?_runOn_cases rt address (fun _ => .stored) u (indexAfter Index rt address history)
      id with ⟨doc, hwrites, hget, htenant, hdocument⟩ | ⟨hno, hget⟩
    · rw [if_pos ⟨_, hwrites⟩] at h
      obtain rfl := Option.some.inj h
      exact ⟨doc, hget, htenant, hdocument⟩
    · have hout : ¬ u.Covers rt address id := not_exists.2 hno
      rw [if_neg hout] at h
      obtain ⟨doc, hdoc, htenant, hdocument⟩ := ih h
      exact ⟨doc, hget.trans hdoc, htenant, hdocument⟩

section AfterUpload

variable {records : List EmbeddingRecord} {history : List Upload} {doc : IndexedDocument}
  (hrecords : Pipeline.embeddings rt u = .ok records)

/-- The index after the upload of a document that has been uploaded before. -/
def reuploaded (Index : Type) [KeyedStore Index String IndexedDocument] (rt : PyRuntime)
    (address : String → Target String) (history : List Upload) (u : Upload) : Index :=
  (Pipeline.runOn (vectorStore address fun _ => .stored) (pipelineSteps rt) u
    (indexAfter Index rt address history)).2

include hrecords

/-- A chunk of the upload that is found is where it was put. -/
theorem address_of_body {i : ℕ} (hbody : (records.map EmbeddingRecord.body)[i]? = some doc)
    (hget : get? (reuploaded Index rt address history u) id = some doc) :
    address (chunkId u.documentId i) = .key id := by
  obtain ⟨-, htenant, hdocument, hindex⟩ := (Upload.records_spec hrecords).body_getElem? hbody
  rcases get?_runOn_cases rt address (fun _ => .stored) u (indexAfter Index rt address history)
    id with ⟨doc', hwrites, hget', -, -⟩ | ⟨-, hkept⟩
  · obtain rfl := Option.some.inj (hget'.symm.trans hget)
    rw [← hindex]
    exact hwrites.2.1
  · obtain ⟨-, -, -, -, haddress⟩ := entry_of_get? history (hkept.symm.trans hget)
    rwa [hdocument, hindex] at haddress

/-- What the index has of the document afterwards is what was put, if what was there is put
over. -/
theorem body_of_entry (hover : u.PutsOver rt address history)
    (hget : get? (reuploaded Index rt address history u) id = some doc)
    (htenant : doc.tenantId = u.tenantId) (hdocument : doc.documentId = u.documentId) :
    ∃ i : ℕ, (records.map EmbeddingRecord.body)[i]? = some doc := by
  rcases get?_runOn_of_ok hrecords address (fun _ => .stored)
    (indexAfter Index rt address history) id with ⟨i, doc', -, hbody, hget'⟩ | ⟨hno, hkept⟩
  · obtain rfl := Option.some.inj (hget'.symm.trans hget)
    exact ⟨i, hbody⟩
  · obtain ⟨v, hlast, hv, hv', -⟩ := entry_of_get? history (hkept.symm.trans hget)
    obtain ⟨i, hwrites⟩ := hover id v hlast (hv.symm.trans htenant) (hv'.symm.trans hdocument)
    exact absurd hwrites (hno i)

/-- A chunk that is put to an entry of its own is found there. -/
theorem get?_of_separate (Index : Type) [KeyedStore Index String IndexedDocument]
    (history : List Upload) (hsendable : u.Sendable rt address) (hseparate : u.Separate rt address)
    {i : ℕ} (hbody : (records.map EmbeddingRecord.body)[i]? = some doc) :
    ∃ id, get? (reuploaded Index rt address history u) id = some doc := by
  obtain ⟨hi, -⟩ := (Upload.records_spec hrecords).body_getElem? hbody
  obtain ⟨id, hid, hown⟩ := hseparate i hi
  refine ⟨id, ?_⟩
  rcases get?_runOn_of_ok hrecords address (fun _ => .stored)
    (indexAfter Index rt address history) id with ⟨j, doc', hwrites, hbody', hget⟩ | ⟨hno, -⟩
  · obtain rfl := hown j hwrites.1 hwrites.2.1
    exact hget.trans (hbody'.symm.trans hbody)
  · exact absurd ((Upload.writes_stored_iff hsendable).2 ⟨hi, hid⟩) (hno i)

/-- If the index has every chunk, every chunk has an entry of its own. -/
theorem separate_of_areEntries
    (h : AreEntries (reuploaded Index rt address history u) u.tenantId u.documentId records) :
    u.Separate rt address := by
  have hspec := Upload.records_spec hrecords
  have hfound : ∀ i < u.chunks rt, ∃ id doc, address (chunkId u.documentId i) = .key id ∧
      (records.map EmbeddingRecord.body)[i]? = some doc ∧
      get? (reuploaded Index rt address history u) id = some doc := by
    intro i hi
    obtain ⟨doc, hbody⟩ := hspec.exists_body hi
    obtain ⟨id, hget, -, -⟩ := (h.found_iff doc).2 (List.mem_of_getElem? hbody)
    exact ⟨id, doc, address_of_body hrecords hbody hget, hbody, hget⟩
  intro i hi
  obtain ⟨id, doc, hid, hbody, hget⟩ := hfound i hi
  refine ⟨id, hid, fun j hj hjid => ?_⟩
  obtain ⟨id', doc', hid', hbody', hget'⟩ := hfound j hj
  obtain rfl := Target.key.inj (hjid.symm.trans hid')
  obtain rfl := Option.some.inj (hget.symm.trans hget')
  exact (hspec.body_getElem? hbody').2.2.2.symm.trans (hspec.body_getElem? hbody).2.2.2

/-- If the index has nothing else of the document, what was there is put over. -/
theorem putsOver_of_areEntries (hsendable : u.Sendable rt address)
    (h : AreEntries (reuploaded Index rt address history u) u.tenantId u.documentId records) :
    u.PutsOver rt address history := by
  intro id v hlast htenant hdocument
  obtain ⟨doc, hget, hdoc, hdoc'⟩ := get?_of_lastUpload Index history hlast
  rcases get?_runOn_cases rt address (fun _ => .stored) u
    (indexAfter Index rt address history) id with ⟨_, hwrites, -⟩ | ⟨-, hkept⟩
  · exact ⟨_, hwrites⟩
  · -- the entry of before is still there, so that it is one of the chunks, and put where it was
    have hafter := hkept.trans hget
    obtain ⟨i, hbody⟩ := List.mem_iff_getElem?.1 ((h.found_iff doc).1
      ⟨id, hafter, hdoc.trans htenant, hdoc'.trans hdocument⟩)
    have hi := ((Upload.records_spec hrecords).body_getElem? hbody).1
    exact ⟨i, (Upload.writes_stored_iff hsendable).2
      ⟨hi, address_of_body hrecords hbody hafter⟩⟩

/-- **What the index has of a document after an upload** is the upload if every chunk has an entry
of its own, and every entry the document had before is put over. -/
theorem areEntries_iff (Index : Type) [KeyedStore Index String IndexedDocument]
    (history : List Upload) (hsendable : u.Sendable rt address) :
    AreEntries (reuploaded Index rt address history u) u.tenantId u.documentId records ↔
      u.Separate rt address ∧ u.PutsOver rt address history := by
  constructor
  · intro h
    exact ⟨separate_of_areEntries hrecords h, putsOver_of_areEntries hrecords hsendable h⟩
  · rintro ⟨hseparate, hover⟩
    constructor
    · intro doc
      constructor
      · rintro ⟨id, hget, htenant, hdocument⟩
        obtain ⟨i, hbody⟩ := body_of_entry hrecords hover hget htenant hdocument
        exact List.mem_of_getElem? hbody
      · intro hmem
        obtain ⟨i, hbody⟩ := List.mem_iff_getElem?.1 hmem
        obtain ⟨-, htenant, hdocument, -⟩ := (Upload.records_spec hrecords).body_getElem? hbody
        obtain ⟨id, hget⟩ :=
          get?_of_separate hrecords Index history hsendable hseparate hbody
        exact ⟨id, hget, htenant, hdocument⟩
    · intro id id' doc hget hget' htenant hdocument
      obtain ⟨i, hbody⟩ := body_of_entry hrecords hover hget htenant hdocument
      exact Target.key.inj ((address_of_body hrecords hbody hget).symm.trans
        (address_of_body hrecords hbody hget'))

end AfterUpload

end OpenSearchVectorStore

/-! ## Replacement -/

/-- An upload of a type that is not supported does not return. -/
theorem replaces_of_no_text {rt : PyRuntime} {store : VectorStore S} {s : S}
    {history : List Upload} {u : Upload} (h : u.text? rt = none) :
    Replaces store rt s history u := by
  intro records hrun
  rw [Pipeline.runOn_of_error (embeddings_of_no_text h)] at hrun
  cases hrun

/-- **In memory** no upload of the document may have had a chunk before. -/
theorem replaces_inMemory_iff (rt : PyRuntime) (history : List Upload) (u : Upload) :
    Replaces InMemoryVectorStore.vectorStore rt {} history u ↔
      u.text? rt = none ∨
        ∀ v ∈ history, v.tenantId = u.tenantId → v.documentId = u.documentId →
          v.chunks rt = 0 := by
  by_cases hnone : u.text? rt = none
  · exact iff_of_true (replaces_of_no_text hnone) (Or.inl hnone)
  · obtain ⟨records, hrecords⟩ : ∃ records, Pipeline.embeddings rt u = .ok records :=
      embeddings_ok_iff.2 (Option.isSome_iff_ne_none.2 hnone)
    have hspec := Upload.records_spec hrecords
    have hadded : Pipeline.added rt u = records := by rw [Pipeline.added, hrecords]
    have hentries : ∀ store : InMemoryVectorStore,
        (Pipeline.runOn InMemoryVectorStore.vectorStore (pipelineSteps rt) u store).2.entries
          u.tenantId u.documentId = store.entries u.tenantId u.documentId ++ records := by
      intro store
      rw [InMemoryVectorStore.runOn_snd, InMemoryVectorStore.entries_upsert_added, hadded,
        if_pos ⟨rfl, rfl⟩]
    rw [or_iff_right hnone, ← InMemoryVectorStore.entries_ingestAll_eq_nil_iff]
    constructor
    · intro h
      obtain ⟨-, hafter⟩ := h records (by rw [Pipeline.runOn_of_ok hrecords]; rfl)
      exact List.append_left_eq_self.1 ((hentries _).symm.trans hafter)
    · intro hnil records' hrun
      rw [Pipeline.runOn_of_ok hrecords] at hrun
      obtain rfl : records = records' := Except.ok.inj hrun
      refine ⟨by rw [hspec.indices, hspec.length_eq], ?_⟩
      show InMemoryVectorStore.entries _ _ _ = records
      rw [hentries, hnil, List.nil_append]

/-- **In the index** every chunk must have an entry of its own, and every entry that was last put
by an upload of the document by the tenant must be put over.  An upload that raises promises
nothing. -/
theorem replaces_index_iff (rt : PyRuntime) {Index : Type}
    [KeyedStore Index String IndexedDocument] (address : String → Target String)
    (history : List Upload) (u : Upload) :
    Replaces (OpenSearchVectorStore.vectorStore address fun _ => .stored) rt
        (KeyedStore.empty : Index) history u ↔
      u.text? rt = none ∨ ¬ u.Sendable rt address ∨
        u.Separate rt address ∧ u.PutsOver rt address history := by
  by_cases hnone : u.text? rt = none
  · exact iff_of_true (replaces_of_no_text hnone) (Or.inl hnone)
  · obtain ⟨records, hrecords⟩ : ∃ records, Pipeline.embeddings rt u = .ok records :=
      embeddings_ok_iff.2 (Option.isSome_iff_ne_none.2 hnone)
    have hspec := Upload.records_spec hrecords
    have hruns : ∀ (index : Index) (records' : List EmbeddingRecord), (Pipeline.runOn
        (OpenSearchVectorStore.vectorStore address fun _ => .stored) (pipelineSteps rt) u
          index).1 = .ok records' ↔ u.Sendable rt address ∧ records = records' := by
      intro index records'
      rw [OpenSearchVectorStore.runOn_eq_ok_iff hrecords, Upload.sendable_iff]
    rw [or_iff_right hnone]
    by_cases hsendable : u.Sendable rt address
    · rw [or_iff_right (not_not.2 hsendable),
        ← OpenSearchVectorStore.areEntries_iff hrecords Index history hsendable]
      constructor
      · intro h
        exact (h records ((hruns _ _).2 ⟨hsendable, rfl⟩)).2
      · intro hentries records' hrun
        obtain ⟨-, rfl⟩ := (hruns _ _).1 hrun
        exact ⟨by rw [hspec.indices, hspec.length_eq], hentries⟩
    · refine iff_of_true (fun records' hrun => ?_) (Or.inl hsendable)
      exact absurd ((hruns _ _).1 hrun).1 hsendable

/-- **When an upload replaces**, after any uploads before, in the store in memory and in any
index. -/
theorem replaces_iff (rt : PyRuntime) (Index : Type) [KeyedStore Index String IndexedDocument]
    (address : String → Target String) (history : List Upload) (u : Upload) :
    (Replaces InMemoryVectorStore.vectorStore rt {} history u ↔
      u.text? rt = none ∨
        ∀ v ∈ history, v.tenantId = u.tenantId → v.documentId = u.documentId →
          v.chunks rt = 0) ∧
    (Replaces (OpenSearchVectorStore.vectorStore address fun _ => .stored) rt
        (KeyedStore.empty : Index) history u ↔
      u.text? rt = none ∨ ¬ u.Sendable rt address ∨
        u.Separate rt address ∧ u.PutsOver rt address history) :=
  ⟨replaces_inMemory_iff rt history u, replaces_index_iff rt address history u⟩

/-! ### A policy that gets shorter -/

/-- A version of a bank's policy, of a number of characters. -/
def policyVersion (length : ℕ) : Upload :=
  ⟨"bank-a", "policy", "policy.txt", List.replicate length 112, "u-1"⟩

theorem text_policyVersion (length : ℕ) : (policyVersion length).text? .ascii =
    some (String.ofList (List.replicate length 'p')) := by
  have hext : ["pdf", "doc", "docx", "txt", "md"].contains
      (PyRuntime.ascii.lower (lastPart "policy.txt")) = true := by decide +kernel
  have hdecode : PyRuntime.ascii.decode (List.replicate length 112) =
      String.ofList (List.replicate length 'p') := by
    show String.ofList _ = _
    rw [List.map_replicate]
    rfl
  rw [Upload.text?, textOf, policyVersion]
  simp only [hext, if_true, hdecode]

theorem chunks_policyVersion (length : ℕ) :
    (policyVersion length).chunks .ascii = ({} : Chunker).count length := by
  rw [Upload.chunks, text_policyVersion]
  simp

/-- An id that needs no escaping leads to the entry of that id. -/
theorem sendable_policyVersion (length : ℕ) : (policyVersion length).Sendable .ascii .key := by
  intro i _ h
  cases h

/-- The same policy again is stored twice in memory, and a shorter policy leaves the last
chunk of the longer one in the index. -/
theorem policy_not_replaced :
    ¬ Replaces InMemoryVectorStore.vectorStore .ascii {} [policyVersion 9] (policyVersion 9) ∧
      ¬ Replaces (OpenSearchVectorStore.vectorStore .key fun _ => .stored) .ascii
        (KeyedStore.empty : Table String IndexedDocument) [policyVersion 600]
        (policyVersion 9) := by
  have htext : ∀ n, (policyVersion n).text? .ascii ≠ none := by
    intro n
    rw [text_policyVersion]
    exact Option.some_ne_none _
  have hone : (policyVersion 9).chunks .ascii = 1 := by
    rw [chunks_policyVersion]
    decide
  have htwo : (policyVersion 600).chunks .ascii = 2 := by
    rw [chunks_policyVersion]
    decide
  constructor
  · rw [replaces_inMemory_iff, or_iff_right (htext 9)]
    intro h
    have hzero := h (policyVersion 9) (List.mem_singleton_self _) rfl rfl
    omega
  · rw [replaces_index_iff, or_iff_right (htext 9),
      or_iff_right (not_not.2 (sendable_policyVersion 9))]
    rintro ⟨-, h⟩
    have hlast : lastUpload .ascii .key [policyVersion 600] (chunkId "policy" 1) =
        some (policyVersion 600) := by
      have hcovers : (policyVersion 600).Covers .ascii .key (chunkId "policy" 1) :=
        ⟨1, (Upload.writes_stored_iff (sendable_policyVersion 600)).2 ⟨by omega, rfl⟩⟩
      rw [← List.nil_append [policyVersion 600], lastUpload_concat, if_pos hcovers]
    obtain ⟨i, hi, hid, -⟩ := h _ _ hlast rfl rfl
    obtain ⟨-, rfl⟩ := chunkId_inj.1 (Target.key.inj hid)
    omega

end AgentPlatform
