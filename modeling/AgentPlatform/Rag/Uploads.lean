import AgentPlatform.Lib.Interleaving
import AgentPlatform.Rag.OpenSearch

/-!
# Uploads at the same time

An ingestion waits for the malware scan, and then for the answer to every put of a chunk; while it
waits others go on.  Ingestions that put nothing to the same entry do not meet; the URL of a
chunk is made of the id of its document, and may lead to an entry of another.

* `Ingestion`, `ingestions` — the ingestions in progress, over one index.
* `over_of_solo` — an ingestion that has been alone is `Pipeline.runOn`.
* `ingestions_serializable` — **uploads at the same time**: to entries of their own, they end as
  one after the other would, in any order.
-/

namespace AgentPlatform

open Interleaving KeyedStore OpenSearchVectorStore

/-! ## The ingestions in progress -/

/-- An upload, and how its puts end. -/
structure UploadTask where
  upload : Upload
  outcome : ℕ → Delivery

/-- How far an ingestion is. -/
inductive Ingestion.Phase
  /-- It waits for the malware scan. -/
  | scanning
  /-- It waits for the answer to the put of that number. -/
  | putting (records : List EmbeddingRecord) (n : ℕ)
  | ended (result : Except IngestError (List EmbeddingRecord))

structure Ingestion where
  task : UploadTask
  phase : Ingestion.Phase

namespace Ingestion

variable (rt : PyRuntime) (address : String → Target String) {Index : Type}
  [KeyedStore Index String IndexedDocument]

/-- On to the put of a number, if there is one. -/
def Phase.next (records : List EmbeddingRecord) (n : ℕ) : Phase :=
  if n < records.length then .putting records n else .ended (.ok records)

/-- From one `await` to the next.  A put has its effect by the time it is answered. -/
def resume (i : Ingestion) (index : Index) : Ingestion × Index :=
  match i.phase with
  | .scanning =>
    match Pipeline.recordsOf (pipelineSteps rt) i.task.upload with
    | .error e => ({ i with phase := .ended (.error (.raised e)) }, index)
    | .ok records => ({ i with phase := .next records 0 }, index)
  | .putting records n =>
    match (puts address records)[n]? with
    | none => (i, index)
    | some (t, v) =>
      ({ i with
          phase := if t.raises (i.task.outcome n) then .ended (.error .transport)
            else .next records (n + 1) },
        t.receive index (i.task.outcome n) v)
  | .ended _ => (i, index)

/-- The result, once it is over. -/
def result? (i : Ingestion) : Option (Except IngestError (List EmbeddingRecord)) :=
  match i.phase with
  | .ended r => some r
  | _ => none

end Ingestion

/-- The ingestions over one index. -/
def ingestions (rt : PyRuntime) (address : String → Target String) (Index : Type)
    [KeyedStore Index String IndexedDocument] : Program UploadTask Index Ingestion where
  start task _ := ⟨task, .scanning⟩
  resume := Ingestion.resume rt address

/-! ## An ingestion that is alone -/

section Alone

variable {rt : PyRuntime} {address : String → Target String} {Index : Type}
  [KeyedStore Index String IndexedDocument] {task : UploadTask} {records : List EmbeddingRecord}
  {index : Index}

theorem alone_over {r : Except IngestError (List EmbeddingRecord)} (m : ℕ) :
    (ingestions rt address Index).alone m (⟨task, .ended r⟩, index) =
      (⟨task, .ended r⟩, index) := by
  induction m with
  | zero => rfl
  | succ m ih => exact ih

theorem Ingestion.Phase.next_of_lt {n : ℕ} (h : n < records.length) :
    Ingestion.Phase.next records n = .putting records n := if_pos h

theorem Ingestion.Phase.next_of_ge {n : ℕ} (h : ¬ n < records.length) :
    Ingestion.Phase.next records n = .ended (.ok records) := if_neg h

theorem Ingestion.resume_putting {n : ℕ} {t : Target String} {v : IndexedDocument}
    (h : (puts address records)[n]? = some (t, v)) :
    Ingestion.resume rt address ⟨task, .putting records n⟩ index =
      (⟨task, if t.raises (task.outcome n) then .ended (.error .transport)
        else .next records (n + 1)⟩, t.receive index (task.outcome n) v) := by
  rw [Ingestion.resume]
  dsimp only
  rw [h]

/-- Once it is over, the puts that were left have ended as they do one after the other. -/
theorem over_of_putting {n m : ℕ} {r : Except IngestError (List EmbeddingRecord)}
    (h : ((ingestions rt address Index).alone m (⟨task, .next records n⟩, index)).1.result? =
      some r) :
    (sendAll IngestError.transport (fun j => task.outcome (n + j)) ((puts address records).drop n)
        index).1.map (fun _ => records) = r ∧
      (sendAll IngestError.transport (fun j => task.outcome (n + j)) ((puts address records).drop n)
        index).2 = ((ingestions rt address Index).alone m (⟨task, .next records n⟩, index)).2 := by
  induction m generalizing n index with
  | zero =>
    by_cases hn : n < records.length
    · rw [Ingestion.Phase.next_of_lt hn] at h
      cases h
    · have hnone : (puts address records).drop n = [] :=
        List.drop_eq_nil_of_le (by simpa [puts] using hn)
      rw [Ingestion.Phase.next_of_ge hn] at h ⊢
      rw [hnone]
      exact ⟨Option.some.inj h, rfl⟩
  | succ m ih =>
    by_cases hn : n < records.length
    · have hlength : n < (puts address records).length := by simpa [puts] using hn
      cases hput : (puts address records)[n] with
      | mk t v =>
        have hget : (puts address records)[n]? = some (t, v) := by
          rw [List.getElem?_eq_getElem hlength, hput]
        have hdrop : (puts address records).drop n =
            (t, v) :: (puts address records).drop (n + 1) := by
          rw [List.drop_eq_getElem_cons hlength, hput]
        have hstep : (ingestions rt address Index).alone (m + 1)
              (⟨task, .putting records n⟩, index) =
            (ingestions rt address Index).alone m
              (Ingestion.resume rt address ⟨task, .putting records n⟩ index) := rfl
        rw [Ingestion.Phase.next_of_lt hn, hstep, Ingestion.resume_putting hget] at h ⊢
        rw [hdrop]
        cases hraises : t.raises (task.outcome n) with
        | true =>
          rw [hraises, if_pos rfl, alone_over] at h
          rw [if_pos rfl, alone_over, sendAll_cons_of_raises hraises]
          exact ⟨Option.some.inj h, rfl⟩
        | false =>
          rw [hraises, if_neg (by simp)] at h
          rw [if_neg (by simp), sendAll_cons_of_not_raises hraises]
          have hshift : (fun j => task.outcome (n + (j + 1))) =
              fun j => task.outcome (n + 1 + j) := by
            funext j
            rw [Nat.add_assoc, Nat.add_comm 1 j]
          rw [hshift]
          exact ih h
    · rw [Ingestion.Phase.next_of_ge hn, alone_over] at h ⊢
      have hnone : (puts address records).drop n = [] :=
        List.drop_eq_nil_of_le (by simpa [puts] using hn)
      rw [hnone]
      exact ⟨Option.some.inj h, rfl⟩

/-- The ingestion of a task. -/
def UploadTask.run (rt : PyRuntime) (address : String → Target String) (task : UploadTask) :
    Effect Index IngestError (List EmbeddingRecord) :=
  Pipeline.runOn (vectorStore address task.outcome) (pipelineSteps rt) task.upload

/-- **An ingestion that has been alone** has done what the pipeline does. -/
theorem over_of_solo {m : ℕ} {r : Except IngestError (List EmbeddingRecord)}
    (h : ((ingestions rt address Index).solo task index m).1.result? = some r) :
    task.run rt address index = (r, ((ingestions rt address Index).solo task index m).2) := by
  cases m with
  | zero => cases h
  | succ m =>
    have hsolo : (ingestions rt address Index).solo task index (m + 1) =
        (ingestions rt address Index).alone m
          (Ingestion.resume rt address ⟨task, .scanning⟩ index) := rfl
    rw [hsolo] at h ⊢
    unfold Ingestion.resume at h ⊢
    cases hrecords : Pipeline.recordsOf (pipelineSteps rt) task.upload with
    | error e =>
      simp only [hrecords, alone_over] at h ⊢
      obtain rfl := Option.some.inj h
      exact Pipeline.runOn_of_error hrecords
    | ok records =>
      simp only [hrecords] at h ⊢
      obtain ⟨hresult, hindex⟩ := over_of_putting h
      rw [UploadTask.run, Pipeline.runOn_of_ok hrecords, ← hindex, ← hresult]
      simp only [List.drop_zero, Nat.zero_add]
      rfl

end Alone

/-! ## The entries of an upload -/

/-- A chunk of the task's document is put to the entry. -/
def UploadTask.Owns (rt : PyRuntime) (address : String → Target String) (task : UploadTask)
    (id : String) : Prop :=
  ∃ n < task.upload.chunks rt, address (chunkId task.upload.documentId n) = .key id

/-- The records it puts are those of its upload. -/
def Ingestion.Valid (rt : PyRuntime) (i : Ingestion) : Prop :=
  match i.phase with
  | .putting records _ => i.task.upload.IsRecords rt records
  | _ => True

section Ids

variable {rt : PyRuntime} {address : String → Target String} {Index : Type}
  [KeyedStore Index String IndexedDocument] {task : UploadTask} {records : List EmbeddingRecord}
  {index index' : Index} {id : String}

/-- Different documents do not meet, where the ids of their chunks need no escaping. -/
theorem nothingShared_of_distinct {tasks : List UploadTask}
    (hplain : ∀ task ∈ tasks, ∀ n, address (chunkId task.upload.documentId n) =
      .key (chunkId task.upload.documentId n))
    (h : tasks.Pairwise fun a b => a.upload.documentId ≠ b.upload.documentId) :
    NothingShared (UploadTask.Owns rt address) tasks := by
  refine h.imp_of_mem ?_
  rintro a b ha hb hne id ⟨n, -, hn⟩ ⟨m, -, hm⟩
  rw [hplain a ha] at hn
  rw [hplain b hb, ← hn] at hm
  exact hne (chunkId_inj.1 (Target.key.inj hm)).1.symm

theorem Ingestion.valid_next (h : task.upload.IsRecords rt records) (n : ℕ) :
    Ingestion.Valid rt ⟨task, .next records n⟩ := by
  by_cases hn : n < records.length
  · rw [Ingestion.Phase.next_of_lt hn]
    exact h
  · rw [Ingestion.Phase.next_of_ge hn]
    trivial

/-- **What an ingestion does when it goes on**: it leaves the index alone, or it puts a chunk; where
it comes to does not depend on the index. -/
theorem Ingestion.resume_cases (rt : PyRuntime) (address : String → Target String) (Index : Type)
    [KeyedStore Index String IndexedDocument] (i : Ingestion) :
    (∃ phase, (i.Valid rt → Ingestion.Valid rt ⟨i.task, phase⟩) ∧
      ∀ index : Index, i.resume rt address index = (⟨i.task, phase⟩, index)) ∨
    ∃ phase records n t v, (i.Valid rt → Ingestion.Valid rt ⟨i.task, phase⟩) ∧
      i.phase = .putting records n ∧ (puts address records)[n]? = some (t, v) ∧
      ∀ index : Index, i.resume rt address index =
        (⟨i.task, phase⟩, t.receive index (i.task.outcome n) v) := by
  obtain ⟨task, phase⟩ := i
  cases phase with
  | scanning =>
    left
    cases hrecords : Pipeline.recordsOf (pipelineSteps rt) task.upload with
    | error e =>
      refine ⟨.ended (.error (.raised e)), fun _ => trivial, fun index => ?_⟩
      rw [Ingestion.resume, hrecords]
    | ok records =>
      refine ⟨.next records 0, fun _ => Ingestion.valid_next (Upload.records_spec hrecords) 0,
        fun index => ?_⟩
      rw [Ingestion.resume, hrecords]
  | putting records n =>
    cases hput : (puts address records)[n]? with
    | none =>
      left
      refine ⟨.putting records n, id, fun index => ?_⟩
      rw [Ingestion.resume]
      dsimp only
      rw [hput]
    | some kv =>
      obtain ⟨t, v⟩ := kv
      right
      refine ⟨_, records, n, t, v, fun hvalid => ?_, rfl, hput,
        fun index => Ingestion.resume_putting hput⟩
      dsimp only
      split
      · trivial
      · exact Ingestion.valid_next hvalid (n + 1)
  | ended r => exact Or.inl ⟨.ended r, id, fun _ => rfl⟩

/-- The ingestions keep to the ids of their documents. -/
theorem ingestions_keepTo : KeepsTo (ingestions rt address Index) (Ingestion.Valid rt)
    (UploadTask.Owns rt address) (fun i => i.task.Owns rt address)
    (fun id index => get? index id) where
  valid_start _ _ := trivial
  valid_resume i index hvalid := by
    show Ingestion.Valid rt (i.resume rt address index).1
    rcases Ingestion.resume_cases rt address Index i with ⟨phase, hkept, h⟩ |
      ⟨phase, records, n, t, v, hkept, -, -, h⟩
    · rw [h]
      exact hkept hvalid
    · rw [h]
      exact hkept hvalid
  start_eq _ _ _ := rfl
  own_start _ _ := rfl
  own_resume i index := by
    show (i.resume rt address index).1.task.Owns rt address = i.task.Owns rt address
    rcases Ingestion.resume_cases rt address Index i with ⟨phase, -, h⟩ |
      ⟨phase, records, n, t, v, -, -, -, h⟩
    · rw [h]
    · rw [h]
  reads i index index' hsame := by
    show (i.resume rt address index).1 = (i.resume rt address index').1 ∧
      ∀ id, i.task.Owns rt address id →
        get? (i.resume rt address index).2 id = get? (i.resume rt address index').2 id
    rcases Ingestion.resume_cases rt address Index i with ⟨phase, -, h⟩ |
      ⟨phase, records, n, t, v, -, -, -, h⟩
    · rw [h, h]
      exact ⟨rfl, hsame⟩
    · rw [h, h]
      exact ⟨rfl, fun id hid => Target.get?_receive_congr (hsame id hid)⟩
  writes i index id hvalid hforeign := by
    show get? (i.resume rt address index).2 id = get? index id
    rcases Ingestion.resume_cases rt address Index i with ⟨phase, -, h⟩ |
      ⟨phase, records, n, t, v, -, hphase, hput, h⟩
    · rw [h]
    · have hrecords : i.task.upload.IsRecords rt records := by
        unfold Ingestion.Valid at hvalid
        rw [hphase] at hvalid
        exact hvalid
      obtain ⟨hn, rfl⟩ := hrecords.puts_getElem? hput
      rw [h]
      exact Target.get?_receive_of_not fun hkey => hforeign ⟨n, hn, hkey.1⟩

/-! ## One after the other -/

/-- How an ingestion ends does not depend on the index, and what is found under an id afterwards
depends on what was found there. -/
theorem UploadTask.run_congr (h : get? index id = get? index' id) :
    (task.run rt address index).1 = (task.run rt address index').1 ∧
      get? (task.run rt address index).2 id = get? (task.run rt address index').2 id := by
  unfold UploadTask.run
  cases hrecords : Pipeline.recordsOf (pipelineSteps rt) task.upload with
  | error e =>
    rw [Pipeline.runOn_of_error hrecords, Pipeline.runOn_of_error hrecords]
    exact ⟨rfl, h⟩
  | ok records =>
    have hsend : (upsert address task.outcome records index).1 =
        (upsert address task.outcome records index').1 := sendAll_fst _ _
    have hget : get? (upsert address task.outcome records index).2 id =
        get? (upsert address task.outcome records index').2 id := get?_sendAll_congr h
    rw [Pipeline.runOn_of_ok hrecords, Pipeline.runOn_of_ok hrecords]
    exact ⟨congrArg (Except.map fun _ => records) hsend, hget⟩

/-- An ingestion leaves the entries alone that it puts nothing to. -/
theorem UploadTask.run_foreign (h : ¬ task.Owns rt address id) :
    get? (task.run rt address index).2 id = get? index id := by
  rcases get?_runOn_cases rt address task.outcome task.upload index id with
    ⟨doc, hwrites, -⟩ | ⟨-, hget⟩
  · exact absurd ⟨_, hwrites.1, hwrites.2.1⟩ h
  · exact hget

/-- The index after the tasks, one after the other. -/
def ingestInTurn (rt : PyRuntime) (address : String → Target String) (order : List UploadTask)
    (index : Index) : Index :=
  order.foldl (fun index task => (task.run rt address index).2) index

theorem ingestInTurn_foreign {order : List UploadTask}
    (h : ∀ task ∈ order, ¬ task.Owns rt address id) :
    get? (ingestInTurn rt address order index) id = get? index id := by
  induction order generalizing index with
  | nil => rfl
  | cons task order ih =>
    show get? (ingestInTurn rt address order (task.run rt address index).2) id = _
    rw [ih fun other hother => h other (List.mem_cons_of_mem _ hother)]
    exact UploadTask.run_foreign (h task List.mem_cons_self)

/-- The entries of an upload are as it leaves them. -/
theorem ingestInTurn_own {order : List UploadTask}
    (hdistinct : NothingShared (UploadTask.Owns rt address) order) (hmem : task ∈ order)
    (hid : task.Owns rt address id) :
    get? (ingestInTurn rt address order index) id = get? (task.run rt address index).2 id := by
  induction order generalizing index with
  | nil => cases hmem
  | cons first order ih =>
    obtain ⟨hfirst, hrest⟩ := List.pairwise_cons.1 hdistinct
    show get? (ingestInTurn rt address order (first.run rt address index).2) id = _
    rcases List.mem_cons.1 hmem with rfl | hlater
    · exact ingestInTurn_foreign fun other hother => hfirst other hother id hid
    · rw [ih hrest hlater]
      have hforeign : ¬ first.Owns rt address id := fun h => hfirst task hlater id h hid
      exact (UploadTask.run_congr (UploadTask.run_foreign hforeign)).2

end Ids

/-! ## At the same time -/

section Together

variable {rt : PyRuntime} {address : String → Target String} {Index : Type}
  [KeyedStore Index String IndexedDocument]

/-- Every ingestion of the pool is over. -/
def AllOver {S : Type} (p : Pool S Ingestion) : Prop := ∀ i ∈ p.procs, i.result?.isSome = true

/-- An ingestion that is over has ended, and left its entries, as it would have alone. -/
theorem over_of_apart {index : Index} {tasks : List UploadTask} {p : Pool Index Ingestion}
    (h : Apart (ingestions rt address Index) (UploadTask.Owns rt address)
      (fun id index => get? index id) index tasks p)
    (hover : AllOver p) {n : ℕ} {task : UploadTask} (hn : tasks[n]? = some task) :
    ∃ i, p.procs[n]? = some i ∧ i.result? = some (task.run rt address index).1 ∧
      ∀ id, task.Owns rt address id → get? p.shared id = get? (task.run rt address index).2 id := by
  have hlt : n < p.procs.length := h.length_eq ▸ (List.getElem?_eq_some_iff.1 hn).1
  have hi : p.procs[n]? = some p.procs[n] := List.getElem?_eq_getElem hlt
  obtain ⟨m, hsolo, hparts⟩ := h.solo n _ task hi hn
  obtain ⟨r, hr⟩ := Option.isSome_iff_exists.1 (hover _ (List.getElem_mem hlt))
  have hrun : task.run rt address index =
      (r, ((ingestions rt address Index).solo task index m).2) := by
    refine over_of_solo ?_
    rw [← hsolo]
    exact hr
  rw [hrun]
  exact ⟨_, hi, hr, hparts⟩

/-- **Uploads at the same time.**  If no two of them put to the same entry, and all the ingestions
of a run are over, the index has what it has after the same ingestions one after the other, in
any order, and each has ended as it does then. -/
theorem ingestions_serializable (rt : PyRuntime) (address : String → Target String) (Index : Type)
    [KeyedStore Index String IndexedDocument] (index : Index) (moves : List (Move UploadTask))
    (hshared : NothingShared (UploadTask.Owns rt address) (starts moves))
    (hover : AllOver (Pool.run (ingestions rt address Index) ⟨index, []⟩ moves))
    (order : List UploadTask) (horder : order.Perm (starts moves)) :
    SameContent (ingestInTurn rt address order index)
        (Pool.run (ingestions rt address Index) ⟨index, []⟩ moves).shared ∧
      (Pool.run (ingestions rt address Index) ⟨index, []⟩ moves).procs.map Ingestion.result? =
        (starts moves).map fun task => some (task.run rt address index).1 := by
  have hrun := ingestions_keepTo.run_alone (P := ingestions rt address Index) index moves hshared
  have hserial : NothingShared (UploadTask.Owns rt address) order := by
    refine (horder.pairwise_iff fun h id hb ha => ?_).2 hshared
    exact h id ha hb
  constructor
  · intro id
    by_cases howner : ∃ task ∈ starts moves, task.Owns rt address id
    · obtain ⟨task, hmem, hid⟩ := howner
      obtain ⟨n, hn⟩ := List.mem_iff_getElem?.1 hmem
      obtain ⟨i, -, -, hleft⟩ := over_of_apart hrun hover hn
      rw [hleft id hid, ingestInTurn_own hserial (horder.mem_iff.2 hmem) hid]
    · have hnobody : ∀ task ∈ starts moves, ¬ task.Owns rt address id :=
        fun task hmem hid => howner ⟨task, hmem, hid⟩
      rw [ingestInTurn_foreign fun task hmem => hnobody task (horder.mem_iff.1 hmem)]
      exact hrun.free id hnobody
  · refine List.ext_getElem? fun n => ?_
    rw [List.getElem?_map, List.getElem?_map]
    cases hn : (starts moves)[n]? with
    | none =>
      have hlength : (starts moves).length ≤ n := List.getElem?_eq_none_iff.1 hn
      rw [List.getElem?_eq_none_iff.2 (hrun.length_eq ▸ hlength)]
      rfl
    | some task =>
      obtain ⟨i, hi, hresult, -⟩ := over_of_apart hrun hover hn
      rw [hi]
      exact congrArg some hresult

end Together

/-- Two banks upload a document each; the put of one is refused. -/
def policyTask : UploadTask := ⟨policyUpload "bank-a", fun _ => .stored⟩

def termsTask : UploadTask :=
  ⟨{ policyUpload "bank-b" with documentId := "terms" }, fun _ => .refused⟩

def interleaved : List (Move UploadTask) :=
  [.start policyTask, .start termsTask, .resume 1, .resume 0, .resume 0, .resume 1]

abbrev documentsTable : Table String IndexedDocument := KeyedStore.empty

theorem interleaved_over : AllOver
    (Pool.run (ingestions .ascii .key (Table String IndexedDocument)) ⟨documentsTable, []⟩
      interleaved) := by
  unfold AllOver
  decide +kernel

/-- They go on in turn, and end as one after the other. -/
theorem interleaved_serializable :
    SameContent (ingestInTurn .ascii .key [termsTask, policyTask] documentsTable)
        (Pool.run (ingestions .ascii .key (Table String IndexedDocument)) ⟨documentsTable, []⟩
          interleaved).shared ∧
      (Pool.run (ingestions .ascii .key (Table String IndexedDocument)) ⟨documentsTable, []⟩
          interleaved).procs.map Ingestion.result? =
        [policyTask, termsTask].map fun task => some (task.run .ascii .key documentsTable).1 := by
  have hshared : NothingShared (UploadTask.Owns .ascii .key) (starts interleaved) := by
    refine nothingShared_of_distinct (fun _ _ _ => rfl) ?_
    simp [starts, interleaved, policyTask, termsTask, policyUpload]
  exact ingestions_serializable .ascii .key _ documentsTable interleaved hshared interleaved_over _
    (List.Perm.swap _ _ _)

end AgentPlatform
