import AgentPlatform.Tools.Catalog

/-!
# Document retrieval

`search_documents` resolves the documents the caller may read and hands them to
the vector store as a filter.  The two say "nothing" differently: an empty list of
permitted documents is, for the store, no filter at all.

* `searchDocuments_run_eq_ok_iff` — what the tool does, step by step.
* `FailClosed` — every hit is of the caller's tenant and of a permitted document.
* `searchDocuments_failClosed_iff` — **exactly when retrieval is fail-closed** for
  a caller who is not staff.
-/

namespace AgentPlatform

/-! ## The permitted documents -/

section Acl

variable {test : Json → Except PyErr Bool} {xs ys : List Json}

/-- What a filter keeps. -/
theorem mem_of_filterItems (h : filterItems test xs = .ok ys) (d : Json) :
    d ∈ ys ↔ d ∈ xs ∧ test d = .ok true := by
  induction xs generalizing ys with
  | nil =>
    obtain rfl := Except.ok.inj h
    simp
  | cons x xs ih =>
    obtain ⟨keep, hkeep, h⟩ := bind_eq_ok_iff.1 h
    obtain ⟨rest, hrest, h⟩ := bind_eq_ok_iff.1 h
    obtain rfl := Except.ok.inj h
    cases keep with
    | true =>
      rw [if_pos rfl, List.mem_cons, List.mem_cons, ih hrest]
      constructor
      · rintro (rfl | ⟨hmem, htest⟩)
        · exact ⟨Or.inl rfl, hkeep⟩
        · exact ⟨Or.inr hmem, htest⟩
      · rintro ⟨rfl | hmem, htest⟩
        · exact Or.inl rfl
        · exact Or.inr ⟨hmem, htest⟩
    | false =>
      rw [if_neg (by simp), List.mem_cons, ih hrest]
      constructor
      · rintro ⟨hmem, htest⟩
        exact ⟨Or.inr hmem, htest⟩
      · rintro ⟨rfl | hmem, htest⟩
        · rw [hkeep] at htest; cases htest
        · exact ⟨hmem, htest⟩

/-- A filter goes through when its test does not raise. -/
theorem exists_filterItems (h : ∀ d ∈ xs, ∃ b, test d = .ok b) :
    ∃ ys, filterItems test xs = .ok ys := by
  induction xs with
  | nil => exact ⟨[], rfl⟩
  | cons x xs ih =>
    obtain ⟨b, hb⟩ := h x (List.mem_cons_self ..)
    obtain ⟨ys, hys⟩ := ih fun d hd => h d (List.mem_cons_of_mem _ hd)
    exact ⟨if b then x :: ys else ys, by rw [filterItems, hb, hys]; rfl⟩

theorem filterItems_ok (h : filterItems test xs = .ok ys) : ∀ d ∈ xs, ∃ b, test d = .ok b := by
  induction xs generalizing ys with
  | nil => simp
  | cons x xs ih =>
    obtain ⟨keep, hkeep, h⟩ := bind_eq_ok_iff.1 h
    obtain ⟨rest, hrest, -⟩ := bind_eq_ok_iff.1 h
    intro d hd
    rcases List.mem_cons.1 hd with rfl | hd
    · exact ⟨keep, hkeep⟩
    · exact ih hrest d hd

end Acl

/-- Is the value a string that starts with the caller's id? -/
def OwnedBy (ctx : ToolContext) (d : Json) : Prop :=
  ∃ id : String, d = .str id ∧ ctx.userId.toList <+: id.toList

/-- The request names a document of the caller. -/
def RequestsOwned (ctx : ToolContext) (requested : Json) : Prop :=
  ∃ items, requested.items = .ok items ∧ ∃ d ∈ items, OwnedBy ctx d

/-- A request for something other than a list of strings. -/
def MalformedRequest (requested : Json) : Prop :=
  requested.truthy = true ∧
    ∀ items, requested.items = .ok items → ∃ d ∈ items, ∀ id : String, d ≠ .str id

theorem startsWith_eq_ok_true_iff {ctx : ToolContext} {d : Json} :
    d.startsWith ctx.userId = .ok true ↔ OwnedBy ctx d := by
  cases d <;> simp [Json.startsWith, Json.asStr, OwnedBy, bind, Except.bind]

theorem exists_startsWith_iff {ctx : ToolContext} {d : Json} :
    (∃ b, d.startsWith ctx.userId = .ok b) ↔ ∃ id : String, d = .str id := by
  cases d <;> simp [Json.startsWith, Json.asStr, bind, Except.bind]

section NonStaff

variable {ctx : ToolContext} {requested : Json}

theorem documentAcl_of_not_truthy (hstaff : isDocumentStaff ctx = false)
    (h : requested.truthy = false) : documentAcl ctx requested = .ok (.arr []) := by
  rw [documentAcl, if_neg (by simp [hstaff]), if_neg (by simp [h])]

theorem documentAcl_of_truthy (hstaff : isDocumentStaff ctx = false)
    (h : requested.truthy = true) :
    documentAcl ctx requested = (do
      let items ← requested.items
      let owned ← filterItems (fun d => d.startsWith ctx.userId) items
      .ok (.arr owned)) := by
  rw [documentAcl, if_neg (by simp [hstaff]), if_pos h]

/-- A value that is not truthy has no items. -/
theorem items_of_not_truthy (h : requested.truthy = false) {items : List Json}
    (hitems : requested.items = .ok items) : items = [] := by
  cases requested with
  | null => cases hitems
  | num n => cases hitems
  | str s =>
    obtain rfl : s = "" := by simpa [Json.truthy] using h
    exact (Except.ok.inj hitems).symm
  | arr xs =>
    obtain rfl : xs = [] := by simpa [Json.truthy] using h
    exact (Except.ok.inj hitems).symm
  | obj fields =>
    obtain rfl : fields = [] := by simpa [Json.truthy] using h
    exact (Except.ok.inj hitems).symm

theorem not_requestsOwned_of_not_truthy (h : requested.truthy = false) :
    ¬ RequestsOwned ctx requested := by
  rintro ⟨items, hitems, d, hd, -⟩
  rw [items_of_not_truthy h hitems] at hd
  exact absurd hd (by simp)

/-- What the list of a caller who is not staff can be. -/
theorem documentAcl_cases (hstaff : isDocumentStaff ctx = false) (requested : Json) :
    (MalformedRequest requested ∧ ∃ e, documentAcl ctx requested = .error e) ∨
      ¬ MalformedRequest requested ∧ ∃ owned, documentAcl ctx requested = .ok (.arr owned) ∧
        (∀ d ∈ owned, ∃ id : String, d = .str id) ∧
        (owned = [] ↔ ¬ RequestsOwned ctx requested) := by
  cases htruthy : requested.truthy with
  | false =>
    refine Or.inr ⟨fun hmal => ?_, [], documentAcl_of_not_truthy hstaff htruthy, by simp, ?_⟩
    · rw [hmal.1] at htruthy; cases htruthy
    · simpa using not_requestsOwned_of_not_truthy htruthy
  | true =>
    rw [documentAcl_of_truthy hstaff htruthy]
    cases hitems : requested.items with
    | error e =>
      refine Or.inl ⟨⟨htruthy, fun items h => ?_⟩, e, rfl⟩
      rw [hitems] at h; cases h
    | ok items =>
      by_cases hstr : ∀ d ∈ items, ∃ id : String, d = .str id
      · have htest : ∀ d ∈ items, ∃ b, d.startsWith ctx.userId = .ok b :=
          fun d hd => exists_startsWith_iff.2 (hstr d hd)
        obtain ⟨owned, howned⟩ := exists_filterItems htest
        have hmem := mem_of_filterItems howned
        refine Or.inr ⟨?_, owned, by rw [bind_eq_ok_iff]; exact ⟨items, rfl, by rw [howned]; rfl⟩,
          fun d hd => hstr d ((hmem d).1 hd).1, ?_⟩
        · rintro ⟨-, hmal⟩
          obtain ⟨d, hd, hne⟩ := hmal items hitems
          obtain ⟨id, hid⟩ := hstr d hd
          exact hne id hid
        · rw [List.eq_nil_iff_forall_not_mem]
          constructor
          · rintro hnil ⟨items', hitems', d, hd, hown⟩
            obtain rfl := Except.ok.inj (hitems.symm.trans hitems')
            exact hnil d ((hmem d).2 ⟨hd, startsWith_eq_ok_true_iff.2 hown⟩)
          · rintro hno d hd
            obtain ⟨hd', hown⟩ := (hmem d).1 hd
            exact hno ⟨items, hitems, d, hd', startsWith_eq_ok_true_iff.1 hown⟩
      · refine Or.inl ⟨⟨htruthy, fun items' h => ?_⟩, ?_⟩
        · obtain rfl := Except.ok.inj (hitems.symm.trans h)
          push Not at hstr
          exact hstr
        · cases hfilter : filterItems (fun d => d.startsWith ctx.userId) items with
          | error e => exact ⟨e, by show (filterItems _ items >>= _) = _; rw [hfilter]; rfl⟩
          | ok owned =>
            exact absurd (fun d hd => exists_startsWith_iff.1 (filterItems_ok hfilter d hd)) hstr

end NonStaff

/-! ## The search -/

/-- How many hits are asked for. -/
def requestedTopK (rt : PyRuntime) (arguments : Dict) : Except PyErr ℤ :=
  (pyOr (arguments.get "top_k") (.int 5)).toInt rt

/-- The tool, step by step: the number of hits, the permitted documents, the search. -/
theorem searchDocuments_run_eq_ok_iff {rt : PyRuntime} {store : InMemoryVectorStore}
    {ctx : ToolContext} {arguments : Dict} {result : ToolResult} :
    (searchDocuments rt store).run ctx arguments = .ok result ↔
      ∃ topK permitted hits, requestedTopK rt arguments = .ok topK ∧
        documentAcl ctx (arguments.get "document_ids") = .ok permitted ∧
        store.search ctx.tenantId queryVector topK permitted = .ok hits ∧
        ToolResult.success [("query", arguments.getD "query" (.str "")),
          ("hits", .arr (hits.map SearchHit.asdict))] = result := by
  simp only [searchDocuments, bind_eq_ok_iff, Except.ok.injEq]
  constructor
  · rintro ⟨topK, htop, permitted, hacl, hits, hsearch, rfl⟩
    exact ⟨topK, permitted, hits, htop, hacl, hsearch, rfl⟩
  · rintro ⟨topK, permitted, hits, htop, hacl, hsearch, rfl⟩
    exact ⟨topK, htop, permitted, hacl, hits, hsearch, rfl⟩

/-- A list of strings that is not empty is a filter. -/
theorem setOrNone_of_strings {ids : List Json} (hne : ids ≠ [])
    (hstr : ∀ d ∈ ids, ∃ id : String, d = .str id) : setOrNone (.arr ids) = .ok (some ids) := by
  have htruthy : (Json.arr ids).truthy = true := by simp [Json.truthy, hne]
  have hall : ids.all Json.hashable = true := by
    rw [List.all_eq_true]
    intro d hd
    obtain ⟨id, rfl⟩ := hstr d hd
    rfl
  rw [setOrNone, if_pos htruthy, Json.items, bind_eq_ok_iff]
  exact ⟨ids, rfl, if_pos hall⟩

/-- Without a filter, a search has no hits only if nothing is left of the tenant's
records after the cut. -/
theorem search_unfiltered_eq_nil_iff {store : InMemoryVectorStore} {t : String} {vector : List ℚ}
    {topK : ℤ} :
    store.search t vector topK (.arr []) = .ok [] ↔ sliceTo (store.ofTenant t) topK = [] := by
  have hlen : (InMemoryVectorStore.sortByScore (store.scored t vector none)).length =
      (store.ofTenant t).length := by
    simp [InMemoryVectorStore.sortByScore, InMemoryVectorStore.scored,
      InMemoryVectorStore.inAllowed]
  show Except.ok _ = Except.ok _ ↔ _
  rw [Except.ok.injEq, ← List.length_eq_zero_iff, ← List.length_eq_zero_iff, length_sliceTo,
    length_sliceTo, hlen]

/-! ## Fail-closed -/

/-- Every hit in the result is made by a record of the caller's tenant, of a
document in the permitted list. -/
def FailClosed (rt : PyRuntime) (store : InMemoryVectorStore) (ctx : ToolContext)
    (arguments : Dict) : Prop :=
  ∀ result permitted hits, (searchDocuments rt store).run ctx arguments = .ok result →
    documentAcl ctx (arguments.get "document_ids") = .ok (.arr permitted) →
    result.data.get? "hits" = some (.arr hits) →
    ∀ hit ∈ hits, ∃ r ∈ store.records, r.tenantId = ctx.tenantId ∧
      Json.str r.documentId ∈ permitted ∧
      hit = (InMemoryVectorStore.hitOf queryVector r).asdict

theorem failClosed_of_permitted {rt : PyRuntime} {store : InMemoryVectorStore}
    {ctx : ToolContext} {arguments : Dict}
    (h : ∀ permitted, documentAcl ctx (arguments.get "document_ids") = .ok (.arr permitted) →
      permitted ≠ [] ∧ ∀ d ∈ permitted, ∃ id : String, d = .str id) :
    FailClosed rt store ctx arguments := by
  rintro result permitted hits hrun hacl hdata hit hmem
  obtain ⟨hne, hstr⟩ := h permitted hacl
  obtain ⟨topK, permitted', found, -, hacl', hsearch, rfl⟩ := searchDocuments_run_eq_ok_iff.1 hrun
  obtain rfl : Json.arr permitted = permitted' := Except.ok.inj (hacl.symm.trans hacl')
  obtain rfl : found.map SearchHit.asdict = hits := by
    simpa [ToolResult.success, Dict.get?_cons] using hdata
  obtain ⟨hit', hmem', rfl⟩ := List.mem_map.1 hmem
  obtain ⟨r, hr, ht, rfl, allowed, hset, hin⟩ := InMemoryVectorStore.mem_search hsearch hmem'
  refine ⟨r, hr, ht, ?_, rfl⟩
  rw [setOrNone_of_strings hne hstr] at hset
  obtain rfl := Except.ok.inj hset
  obtain ⟨id, hid, heq⟩ := List.any_eq_true.1 hin
  rwa [Json.pyEq_str_iff.1 heq] at hid

/-- **When retrieval is fail-closed.**  For a caller who is not staff: when the
request names a document of the caller, or is refused as malformed, or the number
of hits leaves nothing of the tenant's records; in every other case, documents
outside the permitted list are returned. -/
theorem searchDocuments_failClosed_iff (rt : PyRuntime) (store : InMemoryVectorStore)
    (ctx : ToolContext) (arguments : Dict) (hstaff : isDocumentStaff ctx = false) :
    FailClosed rt store ctx arguments ↔
      RequestsOwned ctx (arguments.get "document_ids") ∨
        MalformedRequest (arguments.get "document_ids") ∨
        ∀ topK, requestedTopK rt arguments = .ok topK →
          sliceTo (store.ofTenant ctx.tenantId) topK = [] := by
  rcases documentAcl_cases hstaff (arguments.get "document_ids") with
    ⟨hmal, e, hacl⟩ | ⟨hmal, owned, hacl, hstr, hnil⟩
  · refine ⟨fun _ => Or.inr (Or.inl hmal), fun _ => failClosed_of_permitted fun permitted h => ?_⟩
    rw [hacl] at h; cases h
  · have hthis : ∀ permitted,
        documentAcl ctx (arguments.get "document_ids") = .ok (.arr permitted) →
          permitted = owned := by
      intro permitted h
      rw [hacl] at h
      exact (Json.arr.inj (Except.ok.inj h)).symm
    by_cases howned : RequestsOwned ctx (arguments.get "document_ids")
    · refine ⟨fun _ => Or.inl howned, fun _ => failClosed_of_permitted fun permitted h => ?_⟩
      rw [hthis permitted h]
      exact ⟨fun h => hnil.1 h howned, hstr⟩
    · obtain rfl : owned = [] := hnil.2 howned
      simp only [howned, hmal, false_or]
      constructor
      · intro hfail topK htop
        refine search_unfiltered_eq_nil_iff.1
          (?_ : store.search ctx.tenantId queryVector topK (.arr []) = .ok [])
        obtain ⟨found, hsearch⟩ :
            ∃ found, store.search ctx.tenantId queryVector topK (.arr []) = .ok found := ⟨_, rfl⟩
        have hrun :=
          searchDocuments_run_eq_ok_iff.2 ⟨topK, .arr [], found, htop, hacl, hsearch, rfl⟩
        have hclosed := hfail _ [] (found.map SearchHit.asdict) hrun hacl
          (by simp [ToolResult.success, Dict.get?_cons])
        cases found with
        | nil => exact hsearch
        | cons hit found =>
          obtain ⟨r, -, -, hmem, -⟩ := hclosed hit.asdict (by simp)
          exact absurd hmem (by simp)
      · rintro hslice result permitted hits hrun - hdata hit hmem
        obtain ⟨topK, permitted', found, htop, hacl', hsearch, rfl⟩ :=
          searchDocuments_run_eq_ok_iff.1 hrun
        obtain rfl : Json.arr [] = permitted' := Except.ok.inj (hacl.symm.trans hacl')
        obtain rfl : [] = found := Except.ok.inj
          ((search_unfiltered_eq_nil_iff.2 (hslice topK htop)).symm.trans hsearch)
        obtain rfl : [] = hits := by simpa [ToolResult.success, Dict.get?_cons] using hdata
        exact absurd hmem (by simp)

/-- A store with one document, which nobody of the tenant owns. -/
def oneDocumentStore : InMemoryVectorStore :=
  ⟨[⟨"doc-9:0", "t1", "doc-9", 0, [], [("tenant_id", .str "t1")]⟩]⟩

/-- A customer of the tenant. -/
def documentCustomer : ToolContext := ⟨"t1", "u1", ["customer"], "c1", some "u1"⟩

/-- A request for a document of one's own is answered fail-closed. -/
theorem failClosed_own_document :
    FailClosed .ascii oneDocumentStore documentCustomer
      [("query", .str "terms"), ("document_ids", .arr [.str "u1-statement"])] :=
  (searchDocuments_failClosed_iff .ascii oneDocumentStore documentCustomer _ (by decide)).2
    (Or.inl ⟨[.str "u1-statement"], rfl, .str "u1-statement", by simp, "u1-statement", rfl,
      by decide⟩)

/-- A request that names no document is answered with a document nobody permitted. -/
theorem not_failClosed_no_document :
    ¬ FailClosed .ascii oneDocumentStore documentCustomer [("query", .str "terms")] := by
  intro h
  obtain ⟨r, -, -, hmem, -⟩ := h _ [] _ rfl rfl rfl _ (List.mem_cons_self ..)
  exact absurd hmem (by simp)

end AgentPlatform
