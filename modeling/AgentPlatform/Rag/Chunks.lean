import AgentPlatform.Rag.Records

/-!
# Chunking loses nothing

The chunks of a text, told without the loop: the windows at the multiples of the stride, as
many as it takes to reach the end.

* `Chunker.Loop` — the loop of the chunker, round by round.
* `Chunker.chunkFrom_eq` — the windows.
* `Chunker.lt_count_iff` — how many there are.
* `Chunker.joined_chunkFrom` — put together again, they are the text.
* `Chunker.run_covers` — **what the chunker makes of a text.**
-/

namespace AgentPlatform

namespace Chunker

variable (c : Chunker)

/-- The characters of the window at a place. -/
def window (text : List Char) (start : ℕ) : List Char := (text.drop start).take c.size

/-- The `while` loop: from a start and a number on it makes the chunks, and comes to its end. -/
inductive Loop (metadata : Dict) (text : List Char) : ℕ → ℕ → List Chunk → Prop
  /-- The window starts past the end. -/
  | past {start idx : ℕ} (hstart : ¬ start < text.length) : Loop metadata text start idx []
  /-- The window reaches the end. -/
  | last {start idx : ℕ} (hstart : start < text.length) (hstop : text.length ≤ start + c.size) :
      Loop metadata text start idx [⟨String.ofList (c.window text start), idx, metadata⟩]
  | next {start idx : ℕ} {chunks : List Chunk} (hstart : start < text.length)
      (hstop : ¬ text.length ≤ start + c.size)
      (hrest : Loop metadata text (start + c.size - c.overlap) (idx + 1) chunks) :
      Loop metadata text start idx
        (⟨String.ofList (c.window text start), idx, metadata⟩ :: chunks)

variable {c} {metadata : Dict} {text : List Char}

/-- **The loop ends**, within as many rounds as the text has characters. -/
theorem loop_chunkFrom {fuel start : ℕ} (idx : ℕ) (hfuel : text.length ≤ start + fuel) :
    c.Loop metadata text start idx (c.chunkFrom metadata text fuel start idx) := by
  induction fuel generalizing start idx with
  | zero => exact .past (by omega)
  | succ fuel ih =>
    have hsize := c.overlap_lt
    rw [chunkFrom]
    by_cases hstart : start < text.length
    · rw [if_pos hstart]
      by_cases hstop : text.length ≤ start + c.size
      · rw [if_pos hstop]
        exact .last hstart hstop
      · rw [if_neg hstop]
        exact .next hstart hstop (ih (idx + 1) (by omega))
    · rw [if_neg hstart]
      exact .past hstart

/-- The window is moved on by the stride. -/
theorem next_start (start : ℕ) : start + c.size - c.overlap = start + c.stride := by
  have hsize := c.overlap_lt
  unfold stride
  omega

/-- The loop makes one list of chunks. -/
theorem Loop.eq_windows {start idx : ℕ} {chunks : List Chunk}
    (h : c.Loop metadata text start idx chunks) :
    chunks = (List.range (c.count (text.length - start))).map fun i =>
      ⟨String.ofList (c.window text (start + i * c.stride)), idx + i, metadata⟩ := by
  induction h with
  | @past start idx hstart =>
    have hzero : text.length - start = 0 := by omega
    simp [hzero, count]
  | @last start idx hstart hstop =>
    rw [count_of_le (by omega) (by omega)]
    simp
  | @next start idx chunks hstart hstop hrest ih =>
    have hlonger : c.size < text.length - start := by omega
    rw [ih, next_start, count_of_lt hlonger, List.range_succ_eq_map, List.map_cons, List.map_map,
      Nat.sub_sub]
    congr 1
    · simp
    · refine List.map_congr_left fun i hi => ?_
      have hplace : start + c.stride + i * c.stride = start + (i + 1) * c.stride := by ring
      have hnumber : idx + 1 + i = idx + (i + 1) := by omega
      rw [Function.comp_apply, hplace, hnumber]

/-- There is a window after the one at a place if that one does not reach the end. -/
theorem succ_lt_count_iff {length i : ℕ} (hpos : 0 < length) :
    i + 1 < c.count length ↔ i * c.stride + c.size < length := by
  have hstride := c.stride_pos
  rw [count, if_neg (by omega), Nat.add_lt_add_iff_right, Nat.lt_iff_add_one_le,
    Nat.le_div_iff_mul_le hstride, Nat.add_mul, Nat.one_mul]
  omega

theorem count_pos_iff {length : ℕ} : 0 < c.count length ↔ 0 < length := by
  unfold count
  split
  · omega
  · exact iff_of_true (Nat.succ_pos _) (by omega)

/-! ## Put together -/

/-- The chunks put together again: of every chunk but the first, what the one before it had
already is dropped. -/
def joined (overlap : ℕ) : List Chunk → List Char
  | [] => []
  | chunk :: chunks =>
    chunk.text.toList ++ chunks.flatMap fun chunk => chunk.text.toList.drop overlap

/-- What the chunks from a place on add to those before. -/
theorem Loop.flatMap_drop {start idx : ℕ} {chunks : List Chunk}
    (h : c.Loop metadata text start idx chunks) (hover : start + c.overlap ≤ text.length) :
    (chunks.flatMap fun chunk => chunk.text.toList.drop c.overlap) =
      text.drop (start + c.overlap) := by
  have hsize := c.overlap_lt
  induction h with
  | @past start idx hstart =>
    rw [List.drop_of_length_le (by omega)]
    rfl
  | @last start idx hstart hstop =>
    have hall : c.window text start = text.drop start :=
      List.take_of_length_le (by rw [List.length_drop]; omega)
    simp [hall, List.drop_drop]
  | @next start idx chunks hstart hstop hrest ih =>
    rw [List.flatMap_cons, ih (by omega), String.toList_ofList, window, List.drop_take,
      List.drop_drop]
    have hnext : text.drop (start + c.size - c.overlap + c.overlap) =
        (text.drop (start + c.overlap)).drop (c.size - c.overlap) := by
      rw [List.drop_drop]
      congr 1
      omega
    rw [hnext, List.take_append_drop]

/-- **Put together, the chunks are the text.** -/
theorem Loop.joined {idx start : ℕ} {chunks : List Chunk}
    (h : c.Loop metadata text start idx chunks) : joined c.overlap chunks = text.drop start := by
  have hsize := c.overlap_lt
  cases h with
  | past hstart => exact (List.drop_of_length_le (by omega)).symm
  | last hstart hstop =>
    have hall : c.window text start = text.drop start :=
      List.take_of_length_le (by rw [List.length_drop]; omega)
    simp [Chunker.joined, hall]
  | next hstart hstop hrest =>
    rw [Chunker.joined, hrest.flatMap_drop (by omega), String.toList_ofList, window]
    have hnext : text.drop (start + c.size - c.overlap + c.overlap) =
        (text.drop start).drop c.size := by
      rw [List.drop_drop]
      congr 1
      omega
    rw [hnext, List.take_append_drop]

/-! ## What the chunker makes of a text -/

/-- The chunks cover a text: nothing is lost, and no chunk lies inside the one before it. -/
structure Covers (c : Chunker) (text : List Char) (chunks : List Chunk) : Prop where
  joined : joined c.overlap chunks = text
  indices : chunks.map Chunk.index = List.range chunks.length
  slices : ∀ i chunk, chunks[i]? = some chunk →
    chunk.text.toList = (text.drop (i * (c.size - c.overlap))).take c.size
  full : ∀ i chunk, chunks[i]? = some chunk → i + 1 < chunks.length →
    chunk.text.length = c.size
  last : ∀ chunk, chunks.getLast? = some chunk →
    chunk.text ≠ "" ∧ (1 < chunks.length → c.overlap < chunk.text.length)
  empty : text = [] → chunks = []

theorem length_window {start : ℕ} :
    (c.window text start).length = min c.size (text.length - start) := by
  rw [window, List.length_take, List.length_drop]

/-- The chunk at a place is the window there. -/
theorem Loop.chunk_at {chunks : List Chunk} (h : c.Loop metadata text 0 0 chunks) {i : ℕ}
    {chunk : Chunk} (hchunk : chunks[i]? = some chunk) :
    i < c.count text.length ∧ chunk.text.toList = c.window text (i * c.stride) := by
  have hwindows := h.eq_windows
  simp only [Nat.sub_zero, Nat.zero_add] at hwindows
  rw [hwindows, List.getElem?_map, Option.map_eq_some_iff] at hchunk
  obtain ⟨j, hj, rfl⟩ := hchunk
  obtain ⟨hlt, hij⟩ := List.getElem?_eq_some_iff.1 hj
  rw [List.length_range] at hlt
  rw [List.getElem_range] at hij
  subst hij
  exact ⟨hlt, String.toList_ofList⟩

/-- The last window starts before the end, by more than the overlap if there is one before it. -/
theorem last_start {length : ℕ} (hpos : 0 < length) :
    (c.count length - 1) * c.stride < length ∧
      (1 < c.count length → (c.count length - 1) * c.stride + c.overlap < length) := by
  rcases Nat.lt_or_ge 1 (c.count length) with hmany | hone
  · -- the window before the last one does not reach the end
    obtain ⟨i, hcount⟩ : ∃ i, c.count length = i + 1 + 1 := ⟨c.count length - 2, by omega⟩
    have hbefore : i * c.stride + c.size < length := (succ_lt_count_iff hpos).1 (by omega)
    have hlast : (c.count length - 1) * c.stride = i * c.stride + c.stride := by
      rw [hcount, Nat.add_sub_cancel, Nat.add_mul, Nat.one_mul]
    have hsize := c.overlap_lt
    have hstride : c.stride + c.overlap = c.size := by unfold stride; omega
    omega
  · have hzero : c.count length - 1 = 0 := by omega
    rw [hzero, Nat.zero_mul]
    exact ⟨hpos, fun hlt => by omega⟩

/-- The windows of a text cover it. -/
theorem Loop.covers {chunks : List Chunk} (h : c.Loop metadata text 0 0 chunks) :
    c.Covers text chunks := by
  have hsize := c.overlap_lt
  have hwindows := h.eq_windows
  simp only [Nat.sub_zero, Nat.zero_add] at hwindows
  have hlength : chunks.length = c.count text.length := by rw [hwindows]; simp
  have hpos : ∀ {i}, i < c.count text.length → 0 < text.length :=
    fun hi => count_pos_iff.1 (Nat.lt_of_le_of_lt (Nat.zero_le _) hi)
  refine ⟨h.joined, ?_, ?_, ?_, ?_, ?_⟩
  · rw [hlength, hwindows, List.map_map]
    exact List.map_id _
  · intro i chunk hchunk
    exact (h.chunk_at hchunk).2
  · intro i chunk hchunk hlt
    obtain ⟨hi, htext⟩ := h.chunk_at hchunk
    rw [hlength, succ_lt_count_iff (hpos hi)] at hlt
    rw [← String.length_toList, htext, length_window]
    omega
  · intro chunk hchunk
    rw [List.getLast?_eq_getElem?, hlength] at hchunk
    obtain ⟨hi, htext⟩ := h.chunk_at hchunk
    obtain ⟨hstart, hover⟩ := last_start (c := c) (hpos hi)
    have hlen : chunk.text.length =
        min c.size (text.length - (c.count text.length - 1) * c.stride) := by
      rw [← String.length_toList, htext, length_window]
    rw [hlength]
    refine ⟨?_, fun hmany => ?_⟩
    · intro hnil
      rw [hnil, String.length_empty] at hlen
      omega
    · have hlast := hover hmany
      omega
  · rintro rfl
    rw [hwindows]
    rfl

/-- **What the chunker makes of a text**: its loop comes to an end, and the chunks cover the
text. -/
theorem run_covers (c : Chunker) (ctx : IngestContext) (text : String) :
    ∃ metadata chunks, c.run { ctx with text := some text } =
        .ok { ctx with text := some text, chunks := some chunks } ∧
      c.Loop metadata text.toList 0 0 chunks ∧ c.Covers text.toList chunks := by
  have hfuel : text.toList.length ≤ 0 + text.toList.length := by omega
  exact ⟨_, _, rfl, loop_chunkFrom 0 hfuel, (loop_chunkFrom 0 hfuel).covers⟩

end Chunker

end AgentPlatform
