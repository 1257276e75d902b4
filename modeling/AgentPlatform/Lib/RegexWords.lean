import AgentPlatform.Lib.Regex

/-!
# The words a regular expression matches

`Regex.ends` runs an expression at a place of a text and answers where a match
can end.  This file says the same without the engine: a word is matched or not,
and whether it is depends on the word and on the characters on its two sides, not
on the rest of the text.

* `Regex.Spans` — the words of an expression, by recursion on the expression.
* `Regex.accepts_ends` — the engine finds these words and no others.
* `Regex.Occurs`, `Regex.search?_iff` — an expression matches somewhere in a text
  exactly if one of its words stands there.
* `Regex.Edged` — the words of an expression between two word edges, of which only
  the edges look at the text around them.
-/

namespace Regex

/-! ## The characters around a word -/

/-- The character before a place, once `s` has been passed. -/
def lastOr (prev : Option Char) : List Char → Option Char
  | [] => prev
  | x :: xs => lastOr (some x) xs

/-- The character at a place, when `s` and then `next` are ahead. -/
def firstOr (next : Option Char) : List Char → Option Char
  | [] => next
  | x :: _ => some x

@[simp] theorem lastOr_cons (prev : Option Char) (x : Char) (xs : List Char) :
    lastOr prev (x :: xs) = lastOr (some x) xs := rfl

@[simp] theorem lastOr_append (prev : Option Char) (s t : List Char) :
    lastOr prev (s ++ t) = lastOr (lastOr prev s) t := by
  induction s generalizing prev with
  | nil => rfl
  | cons x xs ih => exact ih (some x)

theorem firstOr_head?_append (s t : List Char) : firstOr t.head? s = (s ++ t).head? := by
  cases s <;> rfl

/-- After a word that is not empty comes one of its characters. -/
theorem lastOr_mem {s : List Char} (hs : s ≠ []) (prev : Option Char) :
    ∃ c ∈ s, lastOr prev s = some c := by
  induction s generalizing prev with
  | nil => exact absurd rfl hs
  | cons x xs ih =>
    cases xs with
    | nil => exact ⟨x, by simp, rfl⟩
    | cons y ys =>
      obtain ⟨c, hc, hlast⟩ := ih (by simp) (some x)
      exact ⟨c, List.mem_cons_of_mem _ hc, hlast⟩

/-- After such a word it does not matter what came before it. -/
theorem lastOr_eq_of_ne_nil {s : List Char} (hs : s ≠ []) (prev prev' : Option Char) :
    lastOr prev s = lastOr prev' s := by
  cases s with
  | nil => exact absurd rfl hs
  | cons x xs => rfl

/-! ## Languages -/

/-- Words, each with the characters on its two sides. -/
abbrev Lang := Option Char → List Char → Option Char → Prop

namespace Lang

/-- A word of the first, then one of the second. -/
def followedBy (A B : Lang) : Lang := fun prev s next =>
  ∃ u v, s = u ++ v ∧ A prev u (firstOr next v) ∧ B (lastOr prev u) v next

/-- So many words, one after the other. -/
def rounds (A : Lang) : ℕ → Lang
  | 0 => fun _ s _ => s = []
  | k + 1 => A.followedBy (A.rounds k)

/-- Rounds that all consume something are no more than the characters they consume. -/
theorem le_length_of_rounds {A : Lang} (hA : ∀ prev next, ¬ A prev [] next) {k : ℕ}
    {prev next : Option Char} {s : List Char} (h : A.rounds k prev s next) : k ≤ s.length := by
  induction k generalizing prev s with
  | zero => exact Nat.zero_le _
  | succ k ih =>
    obtain ⟨u, v, rfl, hu, hv⟩ := h
    have hlen : 0 < u.length := by
      apply List.length_pos_iff.2
      rintro rfl
      exact hA _ _ hu
    have hk := ih hv
    rw [List.length_append]
    omega

/-- Rounds of one character each. -/
theorem rounds_char {p : Char → Bool} {k : ℕ} {prev next : Option Char} {s : List Char} :
    rounds (fun _ s _ => ∃ c, p c = true ∧ s = [c]) k prev s next ↔
      s.length = k ∧ ∀ c ∈ s, p c = true := by
  induction k generalizing prev s with
  | zero =>
    rw [rounds, List.length_eq_zero_iff]
    constructor
    · rintro rfl; simp
    · exact fun h => h.1
  | succ k ih =>
    constructor
    · rintro ⟨u, v, rfl, ⟨c, hc, rfl⟩, hv⟩
      obtain ⟨hlen, hall⟩ := ih.1 hv
      refine ⟨by simp [hlen], ?_⟩
      simpa [hc] using hall
    · rintro ⟨hlen, hall⟩
      cases s with
      | nil => simp at hlen
      | cons x xs =>
        rw [List.forall_mem_cons] at hall
        exact ⟨[x], xs, rfl, ⟨x, hall.1, rfl⟩, ih.2 ⟨by simpa using hlen, hall.2⟩⟩

/-- What holds of the characters of every word holds of the characters of its rounds. -/
theorem forall_mem_of_rounds {A : Lang} {P : Char → Prop}
    (hA : ∀ prev s next, A prev s next → ∀ c ∈ s, P c) {k : ℕ} {prev next : Option Char}
    {s : List Char} (h : A.rounds k prev s next) : ∀ c ∈ s, P c := by
  induction k generalizing prev s with
  | zero =>
    obtain rfl : s = [] := h
    simp
  | succ k ih =>
    obtain ⟨u, v, rfl, hu, hv⟩ := h
    exact List.forall_mem_append.2 ⟨hA _ _ _ hu, ih hv⟩

end Lang

/-! ## The words of an expression -/

variable (isWord : Char → Bool)

/-- The edge of a word lies between these two characters. -/
def Edge (before after : Option Char) : Prop := before.any isWord ≠ after.any isWord

/-- The words that an expression matches between two characters. -/
def Spans : Regex → Lang
  | eps => fun _ s _ => s = []
  | char p => fun _ s _ => ∃ c, p c = true ∧ s = [c]
  | boundary => fun prev s next => s = [] ∧ Edge isWord prev next
  | seq a b => (Spans a).followedBy (Spans b)
  | alt a b => fun prev s next => Spans a prev s next ∨ Spans b prev s next
  | rep _ min max a => fun prev s next =>
    ∃ k, min ≤ k ∧ (∀ m ∈ max, k ≤ m) ∧ (Spans a).rounds k prev s next

/-- Every match of the expression has at least one character. -/
def consumes : Regex → Bool
  | eps => false
  | char _ => true
  | boundary => false
  | seq a b => a.consumes || b.consumes
  | alt a b => a.consumes && b.consumes
  | rep _ min _ a => decide (0 < min) && a.consumes

/-- The bounds of every repetition are in order, and each round of an unbounded
one consumes a character. -/
def steady : Regex → Bool
  | eps => true
  | char _ => true
  | boundary => true
  | seq a b => a.steady && b.steady
  | alt a b => a.steady && b.steady
  | rep _ min max a => a.steady && max.elim a.consumes fun m => decide (min ≤ m)

variable {isWord}

theorem not_spans_nil {r : Regex} (h : r.consumes = true) (prev next : Option Char) :
    ¬ r.Spans isWord prev [] next := by
  induction r generalizing prev next with
  | eps => simp [consumes] at h
  | char p => rintro ⟨c, -, hc⟩; simp at hc
  | boundary => simp [consumes] at h
  | seq a b iha ihb =>
    rintro ⟨u, v, huv, hu, hv⟩
    obtain ⟨rfl, rfl⟩ := List.append_eq_nil_iff.1 huv.symm
    rw [consumes, Bool.or_eq_true] at h
    rcases h with h | h
    · exact iha h _ _ hu
    · exact ihb h _ _ hv
  | alt a b iha ihb =>
    rw [consumes, Bool.and_eq_true] at h
    rintro (ha | hb)
    · exact iha h.1 _ _ ha
    · exact ihb h.2 _ _ hb
  | rep greedy min max a iha =>
    rw [consumes, Bool.and_eq_true, decide_eq_true_eq] at h
    rintro ⟨k, hmin, -, hk⟩
    have hlen := Lang.le_length_of_rounds (iha h.2) hk
    rw [List.length_nil] at hlen
    omega

/-! ## The engine and the words -/

/-- A step of the engine ends exactly where a word of `A` ends. -/
def Accepts (step : Pos → List Pos) (A : Lang) : Prop :=
  ∀ p q, q ∈ step p ↔
    ∃ s, p.rest = s ++ q.rest ∧ q.prev = lastOr p.prev s ∧ A p.prev s q.rest.head?

namespace Accepts

variable {step step' : Pos → List Pos} {A B : Lang}

theorem followedBy (hA : Accepts step A) (hB : Accepts step' B) :
    Accepts (fun p => (step p).flatMap step') (A.followedBy B) := by
  intro p q
  rw [List.mem_flatMap]
  constructor
  · rintro ⟨m, hm, hq⟩
    obtain ⟨u, hu, hprev, hAu⟩ := (hA p m).1 hm
    obtain ⟨v, hv, hprev', hBv⟩ := (hB m q).1 hq
    rw [hprev] at hprev' hBv
    rw [hv, ← firstOr_head?_append] at hAu
    exact ⟨u ++ v, by rw [hu, hv, List.append_assoc], by rw [hprev', lastOr_append],
      u, v, rfl, hAu, hBv⟩
  · rintro ⟨s, hs, hprev, u, v, rfl, hAu, hBv⟩
    rw [List.append_assoc] at hs
    rw [lastOr_append] at hprev
    rw [firstOr_head?_append] at hAu
    exact ⟨⟨lastOr p.prev u, v ++ q.rest⟩, (hA _ _).2 ⟨u, hs, rfl, hAu⟩,
      (hB _ _).2 ⟨v, rfl, hprev, hBv⟩⟩

/-- Stopping at once. -/
theorem stop : Accepts (fun p => [p]) fun _ s _ => s = [] := by
  rintro ⟨prev, rest⟩ ⟨prev', rest'⟩
  simp only [List.mem_singleton, Pos.mk.injEq]
  constructor
  · rintro ⟨rfl, rfl⟩
    exact ⟨[], rfl, rfl, rfl⟩
  · rintro ⟨s, hs, hprev, rfl⟩
    exact ⟨hprev, hs.symm⟩

theorem mem_optionalRounds (hA : Accepts step A) (greedy : Bool) (extra : ℕ) :
    Accepts (optionalRounds step greedy extra)
      fun prev s next => ∃ k ≤ extra, A.rounds k prev s next := by
  induction extra with
  | zero =>
    intro p q
    simpa [Lang.rounds, optionalRounds] using stop p q
  | succ extra ih =>
    intro p q
    have hmem : q ∈ optionalRounds step greedy (extra + 1) p ↔
        q ∈ (step p).flatMap (optionalRounds step greedy extra) ∨ q ∈ [p] := by
      cases greedy <;> simp [optionalRounds, or_comm]
    rw [hmem, hA.followedBy ih p q, stop p q]
    constructor
    · rintro (⟨s, hs, hprev, u, v, rfl, hu, k, hk, hv⟩ | ⟨s, hs, hprev, rfl⟩)
      · exact ⟨u ++ v, hs, hprev, k + 1, by omega, u, v, rfl, hu, hv⟩
      · exact ⟨[], hs, hprev, 0, by omega, rfl⟩
    · rintro ⟨s, hs, hprev, k, hk, h⟩
      cases k with
      | zero => exact .inr ⟨s, hs, hprev, h⟩
      | succ k =>
        obtain ⟨u, v, rfl, hu, hv⟩ := h
        exact .inl ⟨u ++ v, hs, hprev, u, v, rfl, hu, k, by omega, hv⟩

theorem mem_rounds (hA : Accepts step A) (greedy : Bool) (extra min : ℕ) :
    Accepts (Regex.rounds step greedy extra min)
      fun prev s next => ∃ k, min ≤ k ∧ k ≤ min + extra ∧ A.rounds k prev s next := by
  induction min with
  | zero =>
    intro p q
    simpa [Regex.rounds] using hA.mem_optionalRounds greedy extra p q
  | succ min ih =>
    intro p q
    show q ∈ (step p).flatMap (Regex.rounds step greedy extra min) ↔ _
    rw [hA.followedBy ih p q]
    constructor
    · rintro ⟨s, hs, hprev, u, v, rfl, hu, k, hmin, hk, hv⟩
      exact ⟨u ++ v, hs, hprev, k + 1, by omega, by omega, u, v, rfl, hu, hv⟩
    · rintro ⟨s, hs, hprev, k, hmin, hk, h⟩
      obtain ⟨k, rfl⟩ : ∃ j, k = j + 1 := ⟨k - 1, by omega⟩
      obtain ⟨u, v, rfl, hu, hv⟩ := h
      exact ⟨u ++ v, hs, hprev, u, v, rfl, hu, k, by omega, by omega, hv⟩

end Accepts

theorem accepts_char (p : Char → Bool) :
    Accepts ((char p).ends isWord) ((char p).Spans isWord) := by
  rintro ⟨prev, rest⟩ ⟨prev', rest'⟩
  cases rest with
  | nil => simp [ends, Spans]
  | cons x xs =>
    by_cases hp : p x = true
    · simp only [ends, if_pos hp, List.mem_singleton, Pos.mk.injEq]
      constructor
      · rintro ⟨rfl, rfl⟩
        exact ⟨[x], rfl, rfl, x, hp, rfl⟩
      · rintro ⟨s, hs, hprev, c, -, rfl⟩
        obtain ⟨rfl, rfl⟩ := List.cons.inj hs
        exact ⟨hprev, rfl⟩
    · simp only [ends, if_neg hp, List.not_mem_nil, false_iff]
      rintro ⟨s, hs, -, c, hc, rfl⟩
      obtain ⟨rfl, -⟩ := List.cons.inj hs
      exact hp hc

theorem accepts_boundary : Accepts (boundary.ends isWord) (boundary.Spans isWord) := by
  rintro ⟨prev, rest⟩ ⟨prev', rest'⟩
  have hedge : Pos.atBoundary isWord ⟨prev, rest⟩ = true ↔ Edge isWord prev rest.head? := by
    simp [Pos.atBoundary, Edge]
  by_cases hb : Pos.atBoundary isWord ⟨prev, rest⟩ = true
  · simp only [ends, if_pos hb, List.mem_singleton, Pos.mk.injEq]
    constructor
    · rintro ⟨rfl, rfl⟩
      exact ⟨[], rfl, rfl, rfl, hedge.1 hb⟩
    · rintro ⟨s, hs, hprev, rfl, -⟩
      exact ⟨hprev, hs.symm⟩
  · simp only [ends, if_neg hb, List.not_mem_nil, false_iff]
    rintro ⟨s, hs, -, rfl, he⟩
    rw [List.nil_append] at hs
    subst hs
    exact hb (hedge.2 he)

/-- The engine finds the words of the expression and no others. -/
theorem accepts_ends {r : Regex} (h : r.steady = true) :
    Accepts (r.ends isWord) (r.Spans isWord) := by
  induction r with
  | eps => exact Accepts.stop
  | char p => exact accepts_char p
  | boundary => exact accepts_boundary
  | seq a b iha ihb =>
    rw [steady, Bool.and_eq_true] at h
    exact (iha h.1).followedBy (ihb h.2)
  | alt a b iha ihb =>
    rw [steady, Bool.and_eq_true] at h
    intro p q
    rw [ends, List.mem_append, iha h.1 p q, ihb h.2 p q, ← exists_or]
    simp only [Spans, ← and_or_left]
  | rep greedy min max a iha =>
    rw [steady, Bool.and_eq_true] at h
    intro p q
    rw [ends, (iha h.1).mem_rounds greedy _ min p q]
    -- The cut of an unbounded repetition is not felt: its rounds all consume.
    refine exists_congr fun s => and_congr_right fun hs => and_congr_right fun _ => ?_
    refine exists_congr fun k => and_congr_right fun hmin => ?_
    refine and_congr_left fun hk => ?_
    cases max with
    | some m =>
      have hm : min ≤ m := of_decide_eq_true h.2
      simp only [Option.getD_some, Option.mem_some_iff, forall_eq']
      omega
    | none =>
      have hlen := Lang.le_length_of_rounds (not_spans_nil h.2) hk
      simp only [Option.getD_none, Option.mem_def, reduceCtorEq, IsEmpty.forall_iff,
        implies_true, iff_true]
      rw [hs, List.length_append]
      omega

/-- There is no match at a place exactly if no word of the expression starts there. -/
theorem matchAt_eq_none_iff {r : Regex} (h : r.steady = true) {prev : Option Char}
    {text : List Char} :
    r.matchAt isWord ⟨prev, text⟩ = none ↔
      ∀ s rest, text = s ++ rest → ¬ r.Spans isWord prev s rest.head? := by
  rw [matchAt, List.head?_eq_none_iff, List.eq_nil_iff_forall_not_mem]
  constructor
  · intro hnone s rest hs hspan
    exact hnone ⟨lastOr prev s, rest⟩ ((accepts_ends h _ _).2 ⟨s, hs, rfl, hspan⟩)
  · intro hnone q hq
    obtain ⟨s, hs, -, hspan⟩ := (accepts_ends h _ _).1 hq
    exact hnone s q.rest hs hspan

/-- The word of the match at a place. -/
theorem spans_of_matchAt {r : Regex} (h : r.steady = true) {p q : Pos}
    (hq : r.matchAt isWord p = some q) :
    ∃ s, p.rest = s ++ q.rest ∧ q.prev = lastOr p.prev s ∧
      r.Spans isWord p.prev s q.rest.head? :=
  (accepts_ends h p q).1 (List.mem_of_mem_head? hq)

/-! ## Occurrences -/

/-- Somewhere in the text, which follows `prev`, stands a word of the language. -/
def Occurs (A : Lang) (prev : Option Char) (text : List Char) : Prop :=
  ∃ a s c, text = a ++ (s ++ c) ∧ A (lastOr prev a) s c.head?

theorem searchFrom_iff {r : Regex} (h : r.steady = true) {prev : Option Char}
    {text : List Char} :
    r.searchFrom isWord prev text = true ↔ Occurs (r.Spans isWord) prev text := by
  have hhere : ∀ (prev : Option Char) (text : List Char),
      (r.matchAt isWord ⟨prev, text⟩).isSome = true ↔
        ∃ s c, text = s ++ c ∧ r.Spans isWord prev s c.head? := by
    intro prev text
    rw [← not_iff_not, Bool.not_eq_true, Option.isSome_eq_false_iff,
      Option.isNone_iff_eq_none, matchAt_eq_none_iff h]
    push Not
    rfl
  induction text generalizing prev with
  | nil =>
    rw [searchFrom, hhere]
    constructor
    · rintro ⟨s, c, hs, hspan⟩
      exact ⟨[], s, c, hs, hspan⟩
    · rintro ⟨a, s, c, hs, hspan⟩
      obtain ⟨rfl, hsc⟩ := List.append_eq_nil_iff.1 hs.symm
      exact ⟨s, c, hsc.symm, hspan⟩
  | cons x xs ih =>
    rw [searchFrom, Bool.or_eq_true, hhere]
    constructor
    · rintro (⟨s, c, hs, hspan⟩ | hlater)
      · exact ⟨[], s, c, hs, hspan⟩
      · obtain ⟨a, s, c, rfl, hspan⟩ := ih.1 hlater
        exact ⟨x :: a, s, c, rfl, hspan⟩
    · rintro ⟨a, s, c, hs, hspan⟩
      cases a with
      | nil => exact .inl ⟨s, c, hs, hspan⟩
      | cons y ys =>
        obtain ⟨rfl, hxs⟩ := List.cons.inj hs
        exact .inr (ih.2 ⟨ys, s, c, hxs, hspan⟩)

/-- An expression matches somewhere exactly if one of its words stands there. -/
theorem search?_iff {r : Regex} (h : r.steady = true) {text : List Char} :
    r.search? isWord text = true ↔ Occurs (r.Spans isWord) none text :=
  searchFrom_iff h

/-! ## Words between two edges -/

/-- The expression does not ask for an edge. -/
def plain : Regex → Bool
  | eps => true
  | char _ => true
  | boundary => false
  | seq a b => a.plain && b.plain
  | alt a b => a.plain && b.plain
  | rep _ _ _ a => a.plain

/-- The words of a plain expression, whatever stands beside them. -/
def Word (r : Regex) (s : List Char) : Prop := r.Spans (fun _ => false) none s none

theorem Lang.rounds_congr {A B : Lang} (h : ∀ prev prev' s next next',
    A prev s next ↔ B prev' s next') (k : ℕ) (prev prev' : Option Char) (s : List Char)
    (next next' : Option Char) : A.rounds k prev s next ↔ B.rounds k prev' s next' := by
  induction k generalizing prev prev' s with
  | zero => exact Iff.rfl
  | succ k ih =>
    refine exists_congr fun u => exists_congr fun v => and_congr_right fun _ => ?_
    exact and_congr (h _ _ _ _ _) (ih _ _ _)

theorem spans_congr {isWord isWord' : Char → Bool} {r : Regex} (h : r.plain = true)
    (prev prev' : Option Char) (s : List Char) (next next' : Option Char) :
    r.Spans isWord prev s next ↔ r.Spans isWord' prev' s next' := by
  induction r generalizing prev prev' s next next' with
  | eps => exact Iff.rfl
  | char p => exact Iff.rfl
  | boundary => simp [plain] at h
  | seq a b iha ihb =>
    rw [plain, Bool.and_eq_true] at h
    refine exists_congr fun u => exists_congr fun v => and_congr_right fun _ => ?_
    exact and_congr (iha h.1 _ _ _ _ _) (ihb h.2 _ _ _ _ _)
  | alt a b iha ihb =>
    rw [plain, Bool.and_eq_true] at h
    exact or_congr (iha h.1 _ _ _ _ _) (ihb h.2 _ _ _ _ _)
  | rep greedy min max a iha =>
    refine exists_congr fun k => and_congr_right fun _ => and_congr_right fun _ => ?_
    exact Lang.rounds_congr (iha h) k _ _ _ _ _

/-- Only the word itself decides whether a plain expression matches it. -/
theorem spans_iff_word {r : Regex} (h : r.plain = true) {prev next : Option Char}
    {s : List Char} : r.Spans isWord prev s next ↔ r.Word s :=
  spans_congr h prev none s next none

variable (isWord) in
/-- A word of `L` with an edge on either side. -/
def Edged (L : List Char → Prop) : Lang := fun prev s next =>
  Edge isWord prev (firstOr next s) ∧ L s ∧ Edge isWord (lastOr prev s) next

theorem spans_edged {r : Regex} (h : r.plain = true) {prev next : Option Char} {s : List Char} :
    (seq boundary (seq r boundary)).Spans isWord prev s next ↔
      Edged isWord r.Word prev s next := by
  constructor
  · rintro ⟨_, _, rfl, ⟨rfl, hl⟩, u, _, rfl, hu, rfl, hr⟩
    rw [List.append_nil, List.nil_append]
    rw [List.append_nil] at hl
    exact ⟨hl, (spans_iff_word h).1 hu, hr⟩
  · rintro ⟨hl, hs, hr⟩
    exact ⟨[], s, rfl, ⟨rfl, hl⟩, s, [], by simp, (spans_iff_word h).2 hs, rfl, hr⟩

/-- An expression between two edges matches somewhere exactly if one of its words
stands there between edges. -/
theorem search?_edged {r : Regex} (hplain : r.plain = true) (hsteady : r.steady = true)
    {text : List Char} :
    (seq boundary (seq r boundary)).search? isWord text = true ↔
      Occurs (Edged isWord r.Word) none text := by
  rw [search?_iff (by simp [steady, hsteady])]
  refine exists_congr fun a => exists_congr fun s => exists_congr fun c => ?_
  exact and_congr_right fun _ => spans_edged hplain

/-- The two edges are those of the word itself with its neighbours. -/
theorem edged_iff {L : List Char → Prop} {prev next : Option Char} {s : List Char}
    (hs : s ≠ []) :
    Edged isWord L prev s next ↔
      Edge isWord prev s.head? ∧ L s ∧ Edge isWord (lastOr none s) next := by
  cases s with
  | nil => exact absurd rfl hs
  | cons x xs => exact Iff.rfl

/-- Next to a word character an edge is where the word ends. -/
theorem edge_left_iff {c : Char} (hc : isWord c = true) {prev : Option Char} :
    Edge isWord prev (some c) ↔ prev.any isWord = false := by
  simp [Edge, hc]

theorem edge_right_iff {c : Char} (hc : isWord c = true) {next : Option Char} :
    Edge isWord (some c) next ↔ next.any isWord = false := by
  simp [Edge, hc]

/-- Whether there is an edge depends on which kind of characters it separates. -/
theorem edge_congr {before before' after after' : Option Char}
    (hb : before.any isWord = before'.any isWord) (ha : after.any isWord = after'.any isWord) :
    Edge isWord before after ↔ Edge isWord before' after' := by
  rw [Edge, Edge, hb, ha]

theorem edged_congr {L : List Char → Prop} {prev prev' next next' : Option Char} {s : List Char}
    (hp : prev.any isWord = prev'.any isWord) (hn : next.any isWord = next'.any isWord) :
    Edged isWord L prev s next ↔ Edged isWord L prev' s next' := by
  cases s with
  | nil => exact and_congr (edge_congr hp hn) (and_congr_right fun _ => edge_congr hp hn)
  | cons x xs => exact and_congr (edge_congr hp rfl) (and_congr_right fun _ => edge_congr rfl hn)

theorem lastOr_any_congr {prev prev' : Option Char} (h : prev.any isWord = prev'.any isWord)
    (s : List Char) : (lastOr prev s).any isWord = (lastOr prev' s).any isWord := by
  cases s with
  | nil => exact h
  | cons x xs => rfl

theorem head?_append_any {y : List Char} (hy : y.head?.any isWord = false) (s : List Char) :
    (s ++ y).head?.any isWord = s.head?.any isWord := by
  cases s with
  | nil => exact hy
  | cons x xs => rfl

/-- A text that is no part of a longer word has its occurrences in the text around it
too. -/
theorem Occurs.within {L : List Char → Prop} {prev : Option Char} {a d y : List Char}
    (h : Occurs (Edged isWord L) none d) (hbefore : (lastOr prev a).any isWord = false)
    (hafter : y.head?.any isWord = false) :
    Occurs (Edged isWord L) prev (a ++ (d ++ y)) := by
  obtain ⟨b, s, c, rfl, hs⟩ := h
  refine ⟨a ++ b, s, c ++ y, by simp only [List.append_assoc], ?_⟩
  rw [lastOr_append]
  exact (edged_congr (lastOr_any_congr hbefore b) (head?_append_any hafter c)).2 hs

/-- Inside a run of word characters there is no edge. -/
theorem not_edge_inside {n a b : List Char} (hn : ∀ x ∈ n, isWord x = true) (h : n = a ++ b)
    (ha : a ≠ []) (hb : b ≠ []) (prev : Option Char) :
    ¬ Edge isWord (lastOr prev a) b.head? := by
  obtain ⟨x, hx, hlast⟩ := lastOr_mem ha prev
  obtain ⟨y, ys, rfl⟩ := List.exists_cons_of_ne_nil hb
  have hx' := hn x (by rw [h]; exact List.mem_append_left _ hx)
  have hy' := hn y (by rw [h]; simp)
  simp [Edge, hlast, hx', hy']

/-- So what ends at an edge goes to the end of such a run. -/
theorem covers_of_edge {n z s rest : List Char} {prev : Option Char}
    (hn : ∀ x ∈ n, isWord x = true) (hs : s ≠ []) (h : n ++ z = s ++ rest)
    (hedge : Edge isWord (lastOr prev s) rest.head?) : ∃ w, s = n ++ w ∧ z = w ++ rest := by
  rcases List.append_eq_append_iff.1 h with ⟨w, rfl, rfl⟩ | ⟨b, rfl, rfl⟩
  · exact ⟨w, rfl, rfl⟩
  · cases b with
    | nil => exact ⟨[], by simp, rfl⟩
    | cons x xs => exact absurd hedge (not_edge_inside hn rfl hs (by simp) prev)

/-- Up to the first character of a word nothing is in a word. -/
theorem exists_first_word {prev : Option Char} {s : List Char} (hprev : prev.any isWord = false)
    (hs : ∃ c ∈ s, isWord c = true) :
    ∃ a x b, s = a ++ x :: b ∧ isWord x = true ∧ (lastOr prev a).any isWord = false := by
  induction s generalizing prev with
  | nil => simp at hs
  | cons y ys ih =>
    by_cases hy : isWord y = true
    · exact ⟨[], y, ys, rfl, hy, hprev⟩
    · have hy' : (some y).any isWord = false := by simpa using hy
      have hys : ∃ c ∈ ys, isWord c = true := by
        obtain ⟨c, hc, hword⟩ := hs
        rcases List.mem_cons.1 hc with rfl | hc
        · exact absurd hword hy
        · exact ⟨c, hc, hword⟩
      obtain ⟨a, x, b, rfl, hx, hlast⟩ := ih hy' hys
      exact ⟨y :: a, x, b, rfl, hx, hlast⟩

end Regex
