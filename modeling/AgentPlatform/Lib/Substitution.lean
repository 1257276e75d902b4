import AgentPlatform.Lib.RegexWords

/-!
# What a substitution keeps and what it makes

A substitution goes through a text from left to right: a character at which no
word starts is kept, a word is replaced.  A pass that follows another one sees
pieces of the old text between replacements, and the questions about it are all of
one kind: where does this stretch of the result come from, and what becomes of
that stretch of the text.

* `Regex.Rewrites` — a text and the result, and `Regex.rewrites_sub`: what
  `Regex.sub` computes.
* `Rewrites.split_result`, `Rewrites.split_text` — the two sides of a cut.
* `Rewrites.walk_result`, `Rewrites.walk_text` — a stretch read to its end or up to
  the first replacement.
* `Rewrites.trace_back` — where a word of the result comes from, and
  `Rewrites.stands_back`: if it shares nothing with the replacement, it stood in the
  text already.  So `Rewrites.occurs_back`, and `Rewrites.not_occurs`: of its own
  words a substitution leaves none.
-/

namespace Regex

/-- A text and what a substitution makes of it, the words between edges in `L`
being replaced. -/
inductive Rewrites (isWord : Char → Bool) (L : List Char → Prop) (repl : List Char) :
    Option Char → List Char → List Char → Prop
  /-- Nothing is left. -/
  | done (prev : Option Char) : Rewrites isWord L repl prev [] []
  /-- No word starts here. -/
  | keep {prev : Option Char} {x : Char} {xs out : List Char}
      (hquiet : ∀ s rest, x :: xs = s ++ rest → ¬ Edged isWord L prev s rest.head?)
      (h : Rewrites isWord L repl (some x) xs out) :
      Rewrites isWord L repl prev (x :: xs) (x :: out)
  /-- A word is replaced. -/
  | replace {prev : Option Char} {s rest out : List Char} (hne : s ≠ [])
      (hs : Edged isWord L prev s rest.head?)
      (h : Rewrites isWord L repl (lastOr prev s) rest out) :
      Rewrites isWord L repl prev (s ++ rest) (repl ++ out)

/-- No word of `L` starts in this stretch of a text; `y` is what follows it. -/
def Quiet (isWord : Char → Bool) (L : List Char → Prop) (prev : Option Char)
    (c y : List Char) : Prop :=
  ∀ c₁ c₂, c = c₁ ++ c₂ → c₂ ≠ [] → ∀ s rest, c₂ ++ y = s ++ rest →
    ¬ Edged isWord L (lastOr prev c₁) s rest.head?

variable {isWord : Char → Bool} {L : List Char → Prop} {repl : List Char}

theorem quiet_nil {prev : Option Char} {y : List Char} : Quiet isWord L prev [] y := by
  intro c₁ c₂ hc hne
  exact absurd (List.append_eq_nil_iff.1 hc.symm).2 hne

theorem quiet_cons {prev : Option Char} {x : Char} {c y : List Char} :
    Quiet isWord L prev (x :: c) y ↔
      (∀ s rest, x :: (c ++ y) = s ++ rest → ¬ Edged isWord L prev s rest.head?) ∧
        Quiet isWord L (some x) c y := by
  constructor
  · intro h
    refine ⟨h [] (x :: c) rfl (by simp), fun c₁ c₂ hc hne => ?_⟩
    exact h (x :: c₁) c₂ (by rw [hc, List.cons_append]) hne
  · rintro ⟨hx, h⟩ c₁ c₂ hc hne
    cases c₁ with
    | nil =>
      obtain rfl : x :: c = c₂ := hc
      exact hx
    | cons z zs =>
      obtain ⟨rfl, hzs⟩ := List.cons.inj hc
      exact h zs c₂ hzs hne

/-- Nothing of a replacement can be the first character of this word, and the word
cannot run into one. -/
def Apart (repl c : List Char) : Prop :=
  c ≠ [] ∧ (∀ x ∈ c.head?, x ∉ repl) ∧ ∀ x ∈ repl.head?, x ∉ c

theorem Apart.of_disjoint {c : List Char} (hc : c ≠ []) (h : ∀ x ∈ c, x ∉ repl) :
    Apart repl c :=
  ⟨hc, fun x hx => h x (List.mem_of_mem_head? hx),
    fun x hx hxc => h x hxc (List.mem_of_mem_head? hx)⟩

/-- A word does not run into a replacement whose first character it does not have. -/
theorem not_runs_into (hrepl : repl ≠ []) {c c₁ c₂ y out : List Char}
    (havoid : ∀ x ∈ repl.head?, x ∉ c) (hc : c = c₁ ++ c₂) (hc₂ : c₂ ≠ []) :
    c₂ ++ y ≠ repl ++ out := by
  intro hout
  cases repl with
  | nil => exact hrepl rfl
  | cons r rs =>
    cases c₂ with
    | nil => exact hc₂ rfl
    | cons x xs =>
      obtain ⟨rfl, -⟩ := List.cons.inj hout
      exact havoid x rfl (by rw [hc]; simp)

/-! ## Computing it -/

theorem rewrites_subFrom {r : Regex} (hplain : r.plain = true) (hsteady : r.steady = true)
    (hconsumes : r.consumes = true) {fuel : ℕ} {p : Pos} (hfuel : p.rest.length ≤ fuel) :
    Rewrites isWord r.Word repl p.prev p.rest
      ((seq boundary (seq r boundary)).subFrom isWord repl fuel p) := by
  have hsteady' : (seq boundary (seq r boundary)).steady = true := by
    simp [steady, hsteady]
  induction fuel generalizing p with
  | zero =>
    obtain ⟨prev, rest⟩ := p
    obtain rfl : rest = [] := List.length_eq_zero_iff.1 (by simpa using hfuel)
    exact .done prev
  | succ fuel ih =>
    obtain ⟨prev, rest⟩ := p
    cases rest with
    | nil => simpa [subFrom] using Rewrites.done prev
    | cons x xs =>
      cases hmatch : (seq boundary (seq r boundary)).matchAt isWord ⟨prev, x :: xs⟩ with
      | none =>
        have hquiet := (matchAt_eq_none_iff hsteady').1 hmatch
        simp only [subFrom, hmatch]
        refine .keep (fun s rest hs hedged => ?_) (ih (p := ⟨some x, xs⟩) (by simpa using hfuel))
        exact hquiet s rest hs ((spans_edged hplain).2 hedged)
      | some q =>
        obtain ⟨s, hs, hprev, hspan⟩ := spans_of_matchAt hsteady' hmatch
        have hedged := (spans_edged hplain).1 hspan
        have hne : s ≠ [] := by
          rintro rfl
          exact not_spans_nil hconsumes none none hedged.2.1
        have hpos : 0 < s.length := List.length_pos_iff.2 hne
        have hlen : (x :: xs).length = s.length + q.rest.length := by
          rw [← List.length_append, ← hs]
        have hless : q.rest.length < (x :: xs).length := by omega
        simp only [subFrom, hmatch, if_pos hless]
        have hrest := ih (p := q) (by simp only at hfuel; omega)
        rw [hprev] at hrest
        simp only at hs
        rw [hs]
        exact .replace hne hedged hrest

/-- `sub` replaces the words of an expression between two edges. -/
theorem rewrites_sub {r : Regex} (hplain : r.plain = true) (hsteady : r.steady = true)
    (hconsumes : r.consumes = true) (repl text : List Char) :
    Rewrites isWord r.Word repl none text
      ((seq boundary (seq r boundary)).sub isWord repl text) :=
  rewrites_subFrom (p := ⟨none, text⟩) hplain hsteady hconsumes (Nat.le_refl _)

namespace Rewrites

variable {prev : Option Char} {text out : List Char}

/-! ## Cutting and reading -/

/-- What follows begins as it did, or with a replacement before which there was an
edge. -/
theorem head?_result (hrepl : repl ≠ []) (h : Rewrites isWord L repl prev text out) :
    out.head? = text.head? ∨ out.head? = repl.head? ∧ Edge isWord prev text.head? := by
  cases h with
  | done => exact .inl rfl
  | keep => exact .inl rfl
  | replace hne hs h =>
    rename_i s rest out
    refine .inr ⟨?_, ?_⟩
    · cases repl with
      | nil => exact absurd rfl hrepl
      | cons => rfl
    · have hleft := hs.1
      rwa [firstOr_head?_append] at hleft

/-- Where the result is cut, the text can be cut too, unless the cut is inside a
replacement. -/
theorem split_result {a c : List Char} (h : Rewrites isWord L repl prev text (a ++ c)) :
    (∃ a' c', text = a' ++ c' ∧ Rewrites isWord L repl (lastOr prev a') c' c ∧
      (lastOr prev a = lastOr prev a' ∨ Edge isWord (lastOr prev a') c'.head?)) ∨
    ∃ a' s rest b r₁ r₂ out, text = a' ++ (s ++ rest) ∧ repl = r₁ ++ r₂ ∧ r₁ ≠ [] ∧ r₂ ≠ [] ∧
      a = b ++ r₁ ∧ c = r₂ ++ out ∧ Edged isWord L (lastOr prev a') s rest.head? ∧
      Rewrites isWord L repl (lastOr (lastOr prev a') s) rest out := by
  generalize hwhole : a ++ c = whole at h
  induction h generalizing a with
  | done prev =>
    obtain ⟨rfl, rfl⟩ := List.append_eq_nil_iff.1 hwhole
    exact .inl ⟨[], [], rfl, .done prev, .inl rfl⟩
  | @keep prev x xs out hquiet h ih =>
    cases a with
    | nil =>
      rw [List.nil_append] at hwhole
      subst hwhole
      exact .inl ⟨[], x :: xs, rfl, .keep hquiet h, .inl rfl⟩
    | cons y ys =>
      obtain ⟨rfl, hys⟩ := List.cons.inj hwhole
      rcases ih hys with ⟨a', c', rfl, hc, hside⟩ |
        ⟨a', s, rest, b, r₁, r₂, out', rfl, hr, h₁, h₂, rfl, hc, hs, hrest⟩
      · exact .inl ⟨y :: a', c', rfl, hc, hside⟩
      · exact .inr ⟨y :: a', s, rest, y :: b, r₁, r₂, out', rfl, hr, h₁, h₂, rfl, hc, hs, hrest⟩
  | @replace prev s rest out hne hs h ih =>
    by_cases ha : a = []
    · subst ha
      rw [List.nil_append] at hwhole
      subst hwhole
      exact .inl ⟨[], s ++ rest, rfl, .replace hne hs h, .inl rfl⟩
    rcases List.append_eq_append_iff.1 hwhole with ⟨r₂, hr, hc⟩ | ⟨bs, rfl, hout⟩
    · by_cases hr₂ : r₂ = []
      · subst hr₂
        obtain rfl : c = out := hc
        exact .inl ⟨s, rest, rfl, h, .inr hs.2.2⟩
      · exact .inr ⟨[], s, rest, [], a, r₂, out, rfl, hr, ha, hr₂, rfl, hc, hs, h⟩
    · by_cases hbs : bs = []
      · subst hbs
        obtain rfl : out = c := hout
        exact .inl ⟨s, rest, rfl, h, .inr hs.2.2⟩
      rcases ih hout.symm with ⟨a', c', rfl, hc, hside⟩ |
        ⟨a', s', rest', b, r₁, r₂, out', rfl, hr, h₁, h₂, rfl, hc, hs', hrest⟩
      · refine .inl ⟨s ++ a', c', (List.append_assoc ..).symm, ?_, ?_⟩
        · rwa [lastOr_append]
        · rwa [lastOr_append, lastOr_append, lastOr_eq_of_ne_nil hbs _ (lastOr prev s)]
      · refine .inr ⟨s ++ a', s', rest', repl ++ b, r₁, r₂, out', (List.append_assoc ..).symm, hr,
          h₁, h₂, (List.append_assoc ..).symm, hc, ?_, ?_⟩
        · rwa [lastOr_append]
        · rwa [lastOr_append]

/-- Where the text is cut, the result can be cut too, unless a word that is replaced
goes across the cut. -/
theorem split_text (hrepl : repl ≠ []) {a c : List Char}
    (h : Rewrites isWord L repl prev (a ++ c) out) :
    (∃ a' c', out = a' ++ c' ∧ Rewrites isWord L repl (lastOr prev a) c c' ∧
      (lastOr prev a' = lastOr prev a ∨ lastOr prev a' = lastOr none repl)) ∨
    ∃ b s₁ s₂ rest a' out', a = b ++ s₁ ∧ c = s₂ ++ rest ∧ s₁ ≠ [] ∧ s₂ ≠ [] ∧
      Edged isWord L (lastOr prev b) (s₁ ++ s₂) rest.head? ∧ out = a' ++ (repl ++ out') ∧
      Rewrites isWord L repl (lastOr (lastOr prev a) s₂) rest out' := by
  generalize hwhole : a ++ c = whole at h
  induction h generalizing a with
  | done prev =>
    obtain ⟨rfl, rfl⟩ := List.append_eq_nil_iff.1 hwhole
    exact .inl ⟨[], [], rfl, .done prev, .inl rfl⟩
  | @keep prev x xs out hquiet h ih =>
    cases a with
    | nil =>
      rw [List.nil_append] at hwhole
      subst hwhole
      exact .inl ⟨[], x :: out, rfl, .keep hquiet h, .inl rfl⟩
    | cons y ys =>
      obtain ⟨rfl, hys⟩ := List.cons.inj hwhole
      rcases ih hys with ⟨a', c', rfl, hc, hside⟩ |
        ⟨b, s₁, s₂, rest, a', out', rfl, hc, h₁, h₂, hs, rfl, hrest⟩
      · exact .inl ⟨y :: a', c', rfl, hc, hside⟩
      · exact .inr ⟨y :: b, s₁, s₂, rest, y :: a', out', rfl, hc, h₁, h₂, hs, rfl, hrest⟩
  | @replace prev s rest out hne hs h ih =>
    by_cases ha : a = []
    · subst ha
      rw [List.nil_append] at hwhole
      subst hwhole
      exact .inl ⟨[], repl ++ out, rfl, .replace hne hs h, .inl rfl⟩
    rcases List.append_eq_append_iff.1 hwhole with ⟨s₂, rfl, hc⟩ | ⟨bs, rfl, hrest⟩
    · by_cases hs₂ : s₂ = []
      · subst hs₂
        obtain rfl : c = rest := hc
        rw [List.append_nil] at h
        exact .inl ⟨repl, out, rfl, h, .inr (lastOr_eq_of_ne_nil hrepl _ _)⟩
      · rw [lastOr_append] at h
        exact .inr ⟨[], a, s₂, rest, [], out, rfl, hc, ha, hs₂, hs, rfl, h⟩
    · rcases ih hrest.symm with ⟨a', c', rfl, hc, hside⟩ |
        ⟨b, s₁, s₂, rest', a', out', rfl, hc, h₁, h₂, hs', rfl, hrest'⟩
      · refine .inl ⟨repl ++ a', c', (List.append_assoc ..).symm, by rwa [lastOr_append], ?_⟩
        rw [lastOr_append, lastOr_append]
        by_cases ha' : a' = []
        · subst ha'
          exact .inr (lastOr_eq_of_ne_nil hrepl _ _)
        · rwa [lastOr_eq_of_ne_nil ha' _ (lastOr prev s)]
      · refine .inr ⟨s ++ b, s₁, s₂, rest', repl ++ a', out', (List.append_assoc ..).symm, hc, h₁,
          h₂, ?_, (List.append_assoc ..).symm, ?_⟩
        · rwa [lastOr_append]
        · rwa [lastOr_append]

/-- A stretch of the result is a stretch of the text in which no word starts, or it
runs into a replacement. -/
theorem walk_result {c y : List Char} (h : Rewrites isWord L repl prev text (c ++ y)) :
    (∃ y', text = c ++ y' ∧ Rewrites isWord L repl (lastOr prev c) y' y ∧
      Quiet isWord L prev c y') ∨
    ∃ c₁ c₂ s rest out, c = c₁ ++ c₂ ∧ c₂ ≠ [] ∧ text = c₁ ++ (s ++ rest) ∧
      Edged isWord L (lastOr prev c₁) s rest.head? ∧ c₂ ++ y = repl ++ out := by
  generalize hwhole : c ++ y = whole at h
  induction h generalizing c with
  | done prev =>
    obtain ⟨rfl, rfl⟩ := List.append_eq_nil_iff.1 hwhole
    exact .inl ⟨[], rfl, .done prev, quiet_nil⟩
  | @keep prev x xs out hquiet h ih =>
    cases c with
    | nil =>
      rw [List.nil_append] at hwhole
      subst hwhole
      exact .inl ⟨x :: xs, rfl, .keep hquiet h, quiet_nil⟩
    | cons z zs =>
      obtain ⟨rfl, hzs⟩ := List.cons.inj hwhole
      rcases ih hzs with ⟨y', rfl, hy, hq⟩ | ⟨c₁, c₂, s, rest, out', rfl, h₂, rfl, hs, hout⟩
      · exact .inl ⟨y', rfl, hy, quiet_cons.2 ⟨hquiet, hq⟩⟩
      · exact .inr ⟨z :: c₁, c₂, s, rest, out', rfl, h₂, rfl, hs, hout⟩
  | @replace prev s rest out hne hs h ih =>
    by_cases hc : c = []
    · subst hc
      rw [List.nil_append] at hwhole
      subst hwhole
      exact .inl ⟨s ++ rest, rfl, .replace hne hs h, quiet_nil⟩
    · exact .inr ⟨[], c, s, rest, out, rfl, hc, rfl, hs, hwhole⟩

/-- A stretch of the text is kept, no word starting in it, or it runs into a word. -/
theorem walk_text {c y : List Char} (h : Rewrites isWord L repl prev (c ++ y) out) :
    (∃ y', out = c ++ y' ∧ Rewrites isWord L repl (lastOr prev c) y y' ∧
      Quiet isWord L prev c y) ∨
    ∃ c₁ c₂ s rest out', c = c₁ ++ c₂ ∧ c₂ ≠ [] ∧ c₂ ++ y = s ++ rest ∧ s ≠ [] ∧
      Edged isWord L (lastOr prev c₁) s rest.head? ∧ out = c₁ ++ (repl ++ out') ∧
      Rewrites isWord L repl (lastOr (lastOr prev c₁) s) rest out' := by
  generalize hwhole : c ++ y = whole at h
  induction h generalizing c with
  | done prev =>
    obtain ⟨rfl, rfl⟩ := List.append_eq_nil_iff.1 hwhole
    exact .inl ⟨[], rfl, .done prev, quiet_nil⟩
  | @keep prev x xs out hquiet h ih =>
    cases c with
    | nil =>
      rw [List.nil_append] at hwhole
      subst hwhole
      exact .inl ⟨x :: out, rfl, .keep hquiet h, quiet_nil⟩
    | cons z zs =>
      obtain ⟨rfl, rfl⟩ := List.cons.inj hwhole
      rcases ih rfl with ⟨y', rfl, hy, hq⟩ |
        ⟨c₁, c₂, s, rest, out', rfl, h₂, hs, hne, hedged, rfl, hrest⟩
      · exact .inl ⟨y', rfl, hy, quiet_cons.2 ⟨hquiet, hq⟩⟩
      · exact .inr ⟨z :: c₁, c₂, s, rest, out', rfl, h₂, hs, hne, hedged, rfl, hrest⟩
  | @replace prev s rest out hne hs h ih =>
    by_cases hc : c = []
    · subst hc
      rw [List.nil_append] at hwhole
      subst hwhole
      exact .inl ⟨repl ++ out, rfl, .replace hne hs h, quiet_nil⟩
    · exact .inr ⟨[], c, s, rest, out, rfl, hc, hwhole, hne, hs, rfl, h⟩

/-- A stretch of the text in which no word can start is kept. -/
theorem keeps {c y : List Char} (hL : ∀ s, L s → ∀ x ∈ s.head?, x ∉ c)
    (h : Rewrites isWord L repl prev (c ++ y) out) :
    ∃ y', out = c ++ y' ∧ Rewrites isWord L repl (lastOr prev c) y y' := by
  rcases h.walk_text with ⟨y', hout, hy, -⟩ |
    ⟨c₁, c₂, s, rest, out', rfl, hc₂, hs, hne, hedged, -⟩
  · exact ⟨y', hout, hy⟩
  · obtain ⟨x, xs, rfl⟩ := List.exists_cons_of_ne_nil hne
    obtain ⟨z, zs, rfl⟩ := List.exists_cons_of_ne_nil hc₂
    obtain ⟨rfl, -⟩ := List.cons.inj hs
    exact absurd (by simp) (hL _ hedged.2.1 z rfl)

/-- After a word the text has an edge where the result has one. -/
theorem edge_back (hrepl : repl ≠ []) {c y y' : List Char} (hne : c ≠ [])
    (h : Rewrites isWord L repl (lastOr prev c) y' y)
    (hright : Edge isWord (lastOr none c) y.head?) : Edge isWord (lastOr none c) y'.head? := by
  rcases h.head?_result hrepl with heq | ⟨-, hedge⟩
  · rwa [← heq]
  · rwa [lastOr_eq_of_ne_nil hne none prev]

/-- A stretch of the result at whose start the text has been cut, and which does not
run into a replacement. -/
theorem stretch_back (hrepl : repl ≠ []) {c y : List Char} (hne : c ≠ [])
    (havoid : ∀ x ∈ repl.head?, x ∉ c) (h : Rewrites isWord L repl prev text (c ++ y))
    (hright : Edge isWord (lastOr none c) y.head?) :
    ∃ y', text = c ++ y' ∧ Edge isWord (lastOr none c) y'.head? := by
  rcases h.walk_result with ⟨y', rfl, hy, -⟩ | ⟨c₁, c₂, s, rest, out, hc, hc₂, -, -, hout⟩
  · exact ⟨y', rfl, hy.edge_back hrepl hne hright⟩
  · exact absurd hout (not_runs_into hrepl havoid hc hc₂)

/-- A word of the result stood in the text already, between edges if it does so now
and no word starting in it; or it runs into a replacement, or starts inside one. -/
theorem trace_back (hrepl : repl ≠ []) {a c y : List Char} (hne : c ≠ [])
    (h : Rewrites isWord L repl prev text (a ++ (c ++ y)))
    (hleft : Edge isWord (lastOr prev a) c.head?)
    (hright : Edge isWord (lastOr none c) y.head?) :
    (∃ a' y', text = a' ++ (c ++ y') ∧ Edge isWord (lastOr prev a') c.head? ∧
      Edge isWord (lastOr none c) y'.head? ∧ Quiet isWord L (lastOr prev a') c y') ∨
    (∃ (p : Option Char) (c₁ c₂ s rest out : List Char), c = c₁ ++ c₂ ∧ c₂ ≠ [] ∧
      Edged isWord L (lastOr p c₁) s rest.head? ∧ c₂ ++ y = repl ++ out) ∨
    ∃ a' s rest b r₁ r₂ out, text = a' ++ (s ++ rest) ∧ repl = r₁ ++ r₂ ∧ r₁ ≠ [] ∧ r₂ ≠ [] ∧
      a = b ++ r₁ ∧ c ++ y = r₂ ++ out ∧ Edged isWord L (lastOr prev a') s rest.head? ∧
      Rewrites isWord L repl (lastOr (lastOr prev a') s) rest out := by
  rcases h.split_result with ⟨a', c', rfl, hc, hside⟩ | hinside
  · rcases hc.walk_result with ⟨y', rfl, hy, hquiet⟩ |
      ⟨c₁, c₂, s, rest, out, hcc, hc₂, -, hs, hout⟩
    · refine .inl ⟨a', y', rfl, ?_, ?_, hquiet⟩
      · rcases hside with hside | hside
        · rwa [← hside]
        · rwa [List.head?_append_of_ne_nil c hne] at hside
      · exact hy.edge_back hrepl hne hright
    · exact .inr (.inl ⟨_, c₁, c₂, s, rest, out, hcc, hc₂, hs, hout⟩)
  · exact .inr (.inr hinside)

/-! ## Words that share nothing with the replacement -/

/-- A word that is apart from the replacement stood in the text already. -/
theorem stands_back (hrepl : repl ≠ []) {a c y : List Char} (hapart : Apart repl c)
    (h : Rewrites isWord L repl prev text (a ++ (c ++ y)))
    (hleft : Edge isWord (lastOr prev a) c.head?)
    (hright : Edge isWord (lastOr none c) y.head?) :
    ∃ a' y', text = a' ++ (c ++ y') ∧ Edge isWord (lastOr prev a') c.head? ∧
      Edge isWord (lastOr none c) y'.head? ∧ Quiet isWord L (lastOr prev a') c y' := by
  obtain ⟨hne, hfirst, havoid⟩ := hapart
  rcases h.trace_back hrepl hne hleft hright with hback |
    ⟨_, c₁, c₂, s, rest, out, hcc, hc₂, -, hout⟩ |
    ⟨a', s, rest, b, r₁, r₂, out, -, hr, -, hr₂, -, hc, -⟩
  · exact hback
  · exact absurd hout (not_runs_into hrepl havoid hcc hc₂)
  · cases r₂ with
    | nil => exact absurd rfl hr₂
    | cons x xs =>
      have hx : c.head? = some x := by rw [← List.head?_append_of_ne_nil c hne, hc]; rfl
      exact absurd (by rw [hr]; simp) (hfirst x hx)

/-- So a word of another language stood in the text already. -/
theorem occurs_back (hrepl : repl ≠ []) {K : List Char → Prop} (hK : ∀ c, K c → Apart repl c)
    (h : Rewrites isWord L repl prev text out) (hocc : Occurs (Edged isWord K) prev out) :
    Occurs (Edged isWord K) prev text := by
  obtain ⟨a, c, y, rfl, hc⟩ := hocc
  have hne := (hK c hc.2.1).1
  obtain ⟨hleft, hKc, hright⟩ := (edged_iff hne).1 hc
  obtain ⟨a', y', rfl, hleft', hright', -⟩ := h.stands_back hrepl (hK c hKc) hleft hright
  exact ⟨a', c, y', rfl, (edged_iff hne).2 ⟨hleft', hKc, hright'⟩⟩

/-- A substitution leaves none of its own words. -/
theorem not_occurs (hrepl : repl ≠ []) (hL : ∀ c, L c → Apart repl c)
    (h : Rewrites isWord L repl prev text out) : ¬ Occurs (Edged isWord L) prev out := by
  rintro ⟨a, c, y, rfl, hc⟩
  have hne := (hL c hc.2.1).1
  obtain ⟨hleft, hLc, hright⟩ := (edged_iff hne).1 hc
  obtain ⟨a', y', -, hleft', hright', hquiet⟩ := h.stands_back hrepl (hL c hLc) hleft hright
  exact hquiet [] c rfl hne c y' rfl ((edged_iff hne).2 ⟨hleft', hLc, hright'⟩)

end Rewrites

end Regex
