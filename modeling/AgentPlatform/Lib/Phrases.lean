import Mathlib.Data.List.Infix
import AgentPlatform.Lib.Substitution

/-!
# Phrases

Expressions made of fixed texts, alternatives and optional parts match finitely many
phrases.  Characters may be taken for the same, as letters are when their case is
ignored; a phrase is found if it stands in the text up to that.

* `Phrasing` — the expressions, `Phrasing.phrases` — what they match.
* `Phrasing.search?_iff` — the engine finds exactly the phrases.
* `Regex.infix_append_cons_iff`, `Regex.occurs_append_cons_iff` — a phrase does not stretch
  over a character it does not have.
* `Regex.not_lone_doubled` — where every `x` is written twice, none stands alone.
* `Regex.Rewrites.found_back`, `Regex.Rewrites.occurs_edged_back` — a substitution makes no
  phrase that its replacement does not help along.
-/

namespace Regex

/-- An expression made of fixed texts, alternatives and optional parts. -/
inductive Phrasing where
  | text (s : String)
  | seq (a b : Phrasing)
  | alt (a b : Phrasing)
  | opt (a : Phrasing)

namespace Phrasing

/-- One of several texts. -/
def oneOf (s : String) : List String → Phrasing
  | [] => text s
  | s' :: rest => alt (text s) (oneOf s' rest)

/-- Everything an expression stands for. -/
def phrases : Phrasing → List (List Char)
  | text s => [s.toList]
  | seq a b => a.phrases.flatMap fun u => b.phrases.map fun v => u ++ v
  | alt a b => a.phrases ++ b.phrases
  | opt a => a.phrases ++ [[]]

/-- The expression for the engine; `fold` sends characters that are taken for the same
to one. -/
def regex (fold : Char → Char) : Phrasing → Regex
  | text s => s.toList.foldr (fun x r => .seq (.char fun c => fold c == fold x) r) .eps
  | seq a b => .seq (a.regex fold) (b.regex fold)
  | alt a b => .alt (a.regex fold) (b.regex fold)
  | opt a => .rep true 0 (some 1) (a.regex fold)

variable {fold : Char → Char}

theorem regex_text_steady (s : List Char) :
    (s.foldr (fun x r => Regex.seq (.char fun c => fold c == fold x) r) .eps).steady = true := by
  induction s with
  | nil => rfl
  | cons x xs ih => rw [List.foldr_cons, steady, ih, steady, Bool.and_true]

theorem regex_text_plain (s : List Char) :
    (s.foldr (fun x r => Regex.seq (.char fun c => fold c == fold x) r) .eps).plain = true := by
  induction s with
  | nil => rfl
  | cons x xs ih => rw [List.foldr_cons, plain, ih, plain, Bool.and_true]

theorem regex_steady (p : Phrasing) : (p.regex fold).steady = true := by
  induction p with
  | text s => exact regex_text_steady s.toList
  | seq a b iha ihb => rw [regex, steady, iha, ihb, Bool.and_true]
  | alt a b iha ihb => rw [regex, steady, iha, ihb, Bool.and_true]
  | opt a iha =>
    rw [regex, steady, iha]
    rfl

theorem regex_plain (p : Phrasing) : (p.regex fold).plain = true := by
  induction p with
  | text s => exact regex_text_plain s.toList
  | seq a b iha ihb => rw [regex, plain, iha, ihb, Bool.and_true]
  | alt a b iha ihb => rw [regex, plain, iha, ihb, Bool.and_true]
  | opt a iha => rw [regex, plain, iha]

theorem spans_text_iff {isWord : Char → Bool} (w : List Char) {prev next : Option Char}
    {s : List Char} :
    (w.foldr (fun x r => Regex.seq (.char fun c => fold c == fold x) r) .eps).Spans isWord
      prev s next ↔ s.map fold = w.map fold := by
  induction w generalizing prev s with
  | nil => simp [Spans]
  | cons x xs ih =>
    rw [List.foldr_cons, List.map_cons]
    constructor
    · rintro ⟨_, v, rfl, ⟨c, hc, rfl⟩, hv⟩
      rw [List.singleton_append, List.map_cons, ih.1 hv, beq_iff_eq.1 hc]
    · intro h
      obtain ⟨c, v, rfl, hc, hv⟩ := List.map_eq_cons_iff.1 h
      exact ⟨[c], v, rfl, ⟨c, beq_iff_eq.2 hc, rfl⟩, ih.2 hv⟩

/-- The words of the expression are its phrases, up to `fold`. -/
theorem spans_iff {isWord : Char → Bool} (p : Phrasing) {prev next : Option Char}
    {s : List Char} :
    (p.regex fold).Spans isWord prev s next ↔
      ∃ phrase ∈ p.phrases, s.map fold = phrase.map fold := by
  induction p generalizing prev s next with
  | text w => simp [regex, phrases, spans_text_iff]
  | seq a b iha ihb =>
    simp only [phrases, List.mem_flatMap, List.mem_map]
    constructor
    · rintro ⟨u, v, rfl, hu, hv⟩
      obtain ⟨u', hu', hueq⟩ := iha.1 hu
      obtain ⟨v', hv', hveq⟩ := ihb.1 hv
      refine ⟨u' ++ v', ⟨u', hu', v', hv', rfl⟩, ?_⟩
      rw [List.map_append, List.map_append, hueq, hveq]
    · rintro ⟨_, ⟨u', hu', v', hv', rfl⟩, heq⟩
      rw [List.map_append] at heq
      obtain ⟨u, v, rfl, hu, hv⟩ := List.map_eq_append_iff.1 heq
      exact ⟨u, v, rfl, iha.2 ⟨u', hu', hu⟩, ihb.2 ⟨v', hv', hv⟩⟩
  | alt a b iha ihb =>
    simp only [phrases, List.mem_append, or_and_right, exists_or]
    exact or_congr iha ihb
  | opt a iha =>
    simp only [phrases, List.mem_append, List.mem_singleton, or_and_right, exists_or,
      exists_eq_left, List.map_nil, List.map_eq_nil_iff]
    constructor
    · rintro ⟨k, -, hk, hrounds⟩
      have hle : k ≤ 1 := hk 1 rfl
      cases k with
      | zero => exact .inr hrounds
      | succ k =>
        obtain rfl : k = 0 := by omega
        obtain ⟨u, v, rfl, hu, hv⟩ := hrounds
        obtain rfl : v = [] := hv
        rw [List.append_nil]
        exact .inl (iha.1 hu)
    · rintro (ha | rfl)
      · refine ⟨1, Nat.zero_le _, by simp, s, [], (List.append_nil s).symm, iha.2 ha, rfl⟩
      · exact ⟨0, Nat.le_refl _, by simp, rfl⟩

/-- A phrase of the expression stands in the text. -/
def Found (p : Phrasing) (fold : Char → Char) (text : List Char) : Prop :=
  ∃ phrase ∈ p.phrases, phrase.map fold <:+: text.map fold

/-- **The engine finds exactly the phrases.** -/
theorem search?_iff {isWord : Char → Bool} (p : Phrasing) {text : List Char} :
    (p.regex fold).search? isWord text = true ↔ p.Found fold text := by
  rw [Regex.search?_iff p.regex_steady]
  constructor
  · rintro ⟨a, s, c, rfl, hs⟩
    obtain ⟨phrase, hphrase, heq⟩ := p.spans_iff.1 hs
    refine ⟨phrase, hphrase, a.map fold, c.map fold, ?_⟩
    rw [List.map_append, List.map_append, heq, List.append_assoc]
  · rintro ⟨phrase, hphrase, a', c', heq⟩
    rw [List.append_assoc, eq_comm] at heq
    obtain ⟨a, t, rfl, -, ht⟩ := List.map_eq_append_iff.1 heq
    obtain ⟨s, c, rfl, hs, -⟩ := List.map_eq_append_iff.1 ht
    exact ⟨a, s, c, rfl, p.spans_iff.2 ⟨phrase, hphrase, hs⟩⟩

end Phrasing

/-! ## A character that is in no phrase -/

section Apart

variable {α : Type} {x : α} {u : List α}

/-- A word does not stretch over a character it does not have, at the start of a text. -/
theorem prefix_append_cons_iff {a b : List α} (hx : x ∉ u) : u <+: a ++ x :: b ↔ u <+: a := by
  constructor
  · intro h
    rcases List.prefix_or_prefix_of_prefix h (List.prefix_append a (x :: b)) with h' | ⟨w, rfl⟩
    · exact h'
    · rw [List.prefix_append_right_inj] at h
      cases w with
      | nil => rw [List.append_nil]
      | cons y ys =>
        obtain ⟨rfl, -⟩ := List.cons_prefix_cons.1 h
        exact absurd (by simp) hx
  · exact fun h => h.trans (List.prefix_append a (x :: b))

/-- A word does not stretch over a character it does not have. -/
theorem infix_append_cons_iff {a b : List α} (hx : x ∉ u) :
    u <:+: a ++ x :: b ↔ u <:+: a ∨ u <:+: b := by
  induction a with
  | nil =>
    rw [List.nil_append, List.infix_cons_iff,
      show u <+: x :: b ↔ u <+: [] from prefix_append_cons_iff (a := []) hx]
    exact or_congr_left
      ⟨List.IsPrefix.isInfix, fun h => List.eq_nil_of_infix_nil h ▸ List.nil_prefix⟩
  | cons y a ih =>
    rw [List.cons_append, List.infix_cons_iff, List.infix_cons_iff, ih, or_assoc,
      ← List.cons_append, prefix_append_cons_iff hx]

/-- A text with a character that is in no phrase has the phrases of what is on either side. -/
theorem Phrasing.found_append_cons_iff {p : Phrasing} {fold : Char → Char} {x : Char}
    (hx : ∀ phrase ∈ p.phrases, fold x ∉ phrase.map fold) {a b : List Char} :
    p.Found fold (a ++ x :: b) ↔ p.Found fold a ∨ p.Found fold b := by
  unfold Phrasing.Found
  rw [← exists_or]
  refine exists_congr fun phrase => ?_
  rw [← and_or_left, List.map_append, List.map_cons]
  exact and_congr_right fun hphrase => infix_append_cons_iff (hx phrase hphrase)

end Apart

/-- A language none of whose words has a character that stands in no word of the text. -/
theorem occurs_append_cons_iff {isWord : Char → Bool} {L : List Char → Prop} {x : Char}
    (hword : isWord x = false) (hL : ∀ s, L s → s ≠ [] ∧ x ∉ s) {a b : List Char} :
    Occurs (Edged isWord L) none (a ++ x :: b) ↔
      Occurs (Edged isWord L) none a ∨ Occurs (Edged isWord L) none b := by
  constructor
  · rintro ⟨p, s, c, htext, hs⟩
    obtain ⟨hne, hx⟩ := hL s hs.2.1
    rcases List.append_eq_append_iff.1 htext with ⟨d, rfl, hd⟩ | ⟨d, rfl, hd⟩
    · cases d with
      | nil =>
        -- the word would begin with `x`
        obtain ⟨y, ys, rfl⟩ := List.exists_cons_of_ne_nil hne
        obtain ⟨rfl, -⟩ := List.cons.inj hd
        exact absurd List.mem_cons_self hx
      | cons y d =>
        obtain ⟨rfl, rfl⟩ := List.cons.inj hd
        refine .inr ⟨d, s, c, rfl, ?_⟩
        rw [lastOr_append, lastOr_cons] at hs
        refine (edged_congr (lastOr_any_congr ?_ d) rfl).1 hs
        simpa using hword
    · rcases List.append_eq_append_iff.1 hd with ⟨e, rfl, rfl⟩ | ⟨e, rfl, hc⟩
      · have hedge : ((e ++ x :: b).head?.any isWord) = e.head?.any isWord :=
          head?_append_any (by simpa using hword) e
        exact .inl ⟨p, s, e, rfl, (edged_congr rfl hedge).1 hs⟩
      · cases e with
        | nil =>
          rw [List.nil_append] at hc
          subst hc
          rw [List.append_nil] at hs
          refine .inl ⟨p, d, [], by simp, (edged_congr rfl ?_).1 hs⟩
          exact hword
        | cons y e =>
          obtain ⟨rfl, -⟩ := List.cons.inj hc
          exact absurd (by simp) hx
  · rintro (h | h)
    · have hwithin : Occurs (Edged isWord L) none ([] ++ (a ++ x :: b)) :=
        h.within rfl (by simpa using hword)
      rwa [List.nil_append] at hwithin
    · have hbefore : (lastOr none (a ++ [x])).any isWord = false := by
        rw [lastOr_append]
        exact hword
      have hwithin : Occurs (Edged isWord L) none (a ++ [x] ++ (b ++ [])) :=
        h.within hbefore rfl
      rwa [List.append_nil, List.append_assoc] at hwithin

/-! ## Characters that stand alone -/

section Lone

variable {α : Type} {x : α}

/-- Somewhere the character stands between two others. -/
def Lone (x : α) (t : List α) : Prop :=
  ∃ a y z b, y ≠ x ∧ z ≠ x ∧ t = a ++ y :: x :: z :: b

theorem Lone.mono {u t : List α} (hu : Lone x u) (h : u <:+: t) : Lone x t := by
  obtain ⟨a, y, z, b, hy, hz, rfl⟩ := hu
  obtain ⟨c, d, rfl⟩ := h
  exact ⟨c ++ a, y, z, b ++ d, hy, hz, by simp⟩

variable [DecidableEq α]

/-- Does the character stand alone somewhere? -/
def lone? (x : α) : List α → Bool
  | y :: x' :: z :: t =>
    (decide (y ≠ x) && decide (x' = x) && decide (z ≠ x)) || lone? x (x' :: z :: t)
  | _ => false

theorem lone_of_lone? {t : List α} (h : lone? x t = true) : Lone x t := by
  fun_induction lone? x t with
  | case1 y x' z t ih =>
    simp only [Bool.or_eq_true, Bool.and_eq_true, decide_eq_true_eq] at h
    rcases h with ⟨⟨hy, rfl⟩, hz⟩ | h
    · exact ⟨[], y, z, t, hy, hz, rfl⟩
    · exact (ih h).mono (List.suffix_cons y _).isInfix
  | case2 => cases h

/-- Every `x` is written twice. -/
def doubled (x : α) (t : List α) : List α := t.flatMap fun c => if c = x then [x, x] else [c]

theorem doubled_cons_self (t : List α) : doubled x (x :: t) = x :: x :: doubled x t := by
  simp [doubled]

theorem doubled_cons_of_ne {c : α} (h : c ≠ x) (t : List α) :
    doubled x (c :: t) = c :: doubled x t := by
  simp [doubled, h]

theorem map_doubled {f : α → α} (hf : ∀ c, f c = x ↔ c = x) (t : List α) :
    (doubled x t).map f = doubled x (t.map f) := by
  induction t with
  | nil => rfl
  | cons c t ih =>
    by_cases hc : c = x
    · subst hc
      rw [doubled_cons_self, List.map_cons, List.map_cons, ih, List.map_cons, (hf c).2 rfl,
        doubled_cons_self]
    · rw [doubled_cons_of_ne hc, List.map_cons, ih, List.map_cons,
        doubled_cons_of_ne fun h => hc ((hf c).1 h)]

/-- Where every `x` is written twice, none stands alone. -/
theorem not_lone_doubled (t : List α) : ¬ Lone x (doubled x t) := by
  induction t with
  | nil =>
    rintro ⟨a, y, z, b, -, -, h⟩
    simp [doubled] at h
  | cons c t ih =>
    rintro ⟨a, y, z, b, hy, hz, h⟩
    by_cases hc : c = x
    · subst hc
      rw [doubled_cons_self] at h
      rcases a with _ | ⟨a₁, _ | ⟨a₂, a⟩⟩
      · exact hy (List.cons.inj h).1.symm
      · exact hy (List.cons.inj (List.cons.inj h).2).1.symm
      · exact ih ⟨a, y, z, b, hy, hz, (List.cons.inj (List.cons.inj h).2).2⟩
    · rw [doubled_cons_of_ne hc] at h
      cases a with
      | nil =>
        -- the next character is an `x`, and so is the one after it
        obtain ⟨-, h⟩ := List.cons.inj h
        cases t with
        | nil => simp [doubled] at h
        | cons c' t =>
          by_cases hc' : c' = x
          · subst hc'
            rw [doubled_cons_self] at h
            exact hz (List.cons.inj (List.cons.inj h).2).1.symm
          · rw [doubled_cons_of_ne hc'] at h
            exact hc' (List.cons.inj h).1
      | cons a₁ a => exact ih ⟨a, y, z, b, hy, hz, (List.cons.inj h).2⟩

theorem prefix_doubled_iff {u t : List α} (hx : x ∉ u) : u <+: doubled x t ↔ u <+: t := by
  induction u generalizing t with
  | nil => simp
  | cons y u ih =>
    rw [List.mem_cons, not_or] at hx
    obtain ⟨hy, hu⟩ := hx
    cases t with
    | nil => simp [doubled]
    | cons c t =>
      by_cases hc : c = x
      · subst hc
        rw [doubled_cons_self, List.cons_prefix_cons, List.cons_prefix_cons]
        exact iff_of_false (fun h => hy h.1.symm) fun h => hy h.1.symm
      · rw [doubled_cons_of_ne hc, List.cons_prefix_cons, List.cons_prefix_cons, ih hu]

/-- A word without `x` stands where it stood. -/
theorem infix_doubled_iff {u t : List α} (hx : x ∉ u) : u <:+: doubled x t ↔ u <:+: t := by
  induction t with
  | nil => rfl
  | cons c t ih =>
    rw [List.infix_cons_iff, ← ih, ← prefix_doubled_iff hx]
    by_cases hc : c = x
    · subst hc
      rw [doubled_cons_self, List.infix_cons_iff, List.infix_cons_iff, ← or_assoc]
      refine or_congr_left (or_iff_left_of_imp fun h => ?_)
      -- what begins with neither `x` is empty
      rw [← List.nil_append (c :: doubled c t), prefix_append_cons_iff hx] at h
      rw [List.prefix_nil.1 h]
      exact List.nil_prefix
    · rw [doubled_cons_of_ne hc, List.infix_cons_iff]

end Lone

/-! ## Phrases in a text and in what a substitution makes of it -/

/-- One of the two texts begins with the other. -/
def Meets {α : Type} (u v : List α) : Prop := u <+: v ∨ v <+: u

instance {α : Type} [DecidableEq α] (u v : List α) : Decidable (Meets u v) :=
  inferInstanceAs (Decidable (_ ∨ _))

theorem meets_of_append_eq {α : Type} {u v y z : List α} (h : u ++ y = v ++ z) : Meets u v :=
  List.prefix_or_prefix_of_prefix (List.prefix_append u y) (h ▸ List.prefix_append v z)

theorem Meets.map {α β : Type} {u v : List α} (h : Meets u v) (f : α → β) :
    Meets (u.map f) (v.map f) :=
  Or.imp (fun h => h.map f) (fun h => h.map f) h

theorem Meets.take {α : Type} {u v : List α} (h : Meets u v) (n : ℕ) :
    Meets (u.take n) (v.take n) :=
  Or.imp (fun h => h.take n) (fun h => h.take n) h

theorem Meets.cons {α : Type} {x y : α} {u v : List α} (h : Meets (x :: u) (y :: v)) :
    x = y ∧ Meets u v := by
  rcases h with h | h
  · obtain ⟨hxy, huv⟩ := List.cons_prefix_cons.1 h
    exact ⟨hxy, .inl huv⟩
  · obtain ⟨hyx, hvu⟩ := List.cons_prefix_cons.1 h
    exact ⟨hyx.symm, .inr hvu⟩

/-- A substitution of `repl` for the words of `L` does not help the word along, which is given as
it is folded: the word does not begin inside a replacement, and where it could run into one, no
word of `L` starts. -/
structure Unhelped (isWord : Char → Bool) (L : List Char → Prop) (fold : Char → Char)
    (repl word : List Char) : Prop where
  ne_nil : word ≠ []
  starts : ∀ r₁ r₂, repl.map fold = r₁ ++ r₂ → r₁ ≠ [] → r₂ ≠ [] → ¬ Meets r₂ word
  runs : ∀ w₁ w₂, word = w₁ ++ w₂ → w₂ ≠ [] → Meets (repl.map fold) w₂ →
    ∃ x, lastOr none w₁ = some x ∧
      ∀ c s next, fold c = x → L s → ¬ Edge isWord (some c) (firstOr next s)

section Unhelped

variable {isWord : Char → Bool} {L : List Char → Prop} {fold : Char → Char}
  {repl word text out : List Char} {prev : Option Char}

/-- A word whose first character is not in the replacement, and which does not have the first
character of the replacement. -/
theorem Unhelped.of_apart (hne : word ≠ []) (hrepl : repl ≠ [])
    (hfirst : ∀ x ∈ word.head?, x ∉ repl.map fold)
    (havoid : ∀ x ∈ (repl.map fold).head?, x ∉ word) : Unhelped isWord L fold repl word where
  ne_nil := hne
  starts := by
    intro r₁ r₂ hr _ hr₂ hmeets
    obtain ⟨x, xs, rfl⟩ := List.exists_cons_of_ne_nil hne
    obtain ⟨y, ys, rfl⟩ := List.exists_cons_of_ne_nil hr₂
    obtain ⟨rfl, -⟩ := hmeets.cons
    exact hfirst y rfl (by rw [hr]; simp)
  runs := by
    intro w₁ w₂ hw hw₂ hmeets
    obtain ⟨y, ys, rfl⟩ := List.exists_cons_of_ne_nil hw₂
    obtain ⟨r, rs, rfl⟩ := List.exists_cons_of_ne_nil hrepl
    have hry : fold r = y := hmeets.cons.1
    exact absurd (by rw [hw, hry]; simp) (havoid (fold r) rfl)

theorem lastOr_map (f : Char → Char) (prev : Option Char) (s : List Char) :
    lastOr (prev.map f) (s.map f) = (lastOr prev s).map f := by
  induction s generalizing prev with
  | nil => rfl
  | cons x xs ih => exact ih (some x)

/-- A stretch of the result that is not helped along stood in the text. -/
theorem Rewrites.unhelped_back {a c y : List Char}
    (h : Rewrites isWord L repl prev text (a ++ (c ++ y)))
    (hc : Unhelped isWord L fold repl (c.map fold)) :
    ∃ a' y', text = a' ++ (c ++ y') ∧
      (lastOr prev a = lastOr prev a' ∨ Edge isWord (lastOr prev a') (c ++ y').head?) ∧
      Rewrites isWord L repl (lastOr (lastOr prev a') c) y' y := by
  rcases h.split_result with ⟨a', c', rfl, hrest, hside⟩ |
    ⟨_, s, rest, b, r₁, r₂, out, -, hr, hr₁, hr₂, -, hcy, -, -⟩
  · rcases hrest.walk_result with ⟨y', rfl, hy, -⟩ |
      ⟨c₁, c₂, s, rest, out, rfl, hc₂, -, hs, hout⟩
    · exact ⟨a', y', rfl, hside, hy⟩
    · -- it would run into a replacement, where no word starts
      obtain ⟨x, hx, hbarred⟩ := hc.runs (c₁.map fold) (c₂.map fold) (List.map_append ..)
        (by simpa using hc₂) ((meets_of_append_eq hout.symm).map fold)
      have hne : c₁ ≠ [] := by
        rintro rfl
        cases hx
      obtain ⟨z, -, hz⟩ := lastOr_mem hne none
      rw [← Option.map_none (f := fold), lastOr_map, hz] at hx
      have hedge := hs.1
      rw [lastOr_eq_of_ne_nil hne _ none, hz] at hedge
      exact absurd hedge (hbarred z s rest.head? (Option.some.inj hx) hs.2.1)
  · refine absurd ((meets_of_append_eq hcy.symm).map fold)
      (hc.starts (r₁.map fold) (r₂.map fold) ?_ ?_ ?_)
    · rw [hr, List.map_append]
    · simpa using hr₁
    · simpa using hr₂

/-- **A substitution makes no phrase** that its replacement does not help along. -/
theorem Rewrites.found_back {p : Phrasing}
    (hp : ∀ phrase ∈ p.phrases, Unhelped isWord L fold repl (phrase.map fold))
    (h : Rewrites isWord L repl prev text out) (hout : p.Found fold out) :
    p.Found fold text := by
  obtain ⟨phrase, hphrase, a', c', heq⟩ := hout
  rw [List.append_assoc, eq_comm] at heq
  obtain ⟨a, t, rfl, -, ht⟩ := List.map_eq_append_iff.1 heq
  obtain ⟨c, y, rfl, hc, -⟩ := List.map_eq_append_iff.1 ht
  have hunhelped := hp phrase hphrase
  rw [← hc] at hunhelped
  obtain ⟨b, y', rfl, -, -⟩ := h.unhelped_back hunhelped
  refine ⟨phrase, hphrase, b.map fold, y'.map fold, ?_⟩
  rw [List.map_append, List.map_append, hc, List.append_assoc]

/-- The same of words between edges. -/
theorem Rewrites.occurs_edged_back {K : List Char → Prop} (hrepl : repl ≠ [])
    (hK : ∀ c, K c → Unhelped isWord L fold repl (c.map fold))
    (h : Rewrites isWord L repl prev text out) (hout : Occurs (Edged isWord K) prev out) :
    Occurs (Edged isWord K) prev text := by
  obtain ⟨a, c, y, rfl, hc⟩ := hout
  have hunhelped := hK c hc.2.1
  have hne : c ≠ [] := fun hnil => hunhelped.ne_nil (by rw [hnil]; rfl)
  obtain ⟨hleft, hKc, hright⟩ := (edged_iff hne).1 hc
  obtain ⟨a', y', rfl, hside, hy⟩ := h.unhelped_back hunhelped
  refine ⟨a', c, y', rfl, (edged_iff hne).2 ⟨?_, hKc, hy.edge_back hrepl hne hright⟩⟩
  rcases hside with hside | hside
  · rwa [← hside]
  · rwa [List.head?_append_of_ne_nil c hne] at hside

end Unhelped

end Regex
