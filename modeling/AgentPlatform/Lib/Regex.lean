import Mathlib.Data.List.Basic

/-!
# Backtracking regular expressions

Regular expressions with the matching order of a backtracking engine: a match at
a position is not a set of end positions but a list of them, the one the engine
tries first at the head.  Alternatives are tried left to right, a greedy
repetition tries one more round before it stops and a lazy one stops first.

* `Regex.ends` — the end positions of a match, in the engine's order.
* `Regex.search?` — does the expression match anywhere.
* `Regex.count`, `Regex.sub` — the leftmost, non-overlapping matches, counted and
  replaced.
* `Regex.sub_of_not_search` — a text without a match is left alone.

Texts are lists of characters.  What counts as a word character is a parameter,
since it is a table of the host language.
-/

/-- A regular expression. -/
inductive Regex where
  /-- The empty word. -/
  | eps
  /-- One character of a class. -/
  | char (p : Char → Bool)
  /-- The edge of a word. -/
  | boundary
  /-- One after the other. -/
  | seq (a b : Regex)
  /-- The first or, failing that, the second. -/
  | alt (a b : Regex)
  /-- At least `min` rounds, and at most `max` of them if it is given. -/
  | rep (greedy : Bool) (min : ℕ) (max : Option ℕ) (a : Regex)

namespace Regex

/-- A place in a text: the character just passed, and what is left. -/
structure Pos where
  /-- The character before this place. -/
  prev : Option Char
  /-- The text after this place. -/
  rest : List Char

/-- One word character after another. -/
def literal (s : String) : Regex := s.toList.foldr (fun c r => seq (char (· == c)) r) eps

/-- The first of several expressions that leads to a match. -/
def oneOf : List Regex → Regex
  | [] => char (fun _ => false)
  | [r] => r
  | r :: rs => alt r (oneOf rs)

/-- At most `extra` optional rounds of a step. -/
def optionalRounds (step : Pos → List Pos) (greedy : Bool) : ℕ → Pos → List Pos
  | 0, p => [p]
  | extra + 1, p =>
    let more := (step p).flatMap (optionalRounds step greedy extra)
    if greedy then more ++ [p] else p :: more

/-- `min` obligatory rounds of a step, then at most `extra` optional ones. -/
def rounds (step : Pos → List Pos) (greedy : Bool) (extra : ℕ) : ℕ → Pos → List Pos
  | 0, p => optionalRounds step greedy extra p
  | min + 1, p => (step p).flatMap (rounds step greedy extra min)

variable (isWord : Char → Bool)

/-- Is this place between a word character and something else? -/
def Pos.atBoundary (p : Pos) : Bool :=
  p.prev.any isWord != p.rest.head?.any isWord

/-- The places where a match from `p` can end, in the order they are tried.  An
unbounded repetition is cut at the length of the text left, which no engine
exceeds when every round consumes a character. -/
def ends : Regex → Pos → List Pos
  | eps, p => [p]
  | char c, p =>
    match p.rest with
    | [] => []
    | x :: xs => if c x then [⟨some x, xs⟩] else []
  | boundary, p => if p.atBoundary isWord then [p] else []
  | seq a b, p => (ends a p).flatMap (ends b)
  | alt a b, p => ends a p ++ ends b p
  | rep greedy min max a, p =>
    rounds (ends a) greedy (max.getD (min + p.rest.length) - min) min p

/-- The end of the match at this place, if there is one. -/
def matchAt (r : Regex) (p : Pos) : Option Pos := (r.ends isWord p).head?

/-- Does the expression match at this place or at a later one? -/
def searchFrom (r : Regex) (prev : Option Char) : List Char → Bool
  | [] => (r.matchAt isWord ⟨prev, []⟩).isSome
  | x :: xs => (r.matchAt isWord ⟨prev, x :: xs⟩).isSome || searchFrom r (some x) xs

/-- Does the expression match anywhere in the text? -/
def search? (r : Regex) (text : List Char) : Bool := r.searchFrom isWord none text

/-- The leftmost matches, one after the other, replaced by `repl`; a round that
consumes nothing passes over one character, so `fuel` rounds are enough for a
text of that length. -/
def subFrom (r : Regex) (repl : List Char) : ℕ → Pos → List Char
  | 0, p => p.rest
  | fuel + 1, p =>
    match p.rest, r.matchAt isWord p with
    | [], _ => []
    | x :: xs, none => x :: subFrom r repl fuel ⟨some x, xs⟩
    | x :: xs, some q =>
      if q.rest.length < (x :: xs).length then repl ++ subFrom r repl fuel q
      else x :: subFrom r repl fuel ⟨some x, xs⟩

/-- Replace every match in the text. -/
def sub (r : Regex) (repl text : List Char) : List Char :=
  r.subFrom isWord repl text.length ⟨none, text⟩

/-- The number of leftmost, non-overlapping matches. -/
def countFrom (r : Regex) : ℕ → Pos → ℕ
  | 0, _ => 0
  | fuel + 1, p =>
    match p.rest, r.matchAt isWord p with
    | [], _ => 0
    | x :: xs, none => countFrom r fuel ⟨some x, xs⟩
    | x :: xs, some q =>
      if q.rest.length < (x :: xs).length then countFrom r fuel q + 1
      else countFrom r fuel ⟨some x, xs⟩

/-- How many times the expression matches in the text. -/
def count (r : Regex) (text : List Char) : ℕ := r.countFrom isWord text.length ⟨none, text⟩

variable {isWord}

theorem searchFrom_cons_eq_false {r : Regex} {prev : Option Char} {x : Char} {xs : List Char} :
    r.searchFrom isWord prev (x :: xs) = false ↔
      r.matchAt isWord ⟨prev, x :: xs⟩ = none ∧ r.searchFrom isWord (some x) xs = false := by
  rw [searchFrom, Bool.or_eq_false_iff, Option.isSome_eq_false_iff, Option.isNone_iff_eq_none]

theorem subFrom_of_not_search {r : Regex} {repl : List Char} {fuel : ℕ} {prev : Option Char}
    {text : List Char} (h : r.searchFrom isWord prev text = false) :
    r.subFrom isWord repl fuel ⟨prev, text⟩ = text := by
  induction fuel generalizing prev text with
  | zero => rfl
  | succ fuel ih =>
    cases text with
    | nil => simp [subFrom]
    | cons x xs =>
      obtain ⟨hm, hs⟩ := searchFrom_cons_eq_false.1 h
      simp only [subFrom, hm, ih hs]

/-- A text without a match is left as it is. -/
theorem sub_of_not_search {r : Regex} {repl text : List Char}
    (h : r.search? isWord text = false) : r.sub isWord repl text = text :=
  subFrom_of_not_search h

/-- Only the empty text is replaced by nothing. -/
theorem sub_eq_nil_iff {r : Regex} {repl text : List Char} (hrepl : repl ≠ []) :
    r.sub isWord repl text = [] ↔ text = [] := by
  cases text with
  | nil => simp [sub, subFrom]
  | cons x xs =>
    rw [sub, List.length_cons, subFrom]
    cases hmatch : r.matchAt isWord ⟨none, x :: xs⟩ with
    | none => simp
    | some q =>
      dsimp only
      split <;> simp [hrepl]

end Regex
