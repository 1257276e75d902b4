import Mathlib.Algebra.Order.BigOperators.Group.List
import Mathlib.Algebra.Order.Group.PosPart
import Mathlib.Algebra.BigOperators.Group.List.Lemmas

/-!
# Sums of terms of either sign

A list whose elements each contribute a term to a sum.  What the terms above zero come to is the
largest sum of a part of the list; what the terms below zero take off again is all that the whole
sum can lack of it.

* `SignedSums.gains`, `SignedSums.losses` — the terms above zero, and those below.
* `SignedSums.sum_eq` — the sum is what is gained less what is lost.
* `SignedSums.sum_le_gains`, `SignedSums.exists_sum_eq_gains` — **the gains are the largest sum**
  of a part of the list.
-/

namespace SignedSums

variable {α G : Type} [AddCommGroup G] [LinearOrder G] [IsOrderedAddMonoid G] (term : α → G)

/-- What the terms above zero come to. -/
def gains (l : List α) : G := (l.map fun x => (term x)⁺).sum

/-- What the terms below zero take off. -/
def losses (l : List α) : G := (l.map fun x => (term x)⁻).sum

omit [IsOrderedAddMonoid G] in
@[simp] theorem gains_cons (x : α) (l : List α) : gains term (x :: l) = (term x)⁺ + gains term l :=
  rfl

omit [IsOrderedAddMonoid G] in
@[simp] theorem losses_cons (x : α) (l : List α) :
    losses term (x :: l) = (term x)⁻ + losses term l := rfl

/-- The sum is what is gained less what is lost. -/
theorem sum_eq (l : List α) : (l.map term).sum = gains term l - losses term l := by
  induction l with
  | nil => simp [gains, losses]
  | cons x l ih =>
    calc ((x :: l).map term).sum = ((term x)⁺ - (term x)⁻) + (gains term l - losses term l) := by
          rw [posPart_sub_negPart, List.map_cons, List.sum_cons, ih]
      _ = gains term (x :: l) - losses term (x :: l) := by
          rw [gains_cons, losses_cons, sub_add_sub_comm]

/-- No part of the list comes to more than the gains. -/
theorem sum_le_gains {part l : List α} (h : part.Sublist l) :
    (part.map term).sum ≤ gains term l := by
  calc (part.map term).sum ≤ gains term part := List.sum_le_sum fun x _ => le_posPart (term x)
    _ ≤ gains term l := (h.map _).sum_le_sum fun y hy => by
        obtain ⟨x, -, rfl⟩ := List.mem_map.1 hy
        exact posPart_nonneg _

omit [IsOrderedAddMonoid G] in
/-- The part with the terms above zero comes to the gains. -/
theorem exists_sum_eq_gains (l : List α) :
    ∃ part : List α, part.Sublist l ∧ (part.map term).sum = gains term l := by
  induction l with
  | nil => exact ⟨[], List.Sublist.refl _, rfl⟩
  | cons x l ih =>
    obtain ⟨part, hpart, hsum⟩ := ih
    rcases le_total 0 (term x) with h | h
    · refine ⟨x :: part, hpart.cons_cons x, ?_⟩
      rw [List.map_cons, List.sum_cons, hsum, gains_cons, posPart_of_nonneg h]
    · refine ⟨part, hpart.cons x, ?_⟩
      rw [hsum, gains_cons, posPart_of_nonpos h, zero_add]

end SignedSums
