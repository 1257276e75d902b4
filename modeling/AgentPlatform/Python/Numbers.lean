import AgentPlatform.Python.Value
import Mathlib.Tactic.Linarith
import Mathlib.Tactic.NormNum
import Mathlib.Algebra.Order.Field.Rat

/-!
# Python's numbers as rationals

What the operations on Python's numbers do to the rational each number stands for, and the order
laws of truncating and rounding.

* `PyNum.val_add`, `PyNum.val_floorDiv`, … — the operations, on the rationals.
* `PyNum.trunc_mono` — `int(x)` keeps the order.
* `le_roundHalfEven_iff` — which numbers a rational is rounded to, or above.
* `round2`, `round2_mono` — rounding to two decimals, which keeps the order.
-/

namespace AgentPlatform

namespace PyNum

variable (a b : PyNum)

/-- `int(x)` of a number that is whole is the number. -/
theorem trunc_of_not_isFloat {a : PyNum} (h : a.isFloat = false) : (a.trunc : ℚ) = a.val := by
  cases a with
  | bool b => cases b <;> simp [trunc, val]
  | int n => simp
  | float q => cases h

theorem val_lift {onInt : ℤ → ℤ → ℤ} {onFloat : ℚ → ℚ → ℚ}
    (h : ∀ x y : ℤ, (onInt x y : ℚ) = onFloat x y) :
    (lift onInt onFloat a b).val = onFloat a.val b.val := by
  unfold lift
  cases hf : a.isFloat || b.isFloat with
  | true => simp
  | false =>
    obtain ⟨ha, hb⟩ := Bool.or_eq_false_iff.1 hf
    simp [h, trunc_of_not_isFloat ha, trunc_of_not_isFloat hb]

@[simp] theorem val_add : (a + b).val = a.val + b.val :=
  val_lift a b fun x y => Int.cast_add x y

@[simp] theorem val_sub : (a - b).val = a.val - b.val :=
  val_lift a b fun x y => Int.cast_sub x y

@[simp] theorem val_floorDiv : (a.floorDiv b).val = ⌊a.val / b.val⌋ :=
  val_lift a b fun _ _ => rfl

@[simp] theorem val_pyMin : (pyMin a b).val = min a.val b.val := by
  unfold pyMin
  by_cases h : b.val < a.val
  · rw [if_pos h, min_eq_right h.le]
  · rw [if_neg h, min_eq_left (not_lt.1 h)]

@[simp] theorem val_pyMax : (pyMax a b).val = max a.val b.val := by
  unfold pyMax
  by_cases h : a.val < b.val
  · rw [if_pos h, max_eq_right h.le]
  · rw [if_neg h, max_eq_left (not_lt.1 h)]

/-- `int(x)` keeps the order. -/
theorem trunc_mono {a b : PyNum} (h : a.val ≤ b.val) : a.trunc ≤ b.trunc := by
  unfold trunc
  by_cases ha : 0 ≤ a.val
  · rw [if_pos ha, if_pos (ha.trans h)]
    exact Int.floor_mono h
  · have hceil : ⌈a.val⌉ ≤ 0 := Int.ceil_le.2 (by simpa using (not_le.1 ha).le)
    rw [if_neg ha]
    by_cases hb : 0 ≤ b.val
    · rw [if_pos hb]
      exact hceil.trans (Int.floor_nonneg.2 hb)
    · rw [if_neg hb]
      exact Int.ceil_mono h

end PyNum

/-! ## Rounding to the even neighbour -/

/-- A rational is rounded to `k` or above where it is nearer to `k` than to what is below, and
halfway where `k` is even. -/
theorem le_roundHalfEven_iff (k : ℤ) (q : ℚ) :
    k ≤ roundHalfEven q ↔ (k : ℚ) - 1 / 2 < q ∨ (q = k - 1 / 2 ∧ k % 2 = 0) := by
  have hlow : (⌊q⌋ : ℚ) ≤ q := Int.floor_le q
  have hhigh : q < ⌊q⌋ + 1 := Int.lt_floor_add_one q
  unfold roundHalfEven
  rcases lt_trichotomy k (⌊q⌋ + 1) with hk | hk | hk
  · -- both neighbours of `q` are at `k` or above
    have hcast : (k : ℚ) ≤ ⌊q⌋ := by exact_mod_cast Int.lt_add_one_iff.1 hk
    refine iff_of_true ?_ (Or.inl (by linarith))
    split_ifs <;> omega
  · -- `k` is the upper neighbour: the rounding decides
    have hcast : (k : ℚ) = ⌊q⌋ + 1 := by exact_mod_cast hk
    split_ifs with hless hmore heven
    · constructor
      · intro h
        omega
      · rintro (h | ⟨h, -⟩) <;> linarith
    · exact iff_of_true hk.le (Or.inl (by linarith))
    · constructor
      · intro h
        omega
      · rintro (h | ⟨-, h⟩)
        · linarith
        · omega
    · exact iff_of_true hk.le (Or.inr ⟨by linarith, by omega⟩)
  · -- both neighbours of `q` are below `k`
    have hcast : (⌊q⌋ : ℚ) + 1 + 1 ≤ k := by exact_mod_cast hk
    constructor
    · intro h
      split_ifs at h <;> omega
    · rintro (h | ⟨h, -⟩) <;> linarith

theorem roundHalfEven_mono {q r : ℚ} (h : q ≤ r) : roundHalfEven q ≤ roundHalfEven r := by
  rw [le_roundHalfEven_iff]
  rcases (le_roundHalfEven_iff _ q).1 le_rfl with hq | ⟨hq, heven⟩
  · exact Or.inl (hq.trans_le h)
  · rcases lt_or_eq_of_le h with hlt | rfl
    · exact Or.inl (hq ▸ hlt)
    · exact Or.inr ⟨hq, heven⟩

@[simp] theorem roundHalfEven_intCast (n : ℤ) : roundHalfEven (n : ℚ) = n := by
  simp [roundHalfEven]

/-- `round(q, 2)`. -/
def round2 (q : ℚ) : ℚ := roundHalfEven (q * 100) / 100

theorem round2_mono {q r : ℚ} (h : q ≤ r) : round2 q ≤ round2 r := by
  have hround : roundHalfEven (q * 100) ≤ roundHalfEven (r * 100) :=
    roundHalfEven_mono (mul_le_mul_of_nonneg_right h (by norm_num))
  exact div_le_div_of_nonneg_right (by exact_mod_cast hround) (by norm_num)

@[simp] theorem round2_intCast (n : ℤ) : round2 n = n := by
  have h : (n : ℚ) * 100 = ((n * 100 : ℤ) : ℚ) := by push_cast; rfl
  rw [round2, h, roundHalfEven_intCast]
  push_cast
  exact mul_div_cancel_right₀ _ (by norm_num)

end AgentPlatform
