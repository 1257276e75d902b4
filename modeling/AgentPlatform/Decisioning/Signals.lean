import AgentPlatform.Decisioning.Fraud
import AgentPlatform.Lib.SignedSums

/-!
# Signals that hide others

The values of the signals are cut off at one, but not at zero: an amount, a velocity or a ratio
below zero takes off again what other signals contribute.  How much is hidden depends on the
rounding, which absorbs a little.

* `Transaction.gains`, `Transaction.losses` — what the indicators contribute, and what those below
  zero take off.
* `Transaction.Absorbed` — the losses are no more than the rounding absorbs.
* `FraudDecision.Heeds` — the decision is at least as severe as a part of the signals alone.
* `heeds_all_iff` — **when no signal hides another**.
-/

namespace AgentPlatform

/-! ## What is gained and what is lost -/

section Weighted

variable {w x : ℚ} (hw : 0 ≤ w)
include hw

theorem posPart_weighted : (w * min 1 x)⁺ = w * min 1 x⁺ := by
  rcases le_total 0 x with h | h
  · have hmin : 0 ≤ min 1 x := le_min zero_le_one h
    rw [posPart_of_nonneg h, posPart_of_nonneg (mul_nonneg hw hmin)]
  · have hmin : min 1 x ≤ 0 := (min_le_right _ _).trans h
    rw [posPart_of_nonpos h, posPart_of_nonpos (mul_nonpos_of_nonneg_of_nonpos hw hmin),
      min_eq_right zero_le_one, mul_zero]

theorem negPart_weighted : (w * min 1 x)⁻ = w * x⁻ := by
  rcases le_total 0 x with h | h
  · have hmin : 0 ≤ min 1 x := le_min zero_le_one h
    rw [negPart_of_nonneg h, negPart_of_nonneg (mul_nonneg hw hmin), mul_zero]
  · have hmin : min 1 x = x := min_eq_right (h.trans zero_le_one)
    rw [hmin, negPart_of_nonpos h, negPart_of_nonpos (mul_nonpos_of_nonneg_of_nonpos hw h),
      mul_neg]

end Weighted

namespace Transaction

variable (rt : PyRuntime) (t : Transaction)

/-- What the indicators contribute, those below zero left out. -/
def gains : ℚ :=
  30 / 100 * min 1 (t.amount.val / 1000000)⁺ + 20 / 100 * min 1 (t.velocity24h / 20 : ℚ)⁺ +
    10 / 100 * flagValue t.ipNew + 15 / 100 * flagValue t.deviceNew +
    15 / 100 * min 1 (t.amountVsAvg.val / 5)⁺ + 10 / 100 * flagValue t.countryMismatch

/-- What the indicators below zero take off. -/
def losses : ℚ :=
  30 / 100 * (t.amount.val / 1000000)⁻ + 20 / 100 * (t.velocity24h / 20 : ℚ)⁻ +
    15 / 100 * (t.amountVsAvg.val / 5)⁻

/-- The losses are no more than the rounding of the gains absorbs: what the gains have, in
hundredths of a percent, above the point from which they are rounded as they are. -/
def Absorbed : Prop :=
  let rounded := roundHalfEven (t.gains * 100 * 100)
  let slack := t.gains * 100 * 100 - (rounded - 1 / 2)
  t.losses * 100 * 100 < slack ∨ (t.losses * 100 * 100 = slack ∧ rounded % 2 = 0)

theorem flag_nonneg (b : Bool) : 0 ≤ flagValue b := flagValue_mono (Bool.false_le b)

theorem gains_signalsOf : SignedSums.gains Signal.contribution (signalsOf rt t) = t.gains := by
  have hflag : ∀ {w : ℚ} (b : Bool), 0 ≤ w → (w * flagValue b)⁺ = w * flagValue b :=
    fun b hw => posPart_of_nonneg (mul_nonneg hw (flag_nonneg b))
  simp only [SignedSums.gains, signalsOf, Signal.contribution, List.map_cons, List.map_nil,
    List.sum_cons, List.sum_nil]
  rw [posPart_weighted (by norm_num), posPart_weighted (by norm_num), hflag _ (by norm_num),
    hflag _ (by norm_num), posPart_weighted (by norm_num), hflag _ (by norm_num), gains]
  ring

theorem losses_signalsOf : SignedSums.losses Signal.contribution (signalsOf rt t) = t.losses := by
  have hflag : ∀ {w : ℚ} (b : Bool), 0 ≤ w → (w * flagValue b)⁻ = 0 :=
    fun b hw => negPart_of_nonneg (mul_nonneg hw (flag_nonneg b))
  simp only [SignedSums.losses, signalsOf, Signal.contribution, List.map_cons, List.map_nil,
    List.sum_cons, List.sum_nil]
  rw [negPart_weighted (by norm_num), negPart_weighted (by norm_num), hflag _ (by norm_num),
    hflag _ (by norm_num), negPart_weighted (by norm_num), hflag _ (by norm_num), losses]
  ring

variable {t} in
/-- Where no indicator is below zero there is nothing to absorb. -/
theorem absorbed_of_nonneg (hamount : 0 ≤ t.amount.val) (hvelocity : 0 ≤ t.velocity24h)
    (haverage : 0 ≤ t.amountVsAvg.val) : t.Absorbed := by
  have hspeed : (0 : ℚ) ≤ t.velocity24h := by exact_mod_cast hvelocity
  have hlosses : t.losses = 0 := by
    rw [losses, negPart_of_nonneg (by positivity), negPart_of_nonneg (by positivity),
      negPart_of_nonneg (by positivity)]
    norm_num
  have hround := (le_roundHalfEven_iff _ (t.gains * 100 * 100)).1 le_rfl
  unfold Absorbed
  rw [hlosses]
  rcases hround with hlt | ⟨heq, heven⟩
  · left
    linarith
  · right
    exact ⟨by linarith, heven⟩

end Transaction

/-! ## The decision and the parts of the signals -/

/-- The decision is at least as severe as these signals alone would make it. -/
structure FraudDecision.Heeds (d : FraudDecision) (part : List Signal) : Prop where
  risk : round2 ((part.map Signal.contribution).sum * 100) ≤ d.riskScore
  block : 80 ≤ round2 ((part.map Signal.contribution).sum * 100) → .block ≤ d.verdict
  review : 50 ≤ round2 ((part.map Signal.contribution).sum * 100) → .review ≤ d.verdict

theorem verdictOf_block {q : ℚ} (h : 80 ≤ q) : verdictOf q = .block := if_pos h

theorem review_le_verdictOf {q : ℚ} (h : 50 ≤ q) : Verdict.review ≤ verdictOf q := by
  unfold verdictOf
  rw [Verdict.le_iff]
  split_ifs <;> decide

variable {rt : PyRuntime} {t : Transaction}

/-- A decision whose risk is no lower is at least as severe. -/
theorem heeds_of_le {part : List Signal} (h : riskOf part ≤ (scoreTransaction rt t).riskScore) :
    (scoreTransaction rt t).Heeds part where
  risk := h
  block := fun hblock => (verdictOf_block (hblock.trans h)).ge
  review := fun hreview => review_le_verdictOf (hreview.trans h)

/-- The risk is that of the gains just where the losses are absorbed. -/
theorem round2_gains_le_iff :
    round2 (t.gains * 100) ≤ (scoreTransaction rt t).riskScore ↔ t.Absorbed := by
  have hsum : ((signalsOf rt t).map Signal.contribution).sum = t.gains - t.losses := by
    rw [SignedSums.sum_eq, t.gains_signalsOf, t.losses_signalsOf]
  show _ ≤ round2 (((signalsOf rt t).map Signal.contribution).sum * 100) ↔ _
  rw [hsum, round2, round2, div_le_div_iff_of_pos_right (by norm_num), Int.cast_le,
    le_roundHalfEven_iff]
  unfold Transaction.Absorbed
  constructor
  · rintro (h | ⟨h, heven⟩)
    · exact Or.inl (by linarith)
    · exact Or.inr ⟨by linarith, heven⟩
  · rintro (h | ⟨h, heven⟩)
    · exact Or.inl (by linarith)
    · exact Or.inr ⟨by linarith, heven⟩

/-- **When no signal hides another.**  The decision heeds every part of the signals, and the risk
is not below zero, just where the rounding absorbs what the indicators below zero take off. -/
theorem heeds_all_iff (rt : PyRuntime) (t : Transaction) :
    ((∀ part : List Signal, part.Sublist (scoreTransaction rt t).signals →
        (scoreTransaction rt t).Heeds part) ∧ 0 ≤ (scoreTransaction rt t).riskScore) ↔
      t.Absorbed := by
  rw [← round2_gains_le_iff]
  constructor
  · rintro ⟨hall, -⟩
    obtain ⟨part, hpart, hsum⟩ :=
      SignedSums.exists_sum_eq_gains Signal.contribution (signalsOf rt t)
    have hrisk := (hall part hpart).risk
    rwa [hsum, t.gains_signalsOf] at hrisk
  · intro hgains
    have hparts : ∀ part : List Signal, part.Sublist (signalsOf rt t) →
        riskOf part ≤ (scoreTransaction rt t).riskScore := by
      intro part hpart
      refine le_trans (round2_mono ?_) hgains
      have hle := SignedSums.sum_le_gains Signal.contribution hpart
      rw [t.gains_signalsOf] at hle
      linarith
    refine ⟨fun part hpart => heeds_of_le (hparts part hpart), ?_⟩
    have hzero : riskOf [] = ((0 : ℤ) : ℚ) := by
      rw [← round2_intCast]
      simp [riskOf]
    have hnil := hparts [] (List.nil_sublist _)
    rw [hzero] at hnil
    exact_mod_cast hnil

/-- A refund of five million takes the risk below zero, where the other signals alone would ask
for a review. -/
theorem refund_hides_signals :
    let d := scoreTransaction .ascii { riskyTransaction with amount := .int (-5000000) }
    d.riskScore = -85 ∧ d.verdict = .approve ∧
      d.signals.tail.Sublist d.signals ∧ riskOf d.signals.tail = 65 ∧ ¬ d.Heeds d.signals.tail := by
  have hrisk : (scoreTransaction .ascii
      { riskyTransaction with amount := .int (-5000000) }).riskScore = -85 := by decide +kernel
  refine ⟨hrisk, by decide +kernel, List.tail_sublist _, by decide +kernel, fun h => ?_⟩
  have hreview := h.review (by decide +kernel)
  revert hreview
  decide +kernel

end AgentPlatform
