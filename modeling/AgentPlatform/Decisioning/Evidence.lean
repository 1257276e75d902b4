import AgentPlatform.Decisioning.Applications

/-!
# The evidence of the rules

What the rules of a decision report, read as statements about the figures.  The rule on the ratio
divides by the income and asks only whether it is zero: for an income below zero the ratio of the
instalments is not above zero, so the rule passes and the score goes up.

* `Application.Truthful` — what is reported as passed is so.
* `Application.truthful_iff` — the evidence is truthful for the incomes from zero on.
* `Application.points_mono` — among them, a lower income never has more points.
* `evidence_truthful_iff` — **when the evidence can be relied on**, and the score with it.
* `score_raised` — every applicant with instalments has an income below zero with the full score.
-/

namespace AgentPlatform

namespace Application

/-- The application with another income. -/
def withIncome (a : Application) (income : PyNum) : Application := { a with income := income }

/-- What the decision reports as passed is so. -/
structure Truthful (a : Application) (d : EligibilityDecision) : Prop where
  debt : d.Reports "debt_to_income" →
    12 * a.existingEmis.val ≤ 55 / 100 * a.income.val
  obligation : d.Reports "obligation_ratio" →
    a.existingEmis.val + a.requestedAmount.val / a.tenureMonths.val ≤
      45 / 100 * a.income.val / 12

section Evidence

variable {a : Application} {d : EligibilityDecision}
  (hdti : a.debtToIncome = none) (hemis : 0 ≤ a.existingEmis.val)
include hdti

theorem ratio_of_ne (h : a.income.val ≠ 0) :
    a.ratio = a.existingEmis.val * 12 / a.income.val := by
  simp [ratio, hdti, h]

theorem ratio_of_zero (h : a.income.val = 0) : a.ratio = 1 := by
  simp [ratio, hdti, h]

include hemis

theorem ratio_nonneg (h : 0 ≤ a.income.val) : 0 ≤ a.ratio := by
  rcases h.eq_or_lt with hzero | hpos
  · rw [ratio_of_zero hdti hzero.symm]
    exact zero_le_one
  · rw [ratio_of_ne hdti hpos.ne']
    positivity

/-- An income below zero passes the rule on the ratio. -/
theorem ratio_nonpos (h : a.income.val < 0) : a.ratio ≤ 0 := by
  rw [ratio_of_ne hdti h.ne]
  exact div_nonpos_of_nonneg_of_nonpos (by positivity) h.le

/-- **The evidence is truthful** for the incomes from zero on, and for no other. -/
theorem truthful_iff (h : a.Decides d) : a.Truthful d ↔ 0 ≤ a.income.val := by
  constructor
  · intro htrue
    by_contra hneg
    have hlt : a.income.val < 0 := not_le.1 hneg
    have hpassed : a.ratio ≤ 55 / 100 := (ratio_nonpos hdti hemis hlt).trans (by norm_num)
    have hdebt := htrue.debt (h.debt.2 hpassed)
    linarith
  · intro hincome
    refine ⟨fun hdebt => ?_, fun hobligation => ?_⟩
    · have hratio := h.debt.1 hdebt
      rcases hincome.eq_or_lt with hzero | hpos
      · rw [ratio_of_zero hdti hzero.symm] at hratio
        norm_num at hratio
      · rw [ratio_of_ne hdti hpos.ne', div_le_iff₀ hpos] at hratio
        linarith
    · have hle : a.existingEmis.val + a.requestedAmount.val / a.tenureMonths.val ≤
          a.income.val / 12 * (45 / 100) := (h.obligation.1 hobligation).2
      linarith

/-- Among the incomes from zero on, a lower one has no lower ratio, or one the rule refuses. -/
theorem ratio_antitone {income : PyNum} (hincome : 0 ≤ income.val)
    (hle : income.val ≤ a.income.val) :
    a.ratio ≤ (a.withIncome income).ratio ∨
      55 / 100 < (a.withIncome income).ratio := by
  rcases hincome.eq_or_lt with hzero | hpos
  · right
    rw [ratio_of_zero (a := a.withIncome income) hdti hzero.symm]
    norm_num
  · left
    rw [ratio_of_ne hdti (hpos.trans_le hle).ne',
      ratio_of_ne (a := a.withIncome income) hdti hpos.ne']
    exact div_le_div_of_nonneg_left (by positivity) hpos hle

end Evidence

/-! ## The score -/

theorem earningPoints_mono {q r : ℚ} (h : q ≤ r) : earningPoints q ≤ earningPoints r := by
  unfold earningPoints
  split_ifs <;> first | omega | linarith

theorem le_earningPoints (q : ℚ) : 50 ≤ earningPoints q := by
  unfold earningPoints
  split_ifs <;> omega

theorem earningPoints_le (q : ℚ) : earningPoints q ≤ 150 := by
  unfold earningPoints
  split_ifs <;> omega

/-- A ratio the rule lets pass takes off no more than one it refuses. -/
theorem burdenPoints_le (q : ℚ) : burdenPoints q ≤ 80 := by
  unfold burdenPoints
  split_ifs with h
  · have hcap : (PyNum.float (q * 100 / 2)).trunc ≤ (PyNum.int 80).trunc :=
      PyNum.trunc_mono (by simp only [PyNum.val_float, PyNum.val_int]; push_cast; linarith)
    simpa using hcap
  · exact le_rfl

theorem burdenPoints_of_lt {q : ℚ} (h : 55 / 100 < q) : burdenPoints q = 80 :=
  if_neg (not_le.2 h)

theorem burdenPoints_mono {q r : ℚ} (h : q ≤ r) : burdenPoints q ≤ burdenPoints r := by
  by_cases hr : 55 / 100 < r
  · rw [burdenPoints_of_lt hr]
    exact burdenPoints_le q
  · have hr' : r ≤ 55 / 100 := not_lt.1 hr
    rw [burdenPoints, burdenPoints, if_pos (h.trans hr'), if_pos hr']
    exact PyNum.trunc_mono (by simp only [PyNum.val_float]; linarith)

theorem burdenPoints_nonneg {q : ℚ} (h : 0 ≤ q) : 0 ≤ burdenPoints q := by
  have hzero : burdenPoints 0 = 0 := by norm_num [burdenPoints, PyNum.trunc]
  exact hzero ▸ burdenPoints_mono h

/-- Among the incomes from zero on, a lower one never has more points. -/
theorem points_mono {a : Application} (hdti : a.debtToIncome = none)
    (hemis : 0 ≤ a.existingEmis.val) {income : PyNum} (hincome : 0 ≤ income.val)
    (hle : income.val ≤ a.income.val) : (a.withIncome income).points ≤ a.points := by
  have hearning : earningPoints income.val ≤ earningPoints a.income.val := earningPoints_mono hle
  have hburden : burdenPoints a.ratio ≤ burdenPoints (a.withIncome income).ratio := by
    rcases ratio_antitone hdti hemis hincome hle with hratio | hratio
    · exact burdenPoints_mono hratio
    · rw [burdenPoints_of_lt hratio]
      exact burdenPoints_le _
  show 300 + bureauPoints a.cibilScore.val + earningPoints income.val -
    burdenPoints (a.withIncome income).ratio ≤ 300 + bureauPoints a.cibilScore.val +
    earningPoints a.income.val - burdenPoints a.ratio
  omega

end Application

/-- **When the evidence can be relied on.**  Where the ratio is left to the engine and the
instalments are not below zero, the evidence for an application and for a lower income is truthful
and the lower income has no higher score just where the lower income is not below zero. -/
theorem evidence_truthful_iff (rt : PyRuntime) {a : Application} {income : PyNum}
    (hdti : a.debtToIncome = none) (hemis : 0 ≤ a.existingEmis.val)
    (hle : income.val ≤ a.income.val) :
    ∃ d e, a.assess rt = .ok d ∧ (a.withIncome income).assess rt = .ok e ∧
      ((a.Truthful d ∧ (a.withIncome income).Truthful e ∧ e.score.val ≤ d.score.val) ↔
        0 ≤ income.val) := by
  obtain ⟨d, hd, hda⟩ := a.assess_spec rt
  obtain ⟨e, he, heb⟩ := (a.withIncome income).assess_spec rt
  have hlower := Application.truthful_iff (a := a.withIncome income) hdti hemis heb
  refine ⟨d, e, hd, he, fun h => hlower.1 h.2.1, fun hincome => ⟨?_, hlower.2 hincome, ?_⟩⟩
  · exact (Application.truthful_iff hdti hemis hda).2 (hincome.trans hle)
  · rw [hda.score, heb.score]
    have hpoints := Application.points_mono hdti hemis hincome hle
    exact_mod_cast max_le_max_left 0 (min_le_min_left 900 hpoints)

theorem evidence_of_half_the_income : ∃ d e, goodApplication.assess .ascii = .ok d ∧
    (goodApplication.withIncome (.int 1000000)).assess .ascii = .ok e ∧
    (goodApplication.Truthful d ∧ (goodApplication.withIncome (.int 1000000)).Truthful e ∧
      e.score.val ≤ d.score.val ↔ 0 ≤ (PyNum.int 1000000).val) :=
  evidence_truthful_iff .ascii rfl (by norm_num [goodApplication]) (by norm_num [goodApplication])

/-- An income of minus one passes the rule on the ratio, which it is far from meeting, and takes
the score to its upper bound. -/
theorem debt_reported_for_negative_income : ∃ d e, goodApplication.assess .ascii = .ok d ∧
    (goodApplication.withIncome (.int (-1))).assess .ascii = .ok e ∧
    e.Reports "debt_to_income" ∧ ¬ (12 * goodApplication.existingEmis.val ≤ 55 / 100 * (-1)) ∧
    d.score.val = 699 ∧ e.score.val = 900 := by
  obtain ⟨d, hd, hda⟩ := goodApplication.assess_spec .ascii
  obtain ⟨e, he, heb⟩ := (goodApplication.withIncome (.int (-1))).assess_spec .ascii
  have hratio : (goodApplication.withIncome (.int (-1))).ratio = -60000 := by
    norm_num [goodApplication, Application.ratio, Application.withIncome]
  refine ⟨d, e, hd, he, heb.debt.2 (by rw [hratio]; norm_num), ?_, ?_, ?_⟩
  · norm_num [goodApplication]
  · rw [hda.score]
    have hpoints : goodApplication.points = 699 := by decide +kernel
    rw [hpoints]
    norm_num
  · rw [heb.score]
    have hpoints : (goodApplication.withIncome (.int (-1))).points = 3000600 := by decide +kernel
    rw [hpoints]
    norm_num

namespace Application

/-- A whole ratio below zero gives fifty points for each one. -/
theorem burdenPoints_neg {k : ℤ} (h : 0 < k) : burdenPoints (-k) = -(50 * k) := by
  have hpos : (0 : ℚ) < k := by exact_mod_cast h
  have hhalf : (-k : ℚ) * 100 / 2 = ((-(50 * k) : ℤ) : ℚ) := by push_cast; ring
  rw [burdenPoints, if_pos (by linarith), hhalf]
  exact PyNum.trunc_int _

/-- With instalments, every ratio below zero is that of some income below zero. -/
theorem exists_ratio_eq_neg {a : Application} (hdti : a.debtToIncome = none)
    (hemis : 0 < a.existingEmis.val) {q : ℚ} (hq : 0 < q) :
    ∃ income : PyNum, income.val < 0 ∧ (a.withIncome income).ratio = -q := by
  set income := PyNum.float (-(a.existingEmis.val * 12 / q)) with hincome
  have hneg : income.val < 0 := by
    rw [hincome, PyNum.val_float, neg_lt_zero]
    positivity
  refine ⟨income, hneg, ?_⟩
  rw [ratio_of_ne (a := a.withIncome income) hdti hneg.ne]
  show a.existingEmis.val * 12 / (-(a.existingEmis.val * 12 / q)) = _
  field_simp

/-- No income from zero on has more than seven hundred points. -/
theorem points_le {a : Application} (hdti : a.debtToIncome = none)
    (hemis : 0 ≤ a.existingEmis.val) (hincome : 0 ≤ a.income.val) : a.points ≤ 700 := by
  have hburden := burdenPoints_nonneg (ratio_nonneg hdti hemis hincome)
  have hearning := earningPoints_le a.income.val
  have hbureau : bureauPoints a.cibilScore.val ≤ 250 := min_le_left _ _
  unfold points
  omega

end Application

/-- For every applicant with instalments there is an income below zero with the full score, which
no income from zero on has. -/
theorem score_raised (rt : PyRuntime) {a : Application} (hdti : a.debtToIncome = none)
    (hemis : 0 < a.existingEmis.val) (hincome : 0 ≤ a.income.val) :
    ∃ income : PyNum, income.val < 0 ∧ ∃ d e, a.assess rt = .ok d ∧
      (a.withIncome income).assess rt = .ok e ∧ d.score.val < 900 ∧ e.score.val = 900 := by
  obtain ⟨d, hd, hda⟩ := a.assess_spec rt
  set k : ℤ := max 1 (600 - Application.bureauPoints a.cibilScore.val) with hk
  have hpos : 0 < k := by omega
  obtain ⟨income, hneg, hratio⟩ :=
    Application.exists_ratio_eq_neg hdti hemis (q := k) (by exact_mod_cast hpos)
  obtain ⟨e, he, heb⟩ := (a.withIncome income).assess_spec rt
  refine ⟨income, hneg, d, e, hd, he, ?_, ?_⟩
  · have hpoints := Application.points_le hdti hemis.le hincome
    rw [hda.score]
    exact_mod_cast (by omega : max 0 (min 900 a.points) < 900)
  · have hearning := Application.le_earningPoints income.val
    have hpoints : 900 ≤ (a.withIncome income).points := by
      unfold Application.points
      rw [hratio, Application.burdenPoints_neg hpos]
      show 900 ≤ 300 + Application.bureauPoints a.cibilScore.val +
        Application.earningPoints income.val - _
      omega
    rw [heb.score, min_eq_left hpoints]
    norm_num

end AgentPlatform
