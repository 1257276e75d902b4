import AgentPlatform.Decisioning.Coherence
import AgentPlatform.Python.Numbers

/-!
# Applications and what they qualify for

An application is the figures one call of the eligibility engine is made with.  What it takes to
be eligible is stated over the rationals, without a quotient by the income: the instalments of a
month stay within a share of the monthly income.  The engine decides just that.

* `Application`, `Application.assess` — the figures, and the engine on them.
* `Application.Qualifies` — what the four rules ask for.
* `Application.assess_spec` — the decision of the engine, in these terms.
* `Improves`, `eligible_of_improves` — **eligibility is monotone**: better figures, or a longer
  tenure, never cost an application its eligibility or a part of its offer.
-/

namespace AgentPlatform

/-- The figures of an application. -/
structure Application where
  income : PyNum
  cibilScore : PyNum
  existingEmis : PyNum
  requestedAmount : PyNum
  tenureMonths : PyNum
  debtToIncome : Option PyNum := none
  deriving DecidableEq

/-- Does the decision report the rule as passed? -/
def EligibilityDecision.Reports (d : EligibilityDecision) (rule : String) : Prop :=
  ∃ r ∈ d.reasons, r.rule = rule ∧ r.passed = true

namespace Application

/-- The engine on the figures. -/
def assess (rt : PyRuntime) (a : Application) : Except PyErr EligibilityDecision :=
  assessEligibility rt (.num a.income) (.num a.cibilScore) (.num a.existingEmis)
    (.num a.requestedAmount) (.num a.tenureMonths) (givenDebt a.debtToIncome)

/-! ## What the rules ask for -/

variable (rt : PyRuntime) (a b : Application)

/-- What the instalments of a month may come to. -/
def limit : ℚ := a.income.val / 12 * maxEmiToIncome

/-- The instalments of a month: those there are and the one asked for. -/
def obligation : ℚ := a.existingEmis.val + a.requestedAmount.val / a.tenureMonths.val

/-- The ratio the engine goes by: the one it is given, or that of the instalments. -/
def ratio : ℚ :=
  match a.debtToIncome with
  | some dti => dti.val
  | none => if a.income.val = 0 then 1 else a.existingEmis.val * 12 / a.income.val

/-- The rule on the instalments. -/
def Affordable : Prop :=
  (0 < a.tenureMonths.val ∧ 0 < a.income.val) ∧ a.obligation ≤ a.limit

/-- The four rules. -/
structure Qualifies : Prop where
  credit : minScore ≤ a.cibilScore.val
  earning : minAnnualIncome ≤ a.income.val
  capacity : a.Affordable
  debt : a.ratio ≤ 55 / 100

/-- The points for the record at the bureau. -/
def bureauPoints (cibilScore : ℚ) : ℤ := min 250 ⌊cibilScore / 2⌋

/-- The points for the income. -/
def earningPoints (income : ℚ) : ℤ :=
  if 1000000 ≤ income then 150 else if 500000 ≤ income then 100 else 50

/-- The points the ratio takes off. -/
def burdenPoints (ratio : ℚ) : ℤ :=
  if ratio ≤ 55 / 100 then (PyNum.float (ratio * 100 / 2)).trunc else 80

/-- The score before it is kept within its bounds. -/
def points : ℤ :=
  300 + bureauPoints a.cibilScore.val + earningPoints a.income.val - burdenPoints a.ratio

/-! ## The engine decides just that -/

variable {a} in
/-- A share of the monthly income, with and without the quotient. -/
theorem obligation_div_le_iff (h : 0 < a.income.val) :
    a.obligation / (a.income.val / 12) ≤ maxEmiToIncome ↔ a.obligation ≤ a.limit := by
  rw [div_le_iff₀ (by positivity), mul_comm]
  rfl

theorem capacityRule_eq : ∃ capacity : RuleResult,
    capacityRule a.income (.num a.existingEmis) (.num a.requestedAmount) a.tenureMonths =
      .ok capacity ∧
    capacity.rule = "obligation_ratio" ∧ (capacity.passed = true ↔ a.Affordable) := by
  unfold capacityRule
  by_cases h : 0 < a.tenureMonths.val ∧ 0 < a.income.val / 12
  · have hincome : 0 < a.income.val := by linarith [h.2]
    dsimp only
    rw [if_pos h]
    refine ⟨_, rfl, rfl, ?_⟩
    show decide (a.obligation / (a.income.val / 12) ≤ maxEmiToIncome) = true ↔ _
    rw [decide_eq_true_iff, obligation_div_le_iff hincome]
    exact ⟨fun hle => ⟨⟨h.1, hincome⟩, hle⟩, fun hpass => hpass.2⟩
  · dsimp only
    rw [if_neg h]
    refine ⟨_, rfl, rfl, ?_⟩
    refine iff_of_false Bool.false_ne_true fun hpass => h ⟨hpass.1.1, ?_⟩
    have hincome := hpass.1.2
    positivity

theorem debtToIncomeOf_eq :
    debtToIncomeOf a.income (.num a.existingEmis) (givenDebt a.debtToIncome) = .ok a.ratio := by
  unfold ratio
  cases a.debtToIncome with
  | some dti => rfl
  | none =>
    simp only [givenDebt, debtToIncomeOf]
    split_ifs <;> rfl

theorem weightedScore_val :
    (weightedScore a.income a.cibilScore a.ratio).val = (max 0 (min 900 a.points) : ℤ) := by
  simp [weightedScore, points, bureauPoints, earningPoints, burdenPoints]

/-- What a decision on an application says. -/
structure Decides (d : EligibilityDecision) : Prop where
  eligible : d.eligible = true ↔ a.Qualifies
  offer : d.maxAmount = if d.eligible then ⌊a.limit * a.tenureMonths.val⌋ else 0
  score : d.score.val = (max 0 (min 900 a.points) : ℤ)
  obligation : d.Reports "obligation_ratio" ↔ a.Affordable
  debt : d.Reports "debt_to_income" ↔ a.ratio ≤ 55 / 100

/-- An application that qualifies has a limit above zero. -/
theorem Qualifies.limit_nonneg {a : Application} (h : a.Qualifies) :
    0 ≤ a.limit * a.tenureMonths.val := by
  have hincome := h.capacity.1.2
  have htenure := h.capacity.1.1
  unfold limit maxEmiToIncome
  positivity

/-- The engine comes to a decision on every application. -/
theorem assess_spec : ∃ d, a.assess rt = .ok d ∧ a.Decides d := by
  obtain ⟨capacity, hcapacity, hrule, hpassed⟩ := a.capacityRule_eq
  have hall : ([creditRule rt a.cibilScore, incomeRule rt a.income, capacity,
      dtiRule a.ratio].all RuleResult.passed) = true ↔ a.Qualifies := by
    simp only [List.all_cons, List.all_nil, Bool.and_true, Bool.and_eq_true, hpassed, creditRule,
      incomeRule, dtiRule, decide_eq_true_eq]
    constructor
    · rintro ⟨hcredit, hincome, hcapacity, hdti⟩
      exact ⟨hcredit, hincome, hcapacity, hdti⟩
    · rintro ⟨hcredit, hincome, hcapacity, hdti⟩
      exact ⟨hcredit, hincome, hcapacity, hdti⟩
  refine ⟨_, bind_eq_ok_iff.2 ⟨_, rfl, bind_eq_ok_iff.2 ⟨_, rfl, bind_eq_ok_iff.2 ⟨_, rfl,
    bind_eq_ok_iff.2 ⟨_, hcapacity, bind_eq_ok_iff.2 ⟨_, a.debtToIncomeOf_eq, rfl⟩⟩⟩⟩⟩, ?_⟩
  refine ⟨hall, ?_, a.weightedScore_val, ?_, ?_⟩
  · dsimp only
    split_ifs with h
    · exact if_pos (hall.1 h).limit_nonneg
    · rfl
  · simp [EligibilityDecision.Reports, creditRule, incomeRule, dtiRule, hrule, hpassed]
  · simp [EligibilityDecision.Reports, creditRule, incomeRule, dtiRule, hrule]

end Application

/-! ## Eligibility is monotone -/

/-- The second application is at least as good as the first: in its figures over the same tenure,
or in a longer tenure for the same amount. -/
inductive Improves (a b : Application) : Prop where
  | figures (tenure : b.tenureMonths.val = a.tenureMonths.val)
      (income : a.income.val ≤ b.income.val)
      (cibil : a.cibilScore.val ≤ b.cibilScore.val)
      (emis : b.existingEmis.val ≤ a.existingEmis.val)
      (amount : b.requestedAmount.val ≤ a.requestedAmount.val)
  | tenure (longer : a.tenureMonths.val ≤ b.tenureMonths.val)
      (amount : 0 ≤ a.requestedAmount.val)
      (same : b = { a with tenureMonths := b.tenureMonths })

namespace Improves

variable {a b : Application}

theorem income_le (h : Improves a b) : a.income.val ≤ b.income.val := by
  cases h with
  | figures _ income _ _ _ => exact income
  | tenure _ _ same => rw [same]

theorem cibil_le (h : Improves a b) : a.cibilScore.val ≤ b.cibilScore.val := by
  cases h with
  | figures _ _ cibil _ _ => exact cibil
  | tenure _ _ same => rw [same]

theorem emis_le (h : Improves a b) : b.existingEmis.val ≤ a.existingEmis.val := by
  cases h with
  | figures _ _ _ emis _ => exact emis
  | tenure _ _ same => rw [same]

theorem tenure_le (h : Improves a b) : a.tenureMonths.val ≤ b.tenureMonths.val := by
  cases h with
  | figures tenure _ _ _ _ => exact tenure.ge
  | tenure longer _ _ => exact longer

/-- The instalment asked for is no higher. -/
theorem instalment_le (h : Improves a b) (htenure : 0 < a.tenureMonths.val) :
    b.requestedAmount.val / b.tenureMonths.val ≤ a.requestedAmount.val / a.tenureMonths.val := by
  cases h with
  | figures tenure _ _ _ amount =>
    rw [tenure]
    exact div_le_div_of_nonneg_right amount htenure.le
  | tenure longer amount same =>
    have hsame : b.requestedAmount = a.requestedAmount := by rw [same]
    rw [hsame]
    exact div_le_div_of_nonneg_left amount htenure longer

theorem limit_le (h : Improves a b) : a.limit ≤ b.limit := by
  unfold Application.limit maxEmiToIncome
  have hincome := h.income_le
  linarith

/-- Where the ratio is the one of the instalments, it is no higher for the better application,
and whatever the signs the rule on it passes again. -/
theorem ratio_le (h : Improves a b) (ha : a.debtToIncome = none) (hb : b.debtToIncome = none)
    (hincome : 0 < a.income.val) (hratio : a.ratio ≤ 55 / 100) : b.ratio ≤ 55 / 100 := by
  have hincome' : 0 < b.income.val := hincome.trans_le h.income_le
  simp only [Application.ratio, ha, hb, hincome.ne', hincome'.ne', if_false] at hratio ⊢
  rw [div_le_iff₀ hincome] at hratio
  rw [div_le_iff₀ hincome']
  linarith [h.emis_le, h.income_le]

theorem affordable (h : Improves a b) (ha : a.Affordable) : b.Affordable := by
  obtain ⟨⟨htenure, hincome⟩, hle⟩ := ha
  refine ⟨⟨htenure.trans_le h.tenure_le, hincome.trans_le h.income_le⟩, ?_⟩
  calc b.obligation ≤ a.obligation := add_le_add h.emis_le (h.instalment_le htenure)
    _ ≤ a.limit := hle
    _ ≤ b.limit := h.limit_le

theorem qualifies (h : Improves a b) (ha : a.debtToIncome = none) (hb : b.debtToIncome = none)
    (hq : a.Qualifies) : b.Qualifies where
  credit := hq.credit.trans h.cibil_le
  earning := hq.earning.trans h.income_le
  capacity := h.affordable hq.capacity
  debt := h.ratio_le ha hb hq.capacity.1.2 hq.debt

end Improves

namespace Application

variable {a b : Application} {d e : EligibilityDecision}

/-- No offer is below zero. -/
theorem Decides.offer_nonneg (h : a.Decides d) : 0 ≤ d.maxAmount := by
  rw [h.offer]
  split_ifs with hel
  · exact Int.floor_nonneg.2 (h.eligible.1 hel).limit_nonneg
  · exact le_rfl

theorem Decides.offer_le (ha : a.Decides d) (hb : b.Decides e)
    (hel : d.eligible = true → e.eligible = true)
    (hle : a.Qualifies → a.limit * a.tenureMonths.val ≤ b.limit * b.tenureMonths.val) :
    d.maxAmount ≤ e.maxAmount := by
  by_cases h : d.eligible = true
  · rw [ha.offer, hb.offer, if_pos h, if_pos (hel h)]
    exact Int.floor_mono (hle (ha.eligible.1 h))
  · rw [ha.offer, if_neg h]
    exact hb.offer_nonneg

end Application

/-- **Eligibility is monotone.**  Where the ratio is left to the engine, better figures over the
same tenure, and a longer tenure for the same amount, keep an application eligible and its offer
at least as high. -/
theorem eligible_of_improves (rt : PyRuntime) {a b : Application} (h : Improves a b)
    (ha : a.debtToIncome = none) (hb : b.debtToIncome = none) :
    ∃ d e, a.assess rt = .ok d ∧ b.assess rt = .ok e ∧
      (d.eligible = true → e.eligible = true) ∧ d.maxAmount ≤ e.maxAmount := by
  obtain ⟨d, hd, hda⟩ := a.assess_spec rt
  obtain ⟨e, he, heb⟩ := b.assess_spec rt
  have hel : d.eligible = true → e.eligible = true := fun hel =>
    heb.eligible.2 (h.qualifies ha hb (hda.eligible.1 hel))
  refine ⟨d, e, hd, he, hel, hda.offer_le heb hel fun hq => ?_⟩
  have hlimit : 0 ≤ b.limit := by
    have hincome := (h.qualifies ha hb hq).capacity.1.2
    unfold Application.limit maxEmiToIncome
    positivity
  exact mul_le_mul h.limit_le h.tenure_le hq.capacity.1.1.le hlimit

/-- An application that is eligible. -/
def goodApplication : Application where
  income := .int 2000000
  cibilScore := .int 800
  existingEmis := .int 5000
  requestedAmount := .int 1500000
  tenureMonths := .int 60

theorem eligible_over_seven_years : ∃ d e, goodApplication.assess .ascii = .ok d ∧
    { goodApplication with tenureMonths := .int 84 }.assess .ascii = .ok e ∧
    (d.eligible = true → e.eligible = true) ∧ d.maxAmount ≤ e.maxAmount :=
  eligible_of_improves .ascii
    (.tenure (by norm_num [goodApplication]) (by norm_num [goodApplication]) rfl) rfl rfl

end AgentPlatform
