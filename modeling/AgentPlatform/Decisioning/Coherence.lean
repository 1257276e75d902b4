import AgentPlatform.Decisioning.Eligibility

/-!
# The eligibility engine in exact arithmetic

The engine on figures that are numbers: whole scores and tenures, and incomes, instalments,
amounts and ratios of any kind.  Every division is carried out as the interpreter does it, so
a divisor that is zero would end the assessment.

* `trueDiv`, `floorDiv` — division that may raise.
* `assessExactly` — the engine, division by division.
* `assessExactly_eq` — no division raises, and the decision is that of the engine.
* `assessEligibility_coherent` — **the decision is coherent**: four rules, a score within its
  bounds, and eligibility, the rules and the offer tell the same.
-/

namespace AgentPlatform

/-! ## Division -/

/-- `a / b`, which raises a `ZeroDivisionError` where the divisor is zero. -/
def trueDiv (a b : ℚ) : Option ℚ := if b = 0 then none else some (a / b)

/-- `a // b` of whole numbers. -/
def floorDiv (a b : ℤ) : Option ℤ := if b = 0 then none else some ⌊(a / b : ℚ)⌋

theorem trueDiv_of_ne {a b : ℚ} (h : b ≠ 0) : trueDiv a b = some (a / b) := if_neg h

theorem floorDiv_two (a : ℤ) : floorDiv a 2 = some ⌊(a / 2 : ℚ)⌋ := by
  simp [floorDiv]

/-! ## The engine, division by division -/

section Engine

variable (rt : PyRuntime) (income existingEmis requestedAmount : PyNum)
  (cibilScore tenureMonths : ℤ) (debtToIncome : Option PyNum)

/-- The rule on the instalments. -/
def assessCapacity : Option RuleResult := do
  let monthlyIncome ← trueDiv income.val 12
  if 0 < tenureMonths ∧ 0 < monthlyIncome then do
    let estEmi ← trueDiv requestedAmount.val tenureMonths
    let obliRatio ← trueDiv (existingEmis.val + estEmi) monthlyIncome
    return ⟨"obligation_ratio", obliRatio ≤ maxEmiToIncome,
      s!"projected obligation ratio {fixed2 obliRatio} <= 0.45"⟩
  else return ⟨"obligation_ratio", false, "invalid tenure or income"⟩

/-- The ratio that is given, or that of the instalments. -/
def assessDebt : Option ℚ :=
  match debtToIncome with
  | some dti => return dti.val
  | none => if income.val ≠ 0 then trueDiv (existingEmis.val * 12) income.val else return 1

/-- What the ratio takes off the score: `int(...)` goes towards zero. -/
def assessBurden (dti : ℚ) : Option ℤ :=
  if dti ≤ 55 / 100 then do
    let half ← trueDiv (dti * 100) 2
    return (PyNum.float half).trunc
  else return 80

def assessScore (dti : ℚ) : Option ℤ := do
  let bureau ← floorDiv cibilScore 2
  let earning := if 1000000 ≤ income.val then 150 else if 500000 ≤ income.val then 100 else 50
  let burden ← assessBurden dti
  return max 0 (min 900 (300 + min 250 bureau + earning - burden))

/-- The engine; the result is `none` if a division raises. -/
def assessExactly : Option EligibilityDecision := do
  let capacity ← assessCapacity income existingEmis requestedAmount tenureMonths
  let dti ← assessDebt income existingEmis debtToIncome
  let reasons :=
    [creditRule rt (.int cibilScore), incomeRule rt income, capacity, dtiRule dti]
  let score ← assessScore income cibilScore dti
  let eligible := reasons.all RuleResult.passed
  let monthlyIncome ← trueDiv income.val 12
  return {
    eligible := eligible
    score := .int score
    maxAmount :=
      if eligible then (PyNum.float (monthlyIncome * maxEmiToIncome * tenureMonths)).trunc else 0
    reasons := reasons
    policyVersion := "eligibility-v1" }

end Engine

/-! ## Whole numbers -/

namespace PyNum

variable (a b : ℤ)

theorem int_add_int : int a + int b = int (a + b) := by
  show lift (· + ·) (· + ·) (int a) (int b) = _
  simp [lift, isFloat]

theorem int_sub_int : int a - int b = int (a - b) := by
  show lift (· - ·) (· - ·) (int a) (int b) = _
  simp [lift, isFloat]

theorem floorDiv_int : (int a).floorDiv (int b) = int ⌊(a / b : ℚ)⌋ := by
  simp [floorDiv, lift, isFloat]

theorem pyMin_int : pyMin (int a) (int b) = int (min a b) := by
  unfold pyMin
  by_cases h : b < a
  · rw [if_pos (by simpa using h), min_eq_right h.le]
  · rw [if_neg (by simpa using h), min_eq_left (not_lt.1 h)]

theorem pyMax_int : pyMax (int a) (int b) = int (max a b) := by
  unfold pyMax
  by_cases h : a < b
  · rw [if_pos (by simpa using h), max_eq_right h.le]
  · rw [if_neg (by simpa using h), max_eq_left (not_lt.1 h)]

end PyNum

/-! ## No division raises -/

section Divisions

variable (rt : PyRuntime) (income existingEmis requestedAmount : PyNum)
  (cibilScore tenureMonths : ℤ) (debtToIncome : Option PyNum) (dti : ℚ)

/-- The optional figure as it is passed. -/
def givenDebt (debtToIncome : Option PyNum) : Json :=
  match debtToIncome with
  | none => .null
  | some dti => .num dti

theorem assessCapacity_eq : ∃ capacity,
    assessCapacity income existingEmis requestedAmount tenureMonths = some capacity ∧
      capacityRule income (.num existingEmis) (.num requestedAmount) (.int tenureMonths) =
        .ok capacity := by
  have hmonthly : trueDiv income.val 12 = some (income.val / 12) := trueDiv_of_ne (by norm_num)
  unfold assessCapacity capacityRule
  by_cases h : 0 < tenureMonths ∧ 0 < income.val / 12
  · obtain ⟨htenure, hincome⟩ := h
    have htenure' : (tenureMonths : ℚ) ≠ 0 := by exact_mod_cast htenure.ne'
    have hcast : 0 < (PyNum.int tenureMonths).val ∧ 0 < income.val / 12 :=
      ⟨by simpa using htenure, hincome⟩
    rw [if_pos hcast]
    refine ⟨_, ?_, rfl⟩
    simp only [hmonthly, Option.bind_eq_bind, Option.bind_some, htenure, hincome, and_self, if_true,
      trueDiv_of_ne htenure', trueDiv_of_ne hincome.ne']
    rfl
  · have hcast : ¬ (0 < (PyNum.int tenureMonths).val ∧ 0 < income.val / 12) := by
      simpa using h
    rw [if_neg hcast]
    refine ⟨_, ?_, rfl⟩
    simp only [hmonthly, Option.bind_eq_bind, Option.bind_some, if_neg h]
    rfl

theorem assessDebt_eq : ∃ dti, assessDebt income existingEmis debtToIncome = some dti ∧
    debtToIncomeOf income (.num existingEmis) (givenDebt debtToIncome) = .ok dti := by
  cases debtToIncome with
  | some given => exact ⟨given.val, rfl, rfl⟩
  | none =>
    unfold assessDebt debtToIncomeOf givenDebt
    by_cases h : income.val = 0
    · exact ⟨1, by simp [h], by simp [h]⟩
    · refine ⟨existingEmis.val * 12 / income.val, ?_, ?_⟩
      · dsimp only
        rw [if_pos h, trueDiv_of_ne h]
      · dsimp only
        rw [if_neg h]
        rfl

theorem assessBurden_eq : assessBurden dti =
    some (if dti ≤ 55 / 100 then (PyNum.float (dti * 100 / 2)).trunc else 80) := by
  have hhalf : trueDiv (dti * 100) 2 = some (dti * 100 / 2) := trueDiv_of_ne (by norm_num)
  unfold assessBurden
  by_cases h : dti ≤ 55 / 100
  · rw [if_pos h, if_pos h, hhalf]
    rfl
  · rw [if_neg h, if_neg h]
    rfl

theorem assessScore_eq : ∃ score, assessScore income cibilScore dti = some score ∧
    weightedScore income (.int cibilScore) dti = .int score ∧ 0 ≤ score ∧ score ≤ 900 := by
  unfold assessScore
  rw [floorDiv_two, assessBurden_eq]
  refine ⟨_, rfl, ?_, le_max_left _ _, max_le (by norm_num) (min_le_left _ _)⟩
  simp only [weightedScore, PyNum.floorDiv_int, PyNum.pyMin_int, PyNum.pyMax_int,
    PyNum.int_add_int, PyNum.int_sub_int, Int.cast_ofNat]

/-- The decision on the figures, from the two ratios. -/
def decisionOn (capacity : RuleResult) : EligibilityDecision :=
  let reasons :=
    [creditRule rt (.int cibilScore), incomeRule rt income, capacity, dtiRule dti]
  { eligible := reasons.all RuleResult.passed
    score := weightedScore income (.int cibilScore) dti
    maxAmount :=
      if reasons.all RuleResult.passed then
        (PyNum.float (income.val / 12 * maxEmiToIncome * tenureMonths)).trunc
      else 0
    reasons := reasons
    policyVersion := "eligibility-v1" }

/-- **No division raises**, and the decision is that of the engine. -/
theorem assessExactly_eq : ∃ capacity dti,
    assessExactly rt income existingEmis requestedAmount cibilScore tenureMonths debtToIncome =
      some (decisionOn rt income cibilScore tenureMonths dti capacity) ∧
    assessEligibility rt (.num income) (.int cibilScore) (.num existingEmis) (.num requestedAmount)
      (.int tenureMonths) (givenDebt debtToIncome) =
      .ok (decisionOn rt income cibilScore tenureMonths dti capacity) ∧
    capacityRule income (.num existingEmis) (.num requestedAmount) (.int tenureMonths) =
      .ok capacity := by
  obtain ⟨capacity, hcapacity, hcapacity'⟩ :=
    assessCapacity_eq income existingEmis requestedAmount tenureMonths
  obtain ⟨dti, hdti, hdti'⟩ := assessDebt_eq income existingEmis debtToIncome
  obtain ⟨score, hscore, hscore', -⟩ := assessScore_eq income cibilScore dti
  have hmonthly : trueDiv income.val 12 = some (income.val / 12) := trueDiv_of_ne (by norm_num)
  refine ⟨capacity, dti, ?_, ?_, hcapacity'⟩
  · simp only [assessExactly, hcapacity, hdti, hscore, hmonthly, Option.bind_eq_bind,
      Option.bind_some, decisionOn, hscore']
    rfl
  · refine bind_eq_ok_iff.2 ⟨_, rfl, bind_eq_ok_iff.2 ⟨_, rfl, bind_eq_ok_iff.2 ⟨_, rfl, ?_⟩⟩⟩
    exact bind_eq_ok_iff.2 ⟨_, hcapacity', bind_eq_ok_iff.2 ⟨_, hdti', rfl⟩⟩

/-! ## What a decision tells -/

variable {rt income existingEmis requestedAmount cibilScore tenureMonths debtToIncome dti}

/-- The instalments can be paid only over a tenure. -/
theorem capacityRule_spec {capacity : RuleResult}
    (h : capacityRule income (.num existingEmis) (.num requestedAmount) (.int tenureMonths) =
      .ok capacity) :
    capacity.rule = "obligation_ratio" ∧ (capacity.passed = true → 0 < tenureMonths) := by
  unfold capacityRule at h
  dsimp only at h
  split at h
  · rename_i hpos
    obtain rfl := Except.ok.inj h
    exact ⟨rfl, fun _ => by simpa using hpos.1⟩
  · obtain rfl := Except.ok.inj h
    exact ⟨rfl, fun hpassed => by cases hpassed⟩

/-- A sufficient income over a tenure makes an offer of at least one unit. -/
theorem offer_pos (hincome : (minAnnualIncome : ℚ) ≤ income.val) (htenure : 0 < tenureMonths) :
    0 < (PyNum.float (income.val / 12 * maxEmiToIncome * tenureMonths)).trunc := by
  have hmonth : (1 : ℚ) ≤ tenureMonths := by exact_mod_cast htenure
  have hshare : (1 : ℚ) ≤ income.val / 12 * maxEmiToIncome := by
    have hfloor : (300000 : ℚ) ≤ income.val := by simpa [minAnnualIncome] using hincome
    unfold maxEmiToIncome
    linarith
  have hoffer : (1 : ℚ) ≤ income.val / 12 * maxEmiToIncome * tenureMonths :=
    one_le_mul_of_one_le_of_one_le hshare hmonth
  have hnonneg : 0 ≤ (PyNum.float (income.val / 12 * maxEmiToIncome * tenureMonths)).val :=
    le_trans zero_le_one hoffer
  rw [PyNum.trunc, if_pos hnonneg]
  exact Int.floor_pos.2 hoffer

/-- Who is eligible is offered something, who is not is offered nothing. -/
theorem eligible_iff_offer {capacity : RuleResult}
    (h : capacityRule income (.num existingEmis) (.num requestedAmount) (.int tenureMonths) =
      .ok capacity) :
    (decisionOn rt income cibilScore tenureMonths dti capacity).eligible = true ↔
      0 < (decisionOn rt income cibilScore tenureMonths dti capacity).maxAmount := by
  set passes := [creditRule rt (.int cibilScore), incomeRule rt income, capacity,
    dtiRule dti].all RuleResult.passed with hpasses
  show passes = true ↔ 0 < if passes then _ else (0 : ℤ)
  constructor
  · intro hall
    rw [if_pos hall]
    have hrules := List.all_eq_true.1 (hpasses ▸ hall)
    have hincome : minAnnualIncome ≤ income.val := by
      simpa [incomeRule] using hrules (incomeRule rt income) (by simp)
    exact offer_pos hincome ((capacityRule_spec h).2 (hrules capacity (by simp)))
  · intro hpos
    by_contra hnot
    rw [if_neg hnot] at hpos
    exact lt_irrefl _ hpos

/-- **The decision is coherent**, whatever the figures: no division raises, each of the four rules
is there once, the score is within its bounds, and eligibility, the rules and the offer tell the
same. -/
theorem assessEligibility_coherent (rt : PyRuntime)
    (income existingEmis requestedAmount : PyNum) (cibilScore tenureMonths : ℤ)
    (debtToIncome : Option PyNum) : ∃ d,
    assessExactly rt income existingEmis requestedAmount cibilScore tenureMonths debtToIncome =
      some d ∧
    assessEligibility rt (.num income) (.int cibilScore) (.num existingEmis) (.num requestedAmount)
      (.int tenureMonths) (givenDebt debtToIncome) = .ok d ∧
    d.reasons.map RuleResult.rule =
      ["min_cibil", "min_income", "obligation_ratio", "debt_to_income"] ∧
    (∃ score : ℤ, d.score = .int score ∧ 0 ≤ score ∧ score ≤ 900) ∧
    (d.eligible = true ↔ ∀ r ∈ d.reasons, r.passed = true) ∧
    (d.eligible = true ↔ 0 < d.maxAmount) := by
  obtain ⟨capacity, dti, hexactly, hengine, hcapacity⟩ := assessExactly_eq rt income existingEmis
    requestedAmount cibilScore tenureMonths debtToIncome
  refine ⟨_, hexactly, hengine, ?_, ?_, List.all_eq_true, eligible_iff_offer hcapacity⟩
  · simp [decisionOn, creditRule, incomeRule, dtiRule, (capacityRule_spec hcapacity).1]
  · obtain ⟨score, -, hscore, hbounds⟩ := assessScore_eq income cibilScore dti
    exact ⟨score, hscore, hbounds⟩

end Divisions

end AgentPlatform
