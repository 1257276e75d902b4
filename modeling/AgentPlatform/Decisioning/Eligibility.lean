import AgentPlatform.Python.Value

/-!
# The eligibility engine

The deterministic authority for loan eligibility.  It compares a few figures with
fixed thresholds and answers with a decision and the evidence of every rule.

The figures arrive as they were passed, so each is checked to be a number where
the engine first computes with it, in the engine's order; a figure the engine
never comes to is never checked.
-/

namespace AgentPlatform

def minScore : ℤ := 550

def minAnnualIncome : ℤ := 300000

def maxEmiToIncome : ℚ := 45 / 100

/-- The evidence of one rule. -/
structure RuleResult where
  rule : String
  passed : Bool
  detail : String
  deriving DecidableEq

structure EligibilityDecision where
  eligible : Bool
  score : PyNum
  maxAmount : ℤ
  reasons : List RuleResult
  policyVersion : String
  deriving DecidableEq

def RuleResult.asdict (r : RuleResult) : Json :=
  .obj [("rule", .str r.rule), ("passed", .bool r.passed), ("detail", .str r.detail)]

def EligibilityDecision.toDict (d : EligibilityDecision) : Dict :=
  [("policy_version", .str d.policyVersion),
    ("eligible", .bool d.eligible),
    ("score", .num d.score),
    ("max_amount", .int d.maxAmount),
    ("reasons", .arr (d.reasons.map RuleResult.asdict))]

/-! ## The rules -/

def creditRule (rt : PyRuntime) (cibilScore : PyNum) : RuleResult :=
  ⟨"min_cibil", minScore ≤ cibilScore.val,
    s!"CIBIL {rt.str (.num cibilScore)} >= {minScore}"⟩

def incomeRule (rt : PyRuntime) (income : PyNum) : RuleResult :=
  ⟨"min_income", minAnnualIncome ≤ income.val,
    s!"income {rt.str (.num income)} >= {minAnnualIncome}"⟩

/-- Can the instalments be paid from the income? -/
def capacityRule (income : PyNum) (existingEmis requestedAmount : Json) (tenureMonths : PyNum) :
    Except PyErr RuleResult :=
  let monthlyIncome := income.val / 12
  if 0 < tenureMonths.val ∧ 0 < monthlyIncome then do
    let requestedAmount ← requestedAmount.asNum
    let estEmi := requestedAmount.val / tenureMonths.val
    let existingEmis ← existingEmis.asNum
    let obliRatio := (existingEmis.val + estEmi) / monthlyIncome
    .ok ⟨"obligation_ratio", obliRatio ≤ maxEmiToIncome,
      s!"projected obligation ratio {fixed2 obliRatio} <= 0.45"⟩
  else .ok ⟨"obligation_ratio", false, "invalid tenure or income"⟩

/-- The yearly instalments in terms of the income. -/
def debtToIncomeOf (income : PyNum) (existingEmis debtToIncome : Json) : Except PyErr ℚ :=
  match debtToIncome with
  | .null =>
    if income.val = 0 then .ok 1
    else do
      let existingEmis ← existingEmis.asNum
      .ok (existingEmis.val * 12 / income.val)
  | given => do
    let dti ← given.asNum
    .ok dti.val

def dtiRule (dti : ℚ) : RuleResult :=
  ⟨"debt_to_income", dti ≤ 55 / 100, s!"DTI {fixed2 dti} <= 0.55"⟩

/-- The weighted score, kept between 0 and 900. -/
def weightedScore (income cibilScore : PyNum) (dti : ℚ) : PyNum :=
  let bureau := PyNum.pyMin (.int 250) (cibilScore.floorDiv (.int 2))
  let earning := if 1000000 ≤ income.val then 150 else if 500000 ≤ income.val then 100 else 50
  let burden := if dti ≤ 55 / 100 then (PyNum.float (dti * 100 / 2)).trunc else 80
  let score := PyNum.int 300 + bureau + .int earning - .int burden
  PyNum.pyMax (.int 0) (PyNum.pyMin (.int 900) score)

/-! ## The engine -/

def assessEligibility (rt : PyRuntime)
    (income cibilScore existingEmis requestedAmount tenureMonths : Json)
    (debtToIncome : Json := .null) : Except PyErr EligibilityDecision := do
  let cibilScore ← cibilScore.asNum
  let income ← income.asNum
  let tenureMonths ← tenureMonths.asNum
  let capacity ← capacityRule income existingEmis requestedAmount tenureMonths
  let dti ← debtToIncomeOf income existingEmis debtToIncome
  let reasons := [creditRule rt cibilScore, incomeRule rt income, capacity, dtiRule dti]
  let eligible := reasons.all RuleResult.passed
  let offer := PyNum.float (income.val / 12 * maxEmiToIncome * tenureMonths.val)
  .ok
    { eligible := eligible
      score := weightedScore income cibilScore dti
      maxAmount := if eligible then offer.trunc else 0
      reasons := reasons
      policyVersion := "eligibility-v1" }

end AgentPlatform
