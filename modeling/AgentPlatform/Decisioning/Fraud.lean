import AgentPlatform.Python.Numbers
import Mathlib.Data.List.Forall2

/-!
# The fraud engine

A transaction is scored by six signals, each a weight times a value cut off at one.  The risk is
their sum in percent, rounded to two decimals, and the verdict follows from the rounded risk.

* `Signal`, `signalsOf` — the signals of a transaction.
* `verdictOf`, `scoreTransaction` — the decision.
* `scoreTransaction_monotone` — **the scoring is monotone**: indicators that are no higher never
  have a higher risk or a more severe verdict, and the risk is at most a hundred.
-/

namespace AgentPlatform

/-- `f"{q:.1f}"`. -/
def fixed1 (q : ℚ) : String :=
  let tenths := (roundHalfEven (q * 10)).natAbs
  (if q < 0 then "-" else "") ++ toString (tenths / 10) ++ "." ++ toString (tenths % 10)

structure Signal where
  name : String
  weight : ℚ
  value : ℚ
  detail : String
  deriving DecidableEq

def Signal.contribution (s : Signal) : ℚ := s.weight * s.value

inductive Verdict where
  | approve
  | review
  | block
  deriving DecidableEq

namespace Verdict

def severity : Verdict → ℕ
  | approve => 0
  | review => 1
  | block => 2

theorem severity_injective : Function.Injective severity := by
  intro v w h
  cases v <;> cases w <;> first | rfl | cases h

/-- From the least to the most severe. -/
instance : LinearOrder Verdict := LinearOrder.lift' severity severity_injective

theorem le_iff {v w : Verdict} : v ≤ w ↔ v.severity ≤ w.severity := Iff.rfl

end Verdict

structure FraudDecision where
  riskScore : ℚ
  verdict : Verdict
  signals : List Signal
  modelVersion : String
  deriving DecidableEq

/-- The indicators of a transaction. -/
structure Transaction where
  amount : PyNum
  velocity24h : ℤ
  ipNew : Bool
  deviceNew : Bool
  amountVsAvg : PyNum
  countryMismatch : Bool
  deriving DecidableEq

/-! ## The engine -/

section Engine

variable (rt : PyRuntime) (t : Transaction)

/-- `1.0 if flag else 0.0`. -/
def flagValue (flag : Bool) : ℚ := if flag then 1 else 0

def signalsOf : List Signal :=
  [⟨"amount", 30 / 100, min 1 (t.amount.val / 1000000), s!"amount {rt.str (.num t.amount)}"⟩,
    ⟨"velocity_24h", 20 / 100, min 1 (t.velocity24h / 20),
      s!"{rt.str (.num (.int t.velocity24h))} txn/24h"⟩,
    ⟨"ip_new", 10 / 100, flagValue t.ipNew, "new IP address"⟩,
    ⟨"device_new", 15 / 100, flagValue t.deviceNew, "new device"⟩,
    ⟨"amount_vs_avg", 15 / 100, min 1 (t.amountVsAvg.val / 5),
      s!"{fixed1 t.amountVsAvg.val}x average"⟩,
    ⟨"country_mismatch", 10 / 100, flagValue t.countryMismatch, "country mismatch"⟩]

/-- `round(sum(s.contribution for s in signals) * 100, 2)`. -/
def riskOf (signals : List Signal) : ℚ := round2 ((signals.map Signal.contribution).sum * 100)

def verdictOf (risk : ℚ) : Verdict :=
  if 80 ≤ risk then .block else if 50 ≤ risk then .review else .approve

def scoreTransaction : FraudDecision :=
  let signals := signalsOf rt t
  let risk := riskOf signals
  { riskScore := risk, verdict := verdictOf risk, signals := signals, modelVersion := "fraud-v1" }

end Engine

/-! ## The scoring is monotone -/

/-- Each indicator of the first is at most that of the second. -/
structure Transaction.AtMost (t u : Transaction) : Prop where
  amount : t.amount.val ≤ u.amount.val
  velocity24h : t.velocity24h ≤ u.velocity24h
  ipNew : t.ipNew ≤ u.ipNew
  deviceNew : t.deviceNew ≤ u.deviceNew
  amountVsAvg : t.amountVsAvg.val ≤ u.amountVsAvg.val
  countryMismatch : t.countryMismatch ≤ u.countryMismatch

theorem flagValue_mono : Monotone flagValue := by
  intro b c h
  cases b <;> cases c <;> first | exact le_rfl | exact zero_le_one | exact absurd h (by decide)

theorem flagValue_le (b : Bool) : flagValue b ≤ 1 := by
  cases b
  · exact zero_le_one
  · exact le_rfl

theorem verdictOf_mono : Monotone verdictOf := by
  intro q r h
  unfold verdictOf
  rw [Verdict.le_iff]
  split_ifs <;> first | decide | linarith

theorem riskOf_mono {signals signals' : List Signal}
    (h : List.Forall₂ (fun s s' => s.contribution ≤ s'.contribution) signals signals') :
    riskOf signals ≤ riskOf signals' := by
  have hsum : (signals.map Signal.contribution).sum ≤ (signals'.map Signal.contribution).sum := by
    induction h with
    | nil => exact le_rfl
    | cons hle _ ih => exact add_le_add hle ih
  exact round2_mono (mul_le_mul_of_nonneg_right hsum (by norm_num))

section Laws

variable (rt : PyRuntime) {t u : Transaction}

/-- Indicators that are no higher contribute no more, signal by signal. -/
theorem contribution_le (h : t.AtMost u) :
    List.Forall₂ (fun s s' => s.contribution ≤ s'.contribution)
      (signalsOf rt t) (signalsOf rt u) := by
  have hvelocity : (t.velocity24h : ℚ) ≤ u.velocity24h := by exact_mod_cast h.velocity24h
  have hamount : t.amount.val / 1000000 ≤ u.amount.val / 1000000 :=
    div_le_div_of_nonneg_right h.amount (by norm_num)
  have hspeed : (t.velocity24h : ℚ) / 20 ≤ u.velocity24h / 20 :=
    div_le_div_of_nonneg_right hvelocity (by norm_num)
  have haverage : t.amountVsAvg.val / 5 ≤ u.amountVsAvg.val / 5 :=
    div_le_div_of_nonneg_right h.amountVsAvg (by norm_num)
  have hweigh : ∀ {w x y : ℚ}, 0 ≤ w → x ≤ y → w * x ≤ w * y :=
    fun hw hxy => mul_le_mul_of_nonneg_left hxy hw
  refine .cons (hweigh (by norm_num) (min_le_min_left 1 hamount)) ?_
  refine .cons (hweigh (by norm_num) (min_le_min_left 1 hspeed)) ?_
  refine .cons (hweigh (by norm_num) (flagValue_mono h.ipNew)) ?_
  refine .cons (hweigh (by norm_num) (flagValue_mono h.deviceNew)) ?_
  refine .cons (hweigh (by norm_num) (min_le_min_left 1 haverage)) ?_
  exact .cons (hweigh (by norm_num) (flagValue_mono h.countryMismatch)) .nil

/-- The weights come to one, and no value is above it. -/
theorem riskScore_le (t : Transaction) : (scoreTransaction rt t).riskScore ≤ 100 := by
  have hsum : ((signalsOf rt t).map Signal.contribution).sum ≤ 1 := by
    have hamount := min_le_left 1 (t.amount.val / 1000000)
    have hspeed := min_le_left 1 ((t.velocity24h : ℚ) / 20)
    have haverage := min_le_left 1 (t.amountVsAvg.val / 5)
    have hip := flagValue_le t.ipNew
    have hdevice := flagValue_le t.deviceNew
    have hcountry := flagValue_le t.countryMismatch
    simp only [signalsOf, Signal.contribution, List.map_cons, List.map_nil, List.sum_cons,
      List.sum_nil]
    linarith
  calc (scoreTransaction rt t).riskScore ≤ round2 ((100 : ℤ) : ℚ) :=
        round2_mono (by push_cast; linarith)
    _ = 100 := by rw [round2_intCast]; rfl

/-- **The scoring is monotone**, and no risk is above a hundred. -/
theorem scoreTransaction_monotone (h : t.AtMost u) :
    (scoreTransaction rt t).riskScore ≤ (scoreTransaction rt u).riskScore ∧
      (scoreTransaction rt t).verdict ≤ (scoreTransaction rt u).verdict ∧
      ∀ v, (scoreTransaction rt v).riskScore ≤ 100 := by
  have hrisk : riskOf (signalsOf rt t) ≤ riskOf (signalsOf rt u) :=
    riskOf_mono (contribution_le rt h)
  exact ⟨hrisk, verdictOf_mono hrisk, riskScore_le rt⟩

end Laws

/-- A transaction with every indicator of a high risk. -/
def riskyTransaction : Transaction where
  amount := .int 900000
  velocity24h := 15
  ipNew := true
  deviceNew := true
  amountVsAvg := .float 8
  countryMismatch := true

theorem refund_below_risky :
    (scoreTransaction .ascii { riskyTransaction with amount := .int (-900000) }).riskScore ≤
        (scoreTransaction .ascii riskyTransaction).riskScore ∧
      (scoreTransaction .ascii { riskyTransaction with amount := .int (-900000) }).verdict ≤
        (scoreTransaction .ascii riskyTransaction).verdict ∧
      ∀ v, (scoreTransaction .ascii v).riskScore ≤ 100 :=
  scoreTransaction_monotone .ascii
    ⟨by norm_num [riskyTransaction], le_rfl, le_rfl, le_rfl, le_rfl, le_rfl⟩

end AgentPlatform
