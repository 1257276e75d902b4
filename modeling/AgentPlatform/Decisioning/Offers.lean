import AgentPlatform.Decisioning.Applications

/-!
# The offer and the rules

The offer is the whole amount whose flat instalments use up the limit; the rule on the
instalments counts, besides the one asked for, those there already are.  So what the engine
offers is what it would accept only where those there are weigh nothing, up to the truncation.

* `Application.qualifies_requesting_iff` — the amounts an application qualifies for.
* `isGreatest_maxAmount_iff` — **when the offer is the largest amount** the engine accepts.
-/

namespace AgentPlatform

namespace Application

/-- Does the engine say that the application is eligible? -/
def Eligible (rt : PyRuntime) (a : Application) : Prop :=
  ∃ d, a.assess rt = .ok d ∧ d.eligible = true

/-- The application with a whole amount in the place of the one asked for. -/
def requesting (a : Application) (amount : ℤ) : Application :=
  { a with requestedAmount := .int amount }

variable {rt : PyRuntime} {a : Application} {d : EligibilityDecision}

theorem eligible_iff_qualifies : a.Eligible rt ↔ a.Qualifies := by
  obtain ⟨d, hd, hspec⟩ := a.assess_spec rt
  constructor
  · rintro ⟨d', hd', hel⟩
    rw [hd] at hd'
    obtain rfl := Except.ok.inj hd'
    exact hspec.eligible.1 hel
  · intro hq
    exact ⟨d, hd, hspec.eligible.2 hq⟩

theorem decides_of_assess (h : a.assess rt = .ok d) : a.Decides d := by
  obtain ⟨d', hd', hspec⟩ := a.assess_spec rt
  rw [h] at hd'
  obtain rfl := Except.ok.inj hd'
  exact hspec

/-- What is left of the limit, over the tenure. -/
def room (a : Application) : ℚ := (a.limit - a.existingEmis.val) * a.tenureMonths.val

/-- The amounts an application qualifies for: those its instalments leave room for. -/
theorem qualifies_requesting_iff (hq : a.Qualifies) (amount : ℤ) :
    (a.requesting amount).Qualifies ↔ (amount : ℚ) ≤ a.room := by
  have htenure : 0 < a.tenureMonths.val := hq.capacity.1.1
  have hroom : (a.requesting amount).obligation ≤ (a.requesting amount).limit ↔
      (amount : ℚ) ≤ a.room := by
    show a.existingEmis.val + (amount : ℚ) / a.tenureMonths.val ≤ a.limit ↔ _
    rw [← le_sub_iff_add_le', div_le_iff₀ htenure]
    rfl
  constructor
  · intro h
    exact hroom.1 h.capacity.2
  · intro h
    exact ⟨hq.credit, hq.earning, ⟨hq.capacity.1, hroom.2 h⟩, hq.debt⟩

/-- The largest whole amount the engine accepts, once it accepts some. -/
theorem isGreatest_eligible_iff (hq : a.Qualifies) (amount : ℤ) :
    IsGreatest {n : ℤ | (a.requesting n).Eligible rt} amount ↔ amount = ⌊a.room⌋ := by
  have hset : {n : ℤ | (a.requesting n).Eligible rt} = Set.Iic ⌊a.room⌋ := by
    ext n
    show (a.requesting n).Eligible rt ↔ n ∈ Set.Iic ⌊a.room⌋
    rw [eligible_iff_qualifies, qualifies_requesting_iff hq, Set.mem_Iic, Int.le_floor]
  rw [hset]
  exact ⟨fun h => h.unique isGreatest_Iic, fun h => h ▸ isGreatest_Iic⟩

end Application

/-- A part taken off goes unnoticed by the truncation. -/
theorem floor_eq_floor_sub_iff (x y : ℚ) :
    ⌊x⌋ = ⌊x - y⌋ ↔ Int.fract x - 1 < y ∧ y ≤ Int.fract x := by
  rw [eq_comm, Int.floor_eq_iff, Int.fract]
  constructor
  · rintro ⟨hlow, hhigh⟩
    constructor <;> linarith
  · rintro ⟨hlow, hhigh⟩
    constructor <;> linarith

/-- **When the offer is the largest amount.**  The offer of an eligible application is the largest
whole amount the engine itself would accept just where the instalments there are, over the tenure,
are lost in the truncation: no more than the fraction the limit over the tenure has, and more than
that less one. -/
theorem isGreatest_maxAmount_iff {rt : PyRuntime} {a : Application} {d : EligibilityDecision}
    (h : a.assess rt = .ok d) (hel : d.eligible = true) :
    IsGreatest {n : ℤ | (a.requesting n).Eligible rt} d.maxAmount ↔
      Int.fract (a.limit * a.tenureMonths.val) - 1 < a.existingEmis.val * a.tenureMonths.val ∧
      a.existingEmis.val * a.tenureMonths.val ≤ Int.fract (a.limit * a.tenureMonths.val) := by
  have hspec := Application.decides_of_assess h
  rw [Application.isGreatest_eligible_iff (hspec.eligible.1 hel), hspec.offer, if_pos hel,
    Application.room, sub_mul, floor_eq_floor_sub_iff]

/-- The good application qualifies as it is, and without instalments. -/
theorem goodApplication_qualifies {emis : PyNum} (h : emis = .int 5000 ∨ emis = .int 0) :
    { goodApplication with existingEmis := emis }.Qualifies := by
  rcases h with rfl | rfl <;> constructor <;>
    norm_num [goodApplication, minScore, minAnnualIncome, maxEmiToIncome, Application.Affordable,
      Application.obligation, Application.limit, Application.ratio]

/-- Without instalments the offer is the largest amount. -/
theorem offer_without_instalments : ∃ d,
    { goodApplication with existingEmis := .int 0 }.assess .ascii = .ok d ∧
    IsGreatest {n : ℤ | ({ goodApplication with existingEmis := .int 0 }.requesting n).Eligible
      .ascii} d.maxAmount := by
  obtain ⟨d, hd, hspec⟩ :=
    { goodApplication with existingEmis := .int 0 : Application }.assess_spec .ascii
  have hel : d.eligible = true := hspec.eligible.2 (goodApplication_qualifies (Or.inr rfl))
  refine ⟨d, hd, (isGreatest_maxAmount_iff hd hel).2 ?_⟩
  norm_num [goodApplication, Application.limit, maxEmiToIncome, Int.fract]

/-- An eligible application is offered what the engine then refuses. -/
theorem offer_refused : ∃ d, goodApplication.assess .ascii = .ok d ∧ d.eligible = true ∧
    d.maxAmount = 4500000 ∧ ¬ (goodApplication.requesting d.maxAmount).Eligible .ascii := by
  obtain ⟨d, hd, hspec⟩ := goodApplication.assess_spec .ascii
  have hel : d.eligible = true := hspec.eligible.2 (goodApplication_qualifies (Or.inl rfl))
  have hoffer : d.maxAmount = 4500000 := by
    rw [hspec.offer, if_pos hel]
    norm_num [goodApplication, Application.limit, maxEmiToIncome]
  refine ⟨d, hd, hel, hoffer, ?_⟩
  rw [hoffer, Application.eligible_iff_qualifies]
  intro hq
  have hle := hq.capacity.2
  norm_num [Application.requesting, Application.obligation, Application.limit, goodApplication,
    maxEmiToIncome] at hle

end AgentPlatform
