import AgentPlatform.Tools.Catalog

/-!
# Whose figures decide

The eligibility engine decides on the figures it is given, and the tool gives it
the figures of the call: income, bureau score and instalments are read off the
arguments, no record is looked up.

* `checkLoanEligibility_run_eq_ok_iff` — what the tool does, step by step.
* `MayAssess` — the caller can have a call for this customer authorized.
* `decision_determined_iff` — **exactly when the request determines the decision**:
  when no authorized call for it comes to a decision at all.
-/

namespace AgentPlatform

/-- The decision in the outcome of a call, if it came to one. -/
def decisionOf (outcome : Except PyErr ToolResult) : Option Json :=
  match outcome with
  | .error _ => none
  | .ok result => result.data.get? "decision"

/-- The tool, step by step: five figures are read, then the engine decides. -/
theorem checkLoanEligibility_run_eq_ok_iff {rt : PyRuntime} {ctx : ToolContext}
    {arguments : Dict} {result : ToolResult} :
    (checkLoanEligibility rt).run ctx arguments = .ok result ↔
      ∃ income cibilScore existingEmis requestedAmount tenureMonths decision,
        arguments.get? "income" = some income ∧
        arguments.get? "cibil_score" = some cibilScore ∧
        arguments.get? "existing_emis" = some existingEmis ∧
        arguments.get? "requested_amount" = some requestedAmount ∧
        arguments.get? "tenure_months" = some tenureMonths ∧
        assessEligibility rt income cibilScore existingEmis requestedAmount tenureMonths =
          .ok decision ∧
        ToolResult.success [("decision", .obj decision.toDict),
          ("advisory_note",
            .str "Decision is deterministic and policy-controlled; not an LLM output.")] =
          result := by
  simp only [checkLoanEligibility, bind_eq_ok_iff, Dict.getItem_eq_ok_iff, Except.ok.injEq]
  constructor
  · rintro ⟨i, hi, c, hc, e, he, a, ha, t, ht, d, hd, h⟩
    exact ⟨i, c, e, a, t, d, hi, hc, he, ha, ht, hd, h⟩
  · rintro ⟨i, c, e, a, t, d, hi, hc, he, ha, ht, hd, h⟩
    exact ⟨i, hi, c, hc, e, he, a, ha, t, ht, d, hd, h⟩

/-- The engine comes to no decision without a tenure in numbers. -/
theorem tenure_of_assessEligibility {rt : PyRuntime} {i c e a t : Json}
    {decision : EligibilityDecision} (h : assessEligibility rt i c e a t = .ok decision) :
    ∃ n, t = .num n := by
  obtain ⟨cibil, -, h⟩ := bind_eq_ok_iff.1 h
  obtain ⟨income, -, h⟩ := bind_eq_ok_iff.1 h
  obtain ⟨tenure, htenure, -⟩ := bind_eq_ok_iff.1 h
  cases t with
  | num n => exact ⟨n, rfl⟩
  | null => cases htenure
  | str s => cases htenure
  | arr xs => cases htenure
  | obj fields => cases htenure

/-- Without an income only the bureau score is looked at. -/
theorem assessEligibility_no_income (rt : PyRuntime) (cibil : ℤ) (a : Json) (n : PyNum) :
    ∃ decision, assessEligibility rt (.int 0) (.int cibil) (.int 0) a (.num n) = .ok decision ∧
      decision.score = weightedScore (.int 0) (.int cibil) 1 := by
  have hcap : capacityRule (.int 0) (.int 0) a n =
      .ok ⟨"obligation_ratio", false, "invalid tenure or income"⟩ := by
    rw [capacityRule, if_neg (by simp)]
  have hdti : debtToIncomeOf (.int 0) (.int 0) .null = .ok 1 := by
    rw [debtToIncomeOf, if_pos (by simp)]
  exact ⟨_, bind_eq_ok_iff.2 ⟨.int cibil, rfl, bind_eq_ok_iff.2 ⟨.int 0, rfl,
    bind_eq_ok_iff.2 ⟨n, rfl, bind_eq_ok_iff.2 ⟨_, hcap, bind_eq_ok_iff.2 ⟨1, hdti, rfl⟩⟩⟩⟩⟩,
    rfl⟩

/-! ## Who can have a call authorized -/

/-- The fields that make up the request: the customer, the amount, the tenure. -/
structure Asks (customerId requestedAmount tenureMonths : Option Json) (arguments : Dict) :
    Prop where
  customer : arguments.get? "customer_id" = customerId
  amount : arguments.get? "requested_amount" = requestedAmount
  tenure : arguments.get? "tenure_months" = tenureMonths

/-- The caller may read loans, or its own loans and the customer is itself; a call
that names no customer can still name its owner. -/
def MayAssess (ctx : ToolContext) (customerId : Option Json) : Prop :=
  anyCan defaultRbac ctx.roles "loan:read" = true ∨
    anyCan defaultRbac ctx.roles "loan:self" = true ∧ ctx.resourceOwnerId = some ctx.userId ∧
      ((customerId.getD .null).truthy = false ∨ customerId = some (.str ctx.userId))

section Permission

variable {rt : PyRuntime} {ctx : ToolContext} {customerId : Option Json} {arguments : Dict}

/-- The second layer of the eligibility tool. -/
theorem permissionHeld_checkLoanEligibility :
    PermissionHeld defaultRbac (checkLoanEligibility rt).toToolClass ctx arguments ↔
      anyCan defaultRbac ctx.roles "loan:read" = true ∨
        anyCan defaultRbac ctx.roles "loan:self" = true ∧ ctx.resourceOwnerId = some ctx.userId ∧
          resourceOwner arguments = .str ctx.userId := by
  have hself : selfPermission "loan:read" = "loan:self" := by decide
  simp [PermissionHeld, checkLoanEligibility, checkLoanEligibilityTool, hself]

theorem mayAssess_of_authorized (h : arguments.get? "customer_id" = customerId)
    (hauth : authorizeToolExecution (checkLoanEligibility rt).toToolClass ctx arguments = .ok ()) :
    MayAssess ctx customerId := by
  obtain ⟨hperm, -, -⟩ := authorizeToolExecution_eq_ok_iff.1 hauth
  rcases permissionHeld_checkLoanEligibility.1 hperm with hread | ⟨hself, howner, hres⟩
  · exact Or.inl hread
  · refine Or.inr ⟨hself, howner, ?_⟩
    unfold resourceOwner pyOr Dict.get at hres
    rw [h] at hres
    cases htruthy : (customerId.getD .null).truthy with
    | false => exact Or.inl rfl
    | true =>
      rw [htruthy, if_pos rfl] at hres
      apply Or.inr
      cases customerId with
      | none => cases hres
      | some c => exact congrArg some hres

/-- A call with the approval fields filled in, no tenant and the caller as owner. -/
theorem authorized_of_mayAssess (h : MayAssess ctx customerId)
    (hcustomer : arguments.get? "customer_id" = customerId)
    (howner : arguments.get? "resource_owner_id" = some (.str ctx.userId))
    (htenant : arguments.get? "tenant_id" = none)
    (hticket : arguments.get? "approval_ticket_id" = some (.bool true))
    (happroved : arguments.get? "_approved" = some (.bool true)) :
    authorizeToolExecution (checkLoanEligibility rt).toToolClass ctx arguments = .ok () := by
  refine authorizeToolExecution_eq_ok_iff.2
    ⟨permissionHeld_checkLoanEligibility.2 ?_, ?_, fun _ => ⟨?_, ?_⟩⟩
  · rcases h with hread | ⟨hself, hown, hid⟩
    · exact Or.inl hread
    · refine Or.inr ⟨hself, hown, ?_⟩
      unfold resourceOwner pyOr Dict.get
      rw [hcustomer, howner]
      rcases hid with hfalsy | rfl
      · rw [hfalsy]; rfl
      · split <;> rfl
  · rw [show abacAction (checkLoanEligibility rt).toToolClass = "write" from rfl,
      defaultAbac_allows "write" (Or.inr rfl)]
    simp [sameTenant, attributes, Dict.get, Dict.getD, Dict.get?_cons, htenant, Json.pyEq]
  · simp [Dict.get, hticket, Json.truthy, PyNum.val]
  · simp [checkOpaPolicy, Dict.get, happroved, Json.truthy, PyNum.val]

end Permission

/-! ## The law -/

/-- A call for a request, with a bureau score and no income. -/
def scoredCall (ctx : ToolContext) (customerId : Option Json) (requestedAmount tenureMonths : Json)
    (cibil : ℤ) : Dict :=
  (match customerId with
    | none => []
    | some c => [("customer_id", c)]) ++
    [("requested_amount", requestedAmount), ("tenure_months", tenureMonths), ("income", .int 0),
      ("cibil_score", .int cibil), ("existing_emis", .int 0),
      ("resource_owner_id", .str ctx.userId), ("approval_ticket_id", .bool true),
      ("_approved", .bool true)]

theorem scoredCall_asks (ctx : ToolContext) (customerId : Option Json) (a t : Json) (cibil : ℤ) :
    Asks customerId (some a) (some t) (scoredCall ctx customerId a t cibil) := by
  cases customerId <;> constructor <;> simp [scoredCall, Dict.get?_cons]

theorem scoredCall_figures (ctx : ToolContext) (customerId : Option Json) (a t : Json) (cibil : ℤ) :
    (scoredCall ctx customerId a t cibil).get? "income" = some (.int 0) ∧
      (scoredCall ctx customerId a t cibil).get? "cibil_score" = some (.int cibil) ∧
      (scoredCall ctx customerId a t cibil).get? "existing_emis" = some (.int 0) := by
  cases customerId <;> simp [scoredCall, Dict.get?_cons]

theorem scoredCall_authorized {rt : PyRuntime} {ctx : ToolContext} {customerId : Option Json}
    (h : MayAssess ctx customerId) (a t : Json) (cibil : ℤ) :
    authorizeToolExecution (checkLoanEligibility rt).toToolClass ctx
      (scoredCall ctx customerId a t cibil) = .ok () := by
  have hasks := scoredCall_asks ctx customerId a t cibil
  refine authorized_of_mayAssess h hasks.customer ?_ ?_ ?_ ?_ <;>
    cases customerId <;> simp [scoredCall, Dict.get?_cons]

/-- What the tool decides on such a call. -/
theorem score_of_scoredCall (rt : PyRuntime) (ctx : ToolContext) (customerId : Option Json)
    (a : Json) (n : PyNum) (cibil : ℤ) :
    ∃ decision : EligibilityDecision,
      decisionOf ((checkLoanEligibility rt).run ctx (scoredCall ctx customerId a (.num n) cibil)) =
        some (.obj decision.toDict) ∧
      decision.score = weightedScore (.int 0) (.int cibil) 1 := by
  obtain ⟨decision, hdec, hscore⟩ := assessEligibility_no_income rt cibil a n
  refine ⟨decision, ?_, hscore⟩
  have hasks := scoredCall_asks ctx customerId a (.num n) cibil
  obtain ⟨hincome, hcibil, hemis⟩ := scoredCall_figures ctx customerId a (.num n) cibil
  have hrun : (checkLoanEligibility rt).run ctx (scoredCall ctx customerId a (.num n) cibil) =
      .ok _ := checkLoanEligibility_run_eq_ok_iff.2
    ⟨.int 0, .int cibil, .int 0, a, .num n, decision, hincome, hcibil, hemis, hasks.amount,
      hasks.tenure, hdec, rfl⟩
  rw [hrun]
  simp [decisionOf, ToolResult.success]

/-- A call that comes to a decision names an amount and a tenure in numbers. -/
theorem asks_of_decisionOf {rt : PyRuntime} {ctx : ToolContext} {c a t : Option Json}
    {arguments : Dict} {decision : Json} (hasks : Asks c a t arguments)
    (h : decisionOf ((checkLoanEligibility rt).run ctx arguments) = some decision) :
    a ≠ none ∧ ∃ n, t = some (.num n) := by
  cases hrun : (checkLoanEligibility rt).run ctx arguments with
  | error e => rw [hrun] at h; cases h
  | ok result =>
    obtain ⟨i, s, e, amount, tenure, d, -, -, -, hamount, htenure, hdec, -⟩ :=
      checkLoanEligibility_run_eq_ok_iff.1 hrun
    obtain ⟨n, rfl⟩ := tenure_of_assessEligibility hdec
    rw [← hasks.amount, ← hasks.tenure, hamount, htenure]
    exact ⟨by simp, n, rfl⟩

/-- **When the request determines the decision.**  All the authorized calls for a
request decide alike exactly when none of them comes to a decision: the caller
may not ask for this customer, or the amount is missing, or the tenure is not a
number. -/
theorem decision_determined_iff (rt : PyRuntime) (ctx : ToolContext) (c a t : Option Json) :
    (∀ arguments arguments', Asks c a t arguments → Asks c a t arguments' →
        authorizeToolExecution (checkLoanEligibility rt).toToolClass ctx arguments = .ok () →
        authorizeToolExecution (checkLoanEligibility rt).toToolClass ctx arguments' = .ok () →
        decisionOf ((checkLoanEligibility rt).run ctx arguments) =
          decisionOf ((checkLoanEligibility rt).run ctx arguments')) ↔
      ¬ MayAssess ctx c ∨ a = none ∨ ∀ n, t ≠ some (.num n) := by
  constructor
  · intro hsame
    by_contra hnot
    push Not at hnot
    obtain ⟨hmay, hamount, n, rfl⟩ := hnot
    obtain ⟨amount, rfl⟩ := Option.ne_none_iff_exists'.1 hamount
    -- without an income the two scores differ by the bureau score alone
    obtain ⟨low, hlow, hlowScore⟩ := score_of_scoredCall rt ctx c amount n 400
    obtain ⟨high, hhigh, hhighScore⟩ := score_of_scoredCall rt ctx c amount n 700
    have heq := hsame _ _ (scoredCall_asks ctx c amount (.num n) 400)
      (scoredCall_asks ctx c amount (.num n) 700) (scoredCall_authorized hmay _ _ _)
      (scoredCall_authorized hmay _ _ _)
    rw [hlow, hhigh] at heq
    have hscore : low.score = high.score := by
      simp only [EligibilityDecision.toDict, Option.some.injEq, Json.obj.injEq, List.cons.injEq,
        Prod.mk.injEq, Json.num.injEq] at heq
      exact heq.2.2.1.2
    rw [hlowScore, hhighScore] at hscore
    exact absurd hscore (by decide +kernel)
  · rintro hnone arguments arguments' hasks hasks' hauth hauth'
    have hmay := mayAssess_of_authorized hasks.customer hauth
    have hundecided : ∀ args, Asks c a t args →
        decisionOf ((checkLoanEligibility rt).run ctx args) = none := by
      intro args hargs
      apply Option.eq_none_iff_forall_ne_some.2
      intro decision hdec
      obtain ⟨hamount, n, htenure⟩ := asks_of_decisionOf hargs hdec
      rcases hnone with hno | hno | hno
      · exact hno hmay
      · exact hamount hno
      · exact hno n htenure
    rw [hundecided arguments hasks, hundecided arguments' hasks']

/-- The call a model makes for customer `cust_1002` with figures of its own. -/
def narratedCall (income cibilScore : ℤ) : Dict :=
  [("customer_id", .str "cust_1002"), ("requested_amount", .int 100000),
    ("tenure_months", .int 12), ("income", .int income), ("cibil_score", .int cibilScore),
    ("existing_emis", .int 0), ("approval_ticket_id", .str "T-1"), ("_approved", .bool true)]

/-- A customer asking for itself. -/
def loanCustomer : ToolContext := ⟨"t1", "cust_1002", ["customer"], "c1", some "cust_1002"⟩

/-- One request, two authorized calls: with figures a model made up the customer is
eligible, with others it is not. -/
theorem decision_follows_figures :
    ∃ decision decision' : EligibilityDecision,
      authorizeToolExecution (checkLoanEligibility .ascii).toToolClass loanCustomer
          (narratedCall 12000000 800) = .ok () ∧
        authorizeToolExecution (checkLoanEligibility .ascii).toToolClass loanCustomer
          (narratedCall 240000 512) = .ok () ∧
        decisionOf ((checkLoanEligibility .ascii).run loanCustomer (narratedCall 12000000 800)) =
          some (.obj decision.toDict) ∧
        decisionOf ((checkLoanEligibility .ascii).run loanCustomer (narratedCall 240000 512)) =
          some (.obj decision'.toDict) ∧
        decision.eligible = true ∧ decision'.eligible = false := by
  have hdecides : ∀ income cibilScore decision,
      assessEligibility .ascii (.int income) (.int cibilScore) (.int 0) (.int 100000) (.int 12) =
        .ok decision →
      decisionOf ((checkLoanEligibility .ascii).run loanCustomer (narratedCall income cibilScore)) =
        some (.obj decision.toDict) := by
    intro income cibilScore decision hdec
    have hrun : (checkLoanEligibility .ascii).run loanCustomer (narratedCall income cibilScore) =
        .ok _ := checkLoanEligibility_run_eq_ok_iff.2
      ⟨_, _, _, _, _, decision, rfl, rfl, rfl, rfl, rfl, hdec, rfl⟩
    rw [hrun]
    simp [decisionOf, ToolResult.success]
  have heligible : ∀ (x : Except PyErr EligibilityDecision) (b : Bool),
      x.toOption.map EligibilityDecision.eligible = some b →
        ∃ decision, x = .ok decision ∧ decision.eligible = b := by
    intro x b h
    cases x with
    | error e => cases h
    | ok decision => exact ⟨decision, rfl, Option.some.inj h⟩
  obtain ⟨decision, hdec, hyes⟩ := heligible (assessEligibility .ascii (.int 12000000) (.int 800)
    (.int 0) (.int 100000) (.int 12)) true (by decide +kernel)
  obtain ⟨decision', hdec', hno⟩ := heligible (assessEligibility .ascii (.int 240000) (.int 512)
    (.int 0) (.int 100000) (.int 12)) false (by decide +kernel)
  exact ⟨decision, decision', by decide, by decide, hdecides _ _ _ hdec, hdecides _ _ _ hdec',
    hyes, hno⟩

end AgentPlatform
