import AgentPlatform.Gateway.Factory

/-!
# The failover against the list of healthy providers

`completeWithFallback` goes through the providers in order and stops at the first call
that returns.  But a call returns as soon as the mock answers in place of its provider,
so a provider that fails is not passed over: it is replaced by the mock.

* `firstHealthy` — the provider the failover is meant to reach.
* `failing` — the providers it meets on the way, all of which fail.
* `ReachesFirstHealthy` — what is asked of the failover.
* `completeWithFallback_reaches_iff` — it is met exactly when there is no healthy provider,
  or the mock fails as often as a provider before the healthy one does.
-/

namespace AgentPlatform

/-- The preferred providers of a request. -/
def LLMRequest.preferred (request : LLMRequest) : List String :=
  [request.provider, "openai", "anthropic", "ollama"]

namespace RoutingLLMGateway

variable (g : RoutingLLMGateway)

/-- The first candidate that is configured, is not the mock, and answers. -/
def firstHealthy : List String → (String → ℕ) → Option String
  | [], _ => none
  | candidate :: rest, attempts =>
    if g.skips candidate then firstHealthy rest attempts
    else if g.answers candidate (attempts candidate) then some candidate
    else firstHealthy rest (spend 3 candidate attempts)

/-- The configured candidates that fail before the first one that answers. -/
def failing : List String → (String → ℕ) → List String
  | [], _ => []
  | candidate :: rest, attempts =>
    if g.skips candidate then failing rest attempts
    else if g.answers candidate (attempts candidate) then []
    else candidate :: failing rest (spend 3 candidate attempts)

/-- The mock fails each of its next `n` calls. -/
def MockSilent (n : ℕ) (attempts : String → ℕ) : Prop :=
  ∀ j < n, g.answers "mock" (attempts "mock" + 3 * j) = false

/-- The failover returns the response of the first healthy provider, and a response of the
mock only if there is none. -/
def ReachesFirstHealthy (w : CallState) : Prop :=
  (∀ name, g.firstHealthy w.request.preferred w.attempts = some name →
    ∃ response model, (g.completeWithFallback w).1 = .ok response ∧
      g.Answered { w.request with provider := name, model } response) ∧
  ∀ response, (g.completeWithFallback w).1 = .ok response → response.provider = "mock" →
    g.firstHealthy w.request.preferred w.attempts = none

variable {g} {w : CallState} {attempts attempts' : String → ℕ} {candidates : List String}
  {lastResort : GatewayCall LLMResponse}

/-! ## The mock plays no part in which provider is healthy -/

theorem ne_mock_of_skips {candidate : String} (h : g.skips candidate = false) :
    candidate ≠ "mock" := by
  rintro rfl
  simp [skips] at h

theorem spend_agree (h : ∀ name ≠ "mock", attempts name = attempts' name) (candidate : String) :
    ∀ name ≠ "mock", spend 3 candidate attempts name = spend 3 candidate attempts' name := by
  intro name hname
  by_cases heq : name = candidate
  · subst heq
    rw [spend_self, spend_self, h name hname]
  · rw [spend_of_ne heq, spend_of_ne heq, h name hname]

theorem firstHealthy_congr (h : ∀ name ≠ "mock", attempts name = attempts' name) :
    g.firstHealthy candidates attempts = g.firstHealthy candidates attempts' := by
  induction candidates generalizing attempts attempts' with
  | nil => rfl
  | cons candidate rest ih =>
    cases hskips : g.skips candidate with
    | true => simp [firstHealthy, hskips, ih h]
    | false =>
      simp [firstHealthy, hskips, h candidate (ne_mock_of_skips hskips),
        ih (spend_agree h candidate)]

theorem failing_congr (h : ∀ name ≠ "mock", attempts name = attempts' name) :
    g.failing candidates attempts = g.failing candidates attempts' := by
  induction candidates generalizing attempts attempts' with
  | nil => rfl
  | cons candidate rest ih =>
    cases hskips : g.skips candidate with
    | true => simp [failing, hskips, ih h]
    | false =>
      simp [failing, hskips, h candidate (ne_mock_of_skips hskips), ih (spend_agree h candidate)]

theorem skips_mock : g.skips "mock" = true := by simp [skips]

theorem firstHealthy_append_mock :
    g.firstHealthy (candidates ++ ["mock"]) attempts = g.firstHealthy candidates attempts := by
  induction candidates generalizing attempts with
  | nil => simp [firstHealthy, skips_mock]
  | cons candidate rest ih => simp only [List.cons_append, firstHealthy, ih]

theorem failing_append_mock :
    g.failing (candidates ++ ["mock"]) attempts = g.failing candidates attempts := by
  induction candidates generalizing attempts with
  | nil => simp [failing, skips_mock]
  | cons candidate rest ih => simp only [List.cons_append, failing, ih]

/-! ## The loop -/

/-- One candidate that is passed over. -/
theorem tryCandidates_of_skips {candidate : String} (h : g.skips candidate = true) :
    g.tryCandidates lastResort (candidate :: candidates) = g.tryCandidates lastResort candidates :=
  by rw [tryCandidates, if_pos h]

/-- One candidate that is tried. -/
theorem tryCandidates_of_not_skips {candidate : String} (h : g.skips candidate = false) :
    g.tryCandidates lastResort (candidate :: candidates) w =
      Effect.tryCatch g.complete (fun _ => g.tryCandidates lastResort candidates)
        (w.setProvider candidate) := by
  rw [tryCandidates, if_neg (by simp [h]), Effect.modify_bind]

/-- A healthy candidate is not the mock. -/
theorem ne_mock_of_firstHealthy {name : String}
    (h : g.firstHealthy candidates attempts = some name) : name ≠ "mock" := by
  induction candidates generalizing attempts with
  | nil => cases h
  | cons candidate rest ih =>
    rw [firstHealthy] at h
    split at h
    · exact ih h
    · rename_i hskips
      split at h
      · rw [← Option.some.inj h]
        exact ne_mock_of_skips (by simpa using hskips)
      · exact ih h

theorem mockSilent_succ {n : ℕ} : g.MockSilent (n + 1) attempts ↔
    g.answers "mock" (attempts "mock") = false ∧ g.MockSilent n (spend 3 "mock" attempts) := by
  constructor
  · intro h
    refine ⟨h 0 (by omega), fun j hj => ?_⟩
    rw [spend_self, show attempts "mock" + 3 + 3 * j = attempts "mock" + 3 * (j + 1) by omega]
    exact h (j + 1) (by omega)
  · rintro ⟨hfirst, hrest⟩ j hj
    cases j with
    | zero => exact hfirst
    | succ j =>
      have hj' := hrest j (by omega)
      rwa [spend_self, show attempts "mock" + 3 + 3 * j = attempts "mock" + 3 * (j + 1) by omega]
        at hj'

theorem MockSilent.congr {n : ℕ} (h : attempts "mock" = attempts' "mock")
    (hsilent : g.MockSilent n attempts) : g.MockSilent n attempts' := by
  intro j hj
  rw [← h]
  exact hsilent j hj

theorem fillModel_request (default : String) :
    ∃ model, (w.fillModel default).request = { w.request with model } := by
  unfold CallState.fillModel
  split
  · exact ⟨default, rfl⟩
  · exact ⟨w.request.model, rfl⟩

/-- A candidate and the mock failed: the candidates that are left are as healthy as if only
the candidate had been tried. -/
theorem firstHealthy_exhausted (candidate : String) :
    g.firstHealthy candidates (g.exhausted (w.setProvider candidate)).attempts =
      g.firstHealthy candidates (spend 3 candidate w.attempts) :=
  firstHealthy_congr fun _ hname => spend_of_ne hname _ _

theorem failing_exhausted (candidate : String) :
    g.failing candidates (g.exhausted (w.setProvider candidate)).attempts =
      g.failing candidates (spend 3 candidate w.attempts) :=
  failing_congr fun _ hname => spend_of_ne hname _ _

/-- The mock has made three attempts more. -/
theorem exhausted_mock {candidate : String} (h : "mock" ≠ candidate) :
    (g.exhausted (w.setProvider candidate)).attempts "mock" =
      spend 3 "mock" w.attempts "mock" := by
  rw [exhausted_attempts, spend_self, spend_self]
  exact congrArg (· + 3) (spend_of_ne h 3 w.attempts)

/-- While the mock is silent, the loop reaches the first healthy candidate. -/
theorem tryCandidates_of_silent (hcounts : g.CountsUp) {name : String}
    (hhealthy : g.firstHealthy candidates w.attempts = some name)
    (hsilent : g.MockSilent (g.failing candidates w.attempts).length w.attempts) :
    ∃ response model, (g.tryCandidates lastResort candidates w).1 = .ok response ∧
      g.Answered { w.request with provider := name, model } response := by
  induction candidates generalizing w with
  | nil => cases hhealthy
  | cons candidate rest ih =>
    cases hskips : g.skips candidate with
    | true =>
      rw [firstHealthy, if_pos hskips] at hhealthy
      rw [failing, if_pos hskips] at hsilent
      rw [tryCandidates_of_skips hskips]
      exact ih hhealthy hsilent
    | false =>
      rw [firstHealthy, if_neg (by simp [hskips])] at hhealthy
      rw [failing, if_neg (by simp [hskips])] at hsilent
      rw [tryCandidates_of_not_skips hskips]
      cases hup : g.answers candidate (w.attempts candidate) with
      | true =>
        -- this is the healthy one
        rw [if_pos hup, Option.some.injEq] at hhealthy
        subst hhealthy
        obtain ⟨response, attempts, hanswered, hcall⟩ :=
          complete_of_answers (g := g) (w := w.setProvider candidate) hup
        obtain ⟨model, hrequest⟩ := fillModel_request (w := w.setProvider candidate) g.defaultModel
        rw [settle_of_answered hcounts hanswered] at hcall
        refine ⟨response, model, by rw [Effect.tryCatch_of_ok hcall], ?_⟩
        rw [hrequest] at hanswered
        exact hanswered
      | false =>
        rw [if_neg (by simp [hup])] at hhealthy
        rw [if_neg (by simp [hup]), List.length_cons, mockSilent_succ] at hsilent
        obtain ⟨hmock, hlater⟩ := hsilent
        have hne : "mock" ≠ candidate := (ne_mock_of_skips hskips).symm
        have hcall := complete_of_down (g := g) (w := w.setProvider candidate) hup
          ((congrArg (g.answers "mock") (spend_of_ne hne 3 w.attempts)).trans hmock)
        rw [Effect.tryCatch_of_error hcall]
        have hrest := ih (w := g.exhausted (w.setProvider candidate))
          ((firstHealthy_exhausted candidate).trans hhealthy) (by
            rw [failing_exhausted]
            exact MockSilent.congr (exhausted_mock hne).symm hlater)
        rw [exhausted_request] at hrest
        exact hrest

/-- A mock that is not silent answers in place of the first healthy candidate. -/
theorem tryCandidates_of_not_silent (hcounts : g.CountsUp) {name : String}
    (hhealthy : g.firstHealthy candidates w.attempts = some name)
    (hsilent : ¬ g.MockSilent (g.failing candidates w.attempts).length w.attempts) :
    ∃ response, (g.tryCandidates lastResort candidates w).1 = .ok response ∧
      response.provider = "mock" := by
  induction candidates generalizing w with
  | nil => cases hhealthy
  | cons candidate rest ih =>
    cases hskips : g.skips candidate with
    | true =>
      rw [firstHealthy, if_pos hskips] at hhealthy
      rw [failing, if_pos hskips] at hsilent
      rw [tryCandidates_of_skips hskips]
      exact ih hhealthy hsilent
    | false =>
      rw [firstHealthy, if_neg (by simp [hskips])] at hhealthy
      rw [failing, if_neg (by simp [hskips])] at hsilent
      rw [tryCandidates_of_not_skips hskips]
      have hne : "mock" ≠ candidate := (ne_mock_of_skips hskips).symm
      cases hup : g.answers candidate (w.attempts candidate) with
      | true =>
        rw [if_pos hup] at hsilent
        exact absurd (fun j hj => absurd hj (by simp)) hsilent
      | false =>
        rw [if_neg (by simp [hup])] at hhealthy
        rw [if_neg (by simp [hup]), List.length_cons, mockSilent_succ, not_and] at hsilent
        have hattempts : spend 3 candidate w.attempts "mock" = w.attempts "mock" :=
          spend_of_ne hne 3 w.attempts
        cases hmock : g.answers "mock" (w.attempts "mock") with
        | true =>
          obtain ⟨response, attempts, hanswered, hcall⟩ :=
            complete_of_mock (g := g) (w := w.setProvider candidate) hup
              ((congrArg (g.answers "mock") hattempts).trans hmock)
          rw [settle_of_answered hcounts hanswered] at hcall
          exact ⟨response, by rw [Effect.tryCatch_of_ok hcall], hanswered.provider⟩
        | false =>
          have hcall := complete_of_down (g := g) (w := w.setProvider candidate) hup
            ((congrArg (g.answers "mock") hattempts).trans hmock)
          rw [Effect.tryCatch_of_error hcall]
          refine ih ((firstHealthy_exhausted candidate).trans hhealthy) ?_
          rw [failing_exhausted]
          exact fun hlater => hsilent hmock (MockSilent.congr (exhausted_mock hne) hlater)

/-! ## The failover -/

/-- The candidates of the failover are the preferred providers, and the mock. -/
theorem completeWithFallback_apply (w : CallState) : ∃ lastResort,
    g.completeWithFallback w = g.tryCandidates lastResort (w.request.preferred ++ ["mock"]) w :=
  ⟨_, rfl⟩

theorem reachesFirstHealthy_of_silent (hcounts : g.CountsUp)
    (h : g.MockSilent (g.failing w.request.preferred w.attempts).length w.attempts) :
    g.ReachesFirstHealthy w := by
  obtain ⟨lastResort, hrun⟩ := completeWithFallback_apply (g := g) w
  rw [← failing_append_mock] at h
  have hreached : ∀ name, g.firstHealthy w.request.preferred w.attempts = some name →
      ∃ response model, (g.completeWithFallback w).1 = .ok response ∧
        g.Answered { w.request with provider := name, model } response := by
    intro name hname
    rw [hrun]
    exact tryCandidates_of_silent hcounts (firstHealthy_append_mock.trans hname) h
  refine ⟨hreached, fun response hresponse hprovider => ?_⟩
  cases hname : g.firstHealthy w.request.preferred w.attempts with
  | none => rfl
  | some name =>
    -- the response bears the name of the healthy provider, which is not the mock
    obtain ⟨response', model, hresponse', hanswered⟩ := hreached name hname
    rw [hresponse, Except.ok.injEq] at hresponse'
    subst hresponse'
    exact absurd (hanswered.provider.symm.trans hprovider) (ne_mock_of_firstHealthy hname)

theorem reachesFirstHealthy_of_none
    (h : g.firstHealthy w.request.preferred w.attempts = none) : g.ReachesFirstHealthy w :=
  ⟨fun name hname => absurd (h.symm.trans hname) (by simp), fun _ _ _ => h⟩

/-- A healthy provider that is reached was not replaced by the mock. -/
theorem silent_of_reachesFirstHealthy (hcounts : g.CountsUp) (h : g.ReachesFirstHealthy w)
    {name : String}
    (hname : g.firstHealthy w.request.preferred w.attempts = some name) :
    g.MockSilent (g.failing w.request.preferred w.attempts).length w.attempts := by
  by_contra hsilent
  obtain ⟨lastResort, hrun⟩ := completeWithFallback_apply (g := g) w
  rw [← failing_append_mock] at hsilent
  obtain ⟨response, hresponse, hprovider⟩ : ∃ response,
      (g.tryCandidates lastResort (w.request.preferred ++ ["mock"]) w).1 = .ok response ∧
        response.provider = "mock" :=
    tryCandidates_of_not_silent hcounts (firstHealthy_append_mock.trans hname) hsilent
  rw [← hrun] at hresponse
  rw [h.2 response hresponse hprovider] at hname
  cases hname

/-- **When the failover reaches the first healthy provider.**  Where no answer counts below zero,
exactly when there is none, or the mock fails each time it is asked in place of a provider before
it. -/
theorem completeWithFallback_reaches_iff (g : RoutingLLMGateway) (hcounts : g.CountsUp)
    (w : CallState) :
    g.ReachesFirstHealthy w ↔
      g.firstHealthy w.request.preferred w.attempts = none ∨
        g.MockSilent (g.failing w.request.preferred w.attempts).length w.attempts := by
  constructor
  · intro h
    cases hname : g.firstHealthy w.request.preferred w.attempts with
    | none => exact Or.inl rfl
    | some name => exact Or.inr (silent_of_reachesFirstHealthy hcounts h hname)
  · rintro (hnone | hsilent)
    · exact reachesFirstHealthy_of_none hnone
    · exact reachesFirstHealthy_of_silent hcounts hsilent

/-- A gateway whose OpenAI provider is down, while Anthropic's is healthy. -/
def openaiDown : RoutingLLMGateway :=
  buildLlmGateway { openaiApiKey := true, anthropicApiKey := true }
    (.echo "openai" false) (.echo "anthropic" true) (.echo "ollama" true) (.echo "mock" true)

/-- A question for OpenAI. -/
def toOpenai : CallState where
  request :=
    { model := "gpt-4o-mini", provider := "openai", messages := [⟨.user, "hello", none⟩] }
  attempts _ := 0

/-- OpenAI is down, Anthropic is healthy, and the mock answers. -/
theorem openaiDown_not_reaches : ¬ openaiDown.ReachesFirstHealthy toOpenai := by
  intro h
  have hhealthy : openaiDown.firstHealthy toOpenai.request.preferred toOpenai.attempts =
      some "anthropic" := by decide
  rw [h.2 _ rfl rfl] at hhealthy
  cases hhealthy

theorem openaiDown_countsUp : openaiDown.CountsUp := by
  intro p hp
  simp only [openaiDown, buildLlmGateway, List.mem_append, List.mem_cons, List.not_mem_nil,
    or_false, if_true] at hp
  rcases hp with (rfl | rfl) | rfl | rfl <;> exact LLMProvider.echo_countsUp _ _

/-- A question for Anthropic. -/
def toAnthropic : CallState := toOpenai.setProvider "anthropic"

/-- Anthropic is asked first, and reached. -/
theorem toAnthropic_reaches : openaiDown.CountsUp ∧ openaiDown.ReachesFirstHealthy toAnthropic := by
  have hfailing : openaiDown.failing toAnthropic.request.preferred toAnthropic.attempts = [] := by
    decide
  refine ⟨openaiDown_countsUp,
    (completeWithFallback_reaches_iff openaiDown openaiDown_countsUp toAnthropic).2 (Or.inr ?_)⟩
  rw [hfailing]
  exact fun j hj => absurd hj (Nat.not_lt_zero j)

/-- With a mock that always answers, a healthy provider is reached only if it is the first
configured one. -/
theorem failing_eq_nil_of_mock_up (hcounts : g.CountsUp) (hmock : ∀ k, g.answers "mock" k = true)
    (h : g.ReachesFirstHealthy w) {name : String}
    (hname : g.firstHealthy w.request.preferred w.attempts = some name) :
    g.failing w.request.preferred w.attempts = [] := by
  have hsilent := silent_of_reachesFirstHealthy hcounts h hname
  refine List.eq_nil_iff_length_eq_zero.2 (Nat.eq_zero_of_not_pos fun hpos => ?_)
  have hfirst := hsilent 0 hpos
  rw [hmock] at hfirst
  cases hfirst

end RoutingLLMGateway

end AgentPlatform
