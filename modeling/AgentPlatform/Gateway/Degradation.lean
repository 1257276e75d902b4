import AgentPlatform.Gateway.Factory

/-!
# Retries and degradation

A call of the gateway makes up to three attempts at the provider of the request, and, when
they all fail, up to three at the mock.  What it returns is the first answer among them, in
that order; it raises when there is none, or when the counter refuses the answer, whose counts
are below zero then.

* `AllFail` — the three attempts at the provider of the request fail.
* `ComesTo` — the first answer among the attempts of a call.
* `CountedOnce` — the response is counted once, under the provider and the model that
  answered.
* `complete_retriesAndDegrades` — what a call returns, raises and counts, for every table of
  providers and every pattern of attempts.
* `complete_withSilent` — a provider that always fails may as well be unknown.
-/

namespace AgentPlatform

namespace RoutingLLMGateway

variable (g : RoutingLLMGateway)

/-- The next three attempts at the provider of the request fail. -/
def AllFail (w : CallState) : Prop :=
  ∀ i < 3, g.upAt w.request.provider (w.attempts w.request.provider + i) = false

/-- What the attempts of a call come to: the first answer of the provider of the request, or
else of the mock. -/
def ComesTo (w : CallState) (response : LLMResponse) : Prop :=
  (∃ i, g.FirstSuccess 3 (w.fillModel g.defaultModel) i response) ∨
    g.AllFail (w.fillModel g.defaultModel) ∧ ∃ i, g.FirstSuccess 3 (g.atMock w) i response

/-- The counters between two states of a call go up once, under the provider the request
names at the end, the model of the response and the tenant. -/
structure CountedOnce (w w' : CallState) (response : LLMResponse) : Prop where
  provider : response.provider = w'.request.provider
  tokens : w'.tokensTotal = w.tokensTotal ++
    [(⟨w'.request.provider, response.model, w.request.tenantLabel⟩, response.usage.tokens)]
  calls : w'.llmCalls = w.llmCalls ++ [(w'.request.provider, response.model)]

/-- The gateway with one more provider in its table. -/
def withProvider (p : LLMProvider) : RoutingLLMGateway := { g with providers := p :: g.providers }

/-- What a call of the gateway returns, raises and counts. -/
structure RetriesAndDegrades (w : CallState) : Prop where
  /-- The first success among the attempts at the provider of the request is returned, and
  the request still names that provider. -/
  routed : ∀ i response, g.FirstSuccess 3 (w.fillModel g.defaultModel) i response →
    0 ≤ response.usage.tokens → ∃ w', g.complete w = (.ok response, w') ∧
      w'.request = (w.fillModel g.defaultModel).request ∧
      w'.request.provider = w.request.provider ∧
      w'.attempts = spend (i + 1) w.request.provider w.attempts
  /-- Or else the first success among the attempts at the mock, which is asked for the
  default model. -/
  degraded : ∀ i response, g.AllFail (w.fillModel g.defaultModel) →
    g.FirstSuccess 3 (g.atMock w) i response → 0 ≤ response.usage.tokens →
    ∃ w', g.complete w = (.ok response, w') ∧
      w'.request = { w.request with provider := "mock", model := g.defaultModel } ∧
      w'.attempts = spend (i + 1) "mock" (spend 3 w.request.provider w.attempts)
  /-- It raises when none of the attempts succeeds, or the one that does counts below zero. -/
  raises : (∃ e, (g.complete w).1 = .error e) ↔
    (g.AllFail (w.fillModel g.defaultModel) ∧ g.AllFail (g.atMock w)) ∨
      ∃ response, g.ComesTo w response ∧ response.usage.tokens < 0
  counted : ∀ response, (g.complete w).1 = .ok response →
    CountedOnce w (g.complete w).2 response
  uncounted : ∀ e, (g.complete w).1 = .error e →
    (g.complete w).2.tokensTotal = w.tokensTotal ∧ (g.complete w).2.llmCalls = w.llmCalls
  /-- An unknown provider is one that always fails. -/
  unknown : ∀ p : LLMProvider, g.get p.name = none → (∀ k, p.up k = false) →
    (g.withProvider p).complete w = g.complete w

variable {g} {w : CallState}

/-! ## Which attempt succeeds -/

theorem firstSuccess_or_allFail (g : RoutingLLMGateway) (w : CallState) :
    (∃ i response, g.FirstSuccess 3 w i response) ∨ g.AllFail w := by
  by_cases h : ∃ i < 3, g.upAt w.request.provider (w.attempts w.request.provider + i) = true
  · exact .inl (exists_firstSuccess h)
  · refine .inr fun i hi => ?_
    rw [← Bool.not_eq_true]
    exact fun hup => h ⟨i, hi, hup⟩

theorem AllFail.answers (h : g.AllFail (w.fillModel g.defaultModel)) :
    g.answers w.request.provider (w.attempts w.request.provider) = false := by
  rw [answers_eq_false_iff]
  simpa [AllFail] using h

theorem AllFail.answers_mock (h : g.AllFail (g.atMock w)) :
    g.answers "mock" (spend 3 w.request.provider w.attempts "mock") = false :=
  answers_eq_false_iff.2 h

@[simp] theorem atMock_tokensTotal (w : CallState) : (g.atMock w).tokensTotal = w.tokensTotal :=
  w.fillModel_tokensTotal g.defaultModel

@[simp] theorem fillModel_llmCalls (w : CallState) (default : String) :
    (w.fillModel default).llmCalls = w.llmCalls := by
  unfold CallState.fillModel CallState.setModel
  split <;> rfl

@[simp] theorem atMock_llmCalls (w : CallState) : (g.atMock w).llmCalls = w.llmCalls :=
  fillModel_llmCalls w g.defaultModel

/-! ## What is counted -/

theorem tenantLabel_congr {request request' : LLMRequest}
    (h : request.tenantId = request'.tenantId) : request.tenantLabel = request'.tenantLabel := by
  unfold LLMRequest.tenantLabel
  rw [h]

theorem countedOnce_of_counted {v : CallState} {response : LLMResponse}
    (hprovider : response.provider = v.request.provider)
    (htenant : v.request.tenantId = w.request.tenantId)
    (htokens : v.tokensTotal = w.tokensTotal) (hcalls : v.llmCalls = w.llmCalls) :
    CountedOnce w (v.counted response) response where
  provider := hprovider
  tokens := by
    show v.tokensTotal ++ _ = _
    rw [htokens, tenantLabel_congr htenant, hprovider]
    rfl
  calls := by
    show v.llmCalls ++ _ = _
    rw [hcalls, hprovider]
    rfl

/-! ## An unknown provider -/

variable {p : LLMProvider}

theorem get_withProvider (name : String) :
    (g.withProvider p).get name = if p.name = name then some p else g.get name := by
  simp only [get, withProvider, List.find?_cons]
  by_cases h : p.name = name <;> simp [h]

/-- An attempt at a provider that always fails does what one at an unknown provider does, up
to what it raises. -/
theorem callProvider_withSilent (hget : g.get p.name = none) (hdown : ∀ k, p.up k = false)
    (w : CallState) : (g.withProvider p).callProvider w = g.callProvider w ∨
      ∃ e e' w', (g.withProvider p).callProvider w = (.error e, w') ∧
        g.callProvider w = (.error e', w') := by
  by_cases h : p.name = w.request.provider
  · obtain ⟨e, hcall⟩ := callProvider_of_down (g := g.withProvider p) (w := w)
      (by simp [upAt, get_withProvider, if_pos h, hdown])
    obtain ⟨e', hcall'⟩ := callProvider_of_down (g := g) (w := w) (by simp [upAt, ← h, hget])
    exact .inr ⟨e, e', _, hcall, hcall'⟩
  · exact .inl (by simp only [callProvider, get_withProvider, if_neg h])

/-- The retries hide what an attempt raised. -/
theorem retry_withSilent (hget : g.get p.name = none) (hdown : ∀ k, p.up k = false) (n : ℕ) :
    (g.withProvider p).retry n = g.retry n := by
  induction n with
  | zero => rfl
  | succ n ih =>
    funext w
    simp only [retry, ih]
    obtain hcall | ⟨e, e', w', hcall, hcall'⟩ := callProvider_withSilent hget hdown w
    · rw [Effect.tryCatch, Effect.tryCatch, hcall]
    · rw [Effect.tryCatch_of_error hcall, Effect.tryCatch_of_error hcall']

theorem complete_withSilent (hget : g.get p.name = none) (hdown : ∀ k, p.up k = false) :
    (g.withProvider p).complete = g.complete := by
  have honce : (g.withProvider p).completeOnce = g.completeOnce := retry_withSilent hget hdown 3
  simp only [complete, honce]
  rfl

/-! ## The call -/

/-- The state in which an answer is settled: nothing is counted yet. -/
structure Settling (w v : CallState) (response : LLMResponse) : Prop where
  provider : response.provider = v.request.provider
  tenant : v.request.tenantId = w.request.tenantId
  tokens : v.tokensTotal = w.tokensTotal
  calls : v.llmCalls = w.llmCalls

theorem Settling.countedOnce {v : CallState} {response : LLMResponse}
    (h : Settling w v response) : CountedOnce w (v.counted response) response :=
  countedOnce_of_counted h.provider h.tenant h.tokens h.calls

/-- An answer that a call comes to is settled. -/
theorem complete_of_comesTo {response : LLMResponse} (h : g.ComesTo w response) :
    ∃ v, g.complete w = settle response v ∧ Settling w v response := by
  obtain ⟨i, hfirst⟩ | ⟨hfail, i, hfirst⟩ := h
  · exact ⟨_, complete_of_first hfirst, hfirst.answered.provider, w.fillModel_tenantId _,
      w.fillModel_tokensTotal _, fillModel_llmCalls w _⟩
  · refine ⟨_, complete_of_degraded hfail.answers hfirst, hfirst.answered.provider, ?_,
      atMock_tokensTotal w, atMock_llmCalls w⟩
    show (g.atMock w).request.tenantId = w.request.tenantId
    rw [atMock_request]

/-- A call comes to an answer, or all its attempts fail. -/
theorem comesTo_or_allFail (g : RoutingLLMGateway) (w : CallState) :
    (∃ response, g.ComesTo w response) ∨
      g.AllFail (w.fillModel g.defaultModel) ∧ g.AllFail (g.atMock w) := by
  obtain ⟨i, response, hfirst⟩ | hfail := firstSuccess_or_allFail g (w.fillModel g.defaultModel)
  · exact .inl ⟨response, .inl ⟨i, hfirst⟩⟩
  · obtain ⟨i, response, hfirst⟩ | hmock := firstSuccess_or_allFail g (g.atMock w)
    · exact .inl ⟨response, .inr ⟨hfail, i, hfirst⟩⟩
    · exact .inr ⟨hfail, hmock⟩

theorem complete_raises_iff (g : RoutingLLMGateway) (w : CallState) :
    (∃ e, (g.complete w).1 = .error e) ↔
      (g.AllFail (w.fillModel g.defaultModel) ∧ g.AllFail (g.atMock w)) ∨
        ∃ response, g.ComesTo w response ∧ response.usage.tokens < 0 := by
  constructor
  · rintro ⟨e, he⟩
    obtain ⟨response, hcomes⟩ | hfail := comesTo_or_allFail g w
    · obtain ⟨v, hcomplete, -⟩ := complete_of_comesTo hcomes
      refine .inr ⟨response, hcomes, lt_of_not_ge fun htokens => ?_⟩
      rw [hcomplete, settle_of_tokens htokens] at he
      cases he
    · exact .inl hfail
  · rintro (⟨hfail, hmock⟩ | ⟨response, hcomes, hnegative⟩)
    · rw [complete_of_down hfail.answers hmock.answers_mock]
      exact ⟨_, rfl⟩
    · obtain ⟨v, hcomplete, -⟩ := complete_of_comesTo hcomes
      obtain ⟨e, hsettle⟩ := settle_of_negative (w := v) hnegative
      rw [hcomplete, hsettle]
      exact ⟨e, rfl⟩

theorem complete_counted {response : LLMResponse} (h : (g.complete w).1 = .ok response) :
    CountedOnce w (g.complete w).2 response := by
  obtain ⟨response', hcomes⟩ | ⟨hfail, hmock⟩ := comesTo_or_allFail g w
  · obtain ⟨v, hcomplete, hsettling⟩ := complete_of_comesTo hcomes
    rw [hcomplete] at h ⊢
    obtain ⟨rfl, hcounted⟩ := settle_eq_ok h
    rw [hcounted]
    exact hsettling.countedOnce
  · rw [complete_of_down hfail.answers hmock.answers_mock] at h
    cases h

/-- A call that raises counts nothing. -/
theorem complete_uncounted {e : PyErr} (h : (g.complete w).1 = .error e) :
    (g.complete w).2.tokensTotal = w.tokensTotal ∧ (g.complete w).2.llmCalls = w.llmCalls := by
  obtain ⟨response, hcomes⟩ | ⟨hfail, hmock⟩ := comesTo_or_allFail g w
  · obtain ⟨v, hcomplete, hsettling⟩ := complete_of_comesTo hcomes
    rw [hcomplete] at h ⊢
    obtain hok | ⟨e', herror⟩ := settle_cases response v
    · rw [hok] at h
      cases h
    · rw [herror]
      exact ⟨hsettling.tokens, hsettling.calls⟩
  · rw [complete_of_down hfail.answers hmock.answers_mock]
    exact ⟨atMock_tokensTotal w, atMock_llmCalls w⟩

/-- The gateway retries, then degrades, and counts what it returns exactly once. -/
theorem complete_retriesAndDegrades (g : RoutingLLMGateway) (w : CallState) :
    g.RetriesAndDegrades w where
  routed _ _ h htokens :=
    ⟨_, (complete_of_first h).trans (settle_of_tokens htokens), rfl, w.fillModel_provider _, rfl⟩
  degraded _ _ hfail h htokens :=
    ⟨_, (complete_of_degraded hfail.answers h).trans (settle_of_tokens htokens),
      atMock_request w, rfl⟩
  raises := complete_raises_iff g w
  counted _ h := complete_counted h
  uncounted _ h := complete_uncounted h
  unknown _ hget hdown := congrFun (complete_withSilent hget hdown) w

/-- What answers in OpenAI's place counts below zero. -/
def miscounting : RoutingLLMGateway where
  providers := [{
    name := "openai"
    up _ := true
    reply _ request :=
      { text := "Done.", model := request.model, provider := "openai"
        usage := [("prompt_tokens", -5), ("completion_tokens", 2)] }
    error := .runtimeError ""
    reply_provider _ _ := rfl }]
  defaultModel := "gpt-4o-mini"

def toMiscounting : CallState where
  request :=
    { model := "gpt-4o-mini", provider := "openai", messages := [⟨.user, "hello", none⟩] }
  attempts _ := 0

/-- The first attempt succeeds, and the call raises. -/
theorem miscounting_raises :
    (∃ response, miscounting.FirstSuccess 3 (toMiscounting.fillModel miscounting.defaultModel) 0
      response) ∧ (∃ e, (miscounting.complete toMiscounting).1 = .error e) ∧
    ¬ ((∃ e, (miscounting.complete toMiscounting).1 = .error e) ↔
      miscounting.AllFail (toMiscounting.fillModel miscounting.defaultModel) ∧
        miscounting.AllFail (miscounting.atMock toMiscounting)) := by
  have hfirst : miscounting.FirstSuccess 3 (toMiscounting.fillModel miscounting.defaultModel) 0 _ :=
    ⟨by omega, fun j hj => absurd hj (Nat.not_lt_zero j), _, rfl, rfl, rfl⟩
  have hraises : ∃ e, (miscounting.complete toMiscounting).1 = .error e := ⟨_, rfl⟩
  refine ⟨⟨_, hfirst⟩, hraises, fun h => ?_⟩
  have hdown := (h.1 hraises).1 0 (by omega)
  exact absurd hdown (by decide)

end RoutingLLMGateway

end AgentPlatform
