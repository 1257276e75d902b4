import AgentPlatform.Gateway.Models
import AgentPlatform.Lib.Effect

/-!
# The model gateway

A request goes to the provider it names, up to three times; when all three attempts
fail, the gateway degrades to the mock provider.  Every response is counted, by
provider, model and tenant.  Over this stands the failover, which tries one provider
after the other.

* `LLMProvider` — a provider, by what its attempts answer.
* `RoutingLLMGateway.completeOnce`, `complete`, `track`, `completeWithFallback` — the
  gateway's methods.
* `FirstSuccess` — the first attempt that answers, and its answer.
* `complete_of_first`, `complete_of_degraded`, `complete_of_down` — what a call does, in terms
  of which attempts answer.
* `CountsUp` — no provider counts below zero; then every answer is counted.

The caller and the gateway share the request object, so it is part of the state.
-/

namespace AgentPlatform

/-- `usage.get("prompt_tokens", 0) + usage.get("completion_tokens", 0)`. -/
def Usage.tokens (usage : Usage) : ℤ :=
  (List.lookup "prompt_tokens" usage).getD 0 + (List.lookup "completion_tokens" usage).getD 0

/-- A provider behind the gateway.  Whether an attempt answers may differ from attempt to
attempt; an answer bears the provider's name. -/
structure LLMProvider where
  name : String
  /-- Does the attempt of that number answer? -/
  up : ℕ → Bool
  reply : ℕ → LLMRequest → LLMResponse
  /-- What an attempt that fails raises. -/
  error : PyErr
  reply_provider : ∀ k request, (reply k request).provider = name

/-- What the provider answers never counts below zero. -/
def LLMProvider.CountsUp (p : LLMProvider) : Prop :=
  ∀ k request, 0 ≤ (p.reply k request).usage.tokens

/-- `request.tenant_id or "unknown"`. -/
def LLMRequest.tenantLabel (request : LLMRequest) : String :=
  match request.tenantId with
  | none => "unknown"
  | some tenantId => if tenantId = "" then "unknown" else tenantId

/-- A provider that answers always, or never, and echoes the last message. -/
def LLMProvider.echo (name : String) (up : Bool) : LLMProvider where
  name
  up _ := up
  reply _ request :=
    { text := (request.messages.getLast?.map ChatMessage.content).getD ""
      model := request.model
      provider := name
      usage := [("prompt_tokens", 10), ("completion_tokens", 12)] }
  error := .runtimeError "connection refused"
  reply_provider _ _ := rfl

theorem LLMProvider.echo_countsUp (name : String) (up : Bool) : (echo name up).CountsUp := by
  intro k request
  show (0 : ℤ) ≤ 10 + 12
  decide

/-- The labels of `bfsi_llm_tokens_total`. -/
structure TokenLabels where
  provider : String
  model : String
  tenant : String
  deriving DecidableEq

/-- What a call of the gateway reads and writes. -/
structure CallState where
  /-- The request object. -/
  request : LLMRequest
  /-- How many attempts were made at each provider. -/
  attempts : String → ℕ
  /-- The increments of `bfsi_llm_tokens_total`. -/
  tokensTotal : List (TokenLabels × ℤ) := []
  /-- The increments of `bfsi_llm_calls_total`, by provider and model. -/
  llmCalls : List (String × String) := []

/-- Further attempts at a provider. -/
def spend (n : ℕ) (provider : String) (attempts : String → ℕ) : String → ℕ :=
  Function.update attempts provider (attempts provider + n)

namespace CallState

def setProvider (provider : String) (w : CallState) : CallState :=
  { w with request := { w.request with provider } }

def setModel (model : String) (w : CallState) : CallState :=
  { w with request := { w.request with model } }

/-- `if not request.model: request.model = default`. -/
def fillModel (default : String) (w : CallState) : CallState :=
  if w.request.model = "" then w.setModel default else w

/-- Both counters go up, under the labels of the response and the request. -/
def counted (response : LLMResponse) (w : CallState) : CallState :=
  { w with
    tokensTotal := w.tokensTotal ++
      [(⟨response.provider, response.model, w.request.tenantLabel⟩, response.usage.tokens)]
    llmCalls := w.llmCalls ++ [(response.provider, response.model)] }

variable (w : CallState)

@[simp] theorem fillModel_provider (default : String) :
    (w.fillModel default).request.provider = w.request.provider := by
  unfold fillModel setModel
  split <;> rfl

@[simp] theorem fillModel_attempts (default : String) :
    (w.fillModel default).attempts = w.attempts := by
  unfold fillModel setModel
  split <;> rfl

@[simp] theorem fillModel_tokensTotal (default : String) :
    (w.fillModel default).tokensTotal = w.tokensTotal := by
  unfold fillModel setModel
  split <;> rfl

@[simp] theorem fillModel_tenantId (default : String) :
    (w.fillModel default).request.tenantId = w.request.tenantId := by
  unfold fillModel setModel
  split <;> rfl

end CallState

/-- A call of the gateway. -/
abbrev GatewayCall := Effect CallState PyErr

def providerOrder : List String := ["openai", "anthropic", "ollama", "mock"]

structure RoutingLLMGateway where
  /-- `_providers`, by their names. -/
  providers : List LLMProvider
  defaultModel : String

namespace RoutingLLMGateway

variable (g : RoutingLLMGateway)

/-- `self._providers.get(name)`. -/
def get (name : String) : Option LLMProvider := g.providers.find? fun p => p.name = name

/-- One attempt at the provider the request names. -/
def callProvider : GatewayCall LLMResponse := fun w =>
  let w' := { w with attempts := spend 1 w.request.provider w.attempts }
  match g.get w.request.provider with
  | none => (.error (.valueError s!"unknown provider: {w.request.provider}"), w')
  | some p =>
    let k := w.attempts w.request.provider
    if p.up k then (.ok (p.reply k w.request), w') else (.error p.error, w')

/-- `@retry`: at most `n` attempts, and `RetryError` when all of them fail. -/
def retry : ℕ → GatewayCall LLMResponse
  | 0 => Effect.raise .retryError
  | n + 1 => Effect.tryCatch g.callProvider fun _ => retry n

def completeOnce : GatewayCall LLMResponse := g.retry 3

/-- Count a response; a counter refuses a negative increment. -/
def track (response : LLMResponse) : GatewayCall Unit :=
  if response.usage.tokens < 0 then
    Effect.raise (.valueError "Counters can only be incremented by non-negative amounts.")
  else Effect.modify (CallState.counted response)

/-- The request as the mock gets it when its provider failed. -/
def degraded (w : CallState) : CallState := (w.setProvider "mock").setModel g.defaultModel

/-- Ask the provider of the request, or else the mock. -/
def complete : GatewayCall LLMResponse := do
  Effect.modify (CallState.fillModel g.defaultModel)
  let response ← Effect.tryCatch g.completeOnce fun _ => do
    Effect.modify g.degraded
    g.completeOnce
  track response
  return response

/-- None of the providers counts below zero. -/
def CountsUp : Prop := ∀ p ∈ g.providers, p.CountsUp

/-- Is the candidate passed over? -/
def skips (candidate : String) : Bool := (g.get candidate).isNone || candidate = "mock"

/-- The candidates of the failover in order, and what is done when none is left. -/
def tryCandidates (lastResort : GatewayCall LLMResponse) : List String → GatewayCall LLMResponse
  | [] => lastResort
  | candidate :: rest =>
    if g.skips candidate then tryCandidates lastResort rest
    else do
      Effect.modify (CallState.setProvider candidate)
      Effect.tryCatch g.complete fun _ => tryCandidates lastResort rest

/-- Try preferred providers in order until one succeeds. -/
def completeWithFallback : GatewayCall LLMResponse := do
  let w ← Effect.get
  let primary := w.request.provider
  let lastResort := do
    Effect.modify (CallState.setProvider primary)
    g.complete
  g.tryCandidates lastResort (primary :: providerOrder)

/-- The gateway the settings ask for: the providers whose keys are set, Ollama and the mock. -/
def buildLlmGateway (settings : Settings) (openai anthropic ollama mock : LLMProvider) :
    RoutingLLMGateway where
  providers :=
    (if settings.openaiApiKey then [openai] else []) ++
      (if settings.anthropicApiKey then [anthropic] else []) ++ [ollama, mock]
  defaultModel := settings.llmDefaultModel

/-! ## What a call does -/

/-- Does the provider's attempt of that number answer?  An unknown provider never does. -/
def upAt (name : String) (k : ℕ) : Bool :=
  match g.get name with
  | none => false
  | some p => p.up k

/-- Does one of the next three attempts at the provider answer? -/
def answers (name : String) (k : ℕ) : Bool := (List.range 3).any fun i => g.upAt name (k + i)

/-- The response is an answer of the provider the request names to that request. -/
def Answered (request : LLMRequest) (response : LLMResponse) : Prop :=
  ∃ p k, g.get request.provider = some p ∧ p.up k = true ∧ response = p.reply k request

/-- Of the next `n` attempts at the provider the request names, the one of number `i` is the
first that answers, and this is its answer. -/
def FirstSuccess (n : ℕ) (w : CallState) (i : ℕ) (response : LLMResponse) : Prop :=
  i < n ∧ (∀ j < i, g.upAt w.request.provider (w.attempts w.request.provider + j) = false) ∧
    ∃ p, g.get w.request.provider = some p ∧
      p.up (w.attempts w.request.provider + i) = true ∧
      response = p.reply (w.attempts w.request.provider + i) w.request

variable {g} {w : CallState}

theorem FirstSuccess.answered {n i : ℕ} {response : LLMResponse}
    (h : g.FirstSuccess n w i response) : g.Answered w.request response := by
  obtain ⟨-, -, p, hget, hup, hresponse⟩ := h
  exact ⟨p, _, hget, hup, hresponse⟩

/-- If an attempt answers, there is a first one that does. -/
theorem exists_firstSuccess {n : ℕ}
    (h : ∃ i < n, g.upAt w.request.provider (w.attempts w.request.provider + i) = true) :
    ∃ i response, g.FirstSuccess n w i response := by
  obtain ⟨hlt, hup⟩ := Nat.find_spec h
  cases hget : g.get w.request.provider with
  | none => simp [upAt, hget] at hup
  | some p =>
    refine ⟨Nat.find h, _, hlt, ?_, p, hget, by simpa [upAt, hget] using hup, rfl⟩
    intro j hj
    have hmin := Nat.find_min h hj
    rw [not_and, Bool.not_eq_true] at hmin
    exact hmin (hj.trans hlt)

theorem name_of_get {name : String} {p : LLMProvider} (h : g.get name = some p) :
    p.name = name := by
  simpa using List.find?_some h

/-- An answer bears the name of the provider that was asked. -/
theorem Answered.provider {request : LLMRequest} {response : LLMResponse}
    (h : g.Answered request response) : response.provider = request.provider := by
  obtain ⟨p, k, hget, -, rfl⟩ := h
  rw [p.reply_provider, name_of_get hget]

theorem mem_of_get {name : String} {p : LLMProvider} (h : g.get name = some p) :
    p ∈ g.providers := List.mem_of_find?_eq_some h

theorem Answered.tokens (hcounts : g.CountsUp) {request : LLMRequest} {response : LLMResponse}
    (h : g.Answered request response) : 0 ≤ response.usage.tokens := by
  obtain ⟨p, k, hget, -, rfl⟩ := h
  exact hcounts p (mem_of_get hget) k request

theorem callProvider_of_up {p : LLMProvider} (hget : g.get w.request.provider = some p)
    (h : p.up (w.attempts w.request.provider) = true) :
    g.callProvider w = (.ok (p.reply (w.attempts w.request.provider) w.request),
      { w with attempts := spend 1 w.request.provider w.attempts }) := by
  simp [callProvider, hget, h]

theorem callProvider_of_down
    (h : g.upAt w.request.provider (w.attempts w.request.provider) = false) :
    ∃ e, g.callProvider w =
      (.error e, { w with attempts := spend 1 w.request.provider w.attempts }) := by
  unfold upAt at h
  cases hget : g.get w.request.provider with
  | none =>
    exact ⟨.valueError s!"unknown provider: {w.request.provider}", by simp [callProvider, hget]⟩
  | some p =>
    rw [hget] at h
    exact ⟨p.error, by simp [callProvider, hget, h]⟩

@[simp] theorem spend_self (n : ℕ) (provider : String) (attempts : String → ℕ) :
    spend n provider attempts provider = attempts provider + n := by simp [spend]

theorem spend_of_ne {name provider : String} (h : name ≠ provider) (n : ℕ)
    (attempts : String → ℕ) : spend n provider attempts name = attempts name := by
  simp [spend, h]

theorem spend_spend (m n : ℕ) (provider : String) (attempts : String → ℕ) :
    spend n provider (spend m provider attempts) = spend (m + n) provider attempts := by
  simp [spend, Nat.add_assoc]

/-- The attempts go on until one answers, and end there. -/
theorem retry_of_first {n i : ℕ} {response : LLMResponse} (h : g.FirstSuccess n w i response) :
    g.retry n w =
      (.ok response, { w with attempts := spend (i + 1) w.request.provider w.attempts }) := by
  obtain ⟨hi, hbefore, p, hget, hup, rfl⟩ := h
  induction n generalizing w i with
  | zero => omega
  | succ n ih =>
    cases i with
    | zero => exact Effect.tryCatch_of_ok (callProvider_of_up hget hup) _
    | succ i =>
      obtain ⟨e, hcall⟩ := callProvider_of_down (hbefore 0 (by omega))
      -- the first attempt failed, so the one that answers is a later one
      have hshift : ∀ j, spend 1 w.request.provider w.attempts w.request.provider + j =
          w.attempts w.request.provider + (j + 1) := by
        intro j
        rw [spend_self]
        omega
      have hrest := ih (w := { w with attempts := spend 1 w.request.provider w.attempts })
        (i := i) (by omega) (fun j hj => by rw [hshift]; exact hbefore (j + 1) (by omega))
        hget (by rw [hshift]; exact hup)
      refine (Effect.tryCatch_of_error hcall _).trans (hrest.trans ?_)
      rw [hshift, spend_spend, Nat.add_comm 1]

/-- When no attempt answers, all of them are spent. -/
theorem retry_of_down {n : ℕ}
    (h : ∀ i < n, g.upAt w.request.provider (w.attempts w.request.provider + i) = false) :
    g.retry n w =
      (.error .retryError, { w with attempts := spend n w.request.provider w.attempts }) := by
  induction n generalizing w with
  | zero => simp [retry, spend]
  | succ n ih =>
    obtain ⟨e, hcall⟩ := callProvider_of_down (h 0 (by omega))
    have hrest : ∀ i < n, g.upAt w.request.provider
        (spend 1 w.request.provider w.attempts w.request.provider + i) = false := by
      intro i hi
      rw [spend_self, Nat.add_assoc, Nat.add_comm 1 i]
      exact h (i + 1) (by omega)
    have hretry := ih (w := { w with attempts := spend 1 w.request.provider w.attempts }) hrest
    refine (Effect.tryCatch_of_error hcall _).trans (hretry.trans ?_)
    rw [spend_spend, Nat.add_comm]

theorem answers_eq_true_iff {name : String} {k : ℕ} :
    g.answers name k = true ↔ ∃ i < 3, g.upAt name (k + i) = true := by
  simp [answers]

theorem answers_eq_false_iff {name : String} {k : ℕ} :
    g.answers name k = false ↔ ∀ i < 3, g.upAt name (k + i) = false := by
  simp [answers]

theorem completeOnce_of_first {i : ℕ} {response : LLMResponse}
    (h : g.FirstSuccess 3 w i response) :
    g.completeOnce w =
      (.ok response, { w with attempts := spend (i + 1) w.request.provider w.attempts }) :=
  retry_of_first h

theorem completeOnce_of_down
    (h : g.answers w.request.provider (w.attempts w.request.provider) = false) :
    g.completeOnce w =
      (.error .retryError, { w with attempts := spend 3 w.request.provider w.attempts }) :=
  retry_of_down (answers_eq_false_iff.1 h)

/-- The end of a call that was answered. -/
def settle (response : LLMResponse) : GatewayCall LLMResponse := do
  track response
  return response

/-- An answer that does not count below zero is counted and returned. -/
theorem settle_of_tokens {response : LLMResponse} (h : 0 ≤ response.usage.tokens) :
    settle response w = (.ok response, w.counted response) := by
  have htrack : track response w = (.ok (), w.counted response) := by
    rw [track, if_neg (not_lt.2 h)]
    rfl
  rw [settle, Effect.bind_of_ok htrack, Effect.pure_apply]

/-- An answer that counts below zero is lost. -/
theorem settle_of_negative {response : LLMResponse} (h : response.usage.tokens < 0) :
    ∃ e, settle response w = (.error e, w) := by
  have htrack : track response w = (.error (.valueError
      "Counters can only be incremented by non-negative amounts."), w) := by
    rw [track, if_pos h]
    rfl
  exact ⟨_, Effect.bind_of_error htrack _⟩

theorem settle_cases (response : LLMResponse) (w : CallState) :
    settle response w = (.ok response, w.counted response) ∨
      ∃ e, settle response w = (.error e, w) :=
  (lt_or_ge response.usage.tokens 0).symm.imp settle_of_tokens settle_of_negative

theorem settle_of_answered (hcounts : g.CountsUp) {request : LLMRequest} {response : LLMResponse}
    (h : g.Answered request response) : settle response w = (.ok response, w.counted response) :=
  settle_of_tokens (h.tokens hcounts)

/-- What is returned is the answer, and it was counted. -/
theorem settle_eq_ok {response response' : LLMResponse}
    (h : (settle response w).1 = .ok response') :
    response = response' ∧ (settle response w).2 = w.counted response := by
  obtain hok | ⟨e, herror⟩ := settle_cases response w
  · rw [hok] at h ⊢
    exact ⟨Except.ok.inj h, rfl⟩
  · rw [herror] at h
    cases h

/-- The provider of the request answers, at its first attempt that does. -/
theorem complete_of_first {i : ℕ} {response : LLMResponse}
    (h : g.FirstSuccess 3 (w.fillModel g.defaultModel) i response) :
    g.complete w = settle response
      { w.fillModel g.defaultModel with
        attempts := spend (i + 1) w.request.provider w.attempts } := by
  have honce := completeOnce_of_first h
  rw [CallState.fillModel_provider, CallState.fillModel_attempts] at honce
  rw [complete, Effect.modify_bind, Effect.bind_of_ok (Effect.tryCatch_of_ok honce _), settle]

theorem complete_of_answers
    (h : g.answers w.request.provider (w.attempts w.request.provider) = true) :
    ∃ response attempts, g.Answered (w.fillModel g.defaultModel).request response ∧
      g.complete w = settle response { w.fillModel g.defaultModel with attempts } := by
  obtain ⟨i, response, hfirst⟩ := exists_firstSuccess (g := g) (w := w.fillModel g.defaultModel)
    (answers_eq_true_iff.1 (by simpa using h))
  exact ⟨response, _, hfirst.answered, complete_of_first hfirst⟩

/-- The state in which the mock is asked when the provider of the request failed. -/
def atMock (g : RoutingLLMGateway) (w : CallState) : CallState :=
  g.degraded { w.fillModel g.defaultModel with
    attempts := spend 3 w.request.provider w.attempts }

theorem atMock_request (w : CallState) : (g.atMock w).request =
    { w.request with provider := "mock", model := g.defaultModel } := by
  unfold atMock CallState.fillModel
  split <;> rfl

/-- The provider of the request fails, and the mock answers in its place. -/
theorem complete_of_degraded {i : ℕ} {response : LLMResponse}
    (hdown : g.answers w.request.provider (w.attempts w.request.provider) = false)
    (h : g.FirstSuccess 3 (g.atMock w) i response) :
    g.complete w = settle response
      { g.atMock w with attempts := spend (i + 1) "mock" (g.atMock w).attempts } := by
  have hfirst :=
    completeOnce_of_down (g := g) (w := w.fillModel g.defaultModel) (by simpa using hdown)
  rw [CallState.fillModel_provider, CallState.fillModel_attempts] at hfirst
  have hcaught : Effect.tryCatch g.completeOnce
      (fun _ => do Effect.modify g.degraded; g.completeOnce) (w.fillModel g.defaultModel) =
        (.ok response,
          { g.atMock w with attempts := spend (i + 1) "mock" (g.atMock w).attempts }) :=
    (Effect.tryCatch_of_error hfirst _).trans (completeOnce_of_first h)
  rw [complete, Effect.modify_bind, Effect.bind_of_ok hcaught, settle]

theorem complete_of_mock
    (hdown : g.answers w.request.provider (w.attempts w.request.provider) = false)
    (hmock : g.answers "mock" (spend 3 w.request.provider w.attempts "mock") = true) :
    ∃ response attempts, g.Answered (g.atMock w).request response ∧
      g.complete w = settle response { g.atMock w with attempts } := by
  obtain ⟨i, response, hfirst⟩ :=
    exists_firstSuccess (g := g) (w := g.atMock w) (answers_eq_true_iff.1 hmock)
  exact ⟨response, _, hfirst.answered, complete_of_degraded hdown hfirst⟩

/-- The state in which both the provider of the request and the mock have failed. -/
def exhausted (g : RoutingLLMGateway) (w : CallState) : CallState :=
  { g.atMock w with attempts := spend 3 "mock" (spend 3 w.request.provider w.attempts) }

@[simp] theorem exhausted_attempts (w : CallState) :
    (g.exhausted w).attempts = spend 3 "mock" (spend 3 w.request.provider w.attempts) := rfl

theorem exhausted_request (w : CallState) : (g.exhausted w).request =
    { w.request with provider := "mock", model := g.defaultModel } := atMock_request w

/-- Both the provider of the request and the mock fail. -/
theorem complete_of_down
    (hdown : g.answers w.request.provider (w.attempts w.request.provider) = false)
    (hmock : g.answers "mock" (spend 3 w.request.provider w.attempts "mock") = false) :
    g.complete w = (.error .retryError, g.exhausted w) := by
  have hfirst :=
    completeOnce_of_down (g := g) (w := w.fillModel g.defaultModel) (by simpa using hdown)
  have honce := completeOnce_of_down (g := g) (w := g.atMock w) hmock
  rw [CallState.fillModel_provider, CallState.fillModel_attempts] at hfirst
  have hcaught : Effect.tryCatch g.completeOnce
      (fun _ => do Effect.modify g.degraded; g.completeOnce) (w.fillModel g.defaultModel) =
        (.error .retryError, g.exhausted w) :=
    (Effect.tryCatch_of_error hfirst _).trans honce
  rw [complete, Effect.modify_bind, Effect.bind_of_error hcaught]

end RoutingLLMGateway

end AgentPlatform
