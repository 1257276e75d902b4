import AgentPlatform.Gateway.Degradation
import AgentPlatform.Graph.Paths

/-!
# Which tenant pays for the tokens

Every response of the gateway is counted under the tenant its request names.  The requests of
an agent's loop name the tenant of the run; the request a supervisor composes the answer with
names none.

* `RoutingLLMGateway.serve`, `ledger`, `respond` — the gateway from call to call.
* `Counts` — what is counted is what the log says was answered; **kept by every run**.
* `counter_run` — **what a run adds to the counter of a tenant.**
* `conserved_iff` — **when the accounts are right**, over every sequence of chats.
-/

namespace AgentPlatform

/-! ## The gateway from call to call -/

/-- What the gateway keeps from one call to the next. -/
structure Ledger where
  attempts : String → ℕ := fun _ => 0
  tokensTotal : List (TokenLabels × ℤ) := []
  llmCalls : List (String × String) := []

namespace RoutingLLMGateway

variable (g : RoutingLLMGateway)

/-- A call of `complete`, with what it leaves for the next one. -/
def serve (request : LLMRequest) (ledger : Ledger) : Option LLMResponse × Ledger :=
  let (result, w) :=
    g.complete ⟨request, ledger.attempts, ledger.tokensTotal, ledger.llmCalls⟩
  (match result with
    | .ok response => some response
    | .error _ => none, ⟨w.attempts, w.tokensTotal, w.llmCalls⟩)

/-- What requests leave, from the start of the process. -/
def ledger (requests : List LLMRequest) : Ledger :=
  requests.foldl (fun ledger request => (g.serve request ledger).2) {}

/-- The response to the last of the requests. -/
def respond (requests : List LLMRequest) : Option LLMResponse :=
  requests.getLast?.bind fun request => (g.serve request (g.ledger requests.dropLast)).1

theorem ledger_concat (requests : List LLMRequest) (request : LLMRequest) :
    g.ledger (requests ++ [request]) = (g.serve request (g.ledger requests)).2 := by
  rw [ledger, List.foldl_append]
  rfl

theorem respond_concat (requests : List LLMRequest) (request : LLMRequest) :
    g.respond (requests ++ [request]) = (g.serve request (g.ledger requests)).1 := by
  simp [respond]

end RoutingLLMGateway

/-- The environment where the agents talk to the gateway. -/
def Env.through (env : Env) (g : RoutingLLMGateway) : Env := { env with complete := g.respond }

/-! ## What is counted -/

namespace Event

/-- What a response adds to `bfsi_llm_tokens_total`. -/
def increment? : Event → Option (TokenLabels × ℤ)
  | asked request (some response) =>
    some (⟨response.provider, response.model, request.tenantLabel⟩, response.usage.tokens)
  | _ => none

/-- The tokens of the response an event brings. -/
def tokens : Event → ℤ
  | asked _ (some response) => response.usage.tokens
  | _ => 0

end Event

/-- The total of the increments under a tenant. -/
def totalUnder (tenant : String) (increments : List (TokenLabels × ℤ)) : ℤ :=
  ((increments.filter fun i => i.1.tenant = tenant).map Prod.snd).sum

/-- The tokens of the responses in a log. -/
def tokensIn (log : List Event) : ℤ := (log.map Event.tokens).sum

/-- What is counted is what the log says was answered. -/
def Counts (g : RoutingLLMGateway) (log : List Event) : Prop :=
  (g.ledger (requestsIn log)).tokensTotal = log.filterMap Event.increment?

section Counts

variable {g : RoutingLLMGateway}

/-- A call counts the response it returns, under the tenant of the request, whichever provider
has answered. -/
theorem tokensTotal_serve (request : LLMRequest) (ledger : Ledger) :
    (g.serve request ledger).2.tokensTotal = ledger.tokensTotal ++
      [Event.asked request (g.serve request ledger).1].filterMap Event.increment? := by
  set w : CallState := ⟨request, ledger.attempts, ledger.tokensTotal, ledger.llmCalls⟩ with hw
  obtain ⟨result, v, hcall⟩ : ∃ result v, g.complete w = (result, v) := ⟨_, _, rfl⟩
  cases result with
  | ok response =>
    have hserve : g.serve request ledger =
        (some response, ⟨v.attempts, v.tokensTotal, v.llmCalls⟩) := by
      rw [RoutingLLMGateway.serve, ← hw, hcall]
    have hcounted : RoutingLLMGateway.CountedOnce w (g.complete w).2 response :=
      RoutingLLMGateway.complete_counted (congrArg Prod.fst hcall)
    rw [hcall] at hcounted
    rw [hserve]
    refine hcounted.tokens.trans ?_
    rw [← hcounted.provider]
    rfl
  | error e =>
    have hserve : g.serve request ledger = (none, ⟨v.attempts, v.tokensTotal, v.llmCalls⟩) := by
      rw [RoutingLLMGateway.serve, ← hw, hcall]
    have huncounted : (g.complete w).2.tokensTotal = w.tokensTotal :=
      (RoutingLLMGateway.complete_uncounted (congrArg Prod.fst hcall)).1
    rw [hcall] at huncounted
    rw [hserve]
    exact huncounted.trans (List.append_nil _).symm

theorem counts_nil : Counts g [] := rfl

theorem Counts.asked {log : List Event} (h : Counts g log) (request : LLMRequest) :
    Counts g (log ++ [.asked request (g.respond (requestsIn log ++ [request]))]) := by
  unfold Counts at h ⊢
  have hrequests : requestsIn (log ++ [.asked request
      (g.respond (requestsIn log ++ [request]))]) = requestsIn log ++ [request] := by
    rw [requestsIn_append]
    rfl
  rw [hrequests, g.ledger_concat, g.respond_concat, tokensTotal_serve, h, List.filterMap_append]

theorem Event.increment?_of_unasked {e : Event} (he : e.request? = none) : e.increment? = none := by
  cases e with
  | asked request answer => cases he
  | called invocation execution => rfl
  | remembered agentKey inp reply => rfl
  | recorded report => rfl

theorem Counts.rest {log : List Event} (h : Counts g log) {e : Event} (he : e.request? = none) :
    Counts g (log ++ [e]) := by
  unfold Counts at h ⊢
  rw [requestsIn_append, List.filterMap_append, ← h]
  simp [requestsIn, he, Event.increment?_of_unasked he]

theorem Counts.noted {log events : List Event} (h : Counts g log)
    (hevents : ∀ e ∈ events, e.Noted) : Counts g (log ++ events) := by
  induction events generalizing log with
  | nil =>
    rw [List.append_nil]
    exact h
  | cons e events ih =>
    rw [List.append_cons]
    refine ih (h.rest (hevents e (List.mem_cons_self ..)).1) fun e' he' => ?_
    exact hevents e' (List.mem_cons_of_mem _ he')

end Counts

/-! ## Totals -/

/-- The requests name a tenant, or none. -/
def Event.Names (tenantId : Option String) : Event → Prop
  | .asked request _ => request.tenantId = tenantId
  | _ => True

theorem Event.names_of_unasked {tenantId : Option String} {e : Event} (he : e.request? = none) :
    e.Names tenantId := by
  cases e with
  | asked request answer => cases he
  | called invocation execution => trivial
  | remembered agentKey inp reply => trivial
  | recorded report => trivial

theorem totalUnder_append (tenant : String) (l l' : List (TokenLabels × ℤ)) :
    totalUnder tenant (l ++ l') = totalUnder tenant l + totalUnder tenant l' := by
  rw [totalUnder, List.filter_append, List.map_append, List.sum_append]
  rfl

theorem tokensIn_append (l l' : List Event) : tokensIn (l ++ l') = tokensIn l + tokensIn l' := by
  rw [tokensIn, List.map_append, List.sum_append]
  rfl

/-- What is counted of an event whose request has a label. -/
theorem totalUnder_event {label : String} {e : Event}
    (h : ∀ request answer, e = .asked request answer → request.tenantLabel = label)
    (tenant : String) : totalUnder tenant ([e].filterMap Event.increment?) =
      if label = tenant then tokensIn [e] else 0 := by
  cases e with
  | asked request answer =>
    cases answer with
    | none => split <;> rfl
    | some response =>
      have hlabel := h request (some response) rfl
      show totalUnder tenant [(⟨response.provider, response.model, request.tenantLabel⟩,
        response.usage.tokens)] = if label = tenant then response.usage.tokens + 0 else 0
      rw [hlabel]
      by_cases heq : label = tenant
      · simp [totalUnder, heq]
      · simp [totalUnder, heq]
  | called invocation execution => split <;> rfl
  | remembered agentKey inp reply => split <;> rfl
  | recorded report => split <;> rfl

/-- What is counted of requests with one label. -/
theorem totalUnder_of_names {tenantId : Option String} {label : String}
    (hlabel : ∀ request : LLMRequest, request.tenantId = tenantId → request.tenantLabel = label)
    {events : List Event} (h : ∀ e ∈ events, e.Names tenantId) (tenant : String) :
    totalUnder tenant (events.filterMap Event.increment?) =
      if label = tenant then tokensIn events else 0 := by
  induction events with
  | nil => split <;> rfl
  | cons e events ih =>
    have hrest := ih fun e' he' => h e' (List.mem_cons_of_mem _ he')
    have hfirst : ∀ request answer, e = .asked request answer → request.tenantLabel = label := by
      rintro request answer rfl
      exact hlabel request (h (.asked request answer) (List.mem_cons_self ..))
    rw [← List.singleton_append, List.filterMap_append, totalUnder_append, tokensIn_append, hrest,
      totalUnder_event hfirst]
    split
    · rfl
    · rw [add_zero]

/-! ## What a run counts -/

/-- The tokens a world has counted for a tenant. -/
def RoutingLLMGateway.counter (g : RoutingLLMGateway) (w : World) (tenant : String) : ℤ :=
  totalUnder tenant (g.ledger (requestsIn w.log)).tokensTotal

/-- The tokens of the responses between two worlds. -/
def tokensSince (w v : World) : ℤ := tokensIn (v.log.drop w.log.length)

/-- The label of a tenant. -/
def tenantLabel (tenantId : String) : String := if tenantId = "" then "unknown" else tenantId

section Run

variable {env : Env} {g : RoutingLLMGateway} {inp : AgentInput} {w v u : World}

theorem counts_ask (request : LLMRequest) :
    Keeps (fun v => Counts g v.log) ((env.through g).ask request) := by
  intro v hv
  have hasked := hv.asked request
  have hanswer : (env.through g).answer v.log request =
      g.respond (requestsIn v.log ++ [request]) := rfl
  unfold Env.ask
  rw [hanswer]
  cases hrespond : g.respond (requestsIn v.log ++ [request]) with
  | none =>
    rw [hrespond] at hasked
    exact hasked
  | some response =>
    rw [hrespond] at hasked
    exact hasked

theorem loopKeeps_counts (agent : Agent) :
    agent.LoopKeeps (env.through g) inp fun v => Counts g v.log where
  ask _ := counts_ask _
  call _ _ hv := hv.rest rfl
  tokens _ _ hv := hv
  remember _ _ hv := hv.rest rfl
  record report v hv := by
    unfold Env.recordAgentRun
    split
    · exact hv.rest rfl
    · exact hv

/-- **Every run counts what it was answered**, and nothing else. -/
theorem counts_run (path : ExecutionPath) (h : Counts g w.log) :
    Counts g (path.run (env.through g) inp w).2.log := by
  have hloop : Counts g (path.loop (env.through g) inp w).2.log :=
    path.loop_keeps (fun agent => (loopKeeps_counts agent).run) (fun _ _ _ _ hv => hv) w h
  obtain ⟨events, hlog, hevents⟩ := path.run_composed (env.through g) inp w
  rw [hlog]
  refine Counts.noted ?_ hevents
  rcases path.composing_cases (path.loop (env.through g) inp w) with hnone | ⟨request, -, hasked⟩
  · rw [hnone]
    exact hloop.noted (by simp)
  · rw [hasked]
    exact hloop.asked request

/-- The requests of the loop name the tenant of the run. -/
theorem loop_names (path : ExecutionPath) :
    w.Since (Event.Names (some inp.tenantId)) (path.loop env inp w).2 := by
  refine path.loop_keeps (fun agent => (agent.loopKeeps_since ?_ ?_ ?_ w).run)
    (fun _ _ _ _ hv => hv) w World.Since.refl
  · exact fun messages answer => rfl
  · exact fun tc before => trivial
  · intro e hrequest hinvocation
    exact Event.names_of_unasked hrequest

/-- **The requests after the loop name no tenant.** -/
theorem run_names (path : ExecutionPath) :
    (path.loop env inp w).2.Since (Event.Names none) (path.run env inp w).2 := by
  refine World.Since.trans ?_ ((path.run_composed env inp w).mono
    fun e he => Event.names_of_unasked he.1)
  refine ⟨_, rfl, fun e he => ?_⟩
  rcases path.composing_cases (path.loop env inp w) with hnone | ⟨request, hrequest, hasked⟩
  · rw [hnone] at he
    cases he
  · rw [hasked, List.mem_singleton] at he
    subst he
    exact hrequest

/-- The tokens up to a later world. -/
theorem tokensSince_of_log {events : List Event} (h : v.log = w.log ++ events) :
    tokensSince w v = tokensIn events := by
  rw [tokensSince, h, List.drop_left]

theorem tokensSince_trans {events events' : List Event} (h : v.log = w.log ++ events)
    (h' : u.log = v.log ++ events') : tokensSince w u = tokensSince w v + tokensSince v u := by
  have hall : u.log = w.log ++ (events ++ events') := by rw [h', h, List.append_assoc]
  rw [tokensSince_of_log hall, tokensSince_of_log h, tokensSince_of_log h', tokensIn_append]

/-- What requests with one label add to the counters. -/
theorem counter_since {tenantId : Option String} {label : String}
    (hlabel : ∀ request : LLMRequest, request.tenantId = tenantId → request.tenantLabel = label)
    (h : w.Since (Event.Names tenantId) v) (tenant : String) :
    totalUnder tenant (v.log.filterMap Event.increment?) =
      totalUnder tenant (w.log.filterMap Event.increment?) +
        if label = tenant then tokensSince w v else 0 := by
  obtain ⟨events, hlog, hevents⟩ := h
  rw [tokensSince_of_log hlog, hlog, List.filterMap_append, totalUnder_append,
    totalUnder_of_names hlabel hevents]

theorem tokensIn_noted {events : List Event} (h : ∀ e ∈ events, e.Noted) :
    tokensIn events = 0 := by
  refine List.sum_eq_zero fun n hn => ?_
  obtain ⟨e, he, rfl⟩ := List.mem_map.1 hn
  obtain ⟨hrequest, -⟩ := h e he
  cases e with
  | asked request answer => cases hrequest
  | called invocation execution => rfl
  | remembered agentKey inp' reply => rfl
  | recorded report => rfl

/-- After the loop, the tokens are those of the request the answer is composed with. -/
theorem tokensSince_composing (path : ExecutionPath) :
    tokensSince (path.loop env inp w).2 (path.run env inp w).2 =
      tokensIn (path.composing env inp (path.loop env inp w)) := by
  obtain ⟨events, hlog, hevents⟩ := path.run_composed env inp w
  rw [World.withLog_log, List.append_assoc] at hlog
  rw [tokensSince_of_log hlog, tokensIn_append, tokensIn_noted hevents, add_zero]

/-- **What a run adds to the counter of a tenant**: the tokens of the loop under the tenant of the
run, the tokens of composing the answer under `unknown`. -/
theorem counter_run (path : ExecutionPath) (h : Counts g w.log) (tenant : String) :
    g.counter (path.run (env.through g) inp w).2 tenant = g.counter w tenant +
      (if tenantLabel inp.tenantId = tenant then
        tokensSince w (path.loop (env.through g) inp w).2 else 0) +
      (if "unknown" = tenant then
        tokensIn (path.composing (env.through g) inp (path.loop (env.through g) inp w))
      else 0) := by
  have hrun : Counts g (path.run (env.through g) inp w).2.log := counts_run path h
  have hown : ∀ request : LLMRequest, request.tenantId = some inp.tenantId →
      request.tenantLabel = tenantLabel inp.tenantId := by
    intro request hrequest
    rw [LLMRequest.tenantLabel, hrequest]
    rfl
  have hnone : ∀ request : LLMRequest, request.tenantId = none →
      request.tenantLabel = "unknown" := by
    intro request hrequest
    rw [LLMRequest.tenantLabel, hrequest]
  rw [RoutingLLMGateway.counter, RoutingLLMGateway.counter, hrun, h,
    counter_since hnone (run_names path) tenant, counter_since hown (loop_names path) tenant,
    tokensSince_composing]

theorem tokensSince_run (path : ExecutionPath) :
    tokensSince w (path.run env inp w).2 = tokensSince w (path.loop env inp w).2 +
      tokensIn (path.composing env inp (path.loop env inp w)) := by
  obtain ⟨events, hlog, -⟩ : w.Since (Event.Names (some inp.tenantId)) (path.loop env inp w).2 :=
    loop_names path
  obtain ⟨events', hlog', -⟩ : (path.loop env inp w).2.Since (Event.Names none)
      (path.run env inp w).2 := run_names path
  rw [tokensSince_trans hlog hlog', tokensSince_composing]

/-! ## The accounts of a run -/

/-- From one world to a later one, all the tokens are counted under the tenant and none under
another. -/
def ChargedTo (g : RoutingLLMGateway) (tenantId : String) (w v : World) : Prop :=
  ∀ tenant, g.counter v tenant =
    g.counter w tenant + if tenantId = tenant then tokensSince w v else 0

/-- A run takes neither of the ways to the label `unknown`: its tenant has that name, or no answer
is composed with tokens; and where the tenant has no name, there are none in the loop either. -/
def Attributed (env : Env) (path : ExecutionPath) (inp : AgentInput) (w : World) : Prop :=
  inp.tenantId = "unknown" ∨
    (inp.tenantId ≠ "" ∧ tokensIn (path.composing env inp (path.loop env inp w)) = 0) ∨
    (inp.tenantId = "" ∧ tokensSince w (path.loop env inp w).2 +
      tokensIn (path.composing env inp (path.loop env inp w)) = 0)

/-- The two labels of a run against the one it should have. -/
theorem charge_iff (tenantId : String) (loop rest : ℤ) :
    (∀ tenant, (if tenantLabel tenantId = tenant then loop else 0) +
        (if "unknown" = tenant then rest else 0) =
      if tenantId = tenant then loop + rest else 0) ↔
      tenantId = "unknown" ∨ (tenantId ≠ "" ∧ rest = 0) ∨ (tenantId = "" ∧ loop + rest = 0) := by
  by_cases hunknown : tenantId = "unknown"
  · refine iff_of_true (fun tenant => ?_) (Or.inl hunknown)
    subst hunknown
    rw [show tenantLabel "unknown" = "unknown" by decide]
    split <;> simp
  · by_cases hempty : tenantId = ""
    · subst hempty
      rw [show tenantLabel "" = "unknown" by decide]
      constructor
      · intro hall
        have hnone := hall ""
        simp only [show ("unknown" = "") = False by decide, if_false, if_true] at hnone
        exact Or.inr (Or.inr ⟨rfl, by omega⟩)
      · rintro (h | ⟨h, -⟩ | ⟨-, hzero⟩) tenant
        · exact absurd h hunknown
        · exact absurd rfl h
        · by_cases htenant : "unknown" = tenant
          · subst htenant
            simp [hzero]
          · simp [htenant, hzero]
    · rw [show tenantLabel tenantId = tenantId from if_neg hempty]
      constructor
      · intro hall
        have hown := hall tenantId
        simp only [Ne.symm hunknown, if_false, if_true] at hown
        exact Or.inr (Or.inl ⟨hempty, by omega⟩)
      · rintro (h | ⟨-, hzero⟩ | ⟨h, -⟩) tenant
        · exact absurd h hunknown
        · simp [hzero]
        · exact absurd h hempty

/-- **When a run is charged to its tenant.** -/
theorem chargedTo_iff (path : ExecutionPath) (h : Counts g w.log) :
    ChargedTo g inp.tenantId w (path.run (env.through g) inp w).2 ↔
      Attributed (env.through g) path inp w := by
  unfold ChargedTo Attributed
  rw [tokensSince_run, ← charge_iff]
  refine forall_congr' fun tenant => ?_
  rw [counter_run path h, add_assoc, add_right_inj]

/-- What a specialist is asked for is charged to its tenant, if the tenant has a name. -/
theorem attributed_of_specialist {path : ExecutionPath} (hname : inp.tenantId ≠ "")
    (hpath : ∀ result, path.composeRequest? env inp result = none) :
    Attributed env path inp w := by
  refine Or.inr (Or.inl ⟨hname, ?_⟩)
  rw [ExecutionPath.composing_of_uncomposed hpath]
  rfl

end Run

/-! ## The accounts of a sequence of chats -/

/-- A chat: what is asked, and the path it is handled on. -/
structure Chat where
  path : ExecutionPath
  inp : AgentInput

/-- What a chat leaves. -/
def Chat.after (env : Env) (w : World) (chat : Chat) : World := (chat.path.run env chat.inp w).2

section Chats

variable (env : Env) (g : RoutingLLMGateway)

/-- What holds of every chat of a sequence, in the world it starts in. -/
def EachChat (P : World → Chat → Prop) (w : World) : List Chat → Prop
  | [] => True
  | chat :: later => P w chat ∧ EachChat P (chat.after env w) later

/-- The tokens of the chats of a tenant. -/
def tokensOf (tenant : String) (w : World) : List Chat → ℤ
  | [] => 0
  | chat :: later => (if chat.inp.tenantId = tenant then tokensSince w (chat.after env w) else 0) +
      tokensOf tenant (chat.after env w) later

/-- The accounts are right: the counter of a tenant has gone up by the tokens of its chats, and
every chat is charged to its tenant. -/
structure Conserved (w : World) (chats : List Chat) : Prop where
  total : ∀ tenant, g.counter (chats.foldl (Chat.after (env.through g)) w) tenant =
    g.counter w tenant + tokensOf (env.through g) tenant w chats
  charged : EachChat (env.through g)
    (fun w chat => ChargedTo g chat.inp.tenantId w (chat.after (env.through g) w)) w chats

variable {env g} {w : World}

/-- The total follows from the charges. -/
theorem total_of_charged {chats : List Chat} (tenant : String)
    (h : EachChat (env.through g)
      (fun w chat => ChargedTo g chat.inp.tenantId w (chat.after (env.through g) w)) w chats) :
    g.counter (chats.foldl (Chat.after (env.through g)) w) tenant =
      g.counter w tenant + tokensOf (env.through g) tenant w chats := by
  induction chats generalizing w with
  | nil => exact (add_zero _).symm
  | cons chat later ih =>
    obtain ⟨hcharged, hlater⟩ := h
    rw [List.foldl_cons, ih hlater, hcharged tenant, tokensOf, add_assoc]

theorem eachCharged_iff {chats : List Chat} (h : Counts g w.log) :
    EachChat (env.through g)
        (fun w chat => ChargedTo g chat.inp.tenantId w (chat.after (env.through g) w)) w chats ↔
      EachChat (env.through g)
        (fun w chat => Attributed (env.through g) chat.path chat.inp w) w chats := by
  induction chats generalizing w with
  | nil => exact Iff.rfl
  | cons chat later ih =>
    exact and_congr (chargedTo_iff chat.path h) (ih (counts_run chat.path h))

/-- **When the accounts are right**, over every sequence of chats from the start of the process. -/
theorem conserved_iff (env : Env) (g : RoutingLLMGateway) (chats : List Chat) :
    Conserved env g World.initial chats ↔
      EachChat (env.through g)
        (fun w chat => Attributed (env.through g) chat.path chat.inp w) World.initial chats := by
  have hinitial : Counts g World.initial.log := counts_nil
  rw [← eachCharged_iff hinitial]
  constructor
  · exact fun h => h.charged
  · exact fun h => ⟨fun tenant => total_of_charged tenant h, h⟩

end Chats

/-- A gateway with the mock alone. -/
def mockGateway : RoutingLLMGateway := ⟨[.echo "mock" true], "bfsi-mock"⟩

/-- The answer the supervisor composes for a customer is counted under `unknown`. -/
theorem supervisorChat_not_conserved :
    ¬ Conserved (demoEnv fun _ => none) mockGateway World.initial
      [⟨.supervisor agentRegistry, demoInput⟩] := by
  intro h
  have hunknown := h.charged.1 "unknown"
  revert hunknown
  decide +kernel

end AgentPlatform
