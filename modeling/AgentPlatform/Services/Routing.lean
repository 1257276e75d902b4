import AgentPlatform.Graph.Agreement
import AgentPlatform.Services.AgentService

/-!
# One specialist for a message

Three places pick the agent for a message: `route`, the supervisor that `route` defers to, and
the first node of the supervisor graph.  Each of them classifies the message again, and each has
its own way out when nothing matches.

* `IsIntent` — the intent with the most matches, the last name among equals;
  `classifyIntent_eq_some_iff` — this is what `classifyIntent` finds.
* `AgentRegistry.answerer` — the first agent with the capability, or the customer support.
* `DelegatesTo` — a supervisor whose answer is made from what that agent returned.
* `routing_sites_agree` — **the three places agree.**
-/

namespace AgentPlatform

/-! ## The intent of a message -/

section Intents

variable (rt : PyRuntime) (message : String)

/-- How often a pattern matches the message. -/
def patternCount (pattern : Regex) : ℕ := pattern.count rt.isWord (rt.lower message).toList

/-- The scores that `classifyIntent` sorts. -/
def scoredIntents : List (ℕ × String) :=
  (intentPatterns.map fun p => (patternCount rt message p.2, p.1)).filter fun s => s.1 ≠ 0

/-- The pattern matches, none has more matches, and of those with as many none has a name that
sorts after its name. -/
structure IsIntent (p : String × Regex) : Prop where
  listed : p ∈ intentPatterns
  matched : 0 < patternCount rt message p.2
  maximal : ∀ q ∈ intentPatterns, patternCount rt message q.2 ≤ patternCount rt message p.2
  last : ∀ q ∈ intentPatterns, patternCount rt message q.2 = patternCount rt message p.2 →
    q.1 ≤ p.1

variable {rt message}

/-- The second score is the same, or it sorts after the first. -/
def NoLater (a b : ℕ × String) : Prop := a.1 < b.1 ∨ a.1 = b.1 ∧ a.2 ≤ b.2

theorem NoLater.refl (a : ℕ × String) : NoLater a a := .inr ⟨rfl, String.le_refl _⟩

theorem NoLater.trans {a b c : ℕ × String} (hab : NoLater a b) (hbc : NoLater b c) :
    NoLater a c := by
  obtain hlt | ⟨heq, hle⟩ := hab
  · obtain hlt' | ⟨heq', -⟩ := hbc
    · exact .inl (hlt.trans hlt')
    · exact .inl (heq' ▸ hlt)
  · obtain hlt' | ⟨heq', hle'⟩ := hbc
    · exact .inl (heq ▸ hlt')
    · exact .inr ⟨heq.trans heq', String.le_trans hle hle'⟩

theorem noLater_laterIntent_left (a b : ℕ × String) : NoLater a (laterIntent a b) := by
  unfold laterIntent
  split
  · next h => exact h.imp_right fun h' => ⟨h'.1, Std.le_of_lt h'.2⟩
  · exact NoLater.refl a

theorem noLater_laterIntent_right (a b : ℕ × String) : NoLater b (laterIntent a b) := by
  unfold laterIntent
  split
  · exact NoLater.refl b
  · next h =>
    rw [not_or, not_and, not_lt, String.not_lt] at h
    obtain hlt | heq := h.1.lt_or_eq
    · exact .inl hlt
    · exact .inr ⟨heq, h.2 heq.symm⟩

/-- No score sorts after the one that is left. -/
theorem noLater_foldl (s : ℕ × String) (l : List (ℕ × String)) :
    ∀ a ∈ s :: l, NoLater a (l.foldl laterIntent s) := by
  induction l generalizing s with
  | nil =>
    intro a ha
    rw [List.mem_singleton.1 ha]
    exact NoLater.refl s
  | cons b l ih =>
    intro a ha
    have hnext : NoLater (laterIntent s b) (l.foldl laterIntent (laterIntent s b)) :=
      ih _ _ (List.mem_cons_self ..)
    rw [List.mem_cons, List.mem_cons] at ha
    obtain rfl | rfl | ha := ha
    · exact (noLater_laterIntent_left a b).trans hnext
    · exact (noLater_laterIntent_right s a).trans hnext
    · exact ih _ a (List.mem_cons_of_mem _ ha)

theorem classifyIntent_eq : classifyIntent rt message =
    match scoredIntents rt message with
    | [] => none
    | s :: rest => some (rest.foldl laterIntent s).2 := rfl

theorem mem_scoredIntents {s : ℕ × String} : s ∈ scoredIntents rt message ↔
    s.1 ≠ 0 ∧ ∃ p ∈ intentPatterns, patternCount rt message p.2 = s.1 ∧ p.1 = s.2 := by
  simp only [scoredIntents, List.mem_filter, List.mem_map, decide_eq_true_eq]
  constructor
  · rintro ⟨⟨p, hp, rfl⟩, hne⟩
    exact ⟨hne, p, hp, rfl, rfl⟩
  · rintro ⟨hne, p, hp, hcount, hname⟩
    exact ⟨⟨p, hp, Prod.ext hcount hname⟩, hne⟩

/-- There is no intent when no pattern matches. -/
theorem classifyIntent_eq_none_iff : classifyIntent rt message = none ↔
    ∀ p ∈ intentPatterns, patternCount rt message p.2 = 0 := by
  rw [classifyIntent_eq]
  cases h : scoredIntents rt message with
  | nil =>
    refine iff_of_true rfl fun p hp => ?_
    by_contra hne
    have hmem : (patternCount rt message p.2, p.1) ∈ scoredIntents rt message :=
      mem_scoredIntents.2 ⟨hne, p, hp, rfl, rfl⟩
    rw [h] at hmem
    cases hmem
  | cons s rest =>
    refine iff_of_false (by simp) fun hzero => ?_
    have hs : s ∈ scoredIntents rt message := h ▸ List.mem_cons_self ..
    obtain ⟨hne, p, hp, hcount, -⟩ := mem_scoredIntents.1 hs
    exact hne (hcount ▸ hzero p hp)

/-- The intent that is found is one with the most matches, the last among equals. -/
theorem isIntent_of_classifyIntent {intent : String}
    (h : classifyIntent rt message = some intent) :
    ∃ pattern, IsIntent rt message (intent, pattern) := by
  rw [classifyIntent_eq] at h
  cases hscored : scoredIntents rt message with
  | nil =>
    rw [hscored] at h
    cases h
  | cons s rest =>
    rw [hscored] at h
    obtain rfl := Option.some.inj h
    have hbest : rest.foldl laterIntent s ∈ scoredIntents rt message := by
      rw [hscored, List.mem_cons]
      exact laterIntent_mem s
    obtain ⟨hne, p, hp, hcount, hname⟩ := mem_scoredIntents.1 hbest
    -- a pattern that matches is one of the scores, and one that does not is below them
    have horder : ∀ q ∈ intentPatterns, patternCount rt message q.2 = 0 ∨
        NoLater (patternCount rt message q.2, q.1) (rest.foldl laterIntent s) := by
      intro q hq
      by_cases hzero : patternCount rt message q.2 = 0
      · exact .inl hzero
      · refine .inr (noLater_foldl s rest _ ?_)
        rw [← hscored]
        exact mem_scoredIntents.2 ⟨hzero, q, hq, rfl, rfl⟩
    refine ⟨p.2, ?_, ?_, ?_, ?_⟩
    · rw [← hname]
      exact hp
    · rw [hcount]
      exact Nat.pos_of_ne_zero hne
    · intro q hq
      rw [hcount]
      obtain hzero | hlt | ⟨heq, -⟩ := horder q hq
      · rw [hzero]
        exact Nat.zero_le _
      · exact hlt.le
      · exact heq.le
    · intro q hq heq
      rw [hcount] at heq
      obtain hzero | hlt | ⟨-, hname'⟩ := horder q hq
      · exact absurd (heq.symm.trans hzero) hne
      · exact absurd heq hlt.ne
      · exact hname'

/-- Two patterns that qualify have the same name. -/
theorem IsIntent.name_eq {p q : String × Regex} (hp : IsIntent rt message p)
    (hq : IsIntent rt message q) : p.1 = q.1 := by
  have hcount : patternCount rt message p.2 = patternCount rt message q.2 :=
    le_antisymm (hq.maximal p hp.listed) (hp.maximal q hq.listed)
  exact String.le_antisymm (hq.last p hp.listed hcount) (hp.last q hq.listed hcount.symm)

/-- **The intent of a message.** -/
theorem classifyIntent_eq_some_iff {intent : String} :
    classifyIntent rt message = some intent ↔
      ∃ pattern, IsIntent rt message (intent, pattern) := by
  constructor
  · exact isIntent_of_classifyIntent
  · rintro ⟨pattern, hintent⟩
    cases h : classifyIntent rt message with
    | none =>
      have hzero := classifyIntent_eq_none_iff.1 h _ hintent.listed
      exact absurd hzero hintent.matched.ne'
    | some intent' =>
      obtain ⟨pattern', hintent'⟩ := isIntent_of_classifyIntent h
      exact congrArg some (hintent'.name_eq hintent)

/-- An intent of a message is not the empty string, which would count as no intent. -/
theorem classifyIntent_ne_empty {intent : String}
    (h : classifyIntent rt message = some intent) : intent ≠ "" := by
  rintro rfl
  exact absurd (classifyIntent_mem h) (by decide)

end Intents

/-! ## The agent that answers -/

namespace AgentRegistry

variable (reg : AgentRegistry)

/-- The first registered agent with the capability of the intent, or the customer support if
there is none. -/
def answerer (rt : PyRuntime) (message : String) : Option Agent :=
  match (classifyIntent rt message).bind fun intent =>
      reg.agents.find? fun a => a.capabilities.contains intent with
  | some a => some a
  | none => reg.getAgent "customer_support"

variable {reg} {rt : PyRuntime}

theorem head?_candidates (message : String) : (reg.candidates rt message).head? =
    (classifyIntent rt message).bind fun intent =>
      reg.agents.find? fun a => a.capabilities.contains intent := by
  unfold candidates
  cases classifyIntent rt message with
  | none => rfl
  | some intent => exact List.head?_filter

/-- The specialist of the supervisor is the agent that answers. -/
theorem specialist_eq_answerer (message : String) :
    reg.specialist rt message = reg.answerer rt message := by
  unfold specialist answerer
  rw [← head?_candidates]
  cases reg.candidates rt message <;> rfl

/-- Without a hint, `route` names the first candidate or defers to the supervisor. -/
theorem route_of_no_hint (inp : AgentInput) : reg.route rt inp none =
    match reg.candidates rt inp.message with
    | [] => "supervisor"
    | a :: _ => a.key := by
  unfold route candidates
  cases h : classifyIntent rt inp.message with
  | none => rfl
  | some intent =>
    cases hfind : reg.findByCapability intent <;>
      simp only [if_neg (classifyIntent_ne_empty h), hfind]

end AgentRegistry

/-- A registry with the supervisor and the customer support in it. -/
structure StaffedRegistry extends AgentRegistry where
  supervisor_mem : ∃ a ∈ agents, a.key = "supervisor"
  support_mem : ∃ a ∈ agents, a.key = "customer_support"

/-- The registry the platform starts with is one. -/
def staffedRegistry : StaffedRegistry where
  toAgentRegistry := agentRegistry
  supervisor_mem := by decide
  support_mem := by decide

namespace StaffedRegistry

variable (reg : StaffedRegistry)

theorem exists_support : ∃ a, reg.getAgent "customer_support" = some a := by
  obtain ⟨a, hmem, hkey⟩ := reg.support_mem
  exact ⟨a, hkey ▸ AgentRegistry.getAgent_key hmem⟩

theorem exists_supervisor : ∃ a, reg.getAgent "supervisor" = some a := by
  obtain ⟨a, hmem, hkey⟩ := reg.supervisor_mem
  exact ⟨a, hkey ▸ AgentRegistry.getAgent_key hmem⟩

/-- There is always an agent that answers. -/
theorem exists_answerer (rt : PyRuntime) (message : String) :
    ∃ a, reg.answerer rt message = some a := by
  unfold AgentRegistry.answerer
  split
  · next a _ => exact ⟨a, rfl⟩
  · exact reg.exists_support

end StaffedRegistry

/-! ## Delegation -/

/-- A supervisor, in a world, makes its answer from what the agent returned: nothing else that
agents do matters, what the agent raises is raised, and the answer names the agent. -/
structure DelegatesTo (site : (Agent → AgentInput → Run AgentResult) → Run AgentResult)
    (inp : AgentInput) (a : Agent) (w : World) : Prop where
  congr : ∀ behave behave', behave a inp w = behave' a inp w → site behave w = site behave' w
  raises : ∀ behave e, (behave a inp w).1 = .error e → (site behave w).1 = .error e
  names : ∀ behave result, (site behave w).1 = .ok result → result.delegatedTo = [a.key]

section Delegation

open StateGraph

variable {env : Env} {reg : AgentRegistry} {inp : AgentInput} {a : Agent}

/-- The supervisor runs its specialist, and then composes. -/
theorem invokeWith_eq (behave : Agent → AgentInput → Run AgentResult)
    (h : reg.specialist env.runtime inp.message = some a) :
    Supervisor.invokeWith behave env reg inp =
      behave a inp >>= Supervisor.answer env inp a := by
  unfold Supervisor.invokeWith
  rw [h]
  rfl

/-- Whoever composes an answer names the specialist. -/
theorem Supervisor.answer_names {result r : AgentResult} {w : World}
    (h : (Supervisor.answer env inp a result w).1 = .ok r) : r.delegatedTo = [a.key] := by
  have hnames : Ensures (fun _ => True) (Supervisor.answer env inp a result)
      fun r => r.delegatedTo = [a.key] := by
    refine Ensures.of_last fun response => ?_
    refine Ensures.of_last fun _ => ?_
    exact Ensures.pure rfl
  exact (hnames.of_ok trivial (Prod.ext h rfl)).1

theorem invokeWith_delegatesTo (h : reg.specialist env.runtime inp.message = some a) (w : World) :
    DelegatesTo (fun behave => Supervisor.invokeWith behave env reg inp) inp a w where
  congr behave behave' hsame := by
    rw [invokeWith_eq behave h, invokeWith_eq behave' h, Effect.bind_apply, Effect.bind_apply,
      hsame]
  raises behave e he := by
    rw [invokeWith_eq behave h, Effect.bind_of_error (Prod.ext he rfl)]
  names behave result hresult := by
    rw [invokeWith_eq behave h, Effect.bind_apply] at hresult
    cases hbehave : behave a inp w with
    | mk r v =>
      rw [hbehave] at hresult
      cases r with
      | error e => cases hresult
      | ok result' => exact Supervisor.answer_names hresult

/-- The last node of the graph does not write whom the message was delegated to. -/
theorem composeNode_delegatedTo {s u : AgentGraphState} {w : World}
    (h : (SupervisorNode.composeNode env s w).1 = .ok u) : u.delegatedTo = none := by
  have hnone : Ensures (fun _ => True) (SupervisorNode.composeNode env s)
      fun u => u.delegatedTo = none := by
    unfold SupervisorNode.composeNode
    refine Ensures.of_last fun inp => ?_
    refine Ensures.of_last fun response => ?_
    refine Ensures.of_last fun _ => ?_
    refine Ensures.of_last fun _ => ?_
    refine Ensures.of_last fun _ => ?_
    refine Ensures.of_last fun _ => ?_
    exact Ensures.pure rfl
  exact (hnone.of_ok trivial (Prod.ext h rfl)).1

/-- A run of the supervisor graph, by what its specialist does. -/
theorem invokeGraphWith_of_specialist (hguard : env.guard.guardInput inp.message = .ok ())
    (h : reg.specialist env.runtime inp.message = some a) (w : World)
    (behave : Agent → AgentInput → Run AgentResult) :
    Supervisor.invokeGraphWith behave env reg inp w =
      LangGraph.finished supervisorAgent inp
        (match behave a inp w with
          | (.error e, w') => ⟨.error e, routedState env reg inp (startState supervisorAgent inp
              (w.checkpoints supervisorAgent.key inp.correlationId) w), w'⟩
          | (.ok result, w') => composed (delegatedState env reg inp (startState supervisorAgent
              inp (w.checkpoints supervisorAgent.key inp.correlationId) w) a result)
            (SupervisorNode.composeNode env (delegatedState env reg inp (startState
              supervisorAgent inp (w.checkpoints supervisorAgent.key inp.correlationId) w) a
              result) w')) := by
  have hagent := (reg.getAgent_specialistKey env.runtime inp.message).trans h
  rw [invokeGraphWith_apply, show LangGraph.recursionLimit = 22 + 3 from rfl]
  exact congrArg _ (stepsWith_delegation startState_input hguard hagent)

theorem invokeGraphWith_delegatesTo (hguard : env.guard.guardInput inp.message = .ok ())
    (h : reg.specialist env.runtime inp.message = some a) (w : World) :
    DelegatesTo (fun behave => Supervisor.invokeGraphWith behave env reg inp) inp a w := by
  have hrun := invokeGraphWith_of_specialist hguard h w
  set start := startState supervisorAgent inp
    (w.checkpoints supervisorAgent.key inp.correlationId) w with hstart
  refine ⟨?_, ?_, ?_⟩
  · intro behave behave' hsame
    rw [hrun, hrun, hsame]
  · intro behave e he
    rw [hrun, show behave a inp w = (.error e, (behave a inp w).2) from Prod.ext he rfl]
    rfl
  · intro behave result hresult
    rw [hrun] at hresult
    cases hbehave : behave a inp w with
    | mk r v =>
      rw [hbehave] at hresult
      cases r with
      | error e => cases hresult
      | ok result' =>
        dsimp only at hresult
        cases hcompose : SupervisorNode.composeNode env
            (delegatedState env reg inp start a result') v with
        | mk r' v' =>
          rw [hcompose] at hresult
          cases r' with
          | error e => cases hresult
          | ok u =>
            obtain rfl := Except.ok.inj hresult
            have hnone := composeNode_delegatedTo (congrArg Prod.fst hcompose)
            simp [LangGraph.result, AgentGraphState.merge, hnone, delegatedState,
              delegationUpdate]

end Delegation

/-! ## The three places -/

/-- Wherever the agent for a message is picked, it is this one. -/
structure RoutesTo (env : Env) (reg : AgentRegistry) (inp : AgentInput) (a : Agent) : Prop where
  /-- `route` names it, unless it defers. -/
  direct : reg.route env.runtime inp none ≠ "supervisor" →
    reg.getAgent (reg.route env.runtime inp none) = some a
  /-- `route` defers only when it is the customer support, and to a supervisor that is there. -/
  deferred : reg.route env.runtime inp none = "supervisor" →
    a.key = "customer_support" ∧ ∃ s, reg.getAgent "supervisor" = some s
  /-- The supervisor delegates to it. -/
  supervisor : ∀ w, DelegatesTo (fun behave => Supervisor.invokeWith behave env reg inp) inp a w
  /-- So does the supervisor graph, on a message that it lets through. -/
  graph : env.guard.guardInput inp.message = .ok () → ∀ w,
    DelegatesTo (fun behave => Supervisor.invokeGraphWith behave env reg inp) inp a w
  /-- On any other message nobody answers. -/
  refused : ∀ e, env.guard.guardInput inp.message = .error e → ∀ behave w,
    (Supervisor.invokeGraphWith behave env reg inp w).1 = .error e
  /-- Whom the service invokes acts as it, under either orchestrator. -/
  service : ∃ agent, reg.getAgent (agentKeyOr (reg.route env.runtime inp none)) = some agent ∧
    (agent.path env reg).acting env inp = some a

section Sites

variable {env : Env} {inp : AgentInput} {a : Agent}

/-- A candidate that `route` names is not the supervisor, and it is the agent of its key. -/
theorem AgentRegistry.getAgent_candidate {reg : AgentRegistry} {rt : PyRuntime} {message : String}
    {rest : List Agent} (h : reg.candidates rt message = a :: rest) :
    reg.getAgent a.key = some a ∧ a.key ≠ "supervisor" := by
  have hmem : a ∈ reg.candidates rt message := h ▸ List.mem_cons_self ..
  have hkey := reg.specialistKey_ne rt message
  rw [specialistKey, h] at hkey
  exact ⟨getAgent_key (mem_candidates hmem).1, hkey⟩

/-- On the path of the supervisor, its specialist acts. -/
theorem acting_supervisor {reg : AgentRegistry} {agent : Agent} (hkey : agent.key = "supervisor") :
    (agent.path env reg).acting env inp = reg.specialist env.runtime inp.message := by
  unfold Agent.path
  cases env.settings.agentOrchestrator <;> simp only [if_pos hkey, ExecutionPath.acting]

/-- On the path of any other agent, the agent acts. -/
theorem acting_specialist {reg : AgentRegistry} {agent : Agent} (hkey : agent.key ≠ "supervisor") :
    (agent.path env reg).acting env inp = some agent := by
  unfold Agent.path
  cases env.settings.agentOrchestrator <;> simp only [if_neg hkey, ExecutionPath.acting]

/-- The service invokes the supervisor when it is deferred to. -/
theorem StaffedRegistry.acting_deferred (reg : StaffedRegistry) (env : Env) (inp : AgentInput) :
    ∃ agent, reg.getAgent "supervisor" = some agent ∧
      (agent.path env reg.toAgentRegistry).acting env inp =
        reg.specialist env.runtime inp.message := by
  obtain ⟨s, hs⟩ := reg.exists_supervisor
  exact ⟨s, hs, acting_supervisor (AgentRegistry.getAgent_mem hs).2⟩

/-- Whom `route` names acts, also when the key it names is empty and the service asks the
supervisor instead. -/
theorem StaffedRegistry.acting_named (reg : StaffedRegistry) {rest : List Agent}
    (h : reg.candidates env.runtime inp.message = a :: rest) :
    ∃ agent, reg.getAgent (agentKeyOr a.key) = some agent ∧
      (agent.path env reg.toAgentRegistry).acting env inp = some a := by
  obtain ⟨hget, hkey⟩ := AgentRegistry.getAgent_candidate h
  by_cases hempty : a.key = ""
  · rw [agentKeyOr, if_pos hempty]
    obtain ⟨s, hs, hacting⟩ := reg.acting_deferred env inp
    refine ⟨s, hs, hacting.trans ?_⟩
    rw [AgentRegistry.specialist, h]
  · rw [agentKeyOr, if_neg hempty]
    exact ⟨a, hget, acting_specialist hkey⟩

theorem StaffedRegistry.routesTo (reg : StaffedRegistry)
    (h : reg.specialist env.runtime inp.message = some a) :
    RoutesTo env reg.toAgentRegistry inp a where
  direct hne := by
    rw [AgentRegistry.route_of_no_hint] at hne ⊢
    cases hcandidates : reg.candidates env.runtime inp.message with
    | nil => simp [hcandidates] at hne
    | cons b rest =>
      rw [AgentRegistry.specialist, hcandidates] at h
      obtain rfl := Option.some.inj h
      exact (AgentRegistry.getAgent_candidate hcandidates).1
  deferred hroute := by
    rw [AgentRegistry.route_of_no_hint] at hroute
    cases hcandidates : reg.candidates env.runtime inp.message with
    | nil =>
      rw [AgentRegistry.specialist, hcandidates] at h
      exact ⟨(AgentRegistry.getAgent_mem h).2, reg.exists_supervisor⟩
    | cons b rest =>
      rw [hcandidates] at hroute
      exact absurd hroute (AgentRegistry.getAgent_candidate hcandidates).2
  supervisor := invokeWith_delegatesTo h
  graph hguard := invokeGraphWith_delegatesTo hguard h
  refused e he behave w := invokeGraphWith_of_refused he
  service := by
    rw [AgentRegistry.route_of_no_hint]
    cases hcandidates : reg.candidates env.runtime inp.message with
    | nil =>
      obtain ⟨s, hs, hacting⟩ := reg.acting_deferred env inp
      exact ⟨s, hs, hacting.trans h⟩
    | cons b rest =>
      rw [AgentRegistry.specialist, hcandidates] at h
      obtain rfl := Option.some.inj h
      exact reg.acting_named hcandidates

/-- **One specialist for a message.**  The intent is the one with the most matches, the last
name among equals, and there is none only when no pattern matches.  Without a hint, the first
registered agent with that capability answers, or the customer support if there is none,
wherever the choice is made. -/
theorem routing_sites_agree (env : Env) (reg : StaffedRegistry) (inp : AgentInput) :
    (∀ intent, classifyIntent env.runtime inp.message = some intent ↔
      ∃ pattern, IsIntent env.runtime inp.message (intent, pattern)) ∧
    (classifyIntent env.runtime inp.message = none ↔
      ∀ p ∈ intentPatterns, patternCount env.runtime inp.message p.2 = 0) ∧
    ∃ a, reg.answerer env.runtime inp.message = some a ∧
      RoutesTo env reg.toAgentRegistry inp a := by
  obtain ⟨a, ha⟩ := reg.exists_answerer env.runtime inp.message
  exact ⟨fun _ => classifyIntent_eq_some_iff, classifyIntent_eq_none_iff, a, ha,
    reg.routesTo ((AgentRegistry.specialist_eq_answerer _).trans ha)⟩

end Sites

end AgentPlatform
