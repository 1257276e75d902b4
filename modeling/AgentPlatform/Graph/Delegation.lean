import AgentPlatform.Graph.Follow
import AgentPlatform.Graph.Supervisor

/-!
# The supervisor graph, step by step

What the three supersteps of the supervisor graph do, on a world: the message is
checked and routed, the specialist runs, and the answer is composed from what it
returned.

* `act_route`, `act_invokeSpecialist` — the nodes.
* `stepsWith_delegation` — **the run**, whatever the specialists do, and `steps_delegation`,
  the run over the specialists as they are resolved.
-/

namespace AgentPlatform

open StateGraph

variable {env : Env} {reg : AgentRegistry} {inp : AgentInput} {s : AgentGraphState} {w : World}

/-! ## The nodes -/

section Nodes

variable {behave : Agent → AgentInput → Run AgentResult}

theorem act_route_of_refused {e : PyErr} (hinput : s.input = some inp)
    (hguard : env.guard.guardInput inp.message = .error e) :
    (supervisorGraphWith behave env reg).act .route s w = (.error e, w) := by
  show SupervisorNode.routeNode env reg s w = _
  simp only [SupervisorNode.routeNode, channel, hinput, hguard, Effect.bind_apply,
    Effect.pure_apply, Effect.ofExcept_apply]

/-- The update of a message that was routed. -/
def routeUpdate (env : Env) (reg : AgentRegistry) (inp : AgentInput) : AgentGraphState where
  specialistKey := some (reg.specialistKey env.runtime inp.message)

theorem act_route (hinput : s.input = some inp)
    (hguard : env.guard.guardInput inp.message = .ok ()) :
    (supervisorGraphWith behave env reg).act .route s w = (.ok (routeUpdate env reg inp), w) := by
  show SupervisorNode.routeNode env reg s w = _
  simp only [SupervisorNode.routeNode, channel, hinput, hguard, Effect.bind_apply,
    Effect.pure_apply, Effect.ofExcept_apply]
  rfl

/-- The update of a specialist that returned. -/
def delegationUpdate (specialist : Agent) (result : AgentResult) : AgentGraphState where
  delegatedTo := some [specialist.key]
  specialistReply := some result.reply
  specialistTools := some result.usedTools
  specialistOutputs := some result.toolOutputs
  decision := some result.decision
  needsHumanApproval := some result.needsHumanApproval

theorem act_invokeSpecialist {key : String} {specialist : Agent} (hinput : s.input = some inp)
    (hkey : s.specialistKey = some key) (hagent : reg.getAgent key = some specialist) :
    (supervisorGraphWith behave env reg).act .invokeSpecialist s w =
      match behave specialist inp w with
      | (.error e, w') => (.error e, w')
      | (.ok result, w') => (.ok (delegationUpdate specialist result), w') := by
  show SupervisorNode.invokeSpecialistWith behave reg s w = _
  simp only [SupervisorNode.invokeSpecialistWith, channel, hinput, hkey, hagent,
    Effect.bind_apply, Effect.pure_apply]
  cases behave specialist inp w with
  | mk r w' => cases r <;> rfl

theorem act_invokeSpecialist_of_none {key : String} (hinput : s.input = some inp)
    (hkey : s.specialistKey = some key) (hagent : reg.getAgent key = none) :
    (supervisorGraphWith behave env reg).act .invokeSpecialist s w =
      (.error (.runtimeError s!"specialist {key} not registered"), w) := by
  show SupervisorNode.invokeSpecialistWith behave reg s w = _
  simp only [SupervisorNode.invokeSpecialistWith, channel, hinput, hkey, hagent,
    Effect.bind_apply, Effect.pure_apply, Effect.raise_apply]

theorem next_route (t : AgentGraphState) :
    (supervisorGraphWith behave env reg).next .route t = some .invokeSpecialist := rfl

theorem next_invokeSpecialist (t : AgentGraphState) :
    (supervisorGraphWith behave env reg).next .invokeSpecialist t = some .compose := rfl

end Nodes

/-! ## The run -/

/-- The state after a message was routed. -/
def routedState (env : Env) (reg : AgentRegistry) (inp : AgentInput) (s : AgentGraphState) :
    AgentGraphState :=
  s.merge (routeUpdate env reg inp)

/-- The state the answer is composed from. -/
def delegatedState (env : Env) (reg : AgentRegistry) (inp : AgentInput) (s : AgentGraphState)
    (specialist : Agent) (result : AgentResult) : AgentGraphState :=
  (routedState env reg inp s).merge (delegationUpdate specialist result)

/-- How the run ends, after what the last node did on a state. -/
def composed (s : AgentGraphState) : Except PyErr AgentGraphState × World →
    Finish AgentGraphState World PyErr
  | (.error e, w) => ⟨.error e, s, w⟩
  | (.ok u, w) => ⟨.ok (s.merge u), s.merge u, w⟩

theorem composed_world (s : AgentGraphState) (x : Except PyErr AgentGraphState × World) :
    (composed s x).world = x.2 := by
  obtain ⟨r, w⟩ := x
  cases r <;> rfl

section StepsWith

variable {behave : Agent → AgentInput → Run AgentResult} {L : ℕ}

theorem stepsWith_route_of_refused {e : PyErr} (hinput : s.input = some inp)
    (hguard : env.guard.guardInput inp.message = .error e) :
    (supervisorGraphWith behave env reg).steps (L + 1) .route s w = ⟨.error e, s, w⟩ :=
  steps_error _ (act_route_of_refused hinput hguard)

theorem stepsWith_unregistered (hinput : s.input = some inp)
    (hguard : env.guard.guardInput inp.message = .ok ())
    (hagent : reg.getAgent (reg.specialistKey env.runtime inp.message) = none) :
    (supervisorGraphWith behave env reg).steps (L + 2) .route s w =
      ⟨.error (.runtimeError
        s!"specialist {reg.specialistKey env.runtime inp.message} not registered"),
        routedState env reg inp s, w⟩ := by
  have hinput' : (routedState env reg inp s).input = some inp := hinput
  rw [steps_next _ (act_route hinput hguard) (next_route _)]
  exact steps_error _ (act_invokeSpecialist_of_none hinput' rfl hagent)

/-- **The run of the supervisor graph**, whatever specialists do: the specialist runs in the
world the supervisor found, and the answer is composed in the world the specialist leaves. -/
theorem stepsWith_delegation {specialist : Agent} (hinput : s.input = some inp)
    (hguard : env.guard.guardInput inp.message = .ok ())
    (hagent : reg.getAgent (reg.specialistKey env.runtime inp.message) = some specialist) :
    (supervisorGraphWith behave env reg).steps (L + 3) .route s w =
      match behave specialist inp w with
      | (.error e, w') => ⟨.error e, routedState env reg inp s, w'⟩
      | (.ok result, w') =>
        composed (delegatedState env reg inp s specialist result)
          (SupervisorNode.composeNode env (delegatedState env reg inp s specialist result) w') := by
  rw [steps_next _ (act_route hinput hguard) (next_route _)]
  have hinput' : (routedState env reg inp s).input = some inp := hinput
  have hact : (supervisorGraphWith behave env reg).act .invokeSpecialist
      (routedState env reg inp s) w = _ :=
    act_invokeSpecialist hinput' rfl hagent
  cases hnested : behave specialist inp w with
  | mk r w' =>
    rw [hnested] at hact
    cases r with
    | error e => exact steps_error _ hact
    | ok result =>
      rw [show (supervisorGraphWith behave env reg).merge s (routeUpdate env reg inp) =
        routedState env reg inp s from rfl, steps_next _ hact (next_invokeSpecialist _)]
      have hcompose : ∀ t v, (supervisorGraphWith behave env reg).act .compose t v =
        SupervisorNode.composeNode env t v := fun _ _ => rfl
      cases hlast : SupervisorNode.composeNode env
          (delegatedState env reg inp s specialist result) w' with
      | mk r' w'' =>
        simp only [hlast]
        cases r' with
        | error e => exact steps_error _ ((hcompose _ _).trans hlast)
        | ok u => exact steps_end _ ((hcompose _ _).trans hlast) rfl

end StepsWith

/-- A message that is refused ends the run. -/
theorem steps_route_of_refused {e : PyErr} {L : ℕ} (hinput : s.input = some inp)
    (hguard : env.guard.guardInput inp.message = .error e) :
    (supervisorGraph env reg).steps (L + 1) .route s w = ⟨.error e, s, w⟩ := by
  rw [supervisorGraph_eq]
  exact stepsWith_route_of_refused hinput hguard

/-- A specialist that is not registered ends the run. -/
theorem steps_unregistered {L : ℕ} (hinput : s.input = some inp)
    (hguard : env.guard.guardInput inp.message = .ok ())
    (hagent : reg.getAgent (reg.specialistKey env.runtime inp.message) = none) :
    (supervisorGraph env reg).steps (L + 2) .route s w =
      ⟨.error (.runtimeError
        s!"specialist {reg.specialistKey env.runtime inp.message} not registered"),
        routedState env reg inp s, w⟩ := by
  rw [supervisorGraph_eq]
  exact stepsWith_unregistered hinput hguard hagent

/-- **The run of the supervisor graph** over the specialists as they are resolved. -/
theorem steps_delegation {specialist : Agent} {L : ℕ} (hinput : s.input = some inp)
    (hguard : env.guard.guardInput inp.message = .ok ())
    (hagent : reg.getAgent (reg.specialistKey env.runtime inp.message) = some specialist) :
    (supervisorGraph env reg).steps (L + 3) .route s w =
      match specialist.invokeResolved env inp w with
      | (.error e, w') => ⟨.error e, routedState env reg inp s, w'⟩
      | (.ok result, w') =>
        composed (delegatedState env reg inp s specialist result)
          (SupervisorNode.composeNode env (delegatedState env reg inp s specialist result) w') := by
  rw [supervisorGraph_eq]
  exact stepsWith_delegation hinput hguard hagent

/-- The supersteps of a run of the supervisor, from its start. -/
theorem Supervisor.invokeGraph_apply (w : World) :
    Supervisor.invokeGraph env reg inp w =
      LangGraph.finished supervisorAgent inp
        ((supervisorGraph env reg).steps LangGraph.recursionLimit .route
          (startState supervisorAgent inp
            (w.checkpoints supervisorAgent.key inp.correlationId) w) w) := rfl

theorem Supervisor.invokeGraph_of_refused {e : PyErr}
    (hguard : env.guard.guardInput inp.message = .error e) :
    Supervisor.invokeGraph env reg inp w = LangGraph.finished supervisorAgent inp
      ⟨.error e, startState supervisorAgent inp
        (w.checkpoints supervisorAgent.key inp.correlationId) w, w⟩ := by
  rw [Supervisor.invokeGraph_apply, show LangGraph.recursionLimit = 24 + 1 from rfl,
    steps_route_of_refused startState_input hguard]

end AgentPlatform
