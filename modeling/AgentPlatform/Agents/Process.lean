import AgentPlatform.Graph.State
import AgentPlatform.Lib.Effect
import AgentPlatform.Security.Guardrails
import AgentPlatform.Services.Audit
import AgentPlatform.Tools.Authz

/-!
# The process the agents run in

The `World` is the state of the process an agent can change: the conversations,
the token counts kept by the agents, the table of runs, the checkpoints of the
graphs, and a log of everything the agents did.  The `Env` is what they run
against: the interpreter, the detectors, the settings, a language model, the
tools and a database.

The model and the tools may answer as they like, in the light of everything that
was asked of them before: `complete` and `execute` are functions of the history.
-/

namespace AgentPlatform

/-! ## The world -/

/-- One call of `execute_tool`. -/
structure ToolInvocation where
  name : String
  ctx : ToolContext
  arguments : Dict

/-- What an agent does. -/
inductive Event where
  /-- A request to the model, and its response; `none` if the gateway gave up. -/
  | asked (request : LLMRequest) (answer : Option LLMResponse)
  /-- A tool call, and what became of it. -/
  | called (invocation : ToolInvocation) (execution : Execution)
  /-- A turn handed to the memory of an agent. -/
  | remembered (agentKey : String) (inp : AgentInput) (reply : String)
  /-- A run handed to the table of runs. -/
  | recorded (report : RunReport)

/-- The state of the process. -/
structure World where
  /-- The conversations, by agent. -/
  memory : String → AgentMemory
  /-- The token counts of the last response, by agent. -/
  lastUsage : String → Usage
  /-- The table of runs. -/
  runs : Journal AgentRun
  /-- The state a graph has saved for a thread, by agent and thread. -/
  checkpoints : String → String → AgentGraphState
  log : List Event

namespace Event

/-- The request of a request event. -/
def request? : Event → Option LLMRequest
  | asked request _ => some request
  | _ => none

/-- The invocation of a tool call. -/
def invocation? : Event → Option ToolInvocation
  | called invocation _ => some invocation
  | _ => none

end Event

/-- The requests in a log. -/
def requestsIn (log : List Event) : List LLMRequest := log.filterMap Event.request?

/-- The tool calls in a log. -/
def invocationsIn (log : List Event) : List ToolInvocation := log.filterMap Event.invocation?

@[simp] theorem requestsIn_append (l l' : List Event) :
    requestsIn (l ++ l') = requestsIn l ++ requestsIn l' := List.filterMap_append

@[simp] theorem invocationsIn_append (l l' : List Event) :
    invocationsIn (l ++ l') = invocationsIn l ++ invocationsIn l' := List.filterMap_append

namespace World

/-- A process that has just started. -/
def initial : World := ⟨fun _ => {}, fun _ => [], {}, fun _ _ => {}, []⟩

/-- The same world with another log. -/
def withLog (w : World) (log : List Event) : World := { w with log }

@[simp] theorem withLog_log (w : World) (log : List Event) : (w.withLog log).log = log := rfl

@[simp] theorem withLog_memory (w : World) (log : List Event) :
    (w.withLog log).memory = w.memory := rfl

@[simp] theorem withLog_runs (w : World) (log : List Event) : (w.withLog log).runs = w.runs := rfl

/-- One event more. -/
def push (w : World) (e : Event) : World := w.withLog (w.log ++ [e])

/-- From one world to a later one, every new event satisfies `p`. -/
def Since (p : Event → Prop) (w v : World) : Prop :=
  ∃ events, v.log = w.log ++ events ∧ ∀ e ∈ events, p e

theorem Since.refl {p : Event → Prop} {w : World} : Since p w w := ⟨[], by simp, by simp⟩

theorem Since.push {p : Event → Prop} {w v : World} (h : Since p w v) {e : Event} (he : p e) :
    Since p w (v.push e) := by
  obtain ⟨events, hlog, hevents⟩ := h
  refine ⟨events ++ [e], ?_, ?_⟩
  · show v.log ++ [e] = _
    rw [hlog, List.append_assoc]
  · intro e' he'
    rcases List.mem_append.1 he' with hold | hnew
    · exact hevents e' hold
    · rw [List.mem_singleton.1 hnew]
      exact he

theorem Since.mono {p q : Event → Prop} {w v : World} (h : Since p w v) (hpq : ∀ e, p e → q e) :
    Since q w v := by
  obtain ⟨events, hlog, hevents⟩ := h
  exact ⟨events, hlog, fun e he => hpq e (hevents e he)⟩

theorem Since.trans {p : Event → Prop} {w v u : World} (h : Since p w v) (h' : Since p v u) :
    Since p w u := by
  obtain ⟨events, hlog, hevents⟩ := h
  obtain ⟨events', hlog', hevents'⟩ := h'
  refine ⟨events ++ events', by rw [hlog', hlog, List.append_assoc], fun e he => ?_⟩
  rcases List.mem_append.1 he with hold | hnew
  · exact hevents e hold
  · exact hevents' e hnew

/-- What is in the log of a later world, after the log of an earlier one. -/
theorem Since.of_log {p : Event → Prop} {w v : World} (h : Since p w v) {l : List Event}
    (hl : w.log ++ l <+: v.log) : ∀ e ∈ l, p e := by
  obtain ⟨events, hlog, hevents⟩ := h
  rw [hlog, List.prefix_append_right_inj] at hl
  exact fun e he => hevents e (hl.subset he)

/-- What holds of all the new events holds of the later ones. -/
theorem Since.rest {p q : Event → Prop} {w v u : World} (h : Since p w u) (hwv : Since q w v)
    (hvu : Since q v u) : Since p v u := by
  obtain ⟨early, hearly, -⟩ := hwv
  obtain ⟨late, hlate, -⟩ := hvu
  have hlog : w.log ++ (early ++ late) = u.log := by rw [hlate, hearly, List.append_assoc]
  have hevents := h.of_log (l := early ++ late) (by rw [hlog])
  exact ⟨late, hlate, fun e he => hevents e (List.mem_append_right early he)⟩

end World

/-! ## The environment -/

/-- What the agents run against. -/
structure Env where
  runtime : PyRuntime
  guard : Guardrails
  settings : Settings
  /-- The model's response to the last of the requests; `none` if the gateway gives up. -/
  complete : List LLMRequest → Option LLMResponse
  /-- What becomes of a tool call, after the calls made before. -/
  execute : List ToolInvocation → ToolInvocation → Execution
  /-- Does the database take the row, when it is asked for the time of that number? -/
  commit : ℕ → Bool

/-- What an agent does to the process. -/
abbrev Run := Effect World PyErr

namespace Env

variable (env : Env)

/-- The response to a request, after a log. -/
def answer (log : List Event) (request : LLMRequest) : Option LLMResponse :=
  env.complete (requestsIn log ++ [request])

/-- Ask the model. -/
def ask (request : LLMRequest) : Run LLMResponse := fun w =>
  match env.answer w.log request with
  | none => (.error .retryError, w.push (.asked request none))
  | some response => (.ok response, w.push (.asked request (some response)))

/-- Call a tool. -/
def callTool (invocation : ToolInvocation) : Run Execution := fun w =>
  let execution := env.execute (invocationsIn w.log) invocation
  (.ok execution, w.push (.called invocation execution))

/-- Add a turn to the memory of an agent. -/
def remember (agentKey : String) (inp : AgentInput) (reply : String) : Run Unit := fun w =>
  let memory := Function.update w.memory agentKey ((w.memory agentKey).append inp reply)
  (.ok (), { w with memory }.push (.remembered agentKey inp reply))

/-- Keep the token counts of a response. -/
def recordTokens (agentKey : String) (usage : Usage) : Run Unit :=
  Effect.modify fun w => { w with lastUsage := Function.update w.lastUsage agentKey usage }

/-- Write a run to the table of runs. -/
def recordAgentRun (report : RunReport) : Run Unit := fun w =>
  if env.commit w.runs.asked then
    (.ok (), { w with runs := w.runs.taken (report.row env.runtime) }.push (.recorded report))
  else (.error .operationalError, { w with runs := w.runs.refused })

/-! ### Nothing is taken out of the log -/

variable {env} {l : List Event}

theorem ask_keeps_log (request : LLMRequest) : Keeps (fun w => l <+: w.log) (env.ask request) := by
  intro w hw
  unfold ask
  cases env.answer w.log request with
  | none => exact hw.trans (List.prefix_append _ _)
  | some response => exact hw.trans (List.prefix_append _ _)

theorem callTool_keeps_log (invocation : ToolInvocation) :
    Keeps (fun w => l <+: w.log) (env.callTool invocation) :=
  fun _ hw => hw.trans (List.prefix_append _ _)

theorem remember_keeps_log (agentKey : String) (inp : AgentInput) (reply : String) :
    Keeps (fun w => l <+: w.log) (remember agentKey inp reply) :=
  fun _ hw => hw.trans (List.prefix_append _ _)

theorem recordTokens_keeps_log (agentKey : String) (usage : Usage) :
    Keeps (fun w => l <+: w.log) (recordTokens agentKey usage) := fun _ hw => hw

theorem recordAgentRun_keeps_log (report : RunReport) :
    Keeps (fun w => l <+: w.log) (env.recordAgentRun report) := by
  intro w hw
  unfold recordAgentRun
  split
  · exact hw.trans (List.prefix_append _ _)
  · exact hw

end Env

end AgentPlatform
