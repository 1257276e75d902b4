import AgentPlatform.Graph.Paths

/-!
# Running an agent for a user

The service routes a message to an agent, runs it under the configured orchestrator, and
records the outcome.  A guardrail that raises is recorded as a denial; what else an agent raises
is neither caught nor recorded.

* `AgentRegistry.route`, `Agent.path` — who runs, and how.
* `runAgentForUser` — the service.
* `Accounted` — one audit row tells the outcome, and the rows of the call name every tool that
  ran.
* `accounted_iff` — **when a call is accounted for.**
-/

namespace AgentPlatform

/-! ## Routing -/

/-- `route`: the key of the agent to invoke. -/
def AgentRegistry.route (reg : AgentRegistry) (rt : PyRuntime) (inp : AgentInput)
    (hint : Option String) : String :=
  let intent := match hint with
    | none => classifyIntent rt inp.message
    | some hint => if hint = "" then classifyIntent rt inp.message else some hint
  match intent with
  | none => "supervisor"
  | some intent =>
    if intent = "" then "supervisor"
    else
      match reg.findByCapability intent with
      | [] => "supervisor"
      | agent :: _ => agent.key

/-- `agent_key or "supervisor"` -/
def agentKeyOr (key : String) : String := if key = "" then "supervisor" else key

/-- How the agent of a registry is run: the supervisor delegates, any other agent runs its loop,
each of them under the configured orchestrator. -/
def Agent.path (env : Env) (reg : AgentRegistry) (agent : Agent) : ExecutionPath :=
  match env.settings.agentOrchestrator with
  | .classic => if agent.key = "supervisor" then .supervisor reg else .specialist agent
  | .langgraph =>
    if agent.key = "supervisor" then .supervisorGraph reg else .specialistGraph agent

/-! ## The service -/

/-- What a user gets. -/
structure AgentAnswer where
  agent : String
  reply : String
  usedTools : List String
  delegatedTo : List String
  needsHumanApproval : Bool
  decision : Option Dict
  tokenUsage : Usage

/-- How a call fails. -/
inductive ServiceError where
  | agentExecution (message : String)
  /-- An exception of the agent that is not caught. -/
  | raised (e : PyErr)
  /-- The audit log could not be written. -/
  | database

/-- The text of an exception the service catches. -/
def PyErr.denied? (rt : PyRuntime) : PyErr → Option String
  | .guardrailError message => some (rt.strExc (.guardrailError message))
  | _ => none

/-- The row that is written of a call. -/
def AgentInput.audit (inp : AgentInput) (agent : Agent) (outcome : String) (detail : Dict) :
    AuditLog where
  tenantId := inp.tenantId
  correlationId := inp.correlationId
  actorType := "user"
  actorId := inp.userId
  action := "agent.invoke"
  resourceType := "agent"
  resourceId := agent.key
  outcome := outcome
  detail := detail

/-- What is recorded of a run that returned. -/
def AgentResult.auditDetail (agent : Agent) (result : AgentResult) : Dict :=
  [("agent", .str agent.key), ("used_tools", .arr (result.usedTools.map .str)),
    ("delegated_to", .arr (result.delegatedTo.map .str)),
    ("needs_human_approval", .bool result.needsHumanApproval)]

/-- What the service makes of a result. -/
def AgentResult.answer (agent : Agent) (result : AgentResult) : AgentAnswer where
  agent := agent.key
  reply := result.reply
  usedTools := result.usedTools
  delegatedTo := result.delegatedTo
  needsHumanApproval := result.needsHumanApproval
  decision := result.decision
  tokenUsage := result.tokenUsage

/-- `run_agent_for_user`; `takes` says which rows the audit log takes. -/
def runAgentForUser (env : Env) (reg : AgentRegistry) (takes : ℕ → Bool) (inp : AgentInput)
    (hint : Option String) : Effect (Audited World) ServiceError AgentAnswer :=
  let agentKey := reg.route env.runtime inp hint
  match reg.getAgent (agentKeyOr agentKey) with
  | none => Effect.raise (.agentExecution s!"agent {agentKey} not found")
  | some agent => do
    let ran ← attempt ((agent.path env reg).run env inp)
    match ran with
    | .error e =>
      match e.denied? env.runtime with
      | none => Effect.raise (.raised e)
      | some reason => do
        record env.runtime takes .database (inp.audit agent "denied" [("reason", .str reason)])
        Effect.raise (.agentExecution reason)
    | .ok result => do
      record env.runtime takes .database (inp.audit agent "success" (result.auditDetail agent))
      return result.answer agent

/-! ## Accounts -/

/-- The items of a list under a key. -/
def Dict.itemsAt (d : Dict) (key : String) : List Json :=
  match d.get? key with
  | some (.arr items) => items
  | _ => []

/-- The tools a row of the table of runs names. -/
def AgentRun.tools (run : AgentRun) : List Json := run.outputSchema.itemsAt "tools"

/-- The tools a row of the audit log names. -/
def AuditLog.usedTools (row : AuditLog) : List Json := row.detail.itemsAt "used_tools"

/-- The tool whose body ran. -/
def Event.ranTool? : Event → Option String
  | .called invocation execution => if execution.bodyRan then some invocation.name else none
  | _ => none

/-- A tool whose body ran is named. -/
def Event.RanNamed (names : List Json) (e : Event) : Prop :=
  ∀ name, e.ranTool? = some name → .str name ∈ names

/-- A call is accounted for: one audit row was written, which says whether the call returned,
and the new rows name every tool whose body ran. -/
def Accounted (w : Audited World) (call : Except ServiceError AgentAnswer × Audited World) :
    Prop :=
  ∃ row runs, call.2.audits.rows = w.audits.rows ++ [row] ∧
    call.2.world.runs.rows = w.world.runs.rows ++ runs ∧
    row.action = "agent.invoke" ∧
    (row.outcome = "success" ↔ ∃ answer, call.1 = .ok answer) ∧
    w.world.Since (Event.RanNamed (runs.flatMap AgentRun.tools ++ row.usedTools)) call.2.world

section Rows

variable {rt : PyRuntime} {e : Event} {names : List String}

theorem Event.NamedIn.ranNamed (h : e.NamedIn names) {items : List Json}
    (hsub : names.map Json.str ⊆ items) : e.RanNamed items := by
  intro name hran
  cases e with
  | called invocation execution =>
    have hname : invocation.name = name := by
      cases hbody : execution.bodyRan with
      | false => simp [Event.ranTool?, hbody] at hran
      | true => simpa [Event.ranTool?, hbody] using hran
    exact hsub (List.mem_map.2 ⟨name, hname ▸ h, rfl⟩)
  | asked request answer => cases hran
  | remembered agentKey inp reply => cases hran
  | recorded report => cases hran

theorem Event.ranNamed_nil_iff : e.RanNamed [] ↔ e.ranTool? = none := by
  unfold Event.RanNamed
  cases e.ranTool? with
  | none => simp
  | some name => simp

/-- Texts in a list are left as they are. -/
theorem maskItems_strings (names : List String) :
    maskItems rt (names.map .str) = names.map .str := by
  induction names with
  | nil => rfl
  | cons name names ih => simp [maskItems, ih]

/-- The row of a run names the tools it used. -/
theorem RunReport.tools_row (hlower : rt.LowersAscii) (report : RunReport) :
    (report.row rt).tools = report.usedTools.map .str := by
  have hkey : isSensitive rt "tools" = false := by
    rw [isSensitive, hlower "tools" (by simp)]
    decide
  have hget : Dict.get? (maskPayload rt report.outputSchema) "tools" =
      some (.arr (report.usedTools.map .str)) := by
    rw [get?_maskPayload]
    simp [RunReport.outputSchema, Dict.get?_cons, hkey, maskValue, maskItems_strings]
  show Dict.itemsAt (maskPayload rt report.outputSchema) "tools" = _
  rw [Dict.itemsAt, hget]

/-- The row of a denial names no tool. -/
theorem usedTools_of_denied (inp : AgentInput) (agent : Agent) (outcome reason : String) :
    ((inp.audit agent outcome [("reason", .str reason)]).masked rt).usedTools = [] := by
  have hget : Dict.get? (maskPayload rt [("reason", .str reason)]) "used_tools" = none := by
    rw [get?_maskPayload]
    rfl
  show Dict.itemsAt (maskPayload rt [("reason", .str reason)]) "used_tools" = _
  rw [Dict.itemsAt, hget]

end Rows

/-! ## What a call leaves -/

section Calls

variable {env : Env} {reg : AgentRegistry} {takes : ℕ → Bool} {inp : AgentInput}
  {hint : Option String} {w : Audited World} {agent : Agent} {v : World}

/-- A run that returned is answered if it can be recorded. -/
theorem runAgentForUser_of_ok {result : AgentResult}
    (hagent : reg.getAgent (agentKeyOr (reg.route env.runtime inp hint)) = some agent)
    (hrun : (agent.path env reg).run env inp w.world = (.ok result, v)) :
    runAgentForUser env reg takes inp hint w =
      if takes w.audits.asked then
        (.ok (result.answer agent), ⟨v, w.audits.taken
          ((inp.audit agent "success" (result.auditDetail agent)).masked env.runtime)⟩)
      else (.error .database, ⟨v, w.audits.refused⟩) := by
  rw [runAgentForUser, hagent]
  dsimp only
  rw [bind_attempt hrun]
  dsimp only
  rw [bind_record]
  rfl

/-- A run that a guardrail ended is a denial. -/
theorem runAgentForUser_of_denied {e : PyErr} {reason : String}
    (hagent : reg.getAgent (agentKeyOr (reg.route env.runtime inp hint)) = some agent)
    (hrun : (agent.path env reg).run env inp w.world = (.error e, v))
    (hreason : e.denied? env.runtime = some reason) :
    runAgentForUser env reg takes inp hint w =
      if takes w.audits.asked then
        (.error (.agentExecution reason), ⟨v, w.audits.taken
          ((inp.audit agent "denied" [("reason", .str reason)]).masked env.runtime)⟩)
      else (.error .database, ⟨v, w.audits.refused⟩) := by
  rw [runAgentForUser, hagent]
  dsimp only
  rw [bind_attempt hrun]
  dsimp only
  rw [hreason]
  dsimp only
  rw [bind_record]
  rfl

/-- What else ended a run goes unrecorded. -/
theorem runAgentForUser_of_raised {e : PyErr}
    (hagent : reg.getAgent (agentKeyOr (reg.route env.runtime inp hint)) = some agent)
    (hrun : (agent.path env reg).run env inp w.world = (.error e, v))
    (huncaught : e.denied? env.runtime = none) :
    runAgentForUser env reg takes inp hint w = (.error (.raised e), ⟨v, w.audits⟩) := by
  rw [runAgentForUser, hagent]
  dsimp only
  rw [bind_attempt hrun]
  dsimp only
  rw [huncaught]
  rfl

/-- Without a row, a call is not accounted for. -/
theorem not_accounted {call : Except ServiceError AgentAnswer × Audited World}
    (h : call.2.audits.rows = w.audits.rows) : ¬ Accounted w call := by
  rintro ⟨row, runs, haudits, -⟩
  rw [h] at haudits
  simp at haudits

end Calls

/-! ## When a call is accounted for -/

section Accounts

variable {env : Env} {inp : AgentInput} {w : World} {path : ExecutionPath}

/-- Once the loop has returned, its row names every tool that ran on the path. -/
theorem ExecutionPath.ranNamed_of_loop (hlower : env.runtime.LowersAscii) {r : AgentResult}
    (hloop : (path.loop env inp w).1 = .ok r) (items : List Json) :
    ∃ runs, (path.run env inp w).2.runs.rows = w.runs.rows ++ runs ∧
      w.Since (Event.RanNamed (runs.flatMap AgentRun.tools ++ items)) (path.run env inp w).2 := by
  have hafter := path.run_after env inp w
  have hleft : path.loop env inp w = (.ok r, (path.loop env inp w).2) := Prod.ext hloop rfl
  obtain ⟨agent, -, hrecorded⟩ := Triple.of_ok path.loop_recorded rfl hleft
  obtain ⟨used, hrun, hsince⟩ := hrecorded.run
  obtain ⟨report, rfl, hruns⟩ := hrun.row
  obtain ⟨rows, hrows⟩ := hafter.rows
  refine ⟨report.row env.runtime :: rows, ?_, ?_⟩
  · rw [hrows, hruns, Journal.taken_rows, List.append_assoc]
    rfl
  · have hnamed : w.Since (Event.NamedIn report.usedTools) (path.run env inp w).2 :=
      hsince.trans (hafter.uncalled.mono fun _ he => he.namedIn _)
    refine hnamed.mono fun e he => he.ranNamed ?_
    rw [List.flatMap_cons, report.tools_row hlower, List.append_assoc]
    exact List.subset_append_left _ _

/-- A loop that raised has recorded nothing, and neither has the path. -/
theorem ExecutionPath.runs_of_loop_error {e : PyErr}
    (hloop : (path.loop env inp w).1 = .error e) :
    (path.run env inp w).2.runs.rows = w.runs.rows := by
  have hleft : path.loop env inp w = (.error e, (path.loop env inp w).2) := Prod.ext hloop rfl
  have hruns : (path.loop env inp w).2.runs.rows = w.runs.rows :=
    Triple.of_error path.loop_recorded rfl hleft
  exact ((path.run_after env inp w).of_error e hloop).trans hruns

/-- A denial is accounted for if the loop has been recorded, or no tool has run. -/
theorem accounted_denied_iff (hlower : env.runtime.LowersAscii) {audits : Journal AuditLog}
    {e : PyErr} {v : World} (hrun : path.run env inp w = (.error e, v)) (agent : Agent)
    (failure : ServiceError) (reason : String) :
    Accounted ⟨w, audits⟩ (.error failure, ⟨v, audits.taken
        ((inp.audit agent "denied" [("reason", .str reason)]).masked env.runtime)⟩) ↔
      (∃ r, (path.loop env inp w).1 = .ok r) ∨ w.Since (fun e => e.ranTool? = none) v := by
  set row := (inp.audit agent "denied" [("reason", .str reason)]).masked env.runtime with hrow
  have houtcome : row.outcome = "denied" := rfl
  have hdenied : row.outcome = "success" ↔ ∃ answer : AgentAnswer,
      (.error failure : Except ServiceError AgentAnswer) = .ok answer :=
    iff_of_false (by rw [houtcome]; decide) (by simp)
  have hnames : row.usedTools = [] := usedTools_of_denied inp agent "denied" reason
  obtain ⟨loop, hloop⟩ : ∃ loop, (path.loop env inp w).1 = loop := ⟨_, rfl⟩
  cases loop with
  | ok r =>
    refine iff_of_true ?_ (Or.inl ⟨r, hloop⟩)
    obtain ⟨runs, hruns, hsince⟩ := path.ranNamed_of_loop hlower hloop row.usedTools
    rw [hrun] at hruns hsince
    exact ⟨row, runs, rfl, hruns, rfl, hdenied, hsince⟩
  | error e' =>
    have hsame : v.runs.rows = w.runs.rows := by
      have hruns := path.runs_of_loop_error hloop
      rwa [hrun] at hruns
    rw [hloop]
    constructor
    · rintro ⟨row', runs, haudits, hruns, -, -, hsince⟩
      obtain rfl : row = row' := by simpa using haudits
      obtain rfl : runs = [] := by
        have happend : w.runs.rows ++ runs = w.runs.rows := hruns.symm.trans hsame
        simpa using happend
      rw [hnames] at hsince
      exact Or.inr (hsince.mono fun _ he => Event.ranNamed_nil_iff.1 he)
    · rintro (⟨r, hr⟩ | hidle)
      · cases hr
      · refine ⟨row, [], rfl, by simpa using hsame, rfl, hdenied, ?_⟩
        rw [hnames]
        exact hidle.mono fun _ he => Event.ranNamed_nil_iff.2 he

end Accounts

/-- **When a call is accounted for**: the audit log takes the row, and the agent returns, or a
guardrail raises before the body of any tool has run or after the loop has been recorded. -/
theorem accounted_iff (env : Env) (hlower : env.runtime.LowersAscii) (reg : AgentRegistry)
    (takes : ℕ → Bool) (inp : AgentInput) (hint : Option String) (w : Audited World)
    (agent : Agent)
    (hagent : reg.getAgent (agentKeyOr (reg.route env.runtime inp hint)) = some agent) :
    Accounted w (runAgentForUser env reg takes inp hint w) ↔
      takes w.audits.asked = true ∧
        ((∃ result, ((agent.path env reg).run env inp w.world).1 = .ok result) ∨
          (∃ message, ((agent.path env reg).run env inp w.world).1 =
            .error (.guardrailError message)) ∧
          ((∃ result, ((agent.path env reg).loop env inp w.world).1 = .ok result) ∨
            w.world.Since (fun e => e.ranTool? = none)
              ((agent.path env reg).run env inp w.world).2)) := by
  set path := agent.path env reg with hpath
  obtain ⟨r, v, hrun⟩ : ∃ r v, path.run env inp w.world = (r, v) := ⟨_, _, rfl⟩
  have hafter := path.run_after env inp w.world
  rw [hrun]
  cases r with
  | ok result =>
    rw [runAgentForUser_of_ok hagent hrun]
    cases htake : takes w.audits.asked with
    | false => exact iff_of_false (not_accounted rfl) (by simp)
    | true =>
      refine iff_of_true ?_ ⟨rfl, Or.inl ⟨result, rfl⟩⟩
      obtain ⟨r, hloop, -⟩ := hafter.of_ok result (by rw [hrun])
      obtain ⟨runs, hruns, hsince⟩ := path.ranNamed_of_loop hlower hloop
        ((inp.audit agent "success" (result.auditDetail agent)).masked env.runtime).usedTools
      rw [hrun] at hruns hsince
      exact ⟨_, runs, rfl, hruns, rfl, iff_of_true rfl ⟨_, rfl⟩, hsince⟩
  | error e =>
    cases hdenied : e.denied? env.runtime with
    | none =>
      rw [runAgentForUser_of_raised hagent hrun hdenied]
      refine iff_of_false (not_accounted rfl) ?_
      rintro ⟨-, ⟨result, hresult⟩ | ⟨⟨message, hmessage⟩, -⟩⟩
      · cases hresult
      · obtain rfl := Except.error.inj hmessage
        cases hdenied
    | some reason =>
      rw [runAgentForUser_of_denied hagent hrun hdenied]
      cases htake : takes w.audits.asked with
      | false => exact iff_of_false (not_accounted rfl) (by simp)
      | true =>
        obtain ⟨message, rfl⟩ : ∃ message, e = .guardrailError message := by
          cases e with
          | guardrailError message => exact ⟨message, rfl⟩
          | _ => cases hdenied
        rw [if_pos rfl, accounted_denied_iff hlower hrun]
        simp

/-- A call for support that looks up a profile and returns. -/
theorem support_call_accounted :
    Accounted ⟨World.initial, {}⟩ (runAgentForUser (demoEnv (callsOnce [profileCall])) agentRegistry
      (fun _ => true) demoInput (some "support") ⟨World.initial, {}⟩) :=
  (accounted_iff (demoEnv (callsOnce [profileCall])) PyRuntime.ascii_lowersAscii agentRegistry
    (fun _ => true) demoInput (some "support") ⟨World.initial, {}⟩ customerSupportAgent rfl).2
    ⟨rfl, Or.inl ⟨_, rfl⟩⟩

/-- A model that asks for a tool, and then does not answer. -/
def callsThenFails (calls : List ToolCall) (requests : List LLMRequest) : Option LLMResponse :=
  if requests.length = 1 then some (asksFor calls) else none

/-- The provider gives up after a profile was looked up: nothing is recorded. -/
theorem profile_lookup_unaccounted :
    let call := runAgentForUser (demoEnv (callsThenFails [profileCall])) agentRegistry
      (fun _ => true) demoInput (some "support") ⟨World.initial, {}⟩
    ¬ Accounted ⟨World.initial, {}⟩ call ∧ call.2.audits.rows = [] ∧ call.2.world.runs.rows = [] ∧
      call.2.world.log.filterMap Event.ranTool? = ["get_customer_profile"] := by
  have haudits : (runAgentForUser (demoEnv (callsThenFails [profileCall])) agentRegistry
      (fun _ => true) demoInput (some "support") ⟨World.initial, {}⟩).2.audits.rows = [] := rfl
  exact ⟨not_accounted haudits, haudits, rfl, by decide⟩

end AgentPlatform
