import AgentPlatform.Api.Chats

/-!
# One id for a request

A middleware reads the correlation id of a request, or makes one, and sends it back with the
response.  The chat endpoint reads the header again and makes an id of its own where there is
none; the upload of a document makes an id of its own for its audit row, whatever the header.

* `dispatch` — the middleware, around the rest of the application.
* `World.RowsOf`, `run_rowsOf` — every row of a run, on every path, is of the input of the run.
* `serveChat`, `serveUpload` — a request to one of the two endpoints.
* `chat_agrees_iff`, `upload_agrees_iff` — **when a request has one id.**
* `correlation_agrees_iff` — both.
-/

namespace AgentPlatform

/-! ## The middleware -/

/-- What is sent back, with the id in its header; what the application does not answer passes
the middleware, and gets no header. -/
structure TracedReply (E R : Type) where
  result : Except E R
  correlationHeader : Option String

/-- `CorrelationMiddleware.dispatch`, with a new id; `answered` are the exceptions the application
makes responses of. -/
def dispatch {W E R : Type} (answered : E → Bool) (header : Option String) (uuid : String)
    (callNext : Effect W E R) (w : W) : TracedReply E R × W :=
  let correlationId := orElse header uuid
  match callNext w with
  | (.error e, w') => (⟨.error e, if answered e then some correlationId else none⟩, w')
  | (.ok r, w') => (⟨.ok r, some correlationId⟩, w')

def ApiError.isAnswered : ApiError → Bool
  | .http _ _ => true
  | .uncaught _ => false

def UploadError.isAnswered : UploadError → Bool
  | .http _ _ => true
  | _ => false

section Dispatch

variable {W E R : Type} {answered : E → Bool} {header : Option String} {uuid : String}
  {callNext : Effect W E R} {w : W}

theorem dispatch_world : (dispatch answered header uuid callNext w).2 = (callNext w).2 := by
  unfold dispatch
  cases callNext w with
  | mk r w' => cases r <;> rfl

theorem dispatch_result : (dispatch answered header uuid callNext w).1.result = (callNext w).1 := by
  unfold dispatch
  cases callNext w with
  | mk r w' => cases r <;> rfl

/-- The header is the id of the middleware, if there is a response. -/
theorem correlationHeader_iff {id : String} :
    (dispatch answered header uuid callNext w).1.correlationHeader = some id ↔
      (∀ e, (callNext w).1 = .error e → answered e = true) ∧ id = orElse header uuid := by
  unfold dispatch
  cases callNext w with
  | mk r w' =>
    cases r with
    | ok r =>
      dsimp only
      rw [Option.some.injEq, eq_comm (a := orElse header uuid)]
      exact (and_iff_right fun e he => by cases he).symm
    | error e =>
      have hanswered : (∀ e', (.error e : Except E R) = .error e' → answered e' = true) ↔
          answered e = true := by
        constructor
        · exact fun h => h e rfl
        · rintro h _ ⟨⟩
          exact h
      dsimp only
      rw [hanswered]
      cases answered e with
      | true =>
        rw [if_pos rfl, Option.some.injEq, eq_comm (a := orElse header uuid)]
        exact (and_iff_right rfl).symm
      | false => simp

end Dispatch

/-- Two ids are the same: both are the header's, or both new ones are. -/
theorem orElse_eq_orElse_iff {header : Option String} {a b : String} :
    orElse header a = orElse header b ↔ header.getD "" ≠ "" ∨ a = b := by
  unfold orElse
  cases header with
  | none => simp
  | some s =>
    dsimp only [Option.getD_some]
    by_cases h : s = ""
    · simp [h]
    · simp [h]

/-! ## The rows of a run -/

/-- The rows since the world `w` are of runs of the input. -/
def World.RowsOf (rt : PyRuntime) (inp : AgentInput) (w v : World) : Prop :=
  ∃ reports : List RunReport, v.runs.rows = w.runs.rows ++ reports.map (RunReport.row rt) ∧
    ∀ report ∈ reports, report.inp = inp

section Rows

variable {env : Env} {inp : AgentInput} {w : World}

theorem World.RowsOf.refl : World.RowsOf env.runtime inp w w := ⟨[], by simp, by simp⟩

theorem World.RowsOf.of_runs {v u : World} (h : World.RowsOf env.runtime inp w v)
    (hruns : u.runs.rows = v.runs.rows) : World.RowsOf env.runtime inp w u := by
  obtain ⟨reports, hv, hinp⟩ := h
  exact ⟨reports, hruns.trans hv, hinp⟩

theorem ask_rowsOf (request : LLMRequest) :
    Keeps (World.RowsOf env.runtime inp w) (env.ask request) := by
  intro v hv
  unfold Env.ask
  cases env.answer v.log request with
  | none => exact hv.of_runs rfl
  | some response => exact hv.of_runs rfl

theorem persistRun_rowsOf (agent : Agent) (used : List String) (outputs : List ToolOutput)
    (reply : String) :
    Keeps (World.RowsOf env.runtime inp w) (agent.persistRun env inp used outputs reply) := by
  refine Keeps.bind Keeps.get fun opened v hv => ?_
  unfold Env.recordAgentRun
  split
  · obtain ⟨reports, hruns, hinp⟩ := hv
    refine ⟨reports ++ [agent.report inp used outputs reply opened], ?_, ?_⟩
    · show v.runs.rows ++ _ = _
      rw [hruns, List.map_append, List.append_assoc]
      rfl
    · intro report hreport
      rcases List.mem_append.1 hreport with hold | hnew
      · exact hinp report hold
      · rw [List.mem_singleton.1 hnew]
        rfl
  · exact hv

theorem runKeeps_rowsOf (agent : Agent) :
    agent.RunKeeps env inp (World.RowsOf env.runtime inp w) where
  ask _ := ask_rowsOf _
  call _ _ hv := hv.of_runs rfl
  tokens _ _ hv := hv.of_runs rfl
  remember _ _ hv := hv.of_runs rfl
  persist := persistRun_rowsOf agent

theorem composeNode_rowsOf {s : AgentGraphState} (hinput : s.input = some inp) :
    Keeps (World.RowsOf env.runtime inp w) (SupervisorNode.composeNode env s) := by
  intro v hv
  unfold SupervisorNode.composeNode
  rw [hinput, channel_bind]
  refine Keeps.bind (ask_rowsOf _) (fun response => ?_) v hv
  refine Keeps.bind (Keeps.ofExcept _) fun _ => ?_
  refine Keeps.bind (fun _ hu => hu.of_runs rfl) fun _ => ?_
  refine Keeps.bind (persistRun_rowsOf _ _ _ _) fun _ => ?_
  exact Keeps.bind (fun _ hu => hu.of_runs rfl) fun _ => Keeps.pure _

/-- **Every row of a run is of the input of the run**, on every path. -/
theorem ExecutionPath.run_rowsOf (path : ExecutionPath) (env : Env) (inp : AgentInput)
    (w : World) : World.RowsOf env.runtime inp w (path.run env inp w).2 := by
  have hloop : World.RowsOf env.runtime inp w (path.loop env inp w).2 :=
    path.loop_keeps (fun agent => runKeeps_rowsOf agent) (fun _ _ _ _ hv => hv.of_runs rfl) w
      World.RowsOf.refl
  cases path with
  | specialist agent => exact hloop
  | specialistGraph agent => exact hloop
  | supervisor reg =>
    rcases supervisor_cases env inp reg w with ⟨e, e', -, -, huntouched⟩ |
      ⟨agent, result, v, -, hreturned, hrun⟩
    · exact hloop.of_runs (congrArg Journal.rows huntouched.runs)
    · rw [hreturned] at hloop
      rw [hrun]
      refine Keeps.bind (ask_rowsOf _) (fun response => ?_) v hloop
      exact Keeps.bind (Keeps.ofExcept _) fun _ => Keeps.pure _
  | supervisorGraph reg =>
    rcases supervisorGraph_cases reg w with ⟨e, e', -, -, huntouched⟩ |
      ⟨s, agent, result, v, hreturned, hinput, hrun⟩
    · exact hloop.of_runs (congrArg Journal.rows huntouched.runs)
    · rw [hreturned] at hloop
      rw [hrun]
      have hcompose := @composeNode_rowsOf env inp w (delegatedState env reg inp s agent result)
        hinput v hloop
      refine hcompose.of_runs ?_
      show (composed _ _).world.runs.rows = _
      rw [composed_world]

end Rows

/-! ## The chat endpoint -/

/-- The ids that are made for a request to the chat endpoint, where it brings none. -/
structure ChatIds where
  middleware : String
  conversation : String
  correlation : String

/-- A request to the chat endpoint: the middlewares and the dependencies refuse it, or they find
a message of a principal. -/
def serveChat (env : Env) (reg : AgentRegistry) (takes : ℕ → Bool) (header : Option String)
    (ids : ChatIds) (admitted : Except ApiError (ChatRequest × Principal)) :
    Audited World → TracedReply ApiError ChatResponse × Audited World :=
  dispatch ApiError.isAnswered header ids.middleware (do
    let request ← Effect.ofExcept admitted
    chat env reg takes header ids.conversation ids.correlation request.1 request.2)

/-- Every row that is written is under the id that is sent back. -/
def ChatAgrees (w : Audited World) (served : TracedReply ApiError ChatResponse × Audited World) :
    Prop :=
  ∃ audits runs, served.2.audits.rows = w.audits.rows ++ audits ∧
    served.2.world.runs.rows = w.world.runs.rows ++ runs ∧
    (∀ row ∈ audits, served.1.correlationHeader = some row.correlationId) ∧
    ∀ run ∈ runs, served.1.correlationHeader = some run.runId

/-- What the agents are asked for a request. -/
def ChatIds.input (ids : ChatIds) (header : Option String) (body : ChatRequest)
    (principal : Principal) : AgentInput :=
  body.input principal (orElse header ids.correlation)
    (orElse body.conversationId ids.conversation)

section Service

variable (env : Env) (reg : AgentRegistry) (takes : ℕ → Bool) (inp : AgentInput)
  (hint : Option String) (w : Audited World)

/-- An agent is found, and a row is written: its loop returns, or a guardrail ends the run and the
audit log takes the denial. -/
def Writes : Prop :=
  ∃ agent, reg.getAgent (agentKeyOr (reg.route env.runtime inp hint)) = some agent ∧
    ((∃ result, ((agent.path env reg).loop env inp w.world).1 = .ok result) ∨
      (∃ message, ((agent.path env reg).run env inp w.world).1 = .error (.guardrailError message)) ∧
        takes w.audits.asked = true)

/-- The call is answered: the run returns or a guardrail ends it, and the audit log takes it. -/
def Answers : Prop :=
  ∃ agent, reg.getAgent (agentKeyOr (reg.route env.runtime inp hint)) = some agent ∧
    ((∃ result, ((agent.path env reg).run env inp w.world).1 = .ok result) ∨
      ∃ message, ((agent.path env reg).run env inp w.world).1 = .error (.guardrailError message)) ∧
    takes w.audits.asked = true

/-- What a call of the service writes, and whether it is answered. -/
structure Traced (call : Except ServiceError AgentAnswer × Audited World) : Prop where
  rows : ∃ audits runs, call.2.audits.rows = w.audits.rows ++ audits ∧
    call.2.world.runs.rows = w.world.runs.rows ++ runs ∧
    (∀ row ∈ audits, row.correlationId = inp.correlationId) ∧
    (∀ run ∈ runs, run.runId = inp.correlationId) ∧
    ((audits = [] ∧ runs = []) ↔ ¬ Writes env reg takes inp hint w)
  answered : Writes env reg takes inp hint w →
    ((∀ e, call.1 = .error e → e.answered.isAnswered = true) ↔ Answers env reg takes inp hint w)

variable {env reg takes inp hint w} {agent : Agent}

variable (takes w) in
theorem writes_iff
    (hagent : reg.getAgent (agentKeyOr (reg.route env.runtime inp hint)) = some agent) :
    Writes env reg takes inp hint w ↔
      (∃ result, ((agent.path env reg).loop env inp w.world).1 = .ok result) ∨
      (∃ message, ((agent.path env reg).run env inp w.world).1 =
        .error (.guardrailError message)) ∧ takes w.audits.asked = true := by
  rw [Writes, hagent]
  simp

variable (takes w) in
theorem answers_iff
    (hagent : reg.getAgent (agentKeyOr (reg.route env.runtime inp hint)) = some agent) :
    Answers env reg takes inp hint w ↔
      ((∃ result, ((agent.path env reg).run env inp w.world).1 = .ok result) ∨
        ∃ message, ((agent.path env reg).run env inp w.world).1 =
          .error (.guardrailError message)) ∧ takes w.audits.asked = true := by
  rw [Answers, hagent]
  simp

/-- The loop has returned exactly if a run was recorded. -/
theorem runs_eq_nil_iff {path : ExecutionPath} {rows : List AgentRun}
    (hruns : (path.run env inp w.world).2.runs.rows = w.world.runs.rows ++ rows) :
    rows = [] ↔ ¬ ∃ result, (path.loop env inp w.world).1 = .ok result := by
  cases hloop : (path.loop env inp w.world).1 with
  | error e =>
    have hsame := ExecutionPath.runs_of_loop_error hloop
    rw [hruns] at hsame
    simpa using hsame
  | ok result =>
    have hleft : path.loop env inp w.world = (.ok result, (path.loop env inp w.world).2) :=
      Prod.ext hloop rfl
    obtain ⟨agent, -, hrecorded⟩ := Triple.of_ok path.loop_recorded rfl hleft
    obtain ⟨used, hrun, -⟩ := hrecorded.run
    obtain ⟨report, -, hrow⟩ := hrun.row
    obtain ⟨later, hlater⟩ := (path.run_after env inp w.world).rows
    rw [hruns, hrow, Journal.taken_rows, List.append_assoc, List.append_cancel_left_eq] at hlater
    rw [hlater]
    simp

theorem traced_of_no_agent
    (hagent : reg.getAgent (agentKeyOr (reg.route env.runtime inp hint)) = none) :
    Traced env reg takes inp hint w (runAgentForUser env reg takes inp hint w) := by
  have hnot : ¬ Writes env reg takes inp hint w := by
    rintro ⟨agent, hsome, -⟩
    rw [hagent] at hsome
    cases hsome
  have hcall : (runAgentForUser env reg takes inp hint w).2 = w := by
    rw [runAgentForUser, hagent]
    rfl
  refine ⟨⟨[], [], ?_⟩, fun h => absurd h hnot⟩
  rw [hcall]
  simp [hnot]

section Outcomes

variable {rows : List AgentRun} {v : World}
  (hagent : reg.getAgent (agentKeyOr (reg.route env.runtime inp hint)) = some agent)
  (hruns : ((agent.path env reg).run env inp w.world).2.runs.rows = w.world.runs.rows ++ rows)
  (hids : ∀ run ∈ rows, run.runId = inp.correlationId)

include hagent hruns hids

/-- The run returns. -/
theorem traced_of_ok {result : AgentResult}
    (hrun : (agent.path env reg).run env inp w.world = (.ok result, v)) :
    Traced env reg takes inp hint w (runAgentForUser env reg takes inp hint w) := by
  have hnone := runs_eq_nil_iff hruns
  have hwrites := writes_iff takes w hagent
  have hanswers := answers_iff takes w hagent
  have hafter := (agent.path env reg).run_after env inp w.world
  rw [hrun] at hruns hwrites hanswers hafter
  obtain ⟨r, hloop, -⟩ := hafter.of_ok result rfl
  have hwritten : Writes env reg takes inp hint w := hwrites.2 (Or.inl ⟨r, hloop⟩)
  have hsome : rows ≠ [] := fun h => hnone.1 h ⟨r, hloop⟩
  rw [runAgentForUser_of_ok hagent hrun]
  cases htake : takes w.audits.asked with
  | true =>
    refine ⟨⟨[_], rows, rfl, hruns, ?_, hids, by simp [hwritten]⟩, fun _ => ?_⟩
    · intro row hrow
      rw [List.mem_singleton.1 hrow]
      rfl
    · rw [hanswers]
      simp [htake]
  | false =>
    refine ⟨⟨[], rows, by simp, hruns, by simp, hids, by simp [hwritten, hsome]⟩, fun _ => ?_⟩
    rw [hanswers]
    simp [htake, ServiceError.answered, ApiError.isAnswered]

/-- The run raises something that is no denial. -/
theorem traced_of_raised {e : PyErr} (hdenied : e.denied? env.runtime = none)
    (hrun : (agent.path env reg).run env inp w.world = (.error e, v)) :
    Traced env reg takes inp hint w (runAgentForUser env reg takes inp hint w) := by
  have hnone := runs_eq_nil_iff hruns
  have hwrites := writes_iff takes w hagent
  have hanswers := answers_iff takes w hagent
  have hraised : ∀ message, e ≠ .guardrailError message := by
    rintro message rfl
    cases hdenied
  rw [hrun] at hruns hwrites hanswers
  rw [runAgentForUser_of_raised hagent hrun hdenied]
  refine ⟨⟨[], rows, by simp, hruns, by simp, hids, ?_⟩, fun _ => ?_⟩
  · rw [hwrites, and_iff_right rfl, hnone]
    simp [hraised]
  · rw [hanswers]
    simp [hraised, ServiceError.answered, ApiError.isAnswered]

/-- A guardrail ends the run. -/
theorem traced_of_denied {message : String}
    (hrun : (agent.path env reg).run env inp w.world = (.error (.guardrailError message), v)) :
    Traced env reg takes inp hint w (runAgentForUser env reg takes inp hint w) := by
  have hnone := runs_eq_nil_iff hruns
  have hwrites := writes_iff takes w hagent
  have hanswers := answers_iff takes w hagent
  rw [hrun] at hruns hwrites hanswers
  rw [runAgentForUser_of_denied hagent hrun rfl]
  cases htake : takes w.audits.asked with
  | true =>
    have hwritten : Writes env reg takes inp hint w := hwrites.2 (Or.inr ⟨⟨message, rfl⟩, htake⟩)
    refine ⟨⟨[_], rows, rfl, hruns, ?_, hids, by simp [hwritten]⟩, fun _ => ?_⟩
    · intro row hrow
      rw [List.mem_singleton.1 hrow]
      rfl
    · rw [hanswers]
      simp [htake, ServiceError.answered, ApiError.isAnswered]
  | false =>
    refine ⟨⟨[], rows, by simp, hruns, by simp, hids, ?_⟩, fun _ => ?_⟩
    · rw [hwrites, and_iff_right rfl, hnone, htake]
      simp
    · rw [hanswers]
      simp [htake, ServiceError.answered, ApiError.isAnswered]

end Outcomes

/-- **What a call of the service writes**, and whether it is answered. -/
theorem traced (env : Env) (reg : AgentRegistry) (takes : ℕ → Bool) (inp : AgentInput)
    (hint : Option String) (w : Audited World) :
    Traced env reg takes inp hint w (runAgentForUser env reg takes inp hint w) := by
  cases hagent : reg.getAgent (agentKeyOr (reg.route env.runtime inp hint)) with
  | none => exact traced_of_no_agent hagent
  | some agent =>
    obtain ⟨reports, hruns, hinp⟩ := (agent.path env reg).run_rowsOf env inp w.world
    have hids : ∀ run ∈ reports.map (RunReport.row env.runtime),
        run.runId = inp.correlationId := by
      intro run hrun
      obtain ⟨report, hreport, rfl⟩ := List.mem_map.1 hrun
      show report.inp.correlationId = _
      rw [hinp report hreport]
    obtain ⟨r, v, hrun⟩ : ∃ r v, (agent.path env reg).run env inp w.world = (r, v) :=
      ⟨_, _, rfl⟩
    cases r with
    | ok result => exact traced_of_ok hagent hruns hids hrun
    | error e =>
      cases hdenied : e.denied? env.runtime with
      | none => exact traced_of_raised hagent hruns hids hdenied hrun
      | some reason =>
        obtain ⟨message, rfl⟩ : ∃ message, e = .guardrailError message := by
          cases e with
          | guardrailError message => exact ⟨message, rfl⟩
          | _ => cases hdenied
        exact traced_of_denied hagent hruns hids hrun

end Service

section Chat

variable {env : Env} {reg : AgentRegistry} {takes : ℕ → Bool} {header : Option String}
  {ids : ChatIds} {w : Audited World}

variable (env reg takes header ids w) in
/-- A request that is let through is a call of the service. -/
theorem serveChat_of_ok (body : ChatRequest) (principal : Principal) :
    let call := runAgentForUser env reg takes (ids.input header body principal) body.agentHint w
    let served := serveChat env reg takes header ids (.ok (body, principal)) w
    served.2 = call.2 ∧ ∀ id, served.1.correlationHeader = some id ↔
      (∀ e, call.1 = .error e → e.answered.isAnswered = true) ∧
        id = orElse header ids.middleware := by
  dsimp only
  have hnext : ((do
      let request ← Effect.ofExcept (.ok (body, principal))
      chat env reg takes header ids.conversation ids.correlation request.1 request.2 :
        Effect (Audited World) ApiError ChatResponse) w) =
      chat env reg takes header ids.conversation ids.correlation body principal w := rfl
  unfold serveChat
  simp only [dispatch_world, correlationHeader_iff, hnext]
  obtain ⟨r, w', hcall⟩ : ∃ r w', runAgentForUser env reg takes (ids.input header body principal)
    body.agentHint w = (r, w') := ⟨_, _, rfl⟩
  have hcall' : runAgentForUser env reg takes (body.input principal
      (orElse header ids.correlation) (orElse body.conversationId ids.conversation))
      body.agentHint w = (r, w') := hcall
  unfold chat
  dsimp only
  rw [hcall', hcall]
  cases r with
  | error e => simp
  | ok answer => simp

/-- **When a chat has one id**: nothing is written, or the call is answered and the request
brings an id (or the two ids that are made for it are the same). -/
theorem chat_agrees_iff (env : Env) (reg : AgentRegistry) (takes : ℕ → Bool)
    (header : Option String) (ids : ChatIds)
    (admitted : Except ApiError (ChatRequest × Principal)) (w : Audited World) :
    ChatAgrees w (serveChat env reg takes header ids admitted w) ↔
      ∀ body principal, admitted = .ok (body, principal) →
        Writes env reg takes (ids.input header body principal) body.agentHint w →
          Answers env reg takes (ids.input header body principal) body.agentHint w ∧
            (header.getD "" ≠ "" ∨ ids.correlation = ids.middleware) := by
  cases admitted with
  | error e =>
    refine iff_of_true ⟨[], [], ?_⟩ fun body principal h => by cases h
    have hworld : (serveChat env reg takes header ids (.error e) w).2 = w := dispatch_world
    rw [hworld]
    simp
  | ok request =>
    obtain ⟨body, principal⟩ := request
    obtain ⟨hworld, hheader⟩ :=
      serveChat_of_ok env reg takes header ids w body principal
    set inp := ids.input header body principal with hinp
    obtain ⟨⟨audits, runs, haudits, hruns, hrows, hrunIds, hnone⟩, hanswered⟩ :=
      traced env reg takes inp body.agentHint w
    have hsame : inp.correlationId = orElse header ids.middleware ↔
        header.getD "" ≠ "" ∨ ids.correlation = ids.middleware := orElse_eq_orElse_iff
    constructor
    · rintro ⟨audits', runs', haudits', hruns', hrows', hrunIds'⟩ _ _ ⟨⟩ hwrites
      rw [hworld, haudits, List.append_cancel_left_eq] at haudits'
      rw [hworld, hruns, List.append_cancel_left_eq] at hruns'
      subst haudits' hruns'
      -- some row is there, and its id is the one sent back
      have hsent : (serveChat env reg takes header ids (.ok (body, principal))
          w).1.correlationHeader = some inp.correlationId := by
        cases audits with
        | cons row audits =>
          rw [hrows' row (List.mem_cons_self ..), hrows row (List.mem_cons_self ..)]
        | nil =>
          cases runs with
          | cons run runs =>
            rw [hrunIds' run (List.mem_cons_self ..), hrunIds run (List.mem_cons_self ..)]
          | nil => exact absurd hwrites (hnone.1 ⟨rfl, rfl⟩)
      obtain ⟨hall, hid⟩ := (hheader _).1 hsent
      exact ⟨(hanswered hwrites).1 hall, hsame.1 hid⟩
    · intro hcond
      refine ⟨audits, runs, by rw [hworld, haudits], by rw [hworld, hruns], ?_⟩
      by_cases hwrites : Writes env reg takes inp body.agentHint w
      · obtain ⟨hanswers, hid⟩ := hcond body principal rfl hwrites
        have hsent := (hheader _).2 ⟨(hanswered hwrites).2 hanswers, hsame.2 hid⟩
        refine ⟨fun row hrow => ?_, fun run hrun => ?_⟩
        · rw [hsent, hrows row hrow]
        · rw [hsent, hrunIds run hrun]
      · obtain ⟨rfl, rfl⟩ := hnone.2 hwrites
        simp

end Chat

/-! ## The upload of a document -/

section Upload

variable {S : Type}

/-- A request to upload a document: it is refused before the endpoint, or let through. -/
def serveUpload (env : UploadEnv S) (header : Option String) (uuid : String)
    (admitted : Except UploadError UploadRequest) :
    Audited S → TracedReply UploadError DocumentUploadResponse × Audited S :=
  dispatch UploadError.isAnswered header uuid (do
    let request ← Effect.ofExcept admitted
    uploadDocument env request)

/-- Every row that is written is under the id that is sent back. -/
def UploadAgrees (w : Audited S)
    (served : TracedReply UploadError DocumentUploadResponse × Audited S) : Prop :=
  ∃ audits, served.2.audits.rows = w.audits.rows ++ audits ∧
    ∀ row ∈ audits, served.1.correlationHeader = some row.correlationId

/-- The upload is audited: the file is not too large, the pipeline ends in a way the endpoint
records, and the audit log takes the row. -/
def UploadAudited (env : UploadEnv S) (r : UploadRequest) (w : Audited S) : Prop :=
  r.content.length ≤ maxUploadBytes ∧
    (∀ e, (Pipeline.runOn env.store env.steps (r.upload env.uuid) w.world).1 = .error e →
      e.caught? env.runtime ≠ none) ∧
    env.takes w.audits.asked = true

variable {env : UploadEnv S} {r : UploadRequest} {w : Audited S}

variable (env r w) in
/-- What an upload audits, and whether it is answered then. -/
theorem uploadDocument_audits :
    (¬ UploadAudited env r w ∧ (uploadDocument env r w).2.audits.rows = w.audits.rows) ∨
      UploadAudited env r w ∧
        (∃ row : AuditLog, row.correlationId = env.correlationId ∧
          (uploadDocument env r w).2.audits.rows = w.audits.rows ++ [row]) ∧
        ∀ e, (uploadDocument env r w).1 = .error e → e.isAnswered = true := by
  unfold UploadAudited
  by_cases hlarge : maxUploadBytes < r.content.length
  · rw [uploadDocument_of_too_large hlarge]
    exact Or.inl ⟨fun h => absurd h.1 (not_le.2 hlarge), rfl⟩
  · have hsmall : r.content.length ≤ maxUploadBytes := not_lt.1 hlarge
    rw [uploadDocument, if_neg hlarge]
    obtain ⟨ran, s, hrun⟩ : ∃ ran s, Pipeline.runOn env.store env.steps (r.upload env.uuid)
      w.world = (ran, s) := ⟨_, _, rfl⟩
    rw [bind_attempt hrun, hrun]
    cases ran with
    | ok records =>
      dsimp only
      rw [bind_record]
      cases htake : env.takes w.audits.asked with
      | true =>
        rw [if_pos rfl]
        refine Or.inr ⟨⟨hsmall, fun e he => ?_, rfl⟩, ⟨_, rfl, rfl⟩, fun e he => ?_⟩
        · cases he
        · cases he
      | false => exact Or.inl ⟨fun h => Bool.false_ne_true h.2.2, rfl⟩
    | error e =>
      dsimp only
      cases hcaught : e.caught? env.runtime with
      | none => exact Or.inl ⟨fun h => h.2.1 e rfl hcaught, rfl⟩
      | some detail =>
        dsimp only
        rw [bind_record]
        cases htake : env.takes w.audits.asked with
        | true =>
          rw [if_pos rfl]
          refine Or.inr ⟨⟨hsmall, fun e' he' => ?_, rfl⟩, ⟨_, rfl, rfl⟩, fun e' he' => ?_⟩
          · obtain rfl := Except.error.inj he'
            rw [hcaught]
            exact Option.some_ne_none _
          · obtain rfl := Except.error.inj he'
            rfl
        | false => exact Or.inl ⟨fun h => Bool.false_ne_true h.2.2, rfl⟩

/-- **When an upload has one id**: nothing is audited, or the id that is made for the audit row is
the one that is sent back. -/
theorem upload_agrees_iff (env : UploadEnv S) (header : Option String) (uuid : String)
    (admitted : Except UploadError UploadRequest) (w : Audited S) :
    UploadAgrees w (serveUpload env header uuid admitted w) ↔
      ∀ r, admitted = .ok r → UploadAudited env r w →
        env.correlationId = orElse header uuid := by
  cases admitted with
  | error e =>
    refine iff_of_true ⟨[], ?_, by simp⟩ fun r h => by cases h
    have hworld : (serveUpload env header uuid (.error e) w).2 = w := dispatch_world
    rw [hworld, List.append_nil]
  | ok r =>
    have hworld : (serveUpload env header uuid (.ok r) w).2 = (uploadDocument env r w).2 :=
      dispatch_world
    have hheader : ∀ id, (serveUpload env header uuid (.ok r) w).1.correlationHeader = some id ↔
        (∀ e, (uploadDocument env r w).1 = .error e → e.isAnswered = true) ∧
          id = orElse header uuid := fun id => correlationHeader_iff
    rcases uploadDocument_audits env r w with ⟨hnot, haudits⟩ |
      ⟨haudited, ⟨row, hid, haudits⟩, hanswered⟩
    · refine iff_of_true ⟨[], ?_, by simp⟩ ?_
      · rw [hworld, haudits, List.append_nil]
      · rintro _ ⟨⟩ h
        exact absurd h hnot
    · constructor
      · rintro ⟨audits, haudits', hrows⟩ _ ⟨⟩ -
        rw [hworld, haudits, List.append_cancel_left_eq] at haudits'
        subst haudits'
        have hsent := hrows row (List.mem_singleton_self _)
        rw [← hid]
        exact ((hheader _).1 hsent).2
      · intro hcond
        refine ⟨[row], by rw [hworld, haudits], fun row' hrow' => ?_⟩
        rw [List.mem_singleton.1 hrow', hheader, hid]
        exact ⟨hanswered, hcond r rfl haudited⟩

end Upload

/-- **When a request has one id**, to the chat endpoint and to the upload of documents. -/
theorem correlation_agrees_iff (header : Option String) (env : Env) (reg : AgentRegistry)
    (takes : ℕ → Bool) (ids : ChatIds) (chatted : Except ApiError (ChatRequest × Principal))
    (w : Audited World) (S : Type) (uploadEnv : UploadEnv S) (uuid : String)
    (uploaded : Except UploadError UploadRequest) (v : Audited S) :
    (ChatAgrees w (serveChat env reg takes header ids chatted w) ↔
      ∀ body principal, chatted = .ok (body, principal) →
        Writes env reg takes (ids.input header body principal) body.agentHint w →
          Answers env reg takes (ids.input header body principal) body.agentHint w ∧
            (header.getD "" ≠ "" ∨ ids.correlation = ids.middleware)) ∧
    (UploadAgrees v (serveUpload uploadEnv header uuid uploaded v) ↔
      ∀ r, uploaded = .ok r → UploadAudited uploadEnv r v →
        uploadEnv.correlationId = orElse header uuid) :=
  ⟨chat_agrees_iff env reg takes header ids chatted w,
    upload_agrees_iff uploadEnv header uuid uploaded v⟩

/-- What an upload of a bank's policy runs against. -/
def policyEnv : UploadEnv InMemoryVectorStore :=
  documentsEnv .ascii (fun _ => none) "id-2" "id-3" (fun _ => true)
    InMemoryVectorStore.vectorStore

/-- The policy is indexed, and audited. -/
theorem policy_audited : UploadAudited policyEnv (policyRequest 9) ⟨{}, {}⟩ := by
  obtain ⟨records, hrecords, -⟩ := exists_policyRecords 9
  have hmade : Pipeline.recordsOf policyEnv.steps ((policyRequest 9).upload policyEnv.uuid) =
      .ok records := recordsOf_faulty.2 ⟨fun _ _ => rfl, hrecords⟩
  refine ⟨by decide, fun e he => ?_, rfl⟩
  rw [Pipeline.runOn_of_ok hmade] at he
  cases he

/-- A chat without a header, and the upload of a policy with one: the ids that are made all
differ, and so do the header and the ids of the rows. -/
theorem header_not_agrees :
    ¬ ChatAgrees ⟨World.initial, {}⟩ (serveChat (demoEnv (callsOnce [profileCall])) agentRegistry
        (fun _ => true) none ⟨"id-1", "id-2", "id-3"⟩
        (.ok ({ message := "What is on my profile?", agentHint := some "support" },
          ⟨"cust_1001", "t1", ["customer"]⟩)) ⟨World.initial, {}⟩) ∧
      ¬ UploadAgrees ⟨{}, {}⟩ (serveUpload policyEnv (some "req-1") "id-1"
        (.ok (policyRequest 9)) ⟨{}, {}⟩) := by
  constructor
  · rw [chat_agrees_iff]
    intro h
    obtain ⟨-, hid⟩ := h _ _ rfl ⟨customerSupportAgent, rfl, Or.inl ⟨_, rfl⟩⟩
    exact absurd hid (by decide)
  · rw [upload_agrees_iff]
    intro h
    have hid : "id-3" = "req-1" := h _ rfl policy_audited
    exact absurd hid (by decide)

end AgentPlatform
