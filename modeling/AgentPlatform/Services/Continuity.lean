import AgentPlatform.Agents.Namespaces
import AgentPlatform.Services.Delivered

/-!
# How a conversation goes on

The turns of a conversation are kept by the agent that answered them.  A message that is routed to
another agent is answered by one that does not know them.

* `ExecutionPath.said?` — the agent that acts and the response it ends with; `run_memory`,
  `run_returns` — what the run makes of it.
* `ChatState`, `ChatState.serve` — a conversation as its user has it, and the service.
* `ChatState.Kept` — each agent keeps the turns it answered itself: the invariant of a run.
* `ChatState.Continued` — the first request of a turn comes with the last messages of the
  conversation.
* `continued_iff` — **when a conversation goes on**, over all runs.
-/

namespace AgentPlatform

/-! ## What a classic run makes of its loop -/

section Paths

variable (env : Env) (inp : AgentInput) (w : World)

/-- The agent that acts on a path and the response its loop ends with, if the loop comes to its
end. -/
def ExecutionPath.said? (path : ExecutionPath) : Option (Agent × Option LLMResponse) :=
  match path.acting env inp with
  | none => none
  | some actor =>
    match actor.outcome env inp w with
    | .error _ => none
    | .ok final => some (actor, final)

/-- What was said is what is handed out: it is not empty, or it is composed anew, word for word. -/
def ExecutionPath.HandsOut (path : ExecutionPath) (text : String) : Prop :=
  match path with
  | .supervisor _ => path.composedText? env inp w = some text ∧ env.guard.Clean text
  | _ => text ≠ ""

/-- What the memory of the process is after a run that said something, or nothing. -/
def rememberedAfter (said : Option (Agent × Option LLMResponse)) : String → AgentMemory :=
  match said with
  | none => w.memory
  | some (actor, final) =>
    Function.update w.memory actor.key ((w.memory actor.key).append inp (saidText final))

/-- A path of the classic orchestrator. -/
def ExecutionPath.Classic : ExecutionPath → Prop
  | .specialist _ => True
  | .supervisor _ => True
  | _ => False

variable {env inp w}

theorem Agent.classic_path (h : env.settings.agentOrchestrator = .classic) (reg : AgentRegistry)
    (agent : Agent) : (agent.path env reg).Classic := by
  unfold Agent.path
  rw [h]
  dsimp only
  split
  · trivial
  · trivial

namespace ExecutionPath

theorem said?_eq_some_iff {path : ExecutionPath} {actor : Agent} {final : Option LLMResponse} :
    path.said? env inp w = some (actor, final) ↔
      path.acting env inp = some actor ∧ actor.outcome env inp w = .ok final := by
  unfold said?
  cases path.acting env inp with
  | none => simp
  | some actor' =>
    dsimp only
    cases houtcome : actor'.outcome env inp w with
    | error e =>
      refine iff_of_false (by simp) ?_
      rintro ⟨hactor, hok⟩
      obtain rfl := Option.some.inj hactor
      rw [houtcome] at hok
      cases hok
    | ok final' =>
      constructor
      · rintro ⟨⟩
        exact ⟨rfl, houtcome⟩
      · rintro ⟨hactor, hok⟩
        obtain rfl := Option.some.inj hactor
        rw [houtcome] at hok
        obtain rfl := Except.ok.inj hok
        rfl

/-- What a run of the loop of the acting agent leaves in the memory. -/
theorem invoke_memory (path : ExecutionPath) {actor : Agent}
    (hacting : path.acting env inp = some actor) :
    (actor.invoke env inp w).2.memory = rememberedAfter inp w (path.said? env inp w) := by
  unfold said?
  rw [hacting]
  rcases Agent.invoke_cases env actor inp w with ⟨e, houtcome, hunsaid⟩ | ⟨final, houtcome, hsaid⟩
  · dsimp only
    rw [houtcome]
    exact hunsaid.memory
  · dsimp only
    rw [houtcome]
    exact hsaid.memory

/-- **What a run leaves in the memory**, whether it returns or raises. -/
theorem run_memory {path : ExecutionPath} (hclassic : path.Classic) :
    (path.run env inp w).2.memory = rememberedAfter inp w (path.said? env inp w) := by
  cases path with
  | specialist agent => exact invoke_memory (.specialist agent) rfl
  | supervisor reg =>
    cases hacting : (supervisor reg).acting env inp with
    | none =>
      have hsaid : (supervisor reg).said? env inp w = none := by rw [said?, hacting]
      have hspecialist : reg.specialist env.runtime inp.message = none := hacting
      show (Supervisor.invoke env reg inp w).2.memory = _
      rw [hsaid, Supervisor.invoke, hspecialist]
      rfl
    | some actor =>
      rw [← invoke_memory (supervisor reg) hacting]
      have hloop : (supervisor reg).loop env inp w = actor.invoke env inp w := by
        rw [loop_of_acting hacting]
        rfl
      rw [← hloop]
      rcases supervisor_cases env inp reg w with
        ⟨e, e', -, -, huntouched⟩ | ⟨agent, result, v, -, hreturned, hrun⟩
      · exact huntouched.memory
      · rw [hreturned, hrun]
        exact (Supervisor.answer_keeps env inp agent result v).1
  | specialistGraph agent => exact hclassic.elim
  | supervisorGraph reg => exact hclassic.elim

/-- A run whose loop does not come to its end raises. -/
theorem run_raises {path : ExecutionPath} (hclassic : path.Classic)
    (hsaid : path.said? env inp w = none) : ∃ e, (path.run env inp w).1 = .error e := by
  have hloop : ∀ actor, path.acting env inp = some actor →
      ∃ e, (actor.invoke env inp w).1 = .error e := by
    intro actor hacting
    rcases Agent.invoke_cases env actor inp w with ⟨e, -, hunsaid⟩ | ⟨final, houtcome, -⟩
    · exact ⟨e, hunsaid.raised⟩
    · have hsome := said?_eq_some_iff.2 ⟨hacting, houtcome⟩
      rw [hsaid] at hsome
      cases hsome
  cases path with
  | specialist agent => exact hloop agent rfl
  | supervisor reg =>
    rcases supervisor_cases env inp reg w with
      ⟨e, e', -, hraised, -⟩ | ⟨agent, result, v, hspecialist, hreturned, -⟩
    · exact ⟨e', hraised⟩
    · have hacting : (supervisor reg).acting env inp = some agent := hspecialist
      obtain ⟨e, he⟩ := hloop agent hacting
      rw [loop_of_acting hacting] at hreturned
      have hinvoke : agent.invoke env inp w = (.ok result, v) := hreturned
      rw [hinvoke] at he
      cases he
  | specialistGraph agent => exact hclassic.elim
  | supervisorGraph reg => exact hclassic.elim

/-- **A run that hands out what was said returns it**, if the database takes the run. -/
theorem run_returns {path : ExecutionPath} (hclassic : path.Classic) {actor : Agent}
    {final : Option LLMResponse} (hsaid : path.said? env inp w = some (actor, final))
    (hcommit : env.commit w.runs.asked = true)
    (hhands : path.HandsOut env inp w (saidText final)) :
    ∃ result, (path.run env inp w).1 = .ok result ∧ result.reply = saidText final := by
  obtain ⟨hacting, houtcome⟩ := said?_eq_some_iff.1 hsaid
  obtain ⟨result, v, hinvoke, hreply⟩ : ∃ result v, actor.invoke env inp w = (.ok result, v) ∧
      result.reply = Agent.handedOut (saidText final) := by
    rcases Agent.invoke_cases env actor inp w with ⟨e, herror, -⟩ | ⟨final', hok, hleft⟩
    · rw [houtcome] at herror
      cases herror
    · obtain rfl := Except.ok.inj (houtcome.symm.trans hok)
      obtain ⟨used, outputs, hresult, -⟩ := hleft.taken hcommit
      exact ⟨_, _, Prod.ext hresult rfl, rfl⟩
  cases path with
  | specialist agent =>
    obtain rfl := Option.some.inj hacting
    refine ⟨result, ?_, ?_⟩
    · show (agent.invoke env inp w).1 = _
      rw [hinvoke]
    · rw [hreply]
      exact if_neg hhands
  | supervisor reg =>
    obtain ⟨hcomposed, hclean⟩ := hhands
    have hreturned : (supervisor reg).loop env inp w = (.ok result, v) := by
      rw [loop_of_acting hacting]
      exact hinvoke
    rcases supervisor_cases env inp reg w with
      ⟨e, e', hraised, -, -⟩ | ⟨agent, result', v', hspecialist, hreturned', hrun⟩
    · rw [hreturned] at hraised
      cases hraised
    · rw [hrun]
      rcases answer_cases hspecialist hreturned' with ⟨e, -, hunclean⟩ | ⟨r, hok, htext⟩
      · exact absurd hclean (hunclean _ hcomposed)
      · exact ⟨r, hok, Option.some.inj (htext.symm.trans hcomposed)⟩
  | specialistGraph agent => exact hclassic.elim
  | supervisorGraph reg => exact hclassic.elim

variable (w) in
/-- The first thing the loop does is to ask the model, with what the agent remembers. -/
theorem invoke_asks (actor : Agent) (hguard : env.guard.guardInput inp.message = .ok ()) :
    ∃ answer, w.log ++ [.asked (actor.request env inp (actor.opening inp w)) answer] <+:
      (actor.invoke env inp w).2.log := by
  refine ⟨env.answer w.log (actor.request env inp (actor.opening inp w)), ?_⟩
  set log := w.log ++ [Event.asked (actor.request env inp (actor.opening inp w))
    (env.answer w.log (actor.request env inp (actor.opening inp w)))] with hlog
  have hkeep := Agent.operationsKeep_log env actor inp log
  have hask : log <+: (actor.askModel env inp (actor.opening inp w) w).2.log := by
    rw [askModel_apply, exchange_log]
    exact List.prefix_rfl
  have hrounds : log <+:
      (actor.rounds env inp maxToolRounds (actor.opening inp w) [] [] w).2.log := by
    rw [show maxToolRounds = 5 + 1 from rfl, Agent.rounds]
    refine Keeps.bind_after (I := fun v : World => log <+: v.log) hask fun response => ?_
    cases response.toolCalls.isEmpty with
    | true => exact Keeps.bind (hkeep.tokens _) fun _ => Keeps.pure _
    | false =>
      exact Keeps.bind (Agent.callTools_keeps hkeep.call _) fun _ => hkeep.loop.run.rounds _ _ _ _
  have hinvoke : actor.invoke env inp w = _ :=
    (Effect.bind_of_ok (by rw [hguard]; rfl) _).trans (Effect.bind_of_ok rfl _)
  rw [hinvoke]
  exact Keeps.bind_after hrounds fun e => hkeep.loop.run.closing e

/-- What is asked in a run is what is asked after the log it starts with. -/
theorem requests_of_prefix {l l' rest : List Event} (h : l ++ rest <+: l') :
    requestsIn rest <+: requestsIn (l'.drop l.length) := by
  obtain ⟨later, rfl⟩ := h
  rw [List.append_assoc, List.drop_left, requestsIn_append]
  exact List.prefix_append _ _

/-- A run whose loop raises before it asks anything asks nothing. -/
theorem requests_of_untouched {path : ExecutionPath} {e : PyErr} {v : World}
    (hloop : path.loop env inp w = (.error e, v)) (hlog : v.log = w.log) :
    requestsIn ((path.run env inp w).2.log.drop w.log.length) = [] := by
  obtain ⟨events, hevents, hnoted⟩ := path.run_composed env inp w
  rw [hloop, composing_of_raised rfl, List.append_nil] at hevents
  have hrun : (path.run env inp w).2.log = w.log ++ events := hevents.trans (by rw [← hlog]; rfl)
  rw [hrun, List.drop_left, requestsIn, List.filterMap_eq_nil_iff]
  exact fun e he => (hnoted e he).1

/-- **The first request of a run** is that of the agent that acts, with what it remembers. -/
theorem first_request_of_acting {path : ExecutionPath} (hclassic : path.Classic)
    (hguard : env.guard.guardInput inp.message = .ok ()) {actor : Agent}
    (hacting : path.acting env inp = some actor) :
    (requestsIn ((path.run env inp w).2.log.drop w.log.length)).head? =
      some (actor.request env inp (actor.opening inp w)) := by
  have hbehave : path.loop env inp w = actor.invoke env inp w := by
    rw [loop_of_acting hacting]
    cases path with
    | specialist agent => rfl
    | supervisor reg => rfl
    | specialistGraph agent => exact hclassic.elim
    | supervisorGraph reg => exact hclassic.elim
  obtain ⟨answer, hasked⟩ := invoke_asks w actor hguard
  obtain ⟨events, hevents, -⟩ := path.run_composed env inp w
  have hrun : (actor.invoke env inp w).2.log <+: (path.run env inp w).2.log := by
    rw [hevents, ← hbehave, World.withLog_log, List.append_assoc]
    exact List.prefix_append _ _
  obtain ⟨later, hlater⟩ := requests_of_prefix (hasked.trans hrun)
  rw [← hlater]
  rfl

/-- Without an agent to act, and on a message that is refused, there is none. -/
theorem first_request {path : ExecutionPath} (hclassic : path.Classic) {request : LLMRequest}
    (h : (requestsIn ((path.run env inp w).2.log.drop w.log.length)).head? = some request) :
    env.guard.guardInput inp.message = .ok () ∧ ∃ actor, path.acting env inp = some actor ∧
      request = actor.request env inp (actor.opening inp w) := by
  cases hguard : env.guard.guardInput inp.message with
  | error e =>
    obtain ⟨e', v, hloop, huntouched⟩ := loop_of_refused hguard path w
    rw [requests_of_untouched hloop huntouched.log] at h
    cases h
  | ok u =>
    refine ⟨rfl, ?_⟩
    cases hacting : path.acting env inp with
    | none =>
      rw [requests_of_untouched (loop_of_none hacting w) rfl] at h
      cases h
    | some actor =>
      rw [first_request_of_acting hclassic hguard hacting] at h
      exact ⟨actor, rfl, (Option.some.inj h).symm⟩

end ExecutionPath

end Paths

/-! ## Calls of the service -/

/-- A message to the service, and the agent it asks for. -/
structure ChatCall where
  inp : AgentInput
  hint : Option String

namespace ChatCall

variable (env : Env) (reg : AgentRegistry) (takes : ℕ → Bool) (w : Audited World) (call : ChatCall)

/-- The agent the message is routed to. -/
def agent? : Option Agent :=
  reg.getAgent (agentKeyOr (reg.route env.runtime call.inp call.hint))

/-- The key of the agent whose loop runs: the one the message is routed to, or the specialist a
supervisor picks. -/
def actorKey? : Option String :=
  (call.agent? env reg).bind fun agent =>
    ((agent.path env reg).acting env call.inp).map Agent.key

/-- What the agent whose loop runs has said, if its loop comes to its end. -/
def said? : Option (Agent × Option LLMResponse) :=
  (call.agent? env reg).bind fun agent => (agent.path env reg).said? env call.inp w.world

/-- The call. -/
def run : Except ServiceError AgentAnswer × Audited World :=
  runAgentForUser env reg takes call.inp call.hint w

/-- Its first request to the model. -/
def firstRequest? : Option LLMRequest :=
  (requestsIn ((call.run env reg takes w).2.world.log.drop w.world.log.length)).head?

/-- If the loop comes to its end, its rows are taken and what was said is handed out. -/
def HandedOver : Prop :=
  ∀ agent actor final, call.agent? env reg = some agent →
    (agent.path env reg).said? env call.inp w.world = some (actor, final) →
    env.commit w.world.runs.asked = true ∧ takes w.audits.asked = true ∧
      (agent.path env reg).HandsOut env call.inp w.world (saidText final)

variable {env reg takes w call}

/-- What a call makes of the world is what its run makes of it. -/
theorem run_world {agent : Agent} (hagent : call.agent? env reg = some agent) :
    (call.run env reg takes w).2.world = ((agent.path env reg).run env call.inp w.world).2 := by
  obtain ⟨r, v, hrun⟩ : ∃ r v, (agent.path env reg).run env call.inp w.world = (r, v) :=
    ⟨_, _, rfl⟩
  rw [hrun, run]
  cases r with
  | ok result =>
    rw [runAgentForUser_of_ok hagent hrun]
    split <;> rfl
  | error e =>
    cases hdenied : e.denied? env.runtime with
    | none => rw [runAgentForUser_of_raised hagent hrun hdenied]
    | some reason =>
      rw [runAgentForUser_of_denied hagent hrun hdenied]
      split <;> rfl

variable (takes w) in
/-- Without an agent nothing is done. -/
theorem run_of_no_agent (hagent : call.agent? env reg = none) :
    ∃ e, call.run env reg takes w = (.error e, w) := by
  have hnone : reg.getAgent (agentKeyOr (reg.route env.runtime call.inp call.hint)) = none := hagent
  rw [run, runAgentForUser, hnone]
  exact ⟨_, rfl⟩

/-- **What a call leaves in the memory**, whether it returns or raises. -/
theorem run_memory (hclassic : env.settings.agentOrchestrator = .classic) :
    (call.run env reg takes w).2.world.memory =
      rememberedAfter call.inp w.world (call.said? env reg w) := by
  unfold said?
  cases hagent : call.agent? env reg with
  | none =>
    obtain ⟨e, hrun⟩ := run_of_no_agent takes w hagent
    rw [hrun]
    rfl
  | some agent =>
    rw [run_world hagent]
    exact ExecutionPath.run_memory (Agent.classic_path hclassic reg agent)

variable (takes) in
/-- A call whose loop does not come to its end is not answered. -/
theorem run_of_unsaid (hclassic : env.settings.agentOrchestrator = .classic)
    (hsaid : call.said? env reg w = none) : ∃ e, (call.run env reg takes w).1 = .error e := by
  cases hagent : call.agent? env reg with
  | none =>
    obtain ⟨e, hrun⟩ := run_of_no_agent takes w hagent
    exact ⟨e, by rw [hrun]⟩
  | some agent =>
    rw [said?, hagent] at hsaid
    obtain ⟨e, he⟩ := ExecutionPath.run_raises (Agent.classic_path hclassic reg agent) hsaid
    have hrun : (agent.path env reg).run env call.inp w.world =
        (.error e, ((agent.path env reg).run env call.inp w.world).2) := Prod.ext he rfl
    rw [run]
    cases hdenied : e.denied? env.runtime with
    | none =>
      rw [runAgentForUser_of_raised hagent hrun hdenied]
      exact ⟨_, rfl⟩
    | some reason =>
      rw [runAgentForUser_of_denied hagent hrun hdenied]
      split
      · exact ⟨_, rfl⟩
      · exact ⟨_, rfl⟩

/-- A call that is handed over is answered with what was said. -/
theorem run_of_handedOver (hclassic : env.settings.agentOrchestrator = .classic)
    (hover : call.HandedOver env reg takes w) {actor : Agent} {final : Option LLMResponse}
    (hsaid : call.said? env reg w = some (actor, final)) :
    ∃ answer, (call.run env reg takes w).1 = .ok answer ∧ answer.reply = saidText final := by
  obtain ⟨agent, hagent, hpath⟩ := Option.bind_eq_some_iff.1 hsaid
  obtain ⟨hcommit, htakes, hhands⟩ := hover agent actor final hagent hpath
  obtain ⟨result, hok, hreply⟩ := ExecutionPath.run_returns
    (Agent.classic_path hclassic reg agent) hpath hcommit hhands
  have hrun : (agent.path env reg).run env call.inp w.world =
      (.ok result, ((agent.path env reg).run env call.inp w.world).2) := Prod.ext hok rfl
  rw [run, runAgentForUser_of_ok hagent hrun, if_pos htakes]
  exact ⟨result.answer agent, rfl, hreply⟩

/-- The agent that has something to say is the one whose loop runs. -/
theorem actorKey?_of_said {actor : Agent} {final : Option LLMResponse}
    (hsaid : call.said? env reg w = some (actor, final)) :
    call.actorKey? env reg = some actor.key := by
  obtain ⟨agent, hagent, hpath⟩ := Option.bind_eq_some_iff.1 hsaid
  obtain ⟨hacting, -⟩ := ExecutionPath.said?_eq_some_iff.1 hpath
  rw [actorKey?, hagent, Option.bind_some, hacting]
  rfl

/-- Where something is said, the message was let through. -/
theorem guard_of_said {said : Agent × Option LLMResponse}
    (hsaid : call.said? env reg w = some said) :
    env.guard.guardInput call.inp.message = .ok () := by
  obtain ⟨agent, -, hpath⟩ := Option.bind_eq_some_iff.1 hsaid
  obtain ⟨-, houtcome⟩ := ExecutionPath.said?_eq_some_iff.1 hpath
  unfold Agent.outcome at houtcome
  cases hguard : env.guard.guardInput call.inp.message with
  | error e =>
    rw [hguard] at houtcome
    cases houtcome
  | ok u => rfl

variable (takes w) in
/-- The first request of a call comes with what the agent that acts remembers. -/
theorem firstRequest_of_actor (hclassic : env.settings.agentOrchestrator = .classic)
    (hguard : env.guard.guardInput call.inp.message = .ok ()) {key : String}
    (hactor : call.actorKey? env reg = some key) :
    ∃ actor : Agent, actor.key = key ∧ ∃ request,
      call.firstRequest? env reg takes w = some request ∧
        request.messages = actor.opening call.inp w.world := by
  obtain ⟨agent, hagent, hmap⟩ := Option.bind_eq_some_iff.1 hactor
  obtain ⟨actor, hacting, hkey⟩ := Option.map_eq_some_iff.1 hmap
  refine ⟨actor, hkey, actor.request env call.inp (actor.opening call.inp w.world), ?_, rfl⟩
  rw [firstRequest?, run_world hagent]
  exact ExecutionPath.first_request_of_acting (Agent.classic_path hclassic reg agent) hguard hacting

/-- A call with a request has an agent that acts, and its message is let through. -/
theorem actor_of_firstRequest (hclassic : env.settings.agentOrchestrator = .classic)
    {request : LLMRequest} (h : call.firstRequest? env reg takes w = some request) :
    env.guard.guardInput call.inp.message = .ok () ∧ ∃ key,
      call.actorKey? env reg = some key := by
  cases hagent : call.agent? env reg with
  | none =>
    obtain ⟨e, hrun⟩ := run_of_no_agent takes w hagent
    rw [firstRequest?, hrun, List.drop_length] at h
    cases h
  | some agent =>
    rw [firstRequest?, run_world hagent] at h
    obtain ⟨hguard, actor, hacting, -⟩ :=
      ExecutionPath.first_request (Agent.classic_path hclassic reg agent) h
    refine ⟨hguard, actor.key, ?_⟩
    rw [actorKey?, hagent, Option.bind_some, hacting]
    rfl

end ChatCall

/-! ## A conversation -/

/-- A conversation of a user. -/
structure Conversation where
  tenantId : String
  userId : String
  conversationId : String
  named : conversationId ≠ ""

/-- The key every agent keeps it under. -/
def Conversation.key (c : Conversation) : String :=
  AgentMemory.key c.tenantId c.userId c.conversationId

/-- The message is one of the conversation. -/
def AgentInput.IsIn (inp : AgentInput) (c : Conversation) : Prop :=
  inp.tenantId = c.tenantId ∧ inp.userId = c.userId ∧ inp.conversationId = some c.conversationId

instance (inp : AgentInput) (c : Conversation) : Decidable (inp.IsIn c) :=
  inferInstanceAs (Decidable (_ ∧ _ ∧ _))

/-- A turn that was completed: the call, and what the user got. -/
structure ChatTurn where
  call : ChatCall
  reply : String

/-- The messages of turns. -/
def transcript (turns : List ChatTurn) : List ChatMessage :=
  turns.flatMap fun turn => MemoryOp.turn turn.call.inp turn.reply

/-- A conversation as its user has it: the process, and the turns that were completed. -/
structure ChatState where
  service : Audited World
  turns : List ChatTurn := []

section Chats

variable (env : Env) (reg : AgentRegistry) (takes : ℕ → Bool) (c : Conversation)

namespace ChatState

/-- The service answers a call, of this conversation or of another one. -/
def serve (s : ChatState) (call : ChatCall) : ChatState :=
  match call.run env reg takes s.service with
  | (.error _, w) => ⟨w, s.turns⟩
  | (.ok answer, w) => ⟨w, if call.inp.IsIn c then s.turns ++ [⟨call, answer.reply⟩] else s.turns⟩

/-- The conversation after calls. -/
def after (s : ChatState) (calls : List ChatCall) : ChatState :=
  calls.foldl (serve env reg takes c) s

/-- The turns that an agent answered. -/
def answeredBy (s : ChatState) (key : String) : List ChatTurn :=
  s.turns.filter fun turn => turn.call.actorKey? env reg = some key

/-- **The invariant**: each agent keeps the last of the turns it answered itself. -/
def Kept (s : ChatState) : Prop :=
  ∀ key, (s.service.world.memory key).messages c.key =
    takeLast 20 (transcript (s.answeredBy env reg key))

/-- The first request of the call comes with the last ten messages of the completed turns. -/
def Continued (s : ChatState) (call : ChatCall) : Prop :=
  ∀ request, call.firstRequest? env reg takes s.service = some request → ∃ prompt,
    request.messages = ⟨.system, prompt, none⟩ ::
      (takeLast 10 (transcript s.turns) ++ [⟨.user, call.inp.message, none⟩])

/-- A call of the conversation hands over what was said; one of another conversation is not kept
under its key. -/
def Orderly (s : ChatState) (call : ChatCall) : Prop :=
  if call.inp.IsIn c then call.HandedOver env reg takes s.service
  else call.inp.conversationId.getD "" = "" ∨ call.inp.memoryKey ≠ c.key

/-- If the message is let through, the agent that acts has answered every completed turn. -/
def Undivided (s : ChatState) (call : ChatCall) : Prop :=
  env.guard.guardInput call.inp.message = .ok () → ∀ key, call.actorKey? env reg = some key →
    ∀ turn ∈ s.turns, turn.call.actorKey? env reg = some key

end ChatState

variable {env reg takes c}

theorem transcript_append (turns turns' : List ChatTurn) :
    transcript (turns ++ turns') = transcript turns ++ transcript turns' :=
  List.flatMap_append

/-- A message of the conversation is kept under its key. -/
theorem AgentInput.IsIn.memoryKey_eq {inp : AgentInput} (h : inp.IsIn c) :
    inp.memoryKey = c.key := by
  obtain ⟨htenant, huser, hconversation⟩ := h
  rw [AgentInput.memoryKey, htenant, huser, hconversation]
  rfl

theorem AgentInput.IsIn.named {inp : AgentInput} (h : inp.IsIn c) :
    inp.conversationId.getD "" ≠ "" := by
  rw [h.2.2]
  exact c.named

/-- What a message of the conversation leaves under its key. -/
theorem AgentInput.IsIn.messages_append {inp : AgentInput} (h : inp.IsIn c) (m : AgentMemory)
    (reply : String) : (m.append inp reply).messages c.key =
      takeLast 20 (m.messages c.key ++ MemoryOp.turn inp reply) := by
  rw [MemoryStore.messages_append _ _ _ h.named]
  exact if_pos h.memoryKey_eq.symm

/-- What another conversation's message leaves under the key. -/
theorem messages_append_of_other {inp : AgentInput}
    (h : inp.conversationId.getD "" = "" ∨ inp.memoryKey ≠ c.key) (m : AgentMemory)
    (reply : String) : (m.append inp reply).messages c.key = m.messages c.key := by
  by_cases hnone : inp.conversationId.getD "" = ""
  · rw [AgentMemory.append_of_no_conversation hnone]
  · rw [MemoryStore.messages_append _ _ _ hnone]
    exact if_neg fun heq => h.resolve_left hnone heq.symm

namespace ChatState

variable {s : ChatState} {call : ChatCall}

@[simp] theorem serve_service :
    (s.serve env reg takes c call).service = (call.run env reg takes s.service).2 := by
  unfold serve
  cases call.run env reg takes s.service with
  | mk r w => cases r <;> rfl

theorem after_concat (s : ChatState) (calls : List ChatCall) (call : ChatCall) :
    s.after env reg takes c (calls ++ [call]) =
      (s.after env reg takes c calls).serve env reg takes c call := by
  rw [after, List.foldl_append]
  rfl

/-- Where nothing is said, and in another conversation, no turn is completed in this one. -/
theorem serve_turns_of_unsaid (hclassic : env.settings.agentOrchestrator = .classic)
    (h : call.inp.IsIn c → call.said? env reg s.service = none) :
    (s.serve env reg takes c call).turns = s.turns := by
  unfold serve
  by_cases hin : call.inp.IsIn c
  · obtain ⟨e, he⟩ := ChatCall.run_of_unsaid takes hclassic (h hin)
    have hrun : call.run env reg takes s.service =
        (.error e, (call.run env reg takes s.service).2) := Prod.ext he rfl
    rw [hrun]
  · cases call.run env reg takes s.service with
    | mk r w =>
      cases r with
      | error e => rfl
      | ok answer => exact if_neg hin

/-- Where something is said, a call that hands it over completes a turn with it. -/
theorem serve_turns_of_said (hclassic : env.settings.agentOrchestrator = .classic)
    (hin : call.inp.IsIn c) (hover : call.HandedOver env reg takes s.service) {actor : Agent}
    {final : Option LLMResponse} (hsaid : call.said? env reg s.service = some (actor, final)) :
    (s.serve env reg takes c call).turns = s.turns ++ [⟨call, saidText final⟩] := by
  obtain ⟨answer, hok, hreply⟩ := ChatCall.run_of_handedOver hclassic hover hsaid
  have hrun : call.run env reg takes s.service =
      (.ok answer, (call.run env reg takes s.service).2) := Prod.ext hok rfl
  unfold serve
  rw [hrun, ← hreply]
  exact if_pos hin

/-- The turn is one more of the agent that acts. -/
theorem answeredBy_concat {turns : List ChatTurn} {turn : ChatTurn} {actor key : String}
    (hactor : turn.call.actorKey? env reg = some actor) (w : Audited World) :
    answeredBy env reg ⟨w, turns ++ [turn]⟩ key =
      answeredBy env reg ⟨w, turns⟩ key ++ if key = actor then [turn] else [] := by
  rw [answeredBy, answeredBy, List.filter_append]
  congr 1
  by_cases h : key = actor
  · rw [if_pos h, h, List.filter_cons_of_pos (by simpa using hactor), List.filter_nil]
  · have hne : actor ≠ key := fun heq => h heq.symm
    rw [if_neg h, List.filter_cons_of_neg (by simpa [hactor] using hne), List.filter_nil]

/-- **The step**: an orderly call keeps the invariant. -/
theorem kept_serve (hclassic : env.settings.agentOrchestrator = .classic)
    (horderly : s.Orderly env reg takes c call) (h : s.Kept env reg c) :
    (s.serve env reg takes c call).Kept env reg c := by
  intro key
  obtain ⟨w, turns⟩ := s
  rw [serve_service, ChatCall.run_memory hclassic]
  unfold Orderly at horderly
  cases hsaid : call.said? env reg w with
  | none =>
    have hturns : (serve env reg takes c ⟨w, turns⟩ call).turns = turns :=
      serve_turns_of_unsaid hclassic fun _ => hsaid
    rw [answeredBy, hturns]
    exact h key
  | some said =>
    obtain ⟨actor, final⟩ := said
    dsimp only [rememberedAfter]
    by_cases hin : call.inp.IsIn c
    · rw [if_pos hin] at horderly
      have hone : answeredBy env reg (serve env reg takes c ⟨w, turns⟩ call) key =
          answeredBy env reg ⟨w, turns⟩ key ++
            if key = actor.key then [⟨call, saidText final⟩] else [] := by
        rw [← answeredBy_concat (ChatCall.actorKey?_of_said hsaid) w, answeredBy,
          serve_turns_of_said hclassic hin horderly hsaid]
        rfl
      rw [hone]
      by_cases hactor : key = actor.key
      · -- the agent that acts adds the turn to those it has
        rw [if_pos hactor, hactor, Function.update_self, hin.messages_append, h actor.key,
          takeLast_takeLast_append, transcript_append]
        simp [transcript]
      · -- every other agent keeps what it has
        rw [if_neg hactor, Function.update_of_ne hactor, List.append_nil]
        exact h key
    · rw [if_neg hin] at horderly
      have hturns : (serve env reg takes c ⟨w, turns⟩ call).turns = turns :=
        serve_turns_of_unsaid hclassic fun hin' => absurd hin' hin
      rw [answeredBy, hturns]
      by_cases hactor : key = actor.key
      · rw [hactor, Function.update_self, messages_append_of_other horderly]
        exact h actor.key
      · rw [Function.update_of_ne hactor]
        exact h key

/-- **What an agent remembers** at a moment of a run whose calls were orderly. -/
theorem kept_after (hclassic : env.settings.agentOrchestrator = .classic)
    (hstart : s.Kept env reg c) {calls : List ChatCall}
    (horderly : ∀ before call, before ++ [call] <+: calls →
      (s.after env reg takes c before).Orderly env reg takes c call) :
    (s.after env reg takes c calls).Kept env reg c := by
  induction calls using List.reverseRecOn with
  | nil => exact hstart
  | append_singleton calls call ih =>
    rw [after_concat]
    refine kept_serve hclassic (horderly calls call List.prefix_rfl) (ih ?_)
    exact fun before call' h => horderly before call' (h.trans (List.prefix_append _ _))

variable (takes) in
/-- The history of the first request is what the agent that acts answered. -/
theorem firstRequest_history (hclassic : env.settings.agentOrchestrator = .classic)
    (hkept : s.Kept env reg c) (hin : call.inp.IsIn c)
    (hguard : env.guard.guardInput call.inp.message = .ok ()) {key : String}
    (hactor : call.actorKey? env reg = some key) : ∃ prompt request,
      call.firstRequest? env reg takes s.service = some request ∧
        request.messages = ⟨.system, prompt, none⟩ ::
          (takeLast 10 (transcript (s.answeredBy env reg key)) ++
            [⟨.user, call.inp.message, none⟩]) := by
  obtain ⟨actor, rfl, request, hrequest, hmessages⟩ :=
    ChatCall.firstRequest_of_actor takes s.service hclassic hguard hactor
  refine ⟨actor.systemPrompt, request, hrequest, ?_⟩
  have hkey : AgentMemory.key call.inp.tenantId call.inp.userId
      (call.inp.conversationId.getD "") = c.key := hin.memoryKey_eq
  rw [hmessages, Agent.opening, MemoryStore.getShortTerm_eq _ hin.named, hkey, hkept actor.key,
    takeLast_takeLast (by decide)]

/-- A call goes on with the conversation if the agent that acts answered all of it. -/
theorem continued_of_undivided (hclassic : env.settings.agentOrchestrator = .classic)
    (hkept : s.Kept env reg c) (hin : call.inp.IsIn c) (hone : s.Undivided env reg call) :
    s.Continued env reg takes call := by
  intro request hrequest
  obtain ⟨hguard, key, hactor⟩ := ChatCall.actor_of_firstRequest hclassic hrequest
  obtain ⟨prompt, request', hrequest', hmessages⟩ :=
    firstRequest_history takes hclassic hkept hin hguard hactor
  obtain rfl := Option.some.inj (hrequest.symm.trans hrequest')
  have hall : s.answeredBy env reg key = s.turns := by
    rw [answeredBy, List.filter_eq_self]
    simpa using hone hguard key hactor
  rw [hall] at hmessages
  exact ⟨prompt, hmessages⟩

/-- One agent has answered every completed turn. -/
def OneActor (env : Env) (reg : AgentRegistry) (s : ChatState) : Prop :=
  ∃ key, ∀ turn ∈ s.turns, turn.call.actorKey? env reg = some key

/-- A call does not go on with a conversation that another agent has answered. -/
theorem undivided_of_continued (hclassic : env.settings.agentOrchestrator = .classic)
    (hkept : s.Kept env reg c) (hone : s.OneActor env reg) (hin : call.inp.IsIn c)
    (hcontinued : s.Continued env reg takes call) : s.Undivided env reg call := by
  intro hguard key hactor turn hturn
  obtain ⟨other, hother⟩ := hone
  by_contra hne
  have hkey : other ≠ key := fun heq => hne (heq ▸ hother turn hturn)
  have hnone : s.answeredBy env reg key = [] := by
    rw [answeredBy, List.filter_eq_nil_iff]
    intro turn' hturn'
    simpa [hother turn' hturn'] using hkey
  obtain ⟨prompt, request, hrequest, hmessages⟩ :=
    firstRequest_history takes hclassic hkept hin hguard hactor
  obtain ⟨prompt', hmessages'⟩ := hcontinued request hrequest
  rw [hnone, hmessages'] at hmessages
  -- the history it comes with is empty, but there is a turn
  have hempty : takeLast 10 (transcript s.turns) = [] :=
    List.append_cancel_right (List.cons.inj hmessages).2
  obtain ⟨before, after, hsplit⟩ := List.append_of_mem hturn
  have hlength := congrArg List.length hempty
  rw [takeLast, List.length_drop, hsplit, transcript_append, List.length_append] at hlength
  simp [transcript, MemoryOp.turn] at hlength
  omega

/-- The turns stay one agent's while no call is divided from them. -/
theorem oneActor_serve (hclassic : env.settings.agentOrchestrator = .classic)
    (horderly : s.Orderly env reg takes c call)
    (hone : call.inp.IsIn c → s.Undivided env reg call) (h : s.OneActor env reg) :
    (s.serve env reg takes c call).OneActor env reg := by
  unfold Orderly at horderly
  by_cases hin : call.inp.IsIn c
  · rw [if_pos hin] at horderly
    cases hsaid : call.said? env reg s.service with
    | none =>
      rw [OneActor, serve_turns_of_unsaid hclassic fun _ => hsaid]
      exact h
    | some said =>
      obtain ⟨actor, final⟩ := said
      have hactor := ChatCall.actorKey?_of_said hsaid
      refine ⟨actor.key, fun turn hturn => ?_⟩
      rw [serve_turns_of_said hclassic hin horderly hsaid] at hturn
      rcases List.mem_append.1 hturn with hearlier | hnew
      · exact hone hin (ChatCall.guard_of_said hsaid) actor.key hactor turn hearlier
      · rw [List.mem_singleton.1 hnew]
        exact hactor
  · rw [OneActor, serve_turns_of_unsaid hclassic fun hin' => absurd hin' hin]
    exact h

end ChatState

/-- **When a conversation goes on**, over every run of orderly calls, from a conversation that has
not begun: the first request of every turn comes with the last ten messages of the completed
turns, if and only if at every turn the agent that acts has answered all of them. -/
theorem continued_iff (env : Env) (hclassic : env.settings.agentOrchestrator = .classic)
    (reg : AgentRegistry) (takes : ℕ → Bool) (c : Conversation) (w : Audited World)
    (hnew : ∀ key, (w.world.memory key).messages c.key = []) (calls : List ChatCall)
    (horderly : ∀ before call, before ++ [call] <+: calls →
      (ChatState.after env reg takes c ⟨w, []⟩ before).Orderly env reg takes c call) :
    (∀ before call, before ++ [call] <+: calls → call.inp.IsIn c →
        (ChatState.after env reg takes c ⟨w, []⟩ before).Continued env reg takes call) ↔
      ∀ before call, before ++ [call] <+: calls → call.inp.IsIn c →
        (ChatState.after env reg takes c ⟨w, []⟩ before).Undivided env reg call := by
  have hstart : ChatState.Kept env reg c ⟨w, []⟩ := fun key => hnew key
  have hkept : ∀ before call, before ++ [call] <+: calls →
      (ChatState.after env reg takes c ⟨w, []⟩ before).Kept env reg c := by
    intro before call hprefix
    refine ChatState.kept_after hclassic hstart fun before' call' hprefix' => ?_
    exact horderly before' call' (hprefix'.trans ((List.prefix_append _ _).trans hprefix))
  constructor
  · intro hcontinued
    -- up to a turn that is divided from the others, they are one agent's
    have hone : ∀ before, before <+: calls →
        (∀ before' call, before' ++ [call] <+: before → call.inp.IsIn c →
          (ChatState.after env reg takes c ⟨w, []⟩ before').Undivided env reg call) ∧
        (ChatState.after env reg takes c ⟨w, []⟩ before).OneActor env reg := by
      intro before
      induction before using List.reverseRecOn with
      | nil =>
        intro _
        refine ⟨fun before' call hprefix => ?_, "", fun turn hturn => ?_⟩
        · simp at hprefix
        · cases hturn
      | append_singleton before call ih =>
        intro hprefix
        obtain ⟨hearlier, hactor⟩ := ih ((List.prefix_append _ _).trans hprefix)
        have hlast : call.inp.IsIn c →
            (ChatState.after env reg takes c ⟨w, []⟩ before).Undivided env reg call :=
          fun hin => ChatState.undivided_of_continued hclassic (hkept before call hprefix) hactor
            hin (hcontinued before call hprefix hin)
        constructor
        · intro before' call' hprefix' hin'
          rcases List.prefix_concat_iff.1 hprefix' with heq | hshorter
          · obtain ⟨rfl, hcall⟩ := List.append_inj' heq rfl
            obtain rfl := List.singleton_inj.1 hcall
            exact hlast hin'
          · exact hearlier before' call' hshorter hin'
        · rw [ChatState.after_concat]
          exact ChatState.oneActor_serve hclassic (horderly before call hprefix) hlast hactor
    exact (hone calls List.prefix_rfl).1
  · intro hone before call hprefix hin
    exact ChatState.continued_of_undivided hclassic (hkept before call hprefix) hin
      (hone before call hprefix hin)

end Chats

/-! ## Two agents in one conversation -/

/-- A conversation of the customer, and two messages in it. -/
def demoConversation : Conversation := ⟨"t1", "cust_1001", "conv1", by decide⟩

def profileQuestion : ChatCall := ⟨demoInput, some "support"⟩

def followUp (hint : String) : ChatCall :=
  ⟨{ demoInput with correlationId := "c2", message := "And what did I just ask?" }, some hint⟩

/-- A model that answers with a text. -/
def demoChatEnv : Env := demoEnv fun _ => some (replies "Here you are.")

theorem concat_prefix_pair {α : Type} {before : List α} {x a b : α}
    (h : before ++ [x] <+: [a, b]) : before = [] ∧ x = a ∨ before = [a] ∧ x = b := by
  cases before with
  | nil => exact Or.inl ⟨rfl, by simpa using h⟩
  | cons y before =>
    cases before with
    | nil => exact Or.inr (by simpa using h)
    | cons z before => simp [List.cons_prefix_cons] at h

/-- A second message for support is asked with the first turn before it. -/
theorem support_continues :
    (ChatState.after demoChatEnv agentRegistry (fun _ => true) demoConversation
      ⟨⟨World.initial, {}⟩, []⟩ [profileQuestion]).Continued demoChatEnv agentRegistry
      (fun _ => true) (followUp "support") := by
  refine (continued_iff demoChatEnv rfl agentRegistry (fun _ => true) demoConversation
    ⟨World.initial, {}⟩ (fun _ => rfl) [profileQuestion, followUp "support"] ?_).2 ?_
    [profileQuestion] (followUp "support") List.prefix_rfl (by decide)
  · intro before call hprefix
    rcases concat_prefix_pair hprefix with ⟨rfl, rfl⟩ | ⟨rfl, rfl⟩
    · rintro agent actor final ⟨⟩ ⟨⟩
      exact ⟨rfl, rfl, show "Here you are." ≠ "" by decide⟩
    · rintro agent actor final ⟨⟩ ⟨⟩
      exact ⟨rfl, rfl, show "Here you are." ≠ "" by decide⟩
  · intro before call hprefix _ _ key hkey turn hturn
    rcases concat_prefix_pair hprefix with ⟨rfl, rfl⟩ | ⟨rfl, rfl⟩
    · cases hturn
    · rw [← hkey]
      obtain rfl : turn = ⟨profileQuestion, "Here you are."⟩ := List.mem_singleton.1 hturn
      rfl

/-- A second message that is routed to another agent is asked without the first turn. -/
theorem routed_elsewhere_not_continued :
    let s := ChatState.after demoChatEnv agentRegistry (fun _ => true) demoConversation
      ⟨⟨World.initial, {}⟩, []⟩ [profileQuestion]
    s.turns.length = 1 ∧
      ¬ s.Continued demoChatEnv agentRegistry (fun _ => true) (followUp "insurance") := by
  refine ⟨rfl, fun hcontinued => ?_⟩
  obtain ⟨prompt, hmessages⟩ := hcontinued _ rfl
  have hlength : 2 = 4 := congrArg List.length hmessages
  exact absurd hlength (by decide)

end AgentPlatform
