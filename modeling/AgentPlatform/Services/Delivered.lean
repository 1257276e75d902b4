import AgentPlatform.Graph.Turn
import AgentPlatform.Services.AgentService

/-!
# What is delivered and what is recorded

An agent records and remembers the text it said.  What is delivered is another text where the
agent said nothing, and where a supervisor composed the answer anew.

* `composedText?` — the text a supervisor has composed.
* `ReplyRecorded` — a reply is the one in a new row, up to masking, and the one that is remembered.
* `DeliversSaid` — what is delivered is what the acting agent said.
* `delivered_recorded_iff` — **when what is delivered is recorded**, for every call that returns.
-/

namespace AgentPlatform

/-- Only the empty text is masked by the empty text. -/
theorem maskText_eq_empty_iff {rt : PyRuntime} {text : String} :
    maskText rt text = "" ↔ text = "" := by
  rw [← String.toList_inj, maskText, String.toList_ofList, String.toList_empty,
    Regex.sub_eq_nil_iff (by decide), Regex.sub_eq_nil_iff (by decide),
    Regex.sub_eq_nil_iff (by decide), Regex.sub_eq_nil_iff (by decide), String.toList_eq_nil_iff]

theorem fallbackReply_ne_empty : fallbackReply ≠ "" := by decide

section Said

variable (env : Env) (inp : AgentInput) (w : World)

/-- The text of the response to the request a supervisor composes its answer with. -/
def ExecutionPath.composedText? (path : ExecutionPath) : Option String :=
  match path.composing env inp (path.loop env inp w) with
  | [.asked _ (some response)] => some response.text
  | _ => none

/-- What is delivered is what the agent said: the text of its last response, which is not empty;
or the text a supervisor composed is the same (or it is masked alike, and nothing is remembered
for want of a conversation). -/
def ExecutionPath.DeliversSaid (path : ExecutionPath) : Prop :=
  ∃ actor final, path.acting env inp = some actor ∧ actor.outcome env inp w = .ok final ∧
    match path.composedText? env inp w with
    | none => saidText final ≠ ""
    | some composed => saidText final = composed ∨
        inp.conversationId.getD "" = "" ∧
          maskText env.runtime (saidText final) = maskText env.runtime composed

/-- The reply is, up to masking, the one in a row that is new, and the one that was added to the
memory of the acting agent. -/
def ExecutionPath.ReplyRecorded (path : ExecutionPath) (v : World) (reply : String) : Prop :=
  ∃ actor rows run, path.acting env inp = some actor ∧ v.runs.rows = w.runs.rows ++ rows ∧
    run ∈ rows ∧
    run.reply? = some (maskText env.runtime reply) ∧
    v.memory = Function.update w.memory actor.key ((w.memory actor.key).append inp reply)

variable {env inp w}

/-- What a run that returned has said. -/
structure ExecutionPath.Spoken (env : Env) (inp : AgentInput) (w : World) (path : ExecutionPath)
    (actor : Agent) (final : Option LLMResponse) (reply : String) (v : World) : Prop where
  acting : path.acting env inp = some actor
  outcome : actor.outcome env inp w = .ok final
  memory : v.memory = Function.update w.memory actor.key
    ((w.memory actor.key).append inp (saidText final))
  row : ∃ report : RunReport, report.reply = saidText final ∧
    v.runs.rows = w.runs.rows ++ [report.row env.runtime]
  reply : reply = (path.composedText? env inp w).getD (Agent.handedOut (saidText final))

/-- A specialist hands out what it said. -/
theorem spoken_specialist {agent : Agent} {r : AgentResult} {v : World}
    (h : agent.invoke env inp w = (.ok r, v)) : ∃ final,
      ExecutionPath.Spoken env inp w (.specialist agent) agent final r.reply v := by
  obtain ⟨hcommit, final, houtcome, hsaid⟩ := Agent.said_of_ok h
  obtain ⟨used, outputs, hresult, hruns⟩ := hsaid.taken hcommit
  obtain rfl := Except.ok.inj hresult
  have hnone : (ExecutionPath.specialist agent).composedText? env inp w = none := by
    have hcomposing : (ExecutionPath.specialist agent).composing env inp
        ((ExecutionPath.specialist agent).loop env inp w) = [] :=
      ExecutionPath.composing_of_uncomposed (fun _ => rfl) _
    rw [ExecutionPath.composedText?, hcomposing]
  exact ⟨final, rfl, houtcome, hsaid.memory, ⟨_, rfl, congrArg Journal.rows hruns⟩,
    by rw [hnone]; rfl⟩

variable (env inp) in
/-- Composing an answer changes neither the memory nor the table of runs. -/
theorem Supervisor.answer_keeps (agent : Agent) (result : AgentResult) (v : World) :
    (Supervisor.answer env inp agent result v).2.memory = v.memory ∧
      (Supervisor.answer env inp agent result v).2.runs = v.runs := by
  have hkeeps : Keeps (fun u : World => u.memory = v.memory ∧ u.runs = v.runs)
      (Supervisor.answer env inp agent result) := by
    refine Keeps.bind (fun u hu => ?_) fun response => ?_
    · unfold Env.ask
      split
      · exact hu
      · exact hu
    · exact Keeps.bind (Keeps.ofExcept _) fun _ => Keeps.pure _
  exact hkeeps v ⟨rfl, rfl⟩

/-- A supervisor returns the text it composed, if there is one and it is clean. -/
theorem ExecutionPath.answer_cases {reg : AgentRegistry} {agent : Agent} {result : AgentResult}
    {v : World} (hspecialist : reg.specialist env.runtime inp.message = some agent)
    (hloop : (supervisor reg).loop env inp w = (.ok result, v)) :
    (∃ e, (Supervisor.answer env inp agent result v).1 = .error e ∧
      ∀ text, (supervisor reg).composedText? env inp w = some text → ¬ env.guard.Clean text) ∨
    ∃ r, (Supervisor.answer env inp agent result v).1 = .ok r ∧
      (supervisor reg).composedText? env inp w = some r.reply := by
  rw [composedText?, hloop]
  simp only [composing, composeRequest?, hspecialist, Option.map_some, Option.toList_some,
    List.map_cons, List.map_nil]
  unfold Supervisor.answer
  rw [Effect.bind_apply]
  unfold Env.ask
  cases env.answer v.log
      { model := "mock", provider := "mock"
        messages := Supervisor.composeMessages env.runtime inp.message agent.key result.reply
          result.toolOutputs } with
  | none => exact Or.inl ⟨_, rfl, fun text htext => by cases htext⟩
  | some response =>
    simp only [Effect.bind_apply, Effect.ofExcept_apply]
    cases hguard : env.guard.guardOutput response.text with
    | error e =>
      refine Or.inl ⟨_, rfl, ?_⟩
      rintro text ⟨⟩ hclean
      rw [env.guard.guardOutput_eq_ok_iff.2 hclean] at hguard
      cases hguard
    | ok u => exact Or.inr ⟨_, rfl, rfl⟩

/-- A supervisor hands out what it composed. -/
theorem spoken_supervisor {reg : AgentRegistry} {r : AgentResult} {v : World}
    (h : (ExecutionPath.supervisor reg).run env inp w = (.ok r, v)) : ∃ actor final,
      ExecutionPath.Spoken env inp w (.supervisor reg) actor final r.reply v := by
  rcases ExecutionPath.supervisor_cases env inp reg w with
    ⟨e, e', -, hraised, -⟩ | ⟨agent, result, u, hspecialist, hloop, hrun⟩
  · rw [h] at hraised
    cases hraised
  · have hacting : (ExecutionPath.supervisor reg).acting env inp = some agent := hspecialist
    have hinvoke : agent.invoke env inp w = (.ok result, u) := by
      rw [ExecutionPath.loop_of_acting hacting] at hloop
      exact hloop
    obtain ⟨hcommit, final, houtcome, hsaid⟩ := Agent.said_of_ok hinvoke
    obtain ⟨used, outputs, -, hruns⟩ := hsaid.taken hcommit
    rw [hrun] at h
    obtain ⟨hmemory, hsame⟩ := Supervisor.answer_keeps env inp agent result u
    rw [h] at hmemory hsame
    have htext : (ExecutionPath.supervisor reg).composedText? env inp w = some r.reply := by
      rcases ExecutionPath.answer_cases hspecialist hloop with ⟨e, herror, -⟩ | ⟨r', hok, htext⟩
      · rw [h] at herror
        cases herror
      · rw [h] at hok
        obtain rfl := Except.ok.inj hok
        exact htext
    refine ⟨agent, final, hacting, houtcome, hmemory.trans hsaid.memory,
      ⟨_, rfl, congrArg Journal.rows (hsame.trans hruns)⟩, ?_⟩
    rw [htext]
    rfl

/-- A reply is recorded if it is masked as what was said, and is the same where a turn is
remembered. -/
theorem replyRecorded_iff {path : ExecutionPath} {actor : Agent} {final : Option LLMResponse}
    {reply : String} {v : World} (hlower : env.runtime.LowersAscii)
    (h : path.Spoken env inp w actor final reply v) :
    path.ReplyRecorded env inp w v reply ↔
      maskText env.runtime (saidText final) = maskText env.runtime reply ∧
        (inp.conversationId.getD "" = "" ∨ saidText final = reply) := by
  obtain ⟨report, hreport, hruns⟩ := h.row
  have hkey : isSensitive env.runtime "reply" = false := by
    rw [isSensitive, hlower "reply" (by simp)]
    decide
  have hrow : (report.row env.runtime).reply? = some (maskText env.runtime (saidText final)) := by
    rw [report.reply?_row hkey, hreport]
  rw [← AgentMemory.append_eq_append_iff (m := w.memory actor.key)]
  constructor
  · rintro ⟨actor', rows, run, hacting, hrows, hrun, hreply, hmemory⟩
    obtain rfl := Option.some.inj (h.acting.symm.trans hacting)
    rw [hruns, List.append_cancel_left_eq] at hrows
    subst hrows
    rw [List.mem_singleton.1 hrun, hrow] at hreply
    refine ⟨Option.some.inj hreply, ?_⟩
    have hsame := congrFun (h.memory.symm.trans hmemory) actor.key
    rwa [Function.update_self, Function.update_self] at hsame
  · rintro ⟨hmask, hmemory⟩
    refine ⟨actor, _, report.row env.runtime, h.acting, hruns, List.mem_singleton_self _, ?_, ?_⟩
    · rw [hrow, hmask]
    · rw [h.memory, hmemory]

/-- When what is delivered is recorded, by what was said and composed. -/
theorem replyRecorded_iff_deliversSaid {path : ExecutionPath} {actor : Agent}
    {final : Option LLMResponse} {reply : String} {v : World} (hlower : env.runtime.LowersAscii)
    (h : path.Spoken env inp w actor final reply v) :
    path.ReplyRecorded env inp w v reply ↔ path.DeliversSaid env inp w := by
  have hdelivers : path.DeliversSaid env inp w ↔
      match path.composedText? env inp w with
      | none => saidText final ≠ ""
      | some composed => saidText final = composed ∨ inp.conversationId.getD "" = "" ∧
          maskText env.runtime (saidText final) = maskText env.runtime composed := by
    constructor
    · rintro ⟨actor', final', hacting, houtcome, hmatch⟩
      obtain rfl := Option.some.inj (h.acting.symm.trans hacting)
      obtain rfl := Except.ok.inj (h.outcome.symm.trans houtcome)
      exact hmatch
    · exact fun hmatch => ⟨actor, final, h.acting, h.outcome, hmatch⟩
  rw [replyRecorded_iff hlower h, hdelivers, h.reply]
  cases path.composedText? env inp w with
  | none =>
    dsimp only [Option.getD_none]
    by_cases hempty : saidText final = ""
    · -- the fallback text is handed out, and nothing is recorded
      rw [hempty]
      refine iff_of_false ?_ fun hne => hne rfl
      rintro ⟨hmask, -⟩
      rw [maskText_eq_empty_iff.2 rfl, eq_comm, maskText_eq_empty_iff] at hmask
      exact fallbackReply_ne_empty hmask
    · have hsame : Agent.handedOut (saidText final) = saidText final := if_neg hempty
      rw [hsame]
      exact iff_of_true ⟨rfl, Or.inr rfl⟩ hempty
  | some composed =>
    dsimp only [Option.getD_some]
    constructor
    · rintro ⟨hmask, hnone | hsame⟩
      · exact Or.inr ⟨hnone, hmask⟩
      · exact Or.inl hsame
    · rintro (rfl | ⟨hnone, hmask⟩)
      · exact ⟨rfl, Or.inr rfl⟩
      · exact ⟨hmask, Or.inl hnone⟩

end Said

/-- A call that returns hands out the reply of its run. -/
theorem run_of_answer {env : Env} {reg : AgentRegistry} {takes : ℕ → Bool} {inp : AgentInput}
    {hint : Option String} {w w' : Audited World} {agent : Agent} {answer : AgentAnswer}
    (hagent : reg.getAgent (agentKeyOr (reg.route env.runtime inp hint)) = some agent)
    (h : runAgentForUser env reg takes inp hint w = (.ok answer, w')) :
    ∃ result, (agent.path env reg).run env inp w.world = (.ok result, w'.world) ∧
      answer.reply = result.reply := by
  obtain ⟨r, v, hrun⟩ : ∃ r v, (agent.path env reg).run env inp w.world = (r, v) := ⟨_, _, rfl⟩
  cases r with
  | ok result =>
    rw [runAgentForUser_of_ok hagent hrun] at h
    cases htake : takes w.audits.asked with
    | false =>
      rw [htake] at h
      cases h
    | true =>
      rw [htake] at h
      cases h
      exact ⟨result, hrun, rfl⟩
  | error e =>
    cases hdenied : e.denied? env.runtime with
    | none =>
      rw [runAgentForUser_of_raised hagent hrun hdenied] at h
      cases h
    | some reason =>
      rw [runAgentForUser_of_denied hagent hrun hdenied] at h
      cases htake : takes w.audits.asked with
      | false =>
        rw [htake] at h
        cases h
      | true =>
        rw [htake] at h
        cases h

/-- **When what is delivered is recorded**, for every call that returns under the classic
orchestrator: the reply is in a new row, up to masking, and in the memory, if and only if what is
delivered is what the acting agent said. -/
theorem delivered_recorded_iff (env : Env) (hclassic : env.settings.agentOrchestrator = .classic)
    (hlower : env.runtime.LowersAscii) (reg : AgentRegistry) (takes : ℕ → Bool) (inp : AgentInput)
    (hint : Option String) (w w' : Audited World) (agent : Agent) (answer : AgentAnswer)
    (hagent : reg.getAgent (agentKeyOr (reg.route env.runtime inp hint)) = some agent)
    (h : runAgentForUser env reg takes inp hint w = (.ok answer, w')) :
    (agent.path env reg).ReplyRecorded env inp w.world w'.world answer.reply ↔
      (agent.path env reg).DeliversSaid env inp w.world := by
  obtain ⟨result, hrun, hreply⟩ := run_of_answer hagent h
  rw [hreply]
  unfold Agent.path at hrun ⊢
  rw [hclassic] at hrun ⊢
  dsimp only at hrun ⊢
  by_cases hsupervisor : agent.key = "supervisor"
  · rw [if_pos hsupervisor] at hrun ⊢
    obtain ⟨actor, final, hspoken⟩ := spoken_supervisor hrun
    exact replyRecorded_iff_deliversSaid hlower hspoken
  · rw [if_neg hsupervisor] at hrun ⊢
    obtain ⟨final, hspoken⟩ := spoken_specialist hrun
    exact replyRecorded_iff_deliversSaid hlower hspoken

/-- A call for support that looks up a profile: the answer is delivered as it was said. -/
theorem support_call_delivered :
    (ExecutionPath.specialist customerSupportAgent).ReplyRecorded
      (demoEnv (callsOnce [profileCall])) demoInput World.initial
      (runAgentForUser (demoEnv (callsOnce [profileCall])) agentRegistry (fun _ => true) demoInput
        (some "support") ⟨World.initial, {}⟩).2.world "Done." :=
  (delivered_recorded_iff (demoEnv (callsOnce [profileCall])) rfl PyRuntime.ascii_lowersAscii
    agentRegistry (fun _ => true) demoInput (some "support") ⟨World.initial, {}⟩ _
    customerSupportAgent _ rfl rfl).2
      ⟨customerSupportAgent, _, rfl, rfl, show "Done." ≠ "" by decide⟩

/-- A model that answers with one text first, and with another one then. -/
def answersThen (first later : String) (requests : List LLMRequest) : Option LLMResponse :=
  some (replies (if requests.length = 1 then first else later))

/-- A specialist that says nothing, and a supervisor that composes another text: what is delivered
is neither recorded nor remembered. -/
theorem delivered_not_recorded :
    (∃ answer w', runAgentForUser (demoEnv (answersThen "" "")) agentRegistry (fun _ => true)
        demoInput (some "support") ⟨World.initial, {}⟩ = (.ok answer, w') ∧
      answer.reply = fallbackReply ∧
      ¬ (ExecutionPath.specialist customerSupportAgent).ReplyRecorded (demoEnv (answersThen "" ""))
        demoInput World.initial w'.world answer.reply) ∧
    ∃ answer w', runAgentForUser (demoEnv (answersThen "Your EMI is 5000." "It is 5000."))
        agentRegistry (fun _ => true) demoInput (some "orchestrate") ⟨World.initial, {}⟩ =
          (.ok answer, w') ∧
      answer.reply = "It is 5000." ∧
      ¬ (ExecutionPath.supervisor agentRegistry).ReplyRecorded
        (demoEnv (answersThen "Your EMI is 5000." "It is 5000.")) demoInput World.initial w'.world
        answer.reply := by
  constructor
  · refine ⟨_, _, rfl, rfl, ?_⟩
    have hrun : customerSupportAgent.invoke (demoEnv (answersThen "" "")) demoInput
        World.initial = (.ok _, _) := rfl
    obtain ⟨final, hspoken⟩ := spoken_specialist hrun
    have hfinal : some (replies "") = final := Except.ok.inj hspoken.outcome
    subst hfinal
    intro hrecorded
    have hsame := ((replyRecorded_iff PyRuntime.ascii_lowersAscii hspoken).1 hrecorded).2
    exact absurd hsame (by decide)
  · set env := demoEnv (answersThen "Your EMI is 5000." "It is 5000.") with henv
    have hreply : (runAgentForUser env agentRegistry (fun _ => true) demoInput
        (some "orchestrate") ⟨World.initial, {}⟩).1.toOption.map AgentAnswer.reply =
          some "It is 5000." := by decide +kernel
    have hkey : agentRegistry.specialistKey .ascii demoInput.message = "customer_support" := by
      decide +kernel
    have hspecialist : agentRegistry.specialist .ascii demoInput.message =
        some customerSupportAgent := by
      rw [← agentRegistry.getAgent_specialistKey, hkey]
      rfl
    cases hcall : runAgentForUser env agentRegistry (fun _ => true) demoInput
        (some "orchestrate") ⟨World.initial, {}⟩ with
    | mk r w' =>
      rw [hcall] at hreply
      cases r with
      | error e => cases hreply
      | ok answer =>
        refine ⟨answer, w', rfl, Option.some.inj hreply, ?_⟩
        have hagent : agentRegistry.getAgent (agentKeyOr (agentRegistry.route env.runtime demoInput
            (some "orchestrate"))) = some supervisorAgent := rfl
        obtain ⟨result, hrun, hsame⟩ := run_of_answer hagent hcall
        obtain ⟨actor, final, hspoken⟩ : ∃ actor final, ExecutionPath.Spoken env demoInput
            World.initial (.supervisor agentRegistry) actor final result.reply w'.world :=
          spoken_supervisor hrun
        obtain rfl : customerSupportAgent = actor :=
          Option.some.inj (hspecialist.symm.trans hspoken.acting)
        have hfinal : some (replies "Your EMI is 5000.") = final :=
          Except.ok.inj hspoken.outcome
        subst hfinal
        rw [← hsame] at hspoken
        intro hrecorded
        have hrecords := ((replyRecorded_iff PyRuntime.ascii_lowersAscii hspoken).1 hrecorded).2
        rw [Option.some.inj hreply] at hrecords
        exact absurd hrecords (by decide)

end AgentPlatform
