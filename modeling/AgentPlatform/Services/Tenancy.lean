import AgentPlatform.Agents.Confinement
import AgentPlatform.Agents.Namespaces
import AgentPlatform.Agents.Snapshots
import AgentPlatform.Gateway.Accounting
import AgentPlatform.Graph.SideBySide
import AgentPlatform.Lib.Unwinding

/-!
# One process, many tenants

Whoever chats shares the agents of one process: their conversations, their threads and their token
counts.  A party is any group of principals, a tenant or a single user.  If the names of the
principals have no colon, and nobody runs a graph on a thread of another party, then a party is
answered as if it were alone.

* `Parties` — who belongs to whom; `Parties.view` — what a party sees of the process.
* `chatMachine` — the process as a machine shared by the parties: a chat is answered with its
  result, but for the token counts, and with what the model was asked and the tools were called.
* `chatMachine_unwinds` — **the step**: on every path.
* `chats_noninterference` — **the run.**
* `chats_confined` — a customer's chats tell nothing of the records of others, whatever the others
  have done before.
-/

namespace AgentPlatform

open Unwinding

/-! ## Parties -/

/-- The party of a principal, by tenant and user, and the party of a thread. -/
structure Parties (G : Type) where
  principal : String → String → G
  thread : String → G

namespace Parties

variable {G : Type} (P : Parties G)

/-- The party of a request. -/
def of (inp : AgentInput) : G := P.principal inp.tenantId inp.userId

/-- The party has the thread, if there is one, and the names of the principal have no colon. -/
structure Owned (chat : Chat) : Prop where
  tenant : ':' ∉ chat.inp.tenantId.toList
  user : ':' ∉ chat.inp.userId.toList
  thread : chat.path.Graph → P.thread chat.inp.correlationId = P.of chat.inp

/-- A chat on what its party owns. -/
structure OwnedChat where
  chat : Chat
  owned : P.Owned chat

/-- The party of a chat. -/
def dom (c : P.OwnedChat) : G := P.of c.chat.inp

/-- A key the party's conversations are kept under. -/
def Key (d : G) (k : String) : Prop :=
  ∃ tenantId userId conversation, ':' ∉ tenantId.toList ∧ ':' ∉ userId.toList ∧
    P.principal tenantId userId = d ∧ k = AgentMemory.key tenantId userId conversation

/-- What a party sees: its conversations and its threads. -/
def view (d : G) (w : World) :
    (String → {k // P.Key d k} → List ChatMessage) ×
      (String → {threadId // P.thread threadId = d} → AgentGraphState) :=
  (fun agentKey k => (w.memory agentKey).messages k, fun agentKey t => w.checkpoints agentKey t)

variable {P} {d : G} {w v : World}

theorem view_eq_iff : P.view d w = P.view d v ↔
    (∀ agentKey k, P.Key d k → (w.memory agentKey).messages k = (v.memory agentKey).messages k) ∧
      ∀ agentKey threadId, P.thread threadId = d →
        w.checkpoints agentKey threadId = v.checkpoints agentKey threadId := by
  simp only [view, Prod.mk.injEq, funext_iff, Subtype.forall]

/-- The conversation of a request of the party is kept under a key of the party. -/
theorem key_of {inp : AgentInput} (htenant : ':' ∉ inp.tenantId.toList)
    (huser : ':' ∉ inp.userId.toList) : P.Key (P.of inp) inp.memoryKey :=
  ⟨_, _, _, htenant, huser, rfl, rfl⟩

/-- A request of another party has another key. -/
theorem key_ne {inp : AgentInput} (htenant : ':' ∉ inp.tenantId.toList)
    (huser : ':' ∉ inp.userId.toList) (hother : P.of inp ≠ d) {k : String} (hk : P.Key d k) :
    k ≠ inp.memoryKey := by
  obtain ⟨tenantId, userId, conversation, htenant', huser', hprincipal, rfl⟩ := hk
  intro heq
  have hnames : Delimited.join ':' tenantId.toList userId.toList conversation.toList =
      Delimited.join ':' inp.tenantId.toList inp.userId.toList
        (inp.conversationId.getD "").toList := by
    have hlists := congrArg String.toList heq
    simpa [AgentInput.memoryKey, AgentMemory.key, Delimited.join, toString, String.toList_append]
      using hlists
  obtain ⟨ht, hu, -⟩ := Delimited.join_inj_front htenant' huser' htenant huser hnames
  apply hother
  rw [of, ← String.toList_inj.1 ht, ← String.toList_inj.1 hu, hprincipal]

end Parties

/-! ## Two processes, alike to a party -/

/-- From `w₀` to `w` and from `v₀` to `v` the same was asked and called, and the party sees the
same. -/
structure Indistinct {G : Type} (P : Parties G) (d : G) (w₀ v₀ w v : World) : Prop where
  view : P.view d w = P.view d v
  requests : ∃ requests, requestsIn w.log = requestsIn w₀.log ++ requests ∧
    requestsIn v.log = requestsIn v₀.log ++ requests
  calls : ∃ calls, invocationsIn w.log = invocationsIn w₀.log ++ calls ∧
    invocationsIn v.log = invocationsIn v₀.log ++ calls

section Indistinct

variable {G : Type} {P : Parties G} {d : G} {env : Env} {inp : AgentInput} {w₀ v₀ w v : World}

theorem Indistinct.start (h : P.view d w₀ = P.view d v₀) : Indistinct P d w₀ v₀ w₀ v₀ :=
  ⟨h, ⟨[], by simp, by simp⟩, ⟨[], by simp, by simp⟩⟩

/-- On both sides, an event that asks and calls the same. -/
theorem Indistinct.push (h : Indistinct P d w₀ v₀ w v) {e e' : Event}
    (hrequest : e'.request? = e.request?) (hcall : e'.invocation? = e.invocation?) :
    Indistinct P d w₀ v₀ (w.push e) (v.push e') := by
  obtain ⟨requests, hw, hv⟩ := h.requests
  obtain ⟨calls, hw', hv'⟩ := h.calls
  have hrequests : requestsIn [e'] = requestsIn [e] := by
    simp only [requestsIn, List.filterMap_cons, hrequest]
  have hcalls : invocationsIn [e'] = invocationsIn [e] := by
    simp only [invocationsIn, List.filterMap_cons, hcall]
  refine ⟨h.view, ⟨requests ++ requestsIn [e], ?_, ?_⟩, ⟨calls ++ invocationsIn [e], ?_, ?_⟩⟩
  · show requestsIn (w.log ++ [e]) = _
    rw [requestsIn_append, hw, List.append_assoc]
  · show requestsIn (v.log ++ [e']) = _
    rw [requestsIn_append, hv, hrequests, List.append_assoc]
  · show invocationsIn (w.log ++ [e]) = _
    rw [invocationsIn_append, hw', List.append_assoc]
  · show invocationsIn (v.log ++ [e']) = _
    rw [invocationsIn_append, hv', hcalls, List.append_assoc]

/-- What is kept under a key after a turn, from what was. -/
theorem messages_append_congr {m m' : AgentMemory} {k : String}
    (h : m.messages k = m'.messages k) (inp : AgentInput) (reply : String) :
    (m.append inp reply).messages k = (m'.append inp reply).messages k := by
  by_cases hconversation : inp.conversationId.getD "" = ""
  · rw [AgentMemory.append_of_no_conversation hconversation,
      AgentMemory.append_of_no_conversation hconversation, h]
  · rw [MemoryStore.messages_append _ _ _ hconversation,
      MemoryStore.messages_append _ _ _ hconversation, h]

/-- A turn that is remembered on both sides. -/
theorem Parties.view_remember (h : P.view d w = P.view d v) (agentKey : String)
    (inp : AgentInput) (reply : String) :
    P.view d (Env.remember agentKey inp reply w).2 =
      P.view d (Env.remember agentKey inp reply v).2 := by
  obtain ⟨hconversations, hthreads⟩ := Parties.view_eq_iff.1 h
  refine Parties.view_eq_iff.2 ⟨fun key k hk => ?_, hthreads⟩
  show (Function.update w.memory agentKey _ key).messages k =
    (Function.update v.memory agentKey _ key).messages k
  by_cases hkey : key = agentKey
  · subst hkey
    rw [Function.update_self, Function.update_self]
    exact messages_append_congr (hconversations key k hk) inp reply
  · rw [Function.update_of_ne hkey, Function.update_of_ne hkey]
    exact hconversations key k hk

/-- The history of a request of the party is what the party sees. -/
theorem Parties.opening_congr (htenant : ':' ∉ inp.tenantId.toList)
    (huser : ':' ∉ inp.userId.toList) (h : P.view (P.of inp) w = P.view (P.of inp) v)
    (agent : Agent) : agent.opening inp w = agent.opening inp v := by
  have hmessages := (Parties.view_eq_iff.1 h).1 agent.key inp.memoryKey
    (Parties.key_of htenant huser)
  have hhistory :
      (w.memory agent.key).getShortTerm inp = (v.memory agent.key).getShortTerm inp := by
    by_cases hconversation : inp.conversationId.getD "" = ""
    · rw [MemoryStore.getShortTerm_of_no_conversation _ hconversation,
        MemoryStore.getShortTerm_of_no_conversation _ hconversation]
    · rw [MemoryStore.getShortTerm_eq _ hconversation, MemoryStore.getShortTerm_eq _ hconversation]
      exact congrArg _ hmessages
  rw [Agent.opening, Agent.opening, hhistory]

/-- **The operations of a run cannot tell the processes apart.** -/
theorem indistinct_sideBySide (h : env.Memoryless) (htenant : ':' ∉ inp.tenantId.toList)
    (huser : ':' ∉ inp.userId.toList) : SideBySide env inp (Indistinct P (P.of inp) w₀ v₀) where
  ask request w v hR := by
    have hanswer : env.answer v.log request = env.answer w.log request := h.complete _ _ _
    unfold Env.ask
    rw [hanswer]
    cases env.answer w.log request with
    | none => exact ⟨rfl, hR.push rfl rfl⟩
    | some response => exact ⟨rfl, hR.push rfl rfl⟩
  call invocation w v hR := by
    refine ⟨?_, hR.push rfl rfl⟩
    show Except.ok (env.execute (invocationsIn w.log) invocation) = .ok (env.execute _ invocation)
    rw [h.execute (invocationsIn w.log) (invocationsIn v.log)]
  tokens agentKey usage w v hR := ⟨rfl, hR.view, hR.requests, hR.calls⟩
  remember agentKey inp' reply w v hR := by
    have hpushed : Indistinct P (P.of inp) w₀ v₀ (w.push (.remembered agentKey inp' reply))
        (v.push (.remembered agentKey inp' reply)) := hR.push rfl rfl
    exact ⟨rfl, Parties.view_remember hR.view agentKey inp' reply, hpushed.requests, hpushed.calls⟩
  record w v hR report report' := by
    unfold Env.recordAgentRun
    rw [h.commit, h.commit]
    have hpushed : Indistinct P (P.of inp) w₀ v₀ (w.push (.recorded report))
        (v.push (.recorded report')) := hR.push rfl rfl
    exact ⟨rfl, hpushed.view, hpushed.requests, hpushed.calls⟩
  opening w v hR := Parties.opening_congr htenant huser hR.view

/-- On a thread of the party as well. -/
theorem indistinct_onThreads (h : env.Memoryless) (htenant : ':' ∉ inp.tenantId.toList)
    (huser : ':' ∉ inp.userId.toList) (hthread : P.thread inp.correlationId = P.of inp) :
    SideBySide.OnThreads env inp (Indistinct P (P.of inp) w₀ v₀) where
  toSideBySide := indistinct_sideBySide h htenant huser
  thread w v hR agentKey := (Parties.view_eq_iff.1 hR.view).2 agentKey inp.correlationId hthread
  save w v hR agentKey s := by
    obtain ⟨hconversations, hthreads⟩ := Parties.view_eq_iff.1 hR.view
    refine ⟨Parties.view_eq_iff.2 ⟨hconversations, fun key threadId howned => ?_⟩, hR.requests,
      hR.calls⟩
    by_cases hsaved : key = agentKey ∧ threadId = inp.correlationId
    · obtain ⟨rfl, rfl⟩ := hsaved
      rw [save_self, save_self]
    · rw [save_of_ne (not_and_or.1 hsaved), save_of_ne (not_and_or.1 hsaved)]
      exact hthreads key threadId howned

end Indistinct

/-! ## What the others leave alone -/

section Others

variable {G : Type} {P : Parties G} {d : G} {env : Env} {w : World}

/-- A chat of another party adds nothing to the conversations of the party. -/
theorem conversations_of_other {chat : Chat} (hchat : P.Owned chat) (hother : P.of chat.inp ≠ d)
    (w : World) (agentKey k : String) (hk : P.Key d k) :
    ((chat.path.run env chat.inp w).2.memory agentKey).messages k =
      (w.memory agentKey).messages k := by
  let I : World → Prop := fun v =>
    ∀ key, (v.memory key).messages k = (w.memory key).messages k
  have hne : k ≠ chat.inp.memoryKey := Parties.key_ne hchat.tenant hchat.user hother hk
  have hoperations : ∀ agent : Agent, agent.OperationsKeep env chat.inp I := fun agent =>
    { ask := fun request v hv => by
        unfold Env.ask
        cases env.answer v.log request with
        | none => exact hv
        | some response => exact hv
      call := fun _ _ hv => hv
      tokens := fun _ _ hv => hv
      remember := fun reply v hv key => by
        show (Function.update v.memory agent.key _ key).messages k = _
        by_cases hkey : key = agent.key
        · subst hkey
          rw [Function.update_self]
          by_cases hconversation : chat.inp.conversationId.getD "" = ""
          · rw [AgentMemory.append_of_no_conversation hconversation]
            exact hv _
          · exact (MemoryStore.messages_append _ _ _ hconversation).trans
              ((if_neg hne).trans (hv _))
        · rw [Function.update_of_ne hkey]
          exact hv key
      record := fun report v hv => by
        unfold Env.recordAgentRun
        cases env.commit v.runs.asked with
        | true => exact hv
        | false => exact hv }
  exact chat.path.run_keeps hoperations (fun _ _ _ _ _ hv => hv) w (fun _ => rfl) agentKey

/-- Nor does it write their threads. -/
theorem threads_of_other {chat : Chat} (hchat : P.Owned chat) (hother : P.of chat.inp ≠ d)
    (w : World) (agentKey threadId : String) (howned : P.thread threadId = d) :
    (chat.path.run env chat.inp w).2.checkpoints agentKey threadId =
      w.checkpoints agentKey threadId := by
  have hne : chat.path.Graph → threadId ≠ chat.inp.correlationId := by
    rintro hgraph rfl
    exact hother ((hchat.thread hgraph).symm.trans howned)
  obtain ⟨path, inp⟩ := chat
  have hclassic : ∀ hpath : ¬ path.Graph,
      (path.run env inp w).2.checkpoints agentKey threadId = w.checkpoints agentKey threadId := by
    intro hpath
    have hkeeps := path.run_keeps (I := fun v => v.checkpoints = w.checkpoints)
      (fun agent => operationsKeep_checkpoints env agent w.checkpoints inp)
      fun hgraph => absurd hgraph hpath
    exact congrFun₂ (hkeeps w rfl) agentKey threadId
  cases path with
  | specialist agent => exact hclassic id
  | supervisor reg => exact hclassic id
  | specialistGraph agent => exact invokeGraph_checkpoints (Or.inr (hne trivial)) w
  | supervisorGraph reg =>
    exact supervisor_checkpoints (Or.inr (hne trivial))
      (fun _ _ _ => Or.inr (Or.inr (hne trivial))) w

end Others

/-! ## The machine -/

/-- What a chat comes to: its result, but for the token counts, what the model was asked, and what
the tools were called with. -/
structure ChatOutput where
  result : Except PyErr AgentResult
  requests : List LLMRequest
  calls : List ToolInvocation

/-- The process as a machine. -/
def chatMachine {G : Type} (P : Parties G) (env : Env) :
    Machine World P.OwnedChat ChatOutput where
  step w c :=
    let (result, v) := c.chat.path.run env c.chat.inp w
    (⟨result.map AgentResult.uncounted, (requestsIn v.log).drop (requestsIn w.log).length,
      (invocationsIn v.log).drop (invocationsIn w.log).length⟩, v)

section Machine

variable {G : Type} {P : Parties G} {env : Env}

/-- A chat of a party, in two processes that are alike to it. -/
theorem chat_indistinct (h : env.Memoryless) (c : P.OwnedChat) {w v : World}
    (hview : P.view (P.dom c) w = P.view (P.dom c) v) :
    (c.chat.path.run env c.chat.inp w).1.map AgentResult.uncounted =
        (c.chat.path.run env c.chat.inp v).1.map AgentResult.uncounted ∧
      Indistinct P (P.dom c) w v (c.chat.path.run env c.chat.inp w).2
        (c.chat.path.run env c.chat.inp v).2 :=
  c.chat.path.run_sideBySide (indistinct_sideBySide h c.owned.tenant c.owned.user)
    (fun hgraph => indistinct_onThreads h c.owned.tenant c.owned.user (c.owned.thread hgraph))
    w v (.start hview)

/-- **The step**: a party is answered from what it sees, on every path, and nobody else changes
what it sees. -/
theorem chatMachine_unwinds (h : env.Memoryless) (d : G) :
    Unwinds (chatMachine P env) P.dom d (P.view d) where
  output_eq w v c hdom hview := by
    subst hdom
    obtain ⟨hresult, hindistinct⟩ := chat_indistinct h c hview
    obtain ⟨requests, hw, hv⟩ := hindistinct.requests
    obtain ⟨calls, hw', hv'⟩ := hindistinct.calls
    simp only [chatMachine, hresult, hw, hv, hw', hv', List.drop_left]
  view_step_eq w v c hdom hview := by
    subst hdom
    exact (chat_indistinct h c hview).2.view
  view_step_other w c hother := Parties.view_eq_iff.2
    ⟨fun agentKey k hk => conversations_of_other c.owned hother w agentKey k hk,
      fun agentKey threadId hthread => threads_of_other c.owned hother w agentKey threadId hthread⟩

end Machine

/-- **A party is answered as if it were alone.**  Whatever the others ask in between, on whichever
paths, the results, the requests and the tool calls of its own chats are those of the run in which
only they take place. -/
theorem chats_noninterference {G : Type} [DecidableEq G] (P : Parties G) (env : Env)
    (h : env.Memoryless) (d : G) (chats : List P.OwnedChat) (w : World) :
    ((chatMachine P env).outputs w chats).filter (fun p => P.dom p.1 = d) =
      (chatMachine P env).outputs w (chats.filter fun c => P.dom c = d) :=
  (chatMachine_unwinds h d).outputs_purge chats rfl

/-- The tenants as parties, none of which runs a graph. -/
def tenants : Parties String := ⟨fun tenantId _ => tenantId, fun _ => ""⟩

def asksSupport (inp : AgentInput) (htenant : ':' ∉ inp.tenantId.toList)
    (huser : ':' ∉ inp.userId.toList) : tenants.OwnedChat :=
  ⟨⟨.specialist customerSupportAgent, inp⟩, htenant, huser, fun hgraph => hgraph.elim⟩

/-- A customer asks twice, and a stranger in between. -/
def customerAndStranger : List tenants.OwnedChat :=
  [asksSupport demoInput (by decide) (by decide), asksSupport strangerInput (by decide) (by decide),
    asksSupport demoInput (by decide) (by decide)]

theorem customer_beside_stranger :
    ((chatMachine tenants recallingEnv).outputs World.initial customerAndStranger).filter
        (fun p => tenants.dom p.1 = "t1") =
      (chatMachine tenants recallingEnv).outputs World.initial
        (customerAndStranger.filter fun c => tenants.dom c = "t1") :=
  chats_noninterference tenants recallingEnv recallingEnv_memoryless "t1" customerAndStranger
    World.initial

/-! ## Customers -/

/-- A platform over other records remembers as little. -/
theorem Env.Memoryless.on {env : Env} {stores : Stores} (h : (env.on stores).Memoryless)
    (stores' : Stores) : (env.on stores').Memoryless :=
  ⟨h.complete, fun _ _ _ => rfl, h.commit⟩

/-- A chat of a confined customer, on a path of the classic orchestrator, is the same on two
platforms that agree on the customer's own records. -/
theorem chat_confined {env : Env} {chat : Chat} {stores stores' : Stores}
    (hpath : ¬ chat.path.Graph) (hroles : Confined chat.inp.roles)
    (hsame : SameEntry chat.inp.userId stores stores') (w : World) :
    chat.path.run (env.on stores) chat.inp w = chat.path.run (env.on stores') chat.inp w := by
  obtain ⟨path, inp⟩ := chat
  have htools : SameTools env inp stores stores' :=
    sameTools_of_confined (toolRegistry_confined hroles hsame)
  cases path with
  | specialist agent => exact congrFun (Agent.invoke_congr htools agent) w
  | supervisor reg => exact congrFun (Supervisor.invoke_congr htools reg) w
  | specialistGraph agent => exact absurd trivial hpath
  | supervisorGraph reg => exact absurd trivial hpath

/-- **A customer's chats tell nothing of the records of others**, whatever the others have asked
before, and whatever they were told: on two platforms that agree on the customer's own records, all
its chats have the same results, requests and tool calls. -/
theorem chats_confined {G : Type} [DecidableEq G] (P : Parties G) (env : Env)
    (stores stores' : Stores) (h : (env.on stores).Memoryless) (d : G) (chats : List P.OwnedChat)
    (hcustomer : ∀ c ∈ chats, P.dom c = d → ¬ c.chat.path.Graph ∧ Confined c.chat.inp.roles ∧
      SameEntry c.chat.inp.userId stores stores') (w : World) :
    ((chatMachine P (env.on stores)).outputs w chats).filter (fun p => P.dom p.1 = d) =
      ((chatMachine P (env.on stores')).outputs w chats).filter (fun p => P.dom p.1 = d) := by
  rw [(chatMachine_unwinds h d).outputs_purge chats rfl,
    (chatMachine_unwinds (h.on stores') d).outputs_purge chats rfl]
  refine Machine.outputs_congr _ (fun c hc v => ?_) w
  obtain ⟨hmem, hdom⟩ := List.mem_filter.1 hc
  obtain ⟨hpath, hroles, hsame⟩ := hcustomer c hmem (of_decide_eq_true hdom)
  simp only [chatMachine, chat_confined hpath hroles hsame v]

theorem customer_beside_stranger_confined :
    ((chatMachine tenants (recallingEnv.on demoStores)).outputs World.initial
        customerAndStranger).filter (fun p => tenants.dom p.1 = "t1") =
      ((chatMachine tenants (recallingEnv.on (demoStores.only "cust_1001"))).outputs World.initial
        customerAndStranger).filter (fun p => tenants.dom p.1 = "t1") := by
  refine chats_confined tenants recallingEnv demoStores (demoStores.only "cust_1001")
    recallingEnv_memoryless "t1" customerAndStranger ?_ World.initial
  intro c hc hdom
  have hcustomer : c.chat.inp = demoInput ∧ ¬ c.chat.path.Graph := by
    simp only [customerAndStranger, List.mem_cons, List.not_mem_nil, or_false] at hc
    rcases hc with rfl | rfl | rfl
    · exact ⟨rfl, id⟩
    · exact absurd hdom (by decide)
    · exact ⟨rfl, id⟩
  obtain ⟨hinp, hpath⟩ := hcustomer
  rw [hinp]
  exact ⟨hpath, ⟨by decide, by decide⟩, rfl, rfl, rfl⟩

end AgentPlatform
