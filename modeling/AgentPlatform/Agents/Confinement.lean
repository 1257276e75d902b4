import AgentPlatform.Agents.Supervisor

/-!
# A customer is confined to its own records

A caller without a role that reads customers or loans reaches a record only through
the self-scoped permissions, and these are tied to its own id.  Two platforms whose
stores agree on the caller's own entry are the same platform to it, whatever the
model makes it call.

* `ConfinedTool` — two tools that a caller cannot tell apart.
* `executeTool_congr` — registries of such tools execute alike.
* `Agent.invoke_congr`, `Supervisor.invoke_congr` — a run depends on the tools only
  through the calls it makes in the caller's name.
* `customer_confinement` — **the result**, for every agent and the supervisor.
-/

namespace AgentPlatform

/-! ## Tools a caller cannot tell apart -/

/-- Two tools with the same attributes, and the same outcome whenever the caller is
authorized. -/
structure ConfinedTool (ctx : ToolContext) (tool tool' : Tool) : Prop where
  class_eq : tool.toToolClass = tool'.toToolClass
  run_eq : ∀ arguments, authorizeToolExecution tool.toToolClass ctx arguments = .ok () →
    tool.run ctx arguments = tool'.run ctx arguments

theorem ConfinedTool.refl {ctx : ToolContext} {tool : Tool} : ConfinedTool ctx tool tool :=
  ⟨rfl, fun _ _ => rfl⟩

/-- Registries of tools the caller cannot tell apart find such tools. -/
theorem find?_confined {ctx : ToolContext} {tools tools' : List Tool}
    (h : List.Forall₂ (ConfinedTool ctx) tools tools') (name : String) :
    Option.Rel (ConfinedTool ctx) (tools.find? fun t => t.name = name)
      (tools'.find? fun t => t.name = name) := by
  induction h with
  | nil => exact Option.Rel.none
  | @cons tool tool' tools tools' htool _ ih =>
    have hname : tool.name = tool'.name := congrArg ToolClass.name htool.class_eq
    by_cases hfound : tool.name = name
    · rw [List.find?_cons_of_pos (by simpa using hfound),
        List.find?_cons_of_pos (by simpa [hname] using hfound)]
      exact Option.Rel.some htool
    · rw [List.find?_cons_of_neg (by simpa using hfound),
        List.find?_cons_of_neg (by simpa [hname] using hfound)]
      exact ih

theorem executeTool_congr {ctx : ToolContext} {reg reg' : ToolRegistry}
    (h : List.Forall₂ (ConfinedTool ctx) reg.tools reg'.tools) (name : String) (arguments : Dict) :
    executeTool reg name ctx arguments = executeTool reg' name ctx arguments := by
  have hrel : Option.Rel (ConfinedTool ctx) (reg.getTool name) (reg'.getTool name) :=
    find?_confined h name
  unfold executeTool executeToolWith
  cases htool : reg.getTool name with
  | none =>
    rw [htool] at hrel
    cases htool' : reg'.getTool name with
    | none => rfl
    | some tool' => rw [htool'] at hrel; cases hrel
  | some tool =>
    rw [htool] at hrel
    cases htool' : reg'.getTool name with
    | none => rw [htool'] at hrel; cases hrel
    | some tool' =>
      rw [htool'] at hrel
      obtain ⟨hconfined⟩ := hrel
      simp only [← hconfined.class_eq]
      cases hauth : authorizeToolExecution tool.toToolClass ctx arguments with
      | error e => rfl
      | ok u => exact congrArg Execution.ran (hconfined.run_eq arguments hauth)

/-! ## The shipped tools -/

section Tools

variable {rt : PyRuntime} {ctx : ToolContext} {arguments : Dict}

/-- Without the permission itself, an authorized call names the caller as the owner. -/
theorem owner_of_authorized {tool : ToolClass} {permission : String}
    (hpermission : tool.requiredPermission = some permission) (hempty : permission ≠ "")
    (hroles : anyCan defaultRbac ctx.roles permission = false)
    (hauth : authorizeToolExecution tool ctx arguments = .ok ()) :
    anyCan defaultRbac ctx.roles (selfPermission permission) = true ∧
      resourceOwner arguments = .str ctx.userId := by
  obtain ⟨hheld, -, -⟩ := authorizeToolExecution_eq_ok_iff.1 hauth
  rcases hheld with hnone | hnil | ⟨p, hp, hgranted⟩
  · rw [hpermission] at hnone
    cases hnone
  · rw [hpermission] at hnil
    exact absurd (Option.some.inj hnil) hempty
  · obtain rfl : permission = p := Option.some.inj (hpermission.symm.trans hp)
    rcases hgranted with hdirect | ⟨-, hself, -, howner⟩
    · rw [hroles] at hdirect
      cases hdirect
    · exact ⟨hself, howner⟩

/-- The id such a call asks for is the caller's own, or none. -/
theorem customerId_of_owner (howner : resourceOwner arguments = .str ctx.userId) :
    arguments.getD "customer_id" (.str "") = .str ctx.userId ∨
      (arguments.getD "customer_id" (.str "")).truthy = false := by
  unfold resourceOwner pyOr Dict.get at howner
  unfold Dict.getD
  cases hid : arguments.get? "customer_id" with
  | none => exact Or.inr rfl
  | some id =>
    rw [hid, Option.getD_some] at howner
    rw [Option.getD_some]
    cases htruthy : id.truthy with
    | false => exact Or.inr rfl
    | true =>
      rw [htruthy, if_pos rfl] at howner
      exact Or.inl howner

/-- Such a call finds the same in two stores that agree on the caller's entry. -/
theorem find_of_owner {store store' : Store} (h : store.get? ctx.userId = store'.get? ctx.userId)
    (howner : resourceOwner arguments = .str ctx.userId) :
    store.find (arguments.getD "customer_id" (.str "")) =
      store'.find (arguments.getD "customer_id" (.str "")) := by
  rcases customerId_of_owner howner with hown | hfalsy
  · rw [hown]
    exact Store.find_congr h
  · exact Store.find_of_not_truthy hfalsy store store'

/-- The roles of a caller that reads neither customers nor loans. -/
structure Confined (roles : List String) : Prop where
  customers : anyCan defaultRbac roles "customer:read" = false
  loans : anyCan defaultRbac roles "loan:read" = false

/-- Two worlds of records that agree on the entry of one id. -/
structure SameEntry (id : String) (stores stores' : Stores) : Prop where
  customers : stores.customers.get? id = stores'.customers.get? id
  bureau : stores.bureau.get? id = stores'.bureau.get? id
  kyc : stores.kyc.get? id = stores'.kyc.get? id

variable {stores stores' : Stores}

theorem getCreditReport_confined (hroles : Confined ctx.roles)
    (h : SameEntry ctx.userId stores stores') :
    ConfinedTool ctx (getCreditReport rt stores.bureau) (getCreditReport rt stores'.bureau) := by
  refine ⟨rfl, fun arguments hauth => ?_⟩
  obtain ⟨-, howner⟩ := owner_of_authorized rfl (by decide) hroles.loans hauth
  simp only [getCreditReport, find_of_owner h.bureau howner]

theorem checkKycStatus_confined (hroles : Confined ctx.roles)
    (h : SameEntry ctx.userId stores stores') :
    ConfinedTool ctx (checkKycStatus rt stores.kyc) (checkKycStatus rt stores'.kyc) := by
  refine ⟨rfl, fun arguments hauth => ?_⟩
  obtain ⟨-, howner⟩ := owner_of_authorized rfl (by decide) hroles.customers hauth
  simp only [checkKycStatus, find_of_owner h.kyc howner]

theorem getCustomerProfile_confined (hroles : Confined ctx.roles)
    (h : SameEntry ctx.userId stores stores') :
    ConfinedTool ctx (getCustomerProfile rt stores.customers)
      (getCustomerProfile rt stores'.customers) := by
  refine ⟨rfl, fun arguments hauth => ?_⟩
  obtain ⟨-, howner⟩ := owner_of_authorized rfl (by decide) hroles.customers hauth
  simp only [getCustomerProfile, find_of_owner h.customers howner]

/-- Nobody holds the permission to search documents. -/
theorem searchDocuments_confined {vector vector' : InMemoryVectorStore} :
    ConfinedTool ctx (searchDocuments rt vector) (searchDocuments rt vector') := by
  refine ⟨rfl, fun arguments hauth => ?_⟩
  have hnobody : ∀ permission, (∀ role, defaultRbac.can role permission = false) →
      anyCan defaultRbac ctx.roles permission = false := by
    intro permission h
    rw [anyCan, List.any_eq_false]
    intro role _
    rw [h role]
    simp
  obtain ⟨hself, -⟩ := owner_of_authorized rfl (by decide)
    (hnobody "document:read" fun role => (defaultRbac_no_document role).1) hauth
  rw [show selfPermission "document:read" = "document:self" by decide,
    hnobody "document:self" fun role => (defaultRbac_no_document role).2] at hself
  cases hself

/-- The registry a confined caller meets does not depend on the records of others. -/
theorem toolRegistry_confined (hroles : Confined ctx.roles)
    (h : SameEntry ctx.userId stores stores') :
    List.Forall₂ (ConfinedTool ctx) (toolRegistry rt stores).tools
      (toolRegistry rt stores').tools := by
  refine .cons .refl (.cons ?_ (.cons ?_ (.cons ?_ (.cons ?_ (.cons .refl .nil)))))
  · exact getCreditReport_confined hroles h
  · exact checkKycStatus_confined hroles h
  · exact getCustomerProfile_confined hroles h
  · exact searchDocuments_confined

end Tools

/-! ## Runs -/

section Runs

variable {env : Env} {inp : AgentInput} {stores stores' : Stores}

/-- The tools answer alike in the caller's name. -/
def SameTools (env : Env) (inp : AgentInput) (stores stores' : Stores) : Prop :=
  ∀ tc : ToolCall, (env.on stores).callTool (inp.invocation tc) =
    (env.on stores').callTool (inp.invocation tc)

/-- Registries of tools the caller cannot tell apart answer alike. -/
theorem sameTools_of_confined (h : List.Forall₂ (ConfinedTool inp.toolContext)
    (toolRegistry env.runtime stores).tools (toolRegistry env.runtime stores').tools) :
    SameTools env inp stores stores' := by
  intro tc
  funext v
  have hexec : executeTool (toolRegistry env.runtime stores) tc.name inp.toolContext tc.arguments =
      executeTool (toolRegistry env.runtime stores') tc.name inp.toolContext tc.arguments :=
    executeTool_congr h tc.name tc.arguments
  simp only [Env.callTool, Env.on, executeOn, AgentInput.invocation, hexec]

theorem callTools_congr (h : SameTools env inp stores stores') (tcs : List ToolCall) :
    Agent.callTools (env.on stores) inp tcs = Agent.callTools (env.on stores') inp tcs := by
  induction tcs with
  | nil => rfl
  | cons tc tcs ih =>
    rw [Agent.callTools, Agent.callTools, h tc, ih]
    rfl

theorem Agent.rounds_congr (h : SameTools env inp stores stores') (agent : Agent) (n : ℕ)
    (messages : List ChatMessage) (used : List String) (outputs : List ToolOutput) :
    agent.rounds (env.on stores) inp n messages used outputs =
      agent.rounds (env.on stores') inp n messages used outputs := by
  induction n generalizing messages used outputs with
  | zero => rfl
  | succ n ih =>
    rw [Agent.rounds, Agent.rounds]
    simp only [callTools_congr h, ih]
    rfl

theorem Agent.invoke_congr (h : SameTools env inp stores stores') (agent : Agent) :
    agent.invoke (env.on stores) inp = agent.invoke (env.on stores') inp := by
  rw [Agent.invoke, Agent.invoke]
  simp only [Agent.rounds_congr h]
  rfl

theorem Supervisor.invoke_congr (h : SameTools env inp stores stores') (reg : AgentRegistry) :
    Supervisor.invoke (env.on stores) reg inp = Supervisor.invoke (env.on stores') reg inp := by
  rw [Supervisor.invoke, Supervisor.invoke]
  simp only [Agent.invoke_congr h]
  rfl

/-- **Customers are confined to their own records.**  On two platforms whose stores agree
on the caller's own entry, a caller who may read neither customers nor loans gets the
same outcome and leaves the same world (memory, records and log), from every agent and
from the supervisor, whatever the model answers and whoever owns the resource. -/
theorem customer_confinement (env : Env) (inp : AgentInput) (w : World) (stores stores' : Stores)
    (hroles : Confined inp.roles) (h : SameEntry inp.userId stores stores') :
    (∀ agent : Agent, agent.invoke (env.on stores) inp w = agent.invoke (env.on stores') inp w) ∧
      ∀ reg : AgentRegistry,
        Supervisor.invoke (env.on stores) reg inp w =
          Supervisor.invoke (env.on stores') reg inp w := by
  have hsame : SameTools env inp stores stores' :=
    sameTools_of_confined (toolRegistry_confined hroles h)
  exact ⟨fun agent => by rw [Agent.invoke_congr hsame], fun reg => by
    rw [Supervisor.invoke_congr hsame]⟩

end Runs

/-- The store with the record of one id only. -/
def Store.only (store : Store) (id : String) : Store where
  get? i := if i = id then store.get? id else none
  get?_empty := by
    split
    · next h => rw [← h, store.get?_empty]
    · rfl

/-- The stores with the records of one id only. -/
def Stores.only (stores : Stores) (id : String) : Stores :=
  { stores with
    customers := stores.customers.only id
    bureau := stores.bureau.only id
    kyc := stores.kyc.only id }

/-- The call of the profile tool for somebody else. -/
def foreignProfileCall : ToolCall :=
  ⟨"call_1", "get_customer_profile", [("customer_id", .str "cust_1002")]⟩

/-- A model that asks for another customer's profile cannot tell whether there is one. -/
theorem confinement_of_foreign_profile :
    (∀ agent : Agent,
        agent.invoke ((demoEnv (callsOnce [foreignProfileCall])).on demoStores) demoInput
            World.initial =
          agent.invoke ((demoEnv (callsOnce [foreignProfileCall])).on (demoStores.only "cust_1001"))
            demoInput World.initial) ∧
      ∀ reg : AgentRegistry,
        Supervisor.invoke ((demoEnv (callsOnce [foreignProfileCall])).on demoStores) reg demoInput
            World.initial =
          Supervisor.invoke
            ((demoEnv (callsOnce [foreignProfileCall])).on (demoStores.only "cust_1001")) reg
            demoInput World.initial :=
  customer_confinement (demoEnv (callsOnce [foreignProfileCall])) demoInput World.initial demoStores
    (demoStores.only "cust_1001") ⟨by decide, by decide⟩ ⟨rfl, rfl, rfl⟩

end AgentPlatform
