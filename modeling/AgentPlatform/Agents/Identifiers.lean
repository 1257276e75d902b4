import AgentPlatform.Agents.Confinement

/-!
# Raw identifiers stay in the store

A customer's e-mail address, phone number and tax id are masked before a tool hands the
record out, and the masks do not depend on what they cover.  Two platforms whose customers
differ in these values are the same platform to every caller, whatever the model makes the
tools do.

* `SameBut` — records that differ only in the values of some fields.
* `maskIn_sameBut` — masking a field makes two such records agree on it.
* `raw_identifiers_never_matter` — **the result**, for every agent and the supervisor.
-/

namespace AgentPlatform

/-! ## Records -/

/-- Two records with the same fields, which differ only in the values of some of them. -/
structure SameBut (fields : List String) (record record' : Dict) : Prop where
  keys_eq : record.map Prod.fst = record'.map Prod.fst
  nodup : (record.map Prod.fst).Nodup
  get?_eq : ∀ k ∉ fields, record.get? k = record'.get? k

theorem SameBut.eq {record record' : Dict} (h : SameBut [] record record') : record = record' :=
  Dict.ext_get? h.keys_eq h.nodup fun k => h.get?_eq k List.not_mem_nil

/-- The mask of a field that has one of its own does not depend on the value. -/
theorem maskField_of_mask {rt : PyRuntime} {field mask : String}
    (hlower : rt.lower field = field) (hmask : masks.lookup field = some mask) (value : Json) :
    maskField rt field value = .str mask := by
  rw [maskField, hlower]
  simp only [hmask]

section MaskIn

variable {rt : PyRuntime} {field mask : String} {fields : List String} {record record' : Dict}

/-- A field that is there gets its mask. -/
theorem maskIn_of_get? {value : Json} (hvalue : record.get? field = some value) :
    maskIn rt record field = .ok (record.set field (maskField rt field value)) := by
  rw [maskIn, Dict.getItem_eq_ok_iff.2 hvalue]
  rfl

theorem maskIn_of_get?_none (hnone : record.get? field = none) :
    maskIn rt record field = .error (.keyError field) := by
  rw [maskIn, Dict.getItem, hnone]
  rfl

/-- **Masking a field makes two records agree on it**, or raises for both. -/
theorem maskIn_sameBut (hmask : ∀ value, maskField rt field value = .str mask)
    (h : SameBut (field :: fields) record record') :
    (∃ e, maskIn rt record field = .error e ∧ maskIn rt record' field = .error e) ∨
      ∃ safe safe', maskIn rt record field = .ok safe ∧ maskIn rt record' field = .ok safe' ∧
        SameBut fields safe safe' := by
  cases hvalue : record.get? field with
  | none =>
    have hnone : record'.get? field = none := by
      rw [Dict.get?_eq_none_iff, ← h.keys_eq, ← Dict.get?_eq_none_iff, hvalue]
    exact Or.inl ⟨_, maskIn_of_get?_none hvalue, maskIn_of_get?_none hnone⟩
  | some value =>
    have hmem : field ∈ record.map Prod.fst := Dict.mem_keys_iff.2 ⟨value, hvalue⟩
    have hmem' : field ∈ record'.map Prod.fst := h.keys_eq ▸ hmem
    obtain ⟨value', hvalue'⟩ := Dict.mem_keys_iff.1 hmem'
    refine Or.inr ⟨_, _, maskIn_of_get? hvalue, maskIn_of_get? hvalue', ?_⟩
    rw [hmask, hmask]
    refine ⟨?_, ?_, ?_⟩
    · rw [Dict.keys_set _ hmem, Dict.keys_set _ hmem', h.keys_eq]
    · rw [Dict.keys_set _ hmem]
      exact h.nodup
    · intro k hk
      rw [Dict.get?_set, Dict.get?_set]
      by_cases heq : k = field
      · rw [if_pos heq, if_pos heq]
      · rw [if_neg heq, if_neg heq]
        exact h.get?_eq k (by simp [heq, hk])

end MaskIn

/-! ## The profile tool -/

/-- The fields the profile tool masks. -/
def identifiers : List String := ["email", "phone", "pan"]

/-- The record the profile tool hands out. -/
def safeRecord (rt : PyRuntime) (record : Dict) : Except PyErr Dict := do
  let safe ← maskIn rt record "email"
  let safe ← maskIn rt safe "phone"
  maskIn rt safe "pan"

/-- The record that is handed out tells nothing of the raw identifiers. -/
theorem safeRecord_congr {rt : PyRuntime} (hlower : rt.LowersAscii) {record record' : Dict}
    (h : SameBut identifiers record record') : safeRecord rt record = safeRecord rt record' := by
  have hemail := maskField_of_mask (hlower "email" (by simp)) rfl
  have hphone := maskField_of_mask (hlower "phone" (by simp)) rfl
  have hpan := maskField_of_mask (hlower "pan" (by simp)) rfl
  unfold safeRecord
  rcases maskIn_sameBut hemail h with ⟨e, he, he'⟩ | ⟨s₁, s₁', hs₁, hs₁', h₁⟩
  · rw [he, he']
  · rw [hs₁, hs₁']
    show (maskIn rt s₁ "phone" >>= _) = (maskIn rt s₁' "phone" >>= _)
    rcases maskIn_sameBut hphone h₁ with ⟨e, he, he'⟩ | ⟨s₂, s₂', hs₂, hs₂', h₂⟩
    · rw [he, he']
    · rw [hs₂, hs₂']
      show maskIn rt s₂ "pan" = maskIn rt s₂' "pan"
      rcases maskIn_sameBut hpan h₂ with ⟨e, he, he'⟩ | ⟨s₃, s₃', hs₃, hs₃', h₃⟩
      · rw [he, he']
      · rw [hs₃, hs₃', h₃.eq]

/-- The tool hands out safe records. -/
theorem getCustomerProfile_run {rt : PyRuntime} {customers : Store} {arguments record : Dict}
    (ctx : ToolContext)
    (h : customers.find (arguments.getD "customer_id" (.str "")) = .ok (some record)) :
    (getCustomerProfile rt customers).run ctx arguments =
      if outsideScope ctx (arguments.getD "customer_id" (.str "")) then
        .ok (.failure "customer is outside your authorized scope")
      else safeRecord rt record >>= fun safe =>
        .ok (.success [("profile", .obj safe), ("masked", .bool true)]) := by
  simp only [getCustomerProfile, h, safeRecord, bind_assoc]
  rfl

/-- Two worlds of records that differ only in the customers' raw identifiers. -/
structure SameButIdentifiers (stores stores' : Stores) : Prop where
  customers : ∀ id, Option.Rel (SameBut identifiers) (stores.customers.get? id)
    (stores'.customers.get? id)
  bureau : stores.bureau = stores'.bureau
  kyc : stores.kyc = stores'.kyc
  vector : stores.vector = stores'.vector

theorem Store.find_rel {R : Dict → Dict → Prop} {store store' : Store}
    (h : ∀ id, Option.Rel R (store.get? id) (store'.get? id)) (key : Json) :
    (∃ e, store.find key = .error e ∧ store'.find key = .error e) ∨
      ∃ found found', store.find key = .ok found ∧ store'.find key = .ok found' ∧
        Option.Rel R found found' := by
  cases key with
  | str id => exact Or.inr ⟨_, _, rfl, rfl, h id⟩
  | arr xs => exact Or.inl ⟨_, rfl, rfl⟩
  | obj fields => exact Or.inl ⟨_, rfl, rfl⟩
  | null => exact Or.inr ⟨_, _, rfl, rfl, .none⟩
  | num n => exact Or.inr ⟨_, _, rfl, rfl, .none⟩

/-- The profile tool does the same on two such worlds, whoever calls it. -/
theorem getCustomerProfile_congr {rt : PyRuntime} (hlower : rt.LowersAscii)
    {stores stores' : Stores} (h : SameButIdentifiers stores stores') (ctx : ToolContext) :
    ConfinedTool ctx (getCustomerProfile rt stores.customers)
      (getCustomerProfile rt stores'.customers) := by
  refine ⟨rfl, fun arguments _ => ?_⟩
  rcases Store.find_rel h.customers (arguments.getD "customer_id" (.str "")) with
    ⟨e, he, he'⟩ | ⟨found, found', hfound, hfound', hrel⟩
  · simp only [getCustomerProfile, he, he']
  · cases hrel with
    | none => simp only [getCustomerProfile, hfound, hfound']
    | some hrecord =>
      rw [getCustomerProfile_run ctx hfound, getCustomerProfile_run ctx hfound',
        safeRecord_congr hlower hrecord]

/-- **Raw identifiers never matter.**  On two platforms whose customers differ only in their
e-mail addresses, phone numbers and tax ids, every caller gets the same outcome and leaves
the same world (memory, runs and requests), from every agent and from the supervisor,
whatever the model answers. -/
theorem raw_identifiers_never_matter (env : Env) (inp : AgentInput) (w : World)
    (stores stores' : Stores) (hlower : env.runtime.LowersAscii)
    (h : SameButIdentifiers stores stores') :
    (∀ agent : Agent, agent.invoke (env.on stores) inp w = agent.invoke (env.on stores') inp w) ∧
      ∀ reg : AgentRegistry,
        Supervisor.invoke (env.on stores) reg inp w =
          Supervisor.invoke (env.on stores') reg inp w := by
  have hreg : ∀ ctx, List.Forall₂ (ConfinedTool ctx) (toolRegistry env.runtime stores).tools
      (toolRegistry env.runtime stores').tools := by
    intro ctx
    have hprofile := getCustomerProfile_congr hlower h ctx
    unfold toolRegistry
    rw [h.bureau, h.kyc, h.vector]
    exact .cons .refl (.cons .refl (.cons .refl (.cons hprofile (.cons .refl (.cons .refl .nil)))))
  have hsame : SameTools env inp stores stores' := sameTools_of_confined (hreg _)
  exact ⟨fun agent => by rw [Agent.invoke_congr hsame], fun reg => by
    rw [Supervisor.invoke_congr hsame]⟩

/-- The record of a demo customer, with some identifiers. -/
def demoCustomer (email phone pan : String) : Dict :=
  [("customer_id", .str "cust_1001"), ("name", .str "Priya Sharma"), ("email", .str email),
    ("phone", .str phone), ("pan", .str pan), ("income", .int 850000), ("cibil_score", .int 742),
    ("existing_emis", .int 12000), ("active_loans", .int 1)]

/-- The demo records with one customer, who has some identifiers. -/
def oneCustomer (email phone pan : String) : Stores :=
  { demoStores with customers := .ofList [("cust_1001", demoCustomer email phone pan)] (by simp) }

theorem demoCustomer_sameBut (email phone pan email' phone' pan' : String) :
    SameBut identifiers (demoCustomer email phone pan) (demoCustomer email' phone' pan') := by
  have hnodup : (demoCustomer "" "" "").map Prod.fst |>.Nodup := by decide
  refine ⟨rfl, hnodup, ?_⟩
  intro k hk
  simp only [identifiers, List.mem_cons, List.not_mem_nil, or_false, not_or] at hk
  obtain ⟨hemail, hphone, hpan⟩ := hk
  simp [demoCustomer, Dict.get?_cons, hemail, hphone, hpan]

/-- A model that asks for the profile cannot tell one customer's identifiers from others. -/
theorem raw_identifiers_never_matter_of_profile :
    (∀ agent : Agent,
        agent.invoke ((demoEnv (callsOnce [profileCall])).on
            (oneCustomer "priya@example.com" "+919800001234" "ABCDE1234F")) demoInput
            World.initial =
          agent.invoke ((demoEnv (callsOnce [profileCall])).on
            (oneCustomer "p.sharma@example.org" "+917000000000" "ZZZZZ0000Z")) demoInput
            World.initial) ∧
      ∀ reg : AgentRegistry,
        Supervisor.invoke ((demoEnv (callsOnce [profileCall])).on
            (oneCustomer "priya@example.com" "+919800001234" "ABCDE1234F")) reg demoInput
            World.initial =
          Supervisor.invoke ((demoEnv (callsOnce [profileCall])).on
            (oneCustomer "p.sharma@example.org" "+917000000000" "ZZZZZ0000Z")) reg demoInput
            World.initial := by
  refine raw_identifiers_never_matter (demoEnv (callsOnce [profileCall])) demoInput World.initial
    (oneCustomer "priya@example.com" "+919800001234" "ABCDE1234F")
    (oneCustomer "p.sharma@example.org" "+917000000000" "ZZZZZ0000Z")
    PyRuntime.ascii_lowersAscii ⟨?_, rfl, rfl, rfl⟩
  intro id
  by_cases hid : id = "cust_1001"
  · subst hid
    exact .some (demoCustomer_sameBut _ _ _ _ _ _)
  · have hnone : ∀ email phone pan, (oneCustomer email phone pan).customers.get? id = none := by
      intro email phone pan
      have hne : (id == "cust_1001") = false := beq_eq_false_iff_ne.2 hid
      simp [oneCustomer, Store.ofList, List.lookup_cons, hne]
    rw [hnone, hnone]
    exact .none

end AgentPlatform
