import AgentPlatform.Agents.Specialized
import AgentPlatform.Lib.Regex

/-!
# Registry and routing

Agents resolve each other by key or by capability, through the registry only.  The
intent of a message is the pattern that matches it most often.

An `AgentRegistry` carries two facts about the agents in it: no two share a key,
and the supervisor offers none of the intents, so that it never delegates to
itself.
-/

namespace AgentPlatform

/-! ## Intents -/

section Patterns

open Regex

/-- Any of several words, between word edges. -/
def words (alternatives : List String) : Regex :=
  seq boundary (seq (oneOf (alternatives.map literal)) boundary)

/-- `unauthori[sz]ed` -/
def unauthorised : Regex :=
  seq (literal "unauthori") (seq (char fun c => c == 's' || c == 'z') (literal "ed"))

/-- `_INTENT_PATTERNS` -/
def intentPatterns : List (String × Regex) :=
  [("loan", words ["loan", "eligible", "eligibility", "borrow", "credit"]),
    ("fraud", seq boundary (seq
      (oneOf [literal "fraud", literal "scam", literal "chargeback", unauthorised]) boundary)),
    ("kyc", words ["kyc", "verify", "verification", "aml", "sanction", "onboard"]),
    ("insurance", words ["insurance", "policy", "claim", "premium"]),
    ("investment", words ["invest", "wealth", "portfolio", "mutual fund", "stock", "sip"]),
    ("document", words ["document", "statement", "pdf", "file", "contract", "invoice", "upload"]),
    ("compliance", words ["compliance", "regulat", "reporting", "audit"]),
    ("support", words ["help", "support", "issue", "problem", "complaint"])]

end Patterns

/-- Of two scored intents the one that sorts last. -/
def laterIntent (a b : ℕ × String) : ℕ × String :=
  if a.1 < b.1 ∨ a.1 = b.1 ∧ a.2 < b.2 then b else a

/-- The intent whose pattern matches the message most often. -/
def classifyIntent (rt : PyRuntime) (message : String) : Option String :=
  let text := rt.lower message
  let counted := intentPatterns.map fun p => (p.2.count rt.isWord text.toList, p.1)
  match counted.filter fun s => s.1 ≠ 0 with
  | [] => none
  | s :: rest => some (rest.foldl laterIntent s).2

theorem laterIntent_mem {l : List (ℕ × String)} (s : ℕ × String) :
    l.foldl laterIntent s = s ∨ l.foldl laterIntent s ∈ l := by
  induction l generalizing s with
  | nil => exact Or.inl rfl
  | cons a l ih =>
    rw [List.foldl_cons]
    have hcase : laterIntent s a = s ∨ laterIntent s a = a := by
      unfold laterIntent
      split
      · exact Or.inr rfl
      · exact Or.inl rfl
    rcases hcase with h | h
    · rw [h]
      exact (ih s).imp_right (List.mem_cons_of_mem _)
    · rw [h]
      rcases ih a with h' | h'
      · exact Or.inr (by rw [h']; exact List.mem_cons_self ..)
      · exact Or.inr (List.mem_cons_of_mem _ h')

/-- An intent is the name of one of the patterns. -/
theorem classifyIntent_mem {rt : PyRuntime} {message intent : String}
    (h : classifyIntent rt message = some intent) : intent ∈ intentPatterns.map Prod.fst := by
  unfold classifyIntent at h
  have hsub : ∀ s ∈ (intentPatterns.map fun p =>
      (p.2.count rt.isWord (rt.lower message).toList, p.1)).filter (fun s => s.1 ≠ 0),
      s.2 ∈ intentPatterns.map Prod.fst := by
    intro s hs
    obtain ⟨p, hp, rfl⟩ := List.mem_map.1 (List.mem_filter.1 hs).1
    exact List.mem_map.2 ⟨p, hp, rfl⟩
  dsimp only at h
  split at h
  · cases h
  · next s rest heq =>
    obtain rfl := Option.some.inj h
    rw [heq] at hsub
    rcases laterIntent_mem (l := rest) s with hmem | hmem
    · rw [hmem]
      exact hsub s (List.mem_cons_self ..)
    · exact hsub _ (List.mem_cons_of_mem _ hmem)

example : classifyIntent .ascii "Am I eligible for a loan? There is a claim" = some "loan" := by
  decide +kernel

/-! ## The registry -/

/-- The registered agents. -/
structure AgentRegistry where
  agents : List Agent
  /-- No two agents share a key. -/
  nodup : (agents.map Agent.key).Nodup
  /-- The supervisor offers none of the intents, and is not the agent of last resort. -/
  supervisor_intents : ∀ a ∈ agents, a.key = supervisorAgent.key →
    ∀ intent ∈ intentPatterns.map Prod.fst, intent ∉ a.capabilities

namespace AgentRegistry

variable (reg : AgentRegistry)

/-- The agent of a key. -/
def getAgent (key : String) : Option Agent := reg.agents.find? fun a => a.key = key

/-- The agents with a capability, in the order of registration. -/
def findByCapability (capability : String) : List Agent :=
  reg.agents.filter fun a => a.capabilities.contains capability

/-- The agents a message is routed to. -/
def candidates (rt : PyRuntime) (message : String) : List Agent :=
  match classifyIntent rt message with
  | none => []
  | some intent => reg.findByCapability intent

/-- The key of the specialist a message is delegated to. -/
def specialistKey (rt : PyRuntime) (message : String) : String :=
  match reg.candidates rt message with
  | [] => "customer_support"
  | a :: _ => a.key

/-- The specialist a message is delegated to: the first candidate, or else the
customer support. -/
def specialist (rt : PyRuntime) (message : String) : Option Agent :=
  match reg.candidates rt message with
  | [] => reg.getAgent "customer_support"
  | a :: _ => some a

variable {reg}

theorem getAgent_mem {key : String} {a : Agent} (h : reg.getAgent key = some a) :
    a ∈ reg.agents ∧ a.key = key :=
  ⟨List.mem_of_find?_eq_some h, by simpa using List.find?_some h⟩

theorem mem_candidates {rt : PyRuntime} {message : String} {a : Agent}
    (h : a ∈ reg.candidates rt message) : a ∈ reg.agents ∧
      ∃ intent ∈ intentPatterns.map Prod.fst, intent ∈ a.capabilities := by
  unfold candidates at h
  cases hi : classifyIntent rt message with
  | none => rw [hi] at h; exact absurd h (by simp)
  | some intent =>
    rw [hi] at h
    obtain ⟨hmem, hcap⟩ := List.mem_filter.1 h
    exact ⟨hmem, intent, classifyIntent_mem hi, by simpa using hcap⟩

/-- The supervisor never delegates to itself. -/
theorem specialistKey_ne (rt : PyRuntime) (message : String) :
    reg.specialistKey rt message ≠ supervisorAgent.key := by
  unfold specialistKey
  split
  · decide
  · next a rest heq =>
    obtain ⟨hmem, intent, hintent, hcap⟩ := mem_candidates (heq ▸ List.mem_cons_self ..)
    exact fun hkey => reg.supervisor_intents a hmem hkey intent hintent hcap

/-- A registered agent is the agent of its key. -/
theorem getAgent_key {a : Agent} (h : a ∈ reg.agents) : reg.getAgent a.key = some a :=
  find?_key reg.nodup h

end AgentRegistry

/-- The registry the platform starts with. -/
def agentRegistry : AgentRegistry where
  agents := allAgents
  nodup := by decide
  supervisor_intents := by decide

/-- The shipped registry has a specialist for every message. -/
theorem exists_specialist (rt : PyRuntime) (message : String) :
    ∃ specialist, agentRegistry.specialist rt message = some specialist := by
  unfold AgentRegistry.specialist
  cases agentRegistry.candidates rt message with
  | nil => exact ⟨customerSupportAgent, rfl⟩
  | cons a as => exact ⟨a, rfl⟩

end AgentPlatform
