import AgentPlatform.Python.Value

/-!
# Guardrails

The checks on both ends of a run: a message that looks like an injection never
reaches a model, and a text that looks like an escape never leaves the platform.

The detectors are heuristics that may change, so they are a parameter, together
with the two facts the agents rely on: neither output detector fires on the
empty text nor on the fixed reply of a run that could not be completed.
-/

namespace AgentPlatform

/-- The reply of a run that ends without a text. -/
def fallbackReply : String :=
  "I could not complete that request. Please retry or contact support."

/-- The detectors in force. -/
structure Guardrails where
  detectPromptInjection : String → Bool
  detectJailbreakAttempt : String → Bool
  detectHallucinationMarker : String → Bool
  jailbreak_empty : detectJailbreakAttempt "" = false
  hallucination_empty : detectHallucinationMarker "" = false
  jailbreak_fallback : detectJailbreakAttempt fallbackReply = false
  hallucination_fallback : detectHallucinationMarker fallbackReply = false

namespace Guardrails

variable (g : Guardrails)

/-- No output detector fires on the text. -/
def Clean (text : String) : Prop :=
  g.detectJailbreakAttempt text = false ∧ g.detectHallucinationMarker text = false

theorem clean_empty : g.Clean "" := ⟨g.jailbreak_empty, g.hallucination_empty⟩

theorem clean_fallback : g.Clean fallbackReply := ⟨g.jailbreak_fallback, g.hallucination_fallback⟩

/-- The reply handed out for a text: the text itself, or the fixed reply if it is empty. -/
theorem clean_ifEmpty {text : String} (h : g.Clean text) :
    g.Clean (if text = "" then fallbackReply else text) := by
  split
  · exact g.clean_fallback
  · exact h

/-- Check the message of a request. -/
def guardInput (message : String) : Except PyErr Unit :=
  if g.detectPromptInjection message then .error (.guardrailError "input rejected by guardrail")
  else .ok ()

/-- Check a text a model wrote. -/
def guardOutput (text : String) : Except PyErr Unit :=
  if g.detectJailbreakAttempt text then .error (.guardrailError "output rejected by guardrail")
  else if g.detectHallucinationMarker text then
    .error (.guardrailError "output failed hallucination validation")
  else .ok ()

theorem guardInput_of_injection {message : String} (h : g.detectPromptInjection message = true) :
    g.guardInput message = .error (.guardrailError "input rejected by guardrail") := by
  rw [guardInput, if_pos h]

theorem guardInput_eq_ok_iff {message : String} :
    g.guardInput message = .ok () ↔ g.detectPromptInjection message = false := by
  unfold guardInput
  cases g.detectPromptInjection message <;> simp

theorem guardInput_of_not_injection {message : String}
    (h : g.detectPromptInjection message = false) : g.guardInput message = .ok () :=
  g.guardInput_eq_ok_iff.2 h

/-- The output check lets exactly the clean texts through. -/
theorem guardOutput_eq_ok_iff {text : String} : g.guardOutput text = .ok () ↔ g.Clean text := by
  unfold guardOutput Clean
  cases h₁ : g.detectJailbreakAttempt text <;> cases h₂ : g.detectHallucinationMarker text <;>
    simp

/-- What the input check raises is a guardrail error. -/
theorem className_of_guardInput {message : String} {e : PyErr}
    (h : g.guardInput message = .error e) : e.className = "GuardrailError" := by
  unfold guardInput at h
  split at h
  · cases h; rfl
  · cases h

/-- What the output check raises is a guardrail error. -/
theorem className_of_guardOutput {text : String} {e : PyErr} (h : g.guardOutput text = .error e) :
    e.className = "GuardrailError" := by
  unfold guardOutput at h
  split at h
  · cases h; rfl
  · split at h
    · cases h; rfl
    · cases h

/-- Detectors that never fire. -/
def silent : Guardrails where
  detectPromptInjection _ := false
  detectJailbreakAttempt _ := false
  detectHallucinationMarker _ := false
  jailbreak_empty := rfl
  hallucination_empty := rfl
  jailbreak_fallback := rfl
  hallucination_fallback := rfl

end Guardrails

end AgentPlatform
