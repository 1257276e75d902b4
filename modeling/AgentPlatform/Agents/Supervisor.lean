import AgentPlatform.Agents.Router

/-!
# The supervisor

The supervisor picks a specialist by the intent of the message, lets it run, and
has the model compose the answer from what the specialist returned.  It offers no
tools of its own.
-/

namespace AgentPlatform

namespace Supervisor

/-- The text the answer is composed from. -/
def composePrompt (rt : PyRuntime) (message specialistKey reply : String)
    (outputs : List ToolOutput) : String :=
  "Customer asked: " ++ message ++ "\n\n" ++
    "Specialist '" ++ specialistKey ++ "' returned:\n" ++ reply ++ "\n\n" ++
    "Tool outputs: " ++ rt.str (.arr (outputs.map ToolOutput.asdict))

/-- The conversation the answer is composed from. -/
def composeMessages (rt : PyRuntime) (message specialistKey reply : String)
    (outputs : List ToolOutput) : List ChatMessage :=
  [⟨.system, supervisorAgent.systemPrompt, none⟩,
    ⟨.user, composePrompt rt message specialistKey reply outputs, none⟩]

/-- The run of the supervisor. -/
def invoke (env : Env) (reg : AgentRegistry) (inp : AgentInput) : Run AgentResult :=
  match reg.specialist env.runtime inp.message with
  | none => Effect.raise (.runtimeError "customer_support agent not registered")
  | some specialist => do
    let result ← specialist.invoke env inp
    let response ← env.ask
      { model := "mock", provider := "mock"
        messages :=
          composeMessages env.runtime inp.message specialist.key result.reply result.toolOutputs }
    Effect.ofExcept (env.guard.guardOutput response.text)
    return { result with reply := response.text, delegatedTo := [specialist.key] }

/-- The run of the supervisor, whatever specialists do. -/
def invokeWith (behave : Agent → AgentInput → Run AgentResult) (env : Env) (reg : AgentRegistry)
    (inp : AgentInput) : Run AgentResult :=
  match reg.specialist env.runtime inp.message with
  | none => Effect.raise (.runtimeError "customer_support agent not registered")
  | some specialist => do
    let result ← behave specialist inp
    let response ← env.ask
      { model := "mock", provider := "mock"
        messages :=
          composeMessages env.runtime inp.message specialist.key result.reply result.toolOutputs }
    Effect.ofExcept (env.guard.guardOutput response.text)
    return { result with reply := response.text, delegatedTo := [specialist.key] }

/-- The supervisor lets its specialists run the loop. -/
theorem invoke_eq (env : Env) (reg : AgentRegistry) (inp : AgentInput) :
    invoke env reg inp = invokeWith (fun specialist => specialist.invoke env) env reg inp := rfl

end Supervisor

end AgentPlatform
