import AgentPlatform.Gateway.Accounting
import AgentPlatform.Security.Heuristics

/-!
# What is kept of a reply

A reply is checked before it is handed on, and then kept twice: as it is in the memory of the
agent, and masked in the table of runs.  The mask is put in after the check; with the detectors the
platform has, it brings nothing up that they would refuse.

* `CleanState` — what is kept is clean.
* `ExecutionPath.run_keeps_clean` — one run, on any path.
* `chats_keep_clean` — **every sequence of chats.**
-/

namespace AgentPlatform

/-- Every reply in the table of runs is clean, and so is everything that the agents remember having
said. -/
structure CleanState (g : Guardrails) (w : World) : Prop where
  stored : ∀ run ∈ w.runs.rows, ∀ reply, run.reply? = some reply → g.Clean reply
  remembered : ∀ agentKey k, ∀ msg ∈ (w.memory agentKey).messages k, msg.role = .assistant →
    g.Clean msg.content

theorem CleanState.initial (g : Guardrails) : CleanState g World.initial where
  stored _ hrun := absurd hrun List.not_mem_nil
  remembered _ _ _ hmsg := absurd hmsg List.not_mem_nil

/-- An environment with the detectors of the platform. -/
structure Env.Guarded (env : Env) : Prop where
  guard : env.guard = heuristics env.runtime
  classes : env.runtime.Classes
  lower : env.runtime.LowersAscii

variable {env : Env}

/-- The row of a clean reply holds a clean reply. -/
theorem Env.Guarded.reply_row (h : env.Guarded) {report : RunReport}
    (hclean : env.guard.Clean report.reply) {reply : String}
    (hreply : (report.row env.runtime).reply? = some reply) : env.guard.Clean reply := by
  have hkey : isSensitive env.runtime "reply" = false := by
    rw [isSensitive, h.lower "reply" (by simp)]
    decide
  rw [report.reply?_row hkey] at hreply
  obtain rfl := Option.some.inj hreply
  rw [h.guard] at hclean ⊢
  exact clean_maskText h.classes hclean

/-- What was clean stays so, on every path, whether the run returns or raises. -/
theorem ExecutionPath.run_keeps_clean (h : env.Guarded) (path : ExecutionPath) (inp : AgentInput) :
    Keeps (CleanState env.guard) (path.run env inp) := by
  intro w hw
  have hsince : CleanSince env w (path.run env inp w).2 :=
    (path.run_ensures w).world CleanSince.refl
  obtain ⟨reports, hruns, hreports⟩ := hsince.runs
  constructor
  · intro run hrun reply hreply
    rw [hruns] at hrun
    rcases List.mem_append.1 hrun with hold | hnew
    · exact hw.stored run hold reply hreply
    · obtain ⟨report, hreport, rfl⟩ := List.mem_map.1 hnew
      exact h.reply_row (hreports report hreport) hreply
  · intro agentKey k msg hmsg hrole
    rcases hsince.memory agentKey k msg hmsg hrole with hold | hclean
    · exact hw.remembered agentKey k msg hold hrole
    · exact hclean

/-- **What the platform keeps of its replies is clean**: over every sequence of chats, on whichever
paths and with whichever model, no reply that is stored or remembered is one the detectors refuse,
though what is stored is masked after the check. -/
theorem chats_keep_clean (env : Env) (h : env.Guarded) (chats : List Chat) :
    CleanState env.guard (chats.foldl (Chat.after env) World.initial) := by
  induction chats using List.reverseRecOn with
  | nil => exact CleanState.initial _
  | append_singleton chats chat ih =>
    rw [List.foldl_append]
    exact chat.path.run_keeps_clean h chat.inp _ ih

/-- A model that repeats an identifier, behind the detectors of the platform. -/
def guardedEnv : Env :=
  { demoEnv fun _ => some (replies "Your PAN is ABCDE1234F.") with
    runtime := arabicDigits
    guard := heuristics arabicDigits }

theorem guardedEnv_guarded : guardedEnv.Guarded :=
  ⟨rfl, arabicDigits_classes, PyRuntime.ascii_lowersAscii⟩

theorem identifier_keeps_clean : guardedEnv.Guarded ∧
    CleanState guardedEnv.guard
      ([Chat.mk (.specialist customerSupportAgent) demoInput].foldl (Chat.after guardedEnv)
        World.initial) :=
  ⟨guardedEnv_guarded, chats_keep_clean guardedEnv guardedEnv_guarded _⟩

end AgentPlatform
