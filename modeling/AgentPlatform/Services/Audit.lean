import AgentPlatform.Agents.Memory
import AgentPlatform.Lib.Effect
import AgentPlatform.Security.Pii

/-!
# The record of a run

The row that is written for every run of an agent.  What the user said and what
the agent answered are masked before they are stored.  The row that is written for
everything a user does, with its details masked, and the tables these rows are added to.

* `Journal` — a table that may refuse a row, and take the next one.
* `RunReport.row` — the row of a run.
* `record` — the only way a row gets into the log; a database that does not take it raises.
* `Audited.Adds` — the log grows by rows of one kind, with the rules for what adds rows.
-/

namespace AgentPlatform

/-! ## Tables -/

/-- A table rows are added to.  The database is asked to take every one of them, and may refuse it;
`asked` is how often it has been. -/
structure Journal (Row : Type) where
  rows : List Row := []
  asked : ℕ := 0

namespace Journal

variable {Row : Type}

def taken (t : Journal Row) (row : Row) : Journal Row := ⟨t.rows ++ [row], t.asked + 1⟩

def refused (t : Journal Row) : Journal Row := ⟨t.rows, t.asked + 1⟩

@[simp] theorem taken_rows (t : Journal Row) (row : Row) : (t.taken row).rows = t.rows ++ [row] :=
  rfl

@[simp] theorem taken_asked (t : Journal Row) (row : Row) : (t.taken row).asked = t.asked + 1 :=
  rfl

@[simp] theorem refused_rows (t : Journal Row) : t.refused.rows = t.rows := rfl

@[simp] theorem refused_asked (t : Journal Row) : t.refused.asked = t.asked + 1 := rfl

end Journal

/-! ## Runs -/

/-- A row of the table of runs. -/
structure AgentRun where
  tenantId : String
  runId : String
  agentKey : String
  conversationId : Option String
  triggeredByUserId : String
  status : String
  /-- What was asked, masked. -/
  inputSchema : Dict
  /-- What was answered, masked. -/
  outputSchema : Dict
  tokenUsage : Usage
  modelVersion : String

/-- What a run hands over to be recorded. -/
structure RunReport where
  inp : AgentInput
  agentKey : String
  version : String
  usedTools : List String
  toolOutputs : List ToolOutput
  /-- The reply, before it is masked. -/
  reply : String
  tokenUsage : Usage

namespace RunReport

def inputSchema (r : RunReport) : Dict := [("message", .str r.inp.message)]

def outputSchema (r : RunReport) : Dict :=
  [("reply", .str r.reply), ("tools", .arr (r.usedTools.map .str)),
    ("outputs", .arr (r.toolOutputs.map ToolOutput.asdict))]

/-- The row that is stored. -/
def row (rt : PyRuntime) (r : RunReport) : AgentRun where
  tenantId := r.inp.tenantId
  runId := r.inp.correlationId
  agentKey := r.agentKey
  conversationId := r.inp.conversationId
  triggeredByUserId := r.inp.userId
  status := "completed"
  inputSchema := maskPayload rt r.inputSchema
  outputSchema := maskPayload rt r.outputSchema
  tokenUsage := r.tokenUsage
  modelVersion := r.version

end RunReport

/-- The reply in a stored row. -/
def AgentRun.reply? (run : AgentRun) : Option String :=
  match run.outputSchema.get? "reply" with
  | some (.str reply) => some reply
  | _ => none

/-- The stored reply is the masked reply: the reply's key is not a sensitive one. -/
theorem RunReport.reply?_row {rt : PyRuntime} (r : RunReport)
    (h : isSensitive rt "reply" = false) : (r.row rt).reply? = some (maskText rt r.reply) := by
  have hget : (r.row rt).outputSchema.get? "reply" = some (.str (maskText rt r.reply)) := by
    show Dict.get? (maskPayload rt r.outputSchema) "reply" = _
    rw [get?_maskPayload]
    simp [outputSchema, h, maskValue]
  rw [AgentRun.reply?, hget]

/-! ## The audit log -/

/-- A row of the audit log. -/
structure AuditLog where
  tenantId : String
  correlationId : String
  actorType : String
  actorId : String
  action : String
  resourceType : String
  resourceId : String
  outcome : String
  detail : Dict := []
  ip : Option String := none
  userAgent : Option String := none

/-- What is stored: the details are masked. -/
def AuditLog.masked (rt : PyRuntime) (row : AuditLog) : AuditLog :=
  { row with detail := maskPayload rt row.detail }

/-- A world with an audit log beside it. -/
structure Audited (W : Type) where
  world : W
  audits : Journal AuditLog

/-- The body of a `try`: the world moves on, and what was returned or raised is looked at. -/
def attempt {W E F α : Type} (x : Effect W E α) : Effect (Audited W) F (Except E α) := fun w =>
  (.ok (x w.world).1, { w with world := (x w.world).2 })

/-- Add a row to the audit log, if the database takes it; `takes` says of every row it is asked to
take whether it does. -/
def record {W F : Type} (rt : PyRuntime) (takes : ℕ → Bool) (refused : F) (row : AuditLog) :
    Effect (Audited W) F Unit := fun w =>
  if takes w.audits.asked then (.ok (), { w with audits := w.audits.taken (row.masked rt) })
  else (.error refused, { w with audits := w.audits.refused })

section Audited

variable {W E F α β : Type} {w : Audited W}

/-- A `try` goes on with what became of its body. -/
theorem bind_attempt {x : Effect W E α} {r : Except E α} {v : W} (h : x w.world = (r, v))
    (f : Except E α → Effect (Audited W) F β) :
    (attempt x >>= f) w = f r { w with world := v } := by
  have hattempt : attempt (F := F) x w = (.ok r, { w with world := v }) := by
    rw [attempt, h]
  rw [Effect.bind_of_ok hattempt]

/-- What comes after a row is done where the row is taken. -/
theorem bind_record (rt : PyRuntime) (takes : ℕ → Bool) (refused : F) (row : AuditLog)
    (f : Unit → Effect (Audited W) F β) :
    (record rt takes refused row >>= f) w =
      if takes w.audits.asked then f () { w with audits := w.audits.taken (row.masked rt) }
      else (.error refused, { w with audits := w.audits.refused }) := by
  rw [Effect.bind_apply, record]
  cases takes w.audits.asked with
  | true => rfl
  | false => rfl

/-- The rows since the log was `before` are all of one kind. -/
def Audited.Adds {W : Type} (P : AuditLog → Prop) (before : List AuditLog) (w : Audited W) :
    Prop :=
  ∃ rows, w.audits.rows = before ++ rows ∧ ∀ row ∈ rows, P row

variable {P : AuditLog → Prop} {before : List AuditLog}

theorem Audited.adds_refl (w : Audited W) : Adds P w.audits.rows w := ⟨[], by simp, by simp⟩

theorem attempt_adds (x : Effect W E α) :
    Keeps (Audited.Adds P before) (attempt x : Effect (Audited W) F (Except E α)) :=
  fun _ hw => hw

theorem record_adds {rt : PyRuntime} {takes : ℕ → Bool} {refused : F} {row : AuditLog}
    (hrow : P (row.masked rt)) :
    Keeps (Audited.Adds P before) (record rt takes refused row : Effect (Audited W) F Unit) := by
  rintro w ⟨rows, haudits, hrows⟩
  rw [record]
  split
  · refine ⟨rows ++ [row.masked rt], ?_, fun row' hrow' => ?_⟩
    · rw [Journal.taken_rows, haudits, List.append_assoc]
    · rcases List.mem_append.1 hrow' with hold | hnew
      · exact hrows row' hold
      · rwa [List.mem_singleton.1 hnew]
  · exact ⟨rows, haudits, hrows⟩

end Audited

end AgentPlatform
