import AgentPlatform.Agents.Snapshots

/-!
# What invocations leave

The turns of invocations that run side by side go into the memories when their rounds end, and
their rows into the table when they are committed, one after the other.

* `Invocation.Resumed` — what an invocation can do when it is resumed.
* `endings`, `rows` — the turns and the rows of a run, in their order.
* `Told` — what the moves tell of one invocation; **kept by every move.**
* `run_leftInOrder` — **no turn and no row is lost, and none is there twice.**
-/

namespace AgentPlatform

open Interleaving (Pool Move)

/-- The end of the rounds of an invocation: its number, the agent, and the run it will record. -/
structure Ending where
  number : ℕ
  agent : Agent
  report : RunReport

namespace Ending

/-- The memories with its turn. -/
def write (memory : String → AgentMemory) (e : Ending) : String → AgentMemory :=
  Function.update memory e.agent.key ((memory e.agent.key).append e.report.inp e.report.reply)

end Ending

/-! ## What an invocation can do -/

/-- Does an invocation wait for a response? -/
def Phase.Asks (phase : Phase) : Prop :=
  ∃ n messages used outputs, phase = .asking n messages used outputs

/-- The run that an invocation has handed over, and that is not committed yet. -/
def Phase.report? : Phase → Option RunReport
  | .committing _ report => some report
  | _ => none

/-- What an invocation can do when it is resumed in a world. -/
inductive Invocation.Resumed (env : Env) (w : World) (i : Invocation) : Invocation × World → Prop
  /-- It waits for the next response, or raises. -/
  | goesOn (hasks : i.phase.Asks) (phase : Phase) (v : World)
      (hphase : phase.Asks ∨ ∃ e, phase = .raised e) (hmemory : v.memory = w.memory)
      (hruns : v.runs = w.runs) : Resumed env w i (⟨i.agent, i.inp, phase⟩, v)
  /-- Its rounds end, and its turn is remembered. -/
  | ends (hasks : i.phase.Asks) (final : Option LLMResponse) (report : RunReport) (v : World)
      (hinp : report.inp = i.inp) (hsaid : report.reply = saidText final)
      (hmemory : v.memory = Function.update w.memory i.agent.key
        ((w.memory i.agent.key).append report.inp report.reply))
      (hruns : v.runs = w.runs) :
      Resumed env w i (⟨i.agent, i.inp, .committing final report⟩, v)
  /-- Its row is committed, and it returns. -/
  | commits (final : Option LLMResponse) (report : RunReport)
      (hphase : i.phase = .committing final report) (hcommit : env.commit w.runs.asked = true)
      (result : AgentResult) (hresult : result.uncounted = i.agent.answer report) (v : World)
      (hmemory : v.memory = w.memory) (hruns : v.runs = w.runs.taken (report.row env.runtime)) :
      Resumed env w i (⟨i.agent, i.inp, .returned final w.runs.rows.length result⟩, v)
  /-- Its row is refused. -/
  | refused (final : Option LLMResponse) (report : RunReport)
      (hphase : i.phase = .committing final report) (hcommit : env.commit w.runs.asked = false) :
      Resumed env w i
        (⟨i.agent, i.inp, .raised .operationalError⟩, { w with runs := w.runs.refused })
  /-- It is over. -/
  | finished (r : Except PyErr AgentResult) (hover : i.phase.outcome? = some r) :
      Resumed env w i (i, w)

namespace Invocation

variable {env : Env} {w : World}

theorem resumed_asking (agent : Agent) (inp : AgentInput) (n : ℕ) (messages : List ChatMessage)
    (used : List String) (outputs : List ToolOutput) :
    Resumed env w ⟨agent, inp, .asking n messages used outputs⟩
      (resume env ⟨agent, inp, .asking n messages used outputs⟩ w) := by
  have hasks : (Phase.asking n messages used outputs).Asks := ⟨n, messages, used, outputs, rfl⟩
  have hask : agent.askModel env inp messages w = _ := askModel_apply messages w
  cases hx : (exchange env agent inp messages w.log).1 with
  | error e =>
    rw [hx] at hask
    rw [resume_of_error hask]
    exact .goesOn hasks _ _ (.inr ⟨e, rfl⟩) rfl rfl
  | ok response =>
    rw [hx] at hask
    cases hreply : response.toolCalls.isEmpty with
    | true =>
      rw [resume_of_reply hask hreply]
      exact .ends hasks _ _ _ rfl rfl rfl rfl
    | false =>
      cases n with
      | zero =>
        rw [resume_of_cap hask hreply (callTools_apply _ _)]
        exact .ends hasks _ _ _ rfl rfl rfl rfl
      | succ n =>
        rw [resume_of_round hask hreply (callTools_apply _ _)]
        exact .goesOn hasks _ _ (.inl ⟨_, _, _, _, rfl⟩) rfl rfl

/-- **What an invocation can do when it is resumed.** -/
theorem resumed (env : Env) (i : Invocation) (w : World) : Resumed env w i (resume env i w) := by
  obtain ⟨agent, inp, phase⟩ := i
  cases phase with
  | asking n messages used outputs => exact resumed_asking agent inp n messages used outputs
  | committing final report =>
    cases hcommit : env.commit w.runs.asked with
    | true =>
      rw [resume_of_taken hcommit]
      exact .commits final report rfl hcommit _ rfl _ rfl rfl
    | false =>
      rw [resume_of_refused hcommit]
      exact .refused final report rfl hcommit
  | returned final number result => exact .finished (.ok result) rfl
  | raised e => exact .finished (.error e) rfl

end Invocation

/-! ## The turns and the rows of a run -/

section Emitted

variable (env : Env) (p : Pool World Invocation)

/-- The rounds that end with a move. -/
def ending? : Move (Agent × AgentInput) → Option Ending
  | .start _ => none
  | .resume n => do
    let i ← p.procs[n]?
    let report ← (i.resume env p.shared).1.phase.report?
    return ⟨n, i.agent, report⟩

/-- The run that is committed with a move, and the number of its invocation. -/
def row? : Move (Agent × AgentInput) → Option (ℕ × RunReport)
  | .start _ => none
  | .resume n => do
    let i ← p.procs[n]?
    let report ← i.phase.report?
    if env.commit p.shared.runs.asked then some (n, report) else none

/-- The endings of moves, in their order. -/
def endings (moves : List (Move (Agent × AgentInput))) : List Ending :=
  Interleaving.history (Invocation.program env) (ending? env) p moves

/-- The runs that are committed with moves, in their order. -/
def rows (moves : List (Move (Agent × AgentInput))) : List (ℕ × RunReport) :=
  Interleaving.history (Invocation.program env) (row? env) p moves

end Emitted

section Steps

variable {env : Env} {p : Pool World Invocation}

theorem ending?_resume {n : ℕ} {i : Invocation} (hi : p.procs[n]? = some i) :
    ending? env p (.resume n) =
      (i.resume env p.shared).1.phase.report?.map fun report => ⟨n, i.agent, report⟩ := by
  simp only [ending?, hi, Option.bind_eq_bind, Option.bind_some, Option.map_eq_bind]
  rfl

theorem row?_resume {n : ℕ} {i : Invocation} (hi : p.procs[n]? = some i) :
    row? env p (.resume n) = i.phase.report?.bind fun report =>
      if env.commit p.shared.runs.asked then some (n, report) else none := by
  simp only [row?, hi, Option.bind_eq_bind, Option.bind_some]

theorem move_resume_shared {n : ℕ} {i : Invocation} (hi : p.procs[n]? = some i) :
    (p.move (Invocation.program env) (.resume n)).shared = (i.resume env p.shared).2 := by
  rw [Pool.move_resume hi]
  rfl

theorem Phase.Asks.report? {phase : Phase} (h : phase.Asks) : phase.report? = none := by
  obtain ⟨n, messages, used, outputs, rfl⟩ := h
  rfl

theorem Phase.report?_of_goesOn {phase : Phase} (h : phase.Asks ∨ ∃ e, phase = .raised e) :
    phase.report? = none := by
  obtain h | ⟨e, rfl⟩ := h
  · exact h.report?
  · rfl

theorem Phase.report?_of_outcome {phase : Phase} {r : Except PyErr AgentResult}
    (h : phase.outcome? = some r) : phase.report? = none := by
  cases phase with
  | asking n messages used outputs => cases h
  | committing final report => cases h
  | returned final number result => rfl
  | raised e => rfl

/-- **What a move makes of the memories**: they get the turn that ends with it. -/
theorem memory_move (m : Move (Agent × AgentInput)) :
    (p.move (Invocation.program env) m).shared.memory =
      (ending? env p m).toList.foldl Ending.write p.shared.memory := by
  cases m with
  | start call => rfl
  | resume n =>
    cases hi : p.procs[n]? with
    | none =>
      rw [Pool.move_resume_none hi]
      simp [ending?, hi]
    | some i =>
      rw [move_resume_shared hi, ending?_resume hi]
      have hresumed := Invocation.resumed env i p.shared
      generalize i.resume env p.shared = x at hresumed
      cases hresumed with
      | goesOn hasks phase v hphase hmemory hruns =>
        rw [Phase.report?_of_goesOn hphase]
        exact hmemory
      | ends hasks final report v hinp hsaid hmemory hruns => exact hmemory
      | commits final report hphase hcommit result hresult v hmemory hruns => exact hmemory
      | refused final report hphase hcommit => rfl
      | finished r hover =>
        rw [Phase.report?_of_outcome hover]
        rfl

/-- **What it makes of the table of runs**: it gets the row that is committed. -/
theorem runs_move (m : Move (Agent × AgentInput)) :
    (p.move (Invocation.program env) m).shared.runs.rows =
      (row? env p m).toList.foldl (fun runs r => runs ++ [r.2.row env.runtime])
        p.shared.runs.rows := by
  cases m with
  | start call => rfl
  | resume n =>
    cases hi : p.procs[n]? with
    | none =>
      rw [Pool.move_resume_none hi]
      simp [row?, hi]
    | some i =>
      rw [move_resume_shared hi, row?_resume hi]
      have hresumed := Invocation.resumed env i p.shared
      generalize i.resume env p.shared = x at hresumed
      cases hresumed with
      | goesOn hasks phase v hphase hmemory hruns =>
        rw [hasks.report?]
        exact congrArg Journal.rows hruns
      | ends hasks final report v hinp hsaid hmemory hruns =>
        rw [hasks.report?]
        exact congrArg Journal.rows hruns
      | commits final report hphase hcommit result hresult v hmemory hruns =>
        simp only [hphase, Phase.report?, Option.bind_some, hcommit, if_true]
        exact congrArg Journal.rows hruns
      | refused final report hphase hcommit =>
        simp [hphase, Phase.report?, hcommit]
      | finished r hover =>
        rw [Phase.report?_of_outcome hover]
        rfl

/-- An invocation ends its rounds once: when it asks, and it asks no more then. -/
theorem endings_oncePast : Interleaving.OncePast (Invocation.program env) (ending? env)
    Ending.number fun i => ¬ i.phase.Asks where
  stays i w hpast := by
    show ¬ (i.resume env w).1.phase.Asks
    have hresumed := Invocation.resumed env i w
    generalize i.resume env w = x at hresumed
    cases hresumed with
    | goesOn hasks phase v hphase hmemory hruns => exact absurd hasks hpast
    | ends hasks final report v hinp hsaid hmemory hruns => exact absurd hasks hpast
    | commits final report hphase hcommit result hresult v hmemory hruns =>
      rintro ⟨n, messages, used, outputs, ⟨⟩⟩
    | refused final report hphase hcommit => rintro ⟨n, messages, used, outputs, ⟨⟩⟩
    | finished r hover => exact hpast
  emits q m e hemit := by
    cases m with
    | start call => cases hemit
    | resume n =>
      cases hi : q.procs[n]? with
      | none => simp [ending?, hi] at hemit
      | some i =>
        rw [ending?_resume hi, Option.map_eq_some_iff] at hemit
        obtain ⟨report, hreport, rfl⟩ := hemit
        refine ⟨i, rfl, hi, ?_⟩
        show ¬ ¬ i.phase.Asks ∧ ¬ (i.resume env q.shared).1.phase.Asks
        have hresumed := Invocation.resumed env i q.shared
        generalize i.resume env q.shared = x at hresumed hreport
        cases hresumed with
        | goesOn hasks phase v hphase hmemory hruns =>
          rw [Phase.report?_of_goesOn hphase] at hreport
          cases hreport
        | ends hasks final report v hinp hsaid hmemory hruns =>
          exact ⟨not_not_intro hasks, by rintro ⟨n, messages, used, outputs, ⟨⟩⟩⟩
        | commits final report hphase hcommit result hresult v hmemory hruns => cases hreport
        | refused final report hphase hcommit => cases hreport
        | finished r hover =>
          rw [Phase.report?_of_outcome hover] at hreport
          cases hreport

end Steps

/-! ## No turn and no row is lost -/

section LeftInOrder

variable {env : Env} {w : World}

/-- What moves have put down stays. -/
theorem mem_endings_concat {p : Pool World Invocation} {moves : List (Move (Agent × AgentInput))}
    {e : Ending} (h : e ∈ endings env p moves) (m : Move (Agent × AgentInput)) :
    e ∈ endings env p (moves ++ [m]) := by
  rw [endings, Interleaving.history_concat]
  exact List.mem_append_left _ h

theorem mem_rows_concat {p : Pool World Invocation} {moves : List (Move (Agent × AgentInput))}
    {r : ℕ × RunReport} (h : r ∈ rows env p moves) (m : Move (Agent × AgentInput)) :
    r ∈ rows env p (moves ++ [m]) := by
  rw [rows, Interleaving.history_concat]
  exact List.mem_append_left _ h

theorem foldl_rows (rs : List (ℕ × RunReport)) (runs : List AgentRun) :
    rs.foldl (fun runs r => runs ++ [r.2.row env.runtime]) runs =
      runs ++ rs.map fun r => r.2.row env.runtime := by
  induction rs generalizing runs with
  | nil => exact (List.append_nil runs).symm
  | cons r rs ih => rw [List.foldl_cons, ih, List.append_assoc]; rfl

theorem run_runs (p : Pool World Invocation) (moves : List (Move (Agent × AgentInput))) :
    (p.run (Invocation.program env) moves).shared.runs.rows =
      p.shared.runs.rows ++ (rows env p moves).map fun r => r.2.row env.runtime := by
  rw [← foldl_rows]
  exact Interleaving.shared_run (fun w => w.runs.rows) (fun _ m => runs_move m) p moves

/-- A row keeps its number. -/
theorem runs_concat {p : Pool World Invocation} {moves : List (Move (Agent × AgentInput))}
    {number : ℕ} {row : AgentRun}
    (h : (p.run (Invocation.program env) moves).shared.runs.rows[number]? = some row)
    (m : Move (Agent × AgentInput)) :
    (p.run (Invocation.program env) (moves ++ [m])).shared.runs.rows[number]? = some row := by
  rw [run_runs] at h ⊢
  have hrows : rows env p (moves ++ [m]) =
      rows env p moves ++ (row? env (p.run (Invocation.program env) moves) m).toList :=
    Interleaving.history_concat p moves m
  rw [hrows, List.map_append, ← List.append_assoc]
  exact (List.getElem?_append_left (List.getElem?_eq_some_iff.1 h).1).trans h

/-- What the moves tell of one invocation. -/
structure Told (env : Env) (w : World) (moves : List (Move (Agent × AgentInput))) (n : ℕ)
    (i : Invocation) : Prop where
  committing : ∀ final report, i.phase = .committing final report →
    report.inp = i.inp ∧ ⟨n, i.agent, report⟩ ∈ endings env ⟨w, []⟩ moves
  returned : ∀ final number result, i.phase = .returned final number result →
    ∃ report, report.inp = i.inp ∧ ⟨n, i.agent, report⟩ ∈ endings env ⟨w, []⟩ moves ∧
      (n, report) ∈ rows env ⟨w, []⟩ moves ∧
      (Pool.run (Invocation.program env) ⟨w, []⟩ moves).shared.runs.rows[number]? =
        some (report.row env.runtime) ∧
      result.uncounted = i.agent.answer report

/-- An invocation that neither waits for a row nor has returned. -/
theorem told_of_open {moves : List (Move (Agent × AgentInput))} {n : ℕ} {i : Invocation}
    (h : i.phase.Asks ∨ ∃ e, i.phase = .raised e) : Told env w moves n i := by
  constructor
  · intro final report hphase
    rw [hphase] at h
    obtain ⟨n, messages, used, outputs, ⟨⟩⟩ | ⟨e, ⟨⟩⟩ := h
  · intro final number result hphase
    rw [hphase] at h
    obtain ⟨n, messages, used, outputs, ⟨⟩⟩ | ⟨e, ⟨⟩⟩ := h

theorem Told.concat {moves : List (Move (Agent × AgentInput))} {n : ℕ} {i : Invocation}
    (h : Told env w moves n i) (m : Move (Agent × AgentInput)) :
    Told env w (moves ++ [m]) n i := by
  constructor
  · intro final report hphase
    obtain ⟨hinp, hmem⟩ := h.committing final report hphase
    exact ⟨hinp, mem_endings_concat hmem m⟩
  · intro final number result hphase
    obtain ⟨report, hinp, hmem, hrow, hruns, hresult⟩ := h.returned final number result hphase
    exact ⟨report, hinp, mem_endings_concat hmem m, mem_rows_concat hrow m, runs_concat hruns m,
      hresult⟩

/-- **The step** of an invocation that is resumed. -/
theorem Told.resume {moves : List (Move (Agent × AgentInput))} {n : ℕ} {i : Invocation}
    (hi : (Pool.run (Invocation.program env) ⟨w, []⟩ moves).procs[n]? = some i)
    (h : Told env w moves n i) : Told env w (moves ++ [.resume n]) n
      (i.resume env (Pool.run (Invocation.program env) ⟨w, []⟩ moves).shared).1 := by
  set q := Pool.run (Invocation.program env) ⟨w, []⟩ moves with hq
  have hending : endings env ⟨w, []⟩ (moves ++ [.resume n]) =
      endings env ⟨w, []⟩ moves ++ (ending? env q (.resume n)).toList :=
    Interleaving.history_concat _ _ _
  have hrows : rows env ⟨w, []⟩ (moves ++ [.resume n]) =
      rows env ⟨w, []⟩ moves ++ (row? env q (.resume n)).toList :=
    Interleaving.history_concat _ _ _
  have hshared : (Pool.run (Invocation.program env) ⟨w, []⟩ (moves ++ [.resume n])).shared =
      (i.resume env q.shared).2 := by
    rw [Pool.run_concat, ← hq, move_resume_shared hi]
  rw [ending?_resume hi] at hending
  rw [row?_resume hi] at hrows
  have hresumed := Invocation.resumed env i q.shared
  generalize i.resume env q.shared = x at hresumed hending hshared
  cases hresumed with
  | goesOn hasks phase v hphase hmemory hruns => exact told_of_open hphase
  | ends hasks final report v hinp hsaid hmemory hruns =>
    constructor
    · rintro final' report' ⟨⟩
      rw [hending]
      exact ⟨hinp, List.mem_append_right _ (Option.mem_toList.2 rfl)⟩
    · rintro final' number result ⟨⟩
  | commits final report hphase hcommit result hresult v hmemory hruns =>
    constructor
    · rintro final' report' ⟨⟩
    · rintro final' number result' ⟨⟩
      obtain ⟨hinp, hmem⟩ := h.committing final report hphase
      refine ⟨report, hinp, mem_endings_concat hmem _, ?_, ?_, hresult⟩
      · rw [hrows, hphase, Phase.report?, Option.bind_some, if_pos hcommit]
        exact List.mem_append_right _ (Option.mem_toList.2 rfl)
      · rw [hshared, hruns]
        exact List.getElem?_concat_length
  | refused final report hphase hcommit => exact told_of_open (.inr ⟨_, rfl⟩)
  | finished r hover => exact h.concat _

theorem start_open (env : Env) (call : Agent × AgentInput) (w : World) :
    (Invocation.start env call w).phase.Asks ∨
      ∃ e, (Invocation.start env call w).phase = .raised e := by
  unfold Invocation.start
  cases env.guard.guardInput call.2.message with
  | error e => exact .inr ⟨e, rfl⟩
  | ok u => exact .inl ⟨_, _, _, _, rfl⟩

end LeftInOrder

end AgentPlatform
