import AgentPlatform.Agents.Endings
import AgentPlatform.Agents.History

/-!
# Invocations one after the other

If no invocation writes to a conversation that another one of the same agent has read and is still
busy with, a run of invocations side by side is as if each of them had run by itself, in the order
in which they ended.

* `Apart` — no conversation is written to under another invocation.
* `Invocation.invoke_of_ended` — an invocation that ends says and leaves what its run does.
* `UpToDate` — an invocation stands where it would stand alone from now; kept by every such move.
* `run_serializable` — **when a run is as good as one after the other**, for every interleaving.
-/

namespace AgentPlatform

open Interleaving (Pool Move)

/-- The turn that goes into the memory of the agent. -/
def Ending.turn (e : Ending) : Turn := ⟨e.report.inp, e.report.reply⟩

/-! ## As good as one after the other -/

/-- The world after runs of agents, one after the other. -/
def oneByOne (env : Env) (w : World) (es : List Ending) : World :=
  es.foldl (fun v e => (e.agent.invoke env e.report.inp v).2) w

/-- An invocation whose rounds end does not write to a conversation that another one of the same
agent has read and is still busy with. -/
def Apart (env : Env) (p : Pool World Invocation) (m : Move (Agent × AgentInput)) : Prop :=
  ∀ e, ending? env p m = some e → ∀ (n : ℕ) other, n ≠ e.number → p.procs[n]? = some other →
    other.phase.Asks → other.agent.key = e.agent.key →
      other.inp.conversationId.getD "" = "" ∨ ¬ e.turn.IsUnder other.inp.memoryKey

/-- The run is as good as one in which the invocations run one after the other, in the order in
which they ended: they say what they say there, and leave the same memories. -/
structure Serializable (env : Env) (w : World) (moves : List (Move (Agent × AgentInput))) :
    Prop where
  memory : (Pool.run (Invocation.program env) ⟨w, []⟩ moves).shared.memory =
    (oneByOne env w (endings env ⟨w, []⟩ moves)).memory
  answers : ∀ before e, before ++ [e] <+: endings env ⟨w, []⟩ moves →
    (e.agent.invoke env e.report.inp (oneByOne env w before)).1.map AgentResult.uncounted =
      .ok (e.agent.answer e.report)

namespace Invocation

variable {env : Env} {v u : World}

/-- An invocation starts from what its conversation holds. -/
theorem view_start {agent : Agent} {inp : AgentInput}
    (h : (v.memory agent.key).getShortTerm inp = (u.memory agent.key).getShortTerm inp) :
    (start env (agent, inp) v).view = (start env (agent, inp) u).view := by
  have hopening : agent.opening inp v = agent.opening inp u := by
    unfold Agent.opening
    rw [h]
  unfold start
  rw [hopening]

theorem resumed_alone (env : Env) (k : ℕ) (x : Invocation × World) :
    (program env).alone (k + 1) x =
      resume env ((program env).alone k x).1 ((program env).alone k x).2 := by
  rw [Interleaving.Program.alone_add]
  rfl

/-- What the memories are on the way of an invocation that is alone: as before, until its rounds
have ended. -/
structure Writes (v : World) (agent : Agent) (inp : AgentInput) (x : Invocation × World) :
    Prop where
  call : x.1.agent = agent ∧ x.1.inp = inp
  asking : x.1.phase.Asks → x.2.memory = v.memory
  committing : ∀ final report, x.1.phase = .committing final report → x.2.memory =
    Function.update v.memory agent.key ((v.memory agent.key).append inp (saidText final))
  returned : ∀ final number result, x.1.phase = .returned final number result → x.2.memory =
    Function.update v.memory agent.key ((v.memory agent.key).append inp (saidText final))

theorem writes_resume {agent : Agent} {inp : AgentInput} {x : Invocation × World}
    (h : Writes v agent inp x) : Writes v agent inp (resume env x.1 x.2) := by
  obtain ⟨i, w⟩ := x
  have hresumed := resumed env i w
  dsimp only
  generalize resume env i w = y at hresumed
  cases hresumed with
  | goesOn hasks phase v' hphase hmemory hruns =>
    refine ⟨h.call, fun _ => hmemory.trans (h.asking hasks), ?_, ?_⟩
    · rintro final report (rfl : phase = _)
      obtain ⟨n, messages, used, outputs, ⟨⟩⟩ | ⟨e, ⟨⟩⟩ := hphase
    · rintro final number result (rfl : phase = _)
      obtain ⟨n, messages, used, outputs, ⟨⟩⟩ | ⟨e, ⟨⟩⟩ := hphase
  | ends hasks final report v' hinp hsaid hmemory hruns =>
    obtain ⟨hagent, hcall⟩ := h.call
    have hbefore : w.memory = v.memory := h.asking hasks
    have hinp' : report.inp = inp := hinp.trans hcall
    have hagent' : i.agent = agent := hagent
    rw [hinp', hsaid, hagent', hbefore] at hmemory
    refine ⟨h.call, ?_, ?_, ?_⟩
    · rintro ⟨n, messages, used, outputs, ⟨⟩⟩
    · rintro final' report' ⟨⟩
      exact hmemory
    · rintro final' number result ⟨⟩
  | commits final report hphase hcommit result hresult v' hmemory hruns =>
    refine ⟨h.call, ?_, ?_, ?_⟩
    · rintro ⟨n, messages, used, outputs, ⟨⟩⟩
    · rintro final' report' ⟨⟩
    · rintro final' number result' ⟨⟩
      exact hmemory.trans (h.committing final report hphase)
  | refused final report hphase hcommit =>
    refine ⟨h.call, ?_, ?_, ?_⟩
    · rintro ⟨n, messages, used, outputs, ⟨⟩⟩
    · rintro final' report' ⟨⟩
    · rintro final' number result ⟨⟩
  | finished r hover => exact h

theorem writes_alone (env : Env) (agent : Agent) (inp : AgentInput) (v : World) (k : ℕ) :
    Writes v agent inp ((program env).alone k (start env (agent, inp) v, v)) := by
  induction k with
  | zero =>
    refine ⟨⟨rfl, rfl⟩, fun _ => rfl, fun final report hphase => ?_,
      fun final number result hphase => ?_⟩
    · have hopen := start_open env (agent, inp) v
      change (start env (agent, inp) v).phase = _ at hphase
      rw [hphase] at hopen
      obtain ⟨n, messages, used, outputs, ⟨⟩⟩ | ⟨e, ⟨⟩⟩ := hopen
    · have hopen := start_open env (agent, inp) v
      change (start env (agent, inp) v).phase = _ at hphase
      rw [hphase] at hopen
      obtain ⟨n, messages, used, outputs, ⟨⟩⟩ | ⟨e, ⟨⟩⟩ := hopen
  | succ k ih =>
    rw [resumed_alone]
    exact writes_resume ih

/-- **An invocation that ends says and leaves what its run does**, from any world in which its
conversation holds the same. -/
theorem invoke_of_ended (h : env.Memoryless) {agent : Agent} {inp : AgentInput} {k : ℕ}
    {final : Option LLMResponse} {report : RunReport}
    (hview : ((agent, inp, .ended (saidText final) (agent.answer report)) :
      Agent × AgentInput × Standing) =
        ((program env).alone k (start env (agent, inp) v, v)).1.view)
    (hsame : (u.memory agent.key).getShortTerm inp = (v.memory agent.key).getShortTerm inp) :
    (agent.invoke env inp u).1.map AgentResult.uncounted = .ok (agent.answer report) ∧
      (agent.invoke env inp u).2.memory = Function.update u.memory agent.key
        ((u.memory agent.key).append inp (saidText final)) := by
  have hmatches : Matches (drive env (maxToolRounds + 1) (start env (agent, inp) u, u))
      (agent.invoke env inp u) := drive_start u
  obtain ⟨hover, hworld⟩ := hmatches
  rw [← alone_eq_drive] at hover hworld
  set x := (program env).alone (maxToolRounds + 1) (start env (agent, inp) u, u) with hx
  have hlike : ((program env).alone k (start env (agent, inp) u, u)).1.view =
      ((program env).alone k (start env (agent, inp) v, v)).1.view :=
    (unaware h).alone k (view_start hsame)
  rw [← hlike] at hview
  have hended : ∀ n messages used outputs,
      ((program env).alone k (start env (agent, inp) u, u)).1.phase ≠
        .asking n messages used outputs := by
    intro n messages used outputs hphase
    have hstanding := congrArg (fun v => v.2.2) hview
    simp only [view, hphase, Phase.standing] at hstanding
    cases hstanding
  have hlast := view_alone_eq h hended (not_asking_of_outcome hover)
  rw [← hx] at hlast
  have hstanding : x.1.phase.standing x.1.agent =
      .ended (saidText final) (agent.answer report) :=
    (congrArg (fun v => v.2.2) (hview.trans hlast)).symm
  have hwrites := writes_alone env agent inp u (maxToolRounds + 1)
  rw [← hx] at hwrites
  cases hphase : x.1.phase with
  | asking n messages used outputs => rw [hphase] at hstanding; cases hstanding
  | committing final' report' => rw [hphase] at hover; cases hover
  | raised e => rw [hphase] at hstanding; cases hstanding
  | returned final' number result =>
    rw [hphase] at hstanding hover
    obtain ⟨hsaid, hresult⟩ := Standing.ended.inj hstanding
    refine ⟨?_, ?_⟩
    · rw [← Option.some.inj hover]
      exact congrArg Except.ok hresult
    · rw [← hworld, hwrites.returned final' number result hphase, hsaid]

end Invocation

section Serializable

variable {env : Env}

/-- An invocation that still asks stands where it would stand alone, from the world there is. -/
def UpToDate (env : Env) (v : World) (i : Invocation) : Prop :=
  i.phase.Asks → ∃ k, i.view =
    ((Invocation.program env).alone k (Invocation.start env (i.agent, i.inp) v, v)).1.view

theorem UpToDate.of_memory (h : env.Memoryless) {v v' : World} {i : Invocation}
    (hsame : (v.memory i.agent.key).getShortTerm i.inp =
      (v'.memory i.agent.key).getShortTerm i.inp)
    (hup : UpToDate env v i) : UpToDate env v' i := by
  intro hasks
  obtain ⟨k, hview⟩ := hup hasks
  exact ⟨k, hview.trans ((Invocation.unaware h).alone k (Invocation.view_start hsame))⟩

/-- What an invocation keeps of itself. -/
theorem UpToDate.resume (h : env.Memoryless) {v : World} {i : Invocation}
    (hup : UpToDate env v i) : UpToDate env (i.resume env v).2 (i.resume env v).1 := by
  have hlike : ∀ k, i.view =
      ((Invocation.program env).alone k (Invocation.start env (i.agent, i.inp) v, v)).1.view →
      (i.resume env v).1.view = ((Invocation.program env).alone (k + 1)
        (Invocation.start env (i.agent, i.inp) v, v)).1.view := by
    intro k hview
    rw [Invocation.resumed_alone]
    exact Invocation.unaware h _ _ _ _ hview
  have hresumed := Invocation.resumed env i v
  generalize i.resume env v = x at hresumed hlike
  cases hresumed with
  | goesOn hasks phase v' hphase hmemory hruns =>
    intro _
    obtain ⟨k, hview⟩ := hup hasks
    refine ⟨k + 1, (hlike k hview).trans ?_⟩
    refine (Invocation.unaware h).alone (k + 1) (Invocation.view_start ?_)
    rw [hmemory]
  | ends hasks final report v' hinp hsaid hmemory hruns =>
    rintro ⟨n, messages, used, outputs, ⟨⟩⟩
  | commits final report hphase hcommit result hresult v' hmemory hruns =>
    rintro ⟨n, messages, used, outputs, ⟨⟩⟩
  | refused final report hphase hcommit => rintro ⟨n, messages, used, outputs, ⟨⟩⟩
  | finished r hover => exact hup

/-- A turn of another conversation leaves what an invocation has read as it is. -/
theorem getShortTerm_write {memory : String → AgentMemory} {e : Ending} {key : String}
    {inp : AgentInput} (h : key = e.agent.key →
      inp.conversationId.getD "" = "" ∨ ¬ e.turn.IsUnder inp.memoryKey) :
    (e.write memory key).getShortTerm inp = (memory key).getShortTerm inp := by
  unfold Ending.write
  by_cases hkey : key = e.agent.key
  · rw [hkey, Function.update_self]
    obtain hnone | hother := h hkey
    · rw [MemoryStore.getShortTerm_of_no_conversation _ hnone,
        MemoryStore.getShortTerm_of_no_conversation _ hnone]
    · by_cases hnone : inp.conversationId.getD "" = ""
      · rw [MemoryStore.getShortTerm_of_no_conversation _ hnone,
          MemoryStore.getShortTerm_of_no_conversation _ hnone]
      · rw [MemoryStore.getShortTerm_eq _ hnone, MemoryStore.getShortTerm_eq _ hnone]
        exact congrArg _ (messages_append_of_not_isUnder _ (t := e.turn) hother)
  · rw [Function.update_of_ne hkey]

/-- What it keeps of another one, if they are apart. -/
theorem UpToDate.other (h : env.Memoryless) {p : Pool World Invocation} {n m : ℕ}
    {i other : Invocation} (hi : p.procs[n]? = some i) (hother : p.procs[m]? = some other)
    (hne : m ≠ n) (hapart : Apart env p (.resume n)) (hup : UpToDate env p.shared other) :
    UpToDate env (i.resume env p.shared).2 other := by
  intro hasks
  refine hup.of_memory h ?_ hasks
  have hmemory : (p.move (Invocation.program env) (.resume n)).shared.memory = _ :=
    memory_move _
  rw [move_resume_shared hi] at hmemory
  rw [hmemory]
  cases hending : ending? env p (.resume n) with
  | none => rfl
  | some e =>
    obtain ⟨-, hnumber, -⟩ := endings_oncePast.emits p _ e hending
    have hnumber : n = e.number := Move.resume.inj hnumber
    refine (getShortTerm_write fun hkey => ?_).symm
    exact hapart e hending m other (hnumber ▸ hne) hother hasks hkey

theorem run_upToDate (h : env.Memoryless) (w : World) {moves : List (Move (Agent × AgentInput))}
    (hapart : ∀ before m, before ++ [m] <+: moves →
      Apart env (Pool.run (Invocation.program env) ⟨w, []⟩ before) m) :
    (Pool.run (Invocation.program env) ⟨w, []⟩ moves).All (UpToDate env) := by
  refine Interleaving.run_all ?_ ?_ ?_ (p := ⟨w, []⟩) (fun n i hnone => by simp at hnone) hapart
  · exact fun p call _ _ => ⟨0, rfl⟩
  · exact fun p n i _ _ hup => hup.resume h
  · exact fun p n i m other hapart hi hother hne hup => hup.other h hi hother hne hapart

/-- The rounds that end with a move are those of an invocation that asked. -/
theorem ending_of_move {p : Pool World Invocation} {m : Move (Agent × AgentInput)} {e : Ending}
    (hending : ending? env p m = some e) : ∃ i final v, p.procs[e.number]? = some i ∧
      i.phase.Asks ∧ i.agent = e.agent ∧ e.report.inp = i.inp ∧
      e.report.reply = saidText final ∧
      i.resume env p.shared = (⟨i.agent, i.inp, .committing final e.report⟩, v) := by
  obtain ⟨i, rfl, hi, -, -⟩ := endings_oncePast.emits p m e hending
  rw [ending?_resume hi, Option.map_eq_some_iff] at hending
  obtain ⟨report, hreport, he⟩ := hending
  have hagent : i.agent = e.agent := congrArg Ending.agent he
  obtain rfl : report = e.report := congrArg Ending.report he
  have hresumed := Invocation.resumed env i p.shared
  generalize hx : i.resume env p.shared = x at hresumed hreport
  cases hresumed with
  | goesOn hasks phase v hphase hmemory hruns =>
    rw [Phase.report?_of_goesOn hphase] at hreport
    cases hreport
  | ends hasks final report' v hinp hsaid hmemory hruns =>
    obtain rfl : report' = e.report := Option.some.inj hreport
    exact ⟨i, final, v, hi, hasks, hagent, hinp, hsaid, hx⟩
  | commits final report' hphase hcommit result hresult v hmemory hruns => cases hreport
  | refused final report' hphase hcommit => cases hreport
  | finished r hover =>
    rw [Phase.report?_of_outcome hover] at hreport
    cases hreport

/-- **The step**: a run that is as good as one after the other stays so. -/
theorem serializable_concat (h : env.Memoryless) {w : World}
    {moves : List (Move (Agent × AgentInput))} {m : Move (Agent × AgentInput)}
    (hup : (Pool.run (Invocation.program env) ⟨w, []⟩ moves).All (UpToDate env))
    (hmoves : Serializable env w moves) : Serializable env w (moves ++ [m]) := by
  set q := Pool.run (Invocation.program env) ⟨w, []⟩ moves with hq
  have hendings : endings env ⟨w, []⟩ (moves ++ [m]) =
      endings env ⟨w, []⟩ moves ++ (ending? env q m).toList :=
    Interleaving.history_concat _ _ _
  have hmemory : (Pool.run (Invocation.program env) ⟨w, []⟩ (moves ++ [m])).shared.memory =
      (ending? env q m).toList.foldl Ending.write q.shared.memory := by
    rw [Pool.run_concat, ← hq]
    exact memory_move m
  cases hending : ending? env q m with
  | none =>
    rw [hending, Option.toList_none, List.append_nil] at hendings
    rw [hending] at hmemory
    constructor
    · rw [hendings, hmemory]
      exact hmoves.memory
    · rw [hendings]
      exact hmoves.answers
  | some e =>
    rw [hending, Option.toList_some] at hendings
    rw [hending, Option.toList_some] at hmemory
    obtain ⟨i, final, v, hi, hasks, hagent, hinp, hsaid, hresume⟩ := ending_of_move hending
    obtain ⟨k, hview⟩ := hup e.number i hi hasks
    have hended := Invocation.unaware h _ _ q.shared
      ((Invocation.program env).alone k
        (Invocation.start env (i.agent, i.inp) q.shared, q.shared)).2 hview
    change (i.resume env q.shared).1.view = _ at hended
    rw [hresume] at hended
    have hhere := Invocation.resumed_alone env k
      (Invocation.start env (i.agent, i.inp) q.shared, q.shared)
    have hviews : ((i.agent, i.inp, .ended (saidText final) (i.agent.answer e.report)) :
        Agent × AgentInput × Standing) = ((Invocation.program env).alone (k + 1)
          (Invocation.start env (i.agent, i.inp) q.shared, q.shared)).1.view := by
      rw [hhere]
      exact hended
    have hbefore : q.shared.memory = (oneByOne env w (endings env ⟨w, []⟩ moves)).memory :=
      hmoves.memory
    obtain ⟨hanswer, hleft⟩ := Invocation.invoke_of_ended (u := oneByOne env w
      (endings env ⟨w, []⟩ moves)) h hviews (by rw [hbefore])
    rw [hagent, ← hinp] at hanswer hleft
    constructor
    · rw [hmemory, hendings, oneByOne, List.foldl_append]
      refine Eq.trans ?_ hleft.symm
      show e.write q.shared.memory = _
      rw [Ending.write, hbefore, hsaid]
    · intro before e' hearlier
      rw [hendings] at hearlier
      obtain hlast | hearlier := List.prefix_concat_iff.1 hearlier
      · obtain ⟨rfl, ⟨⟩⟩ := List.append_inj' hlast rfl
        exact hanswer
      · exact hmoves.answers before e' hearlier

/-- **When a run is as good as one after the other**: if no invocation writes to a conversation
that another one of the same agent has read and is still busy with. -/
theorem run_serializable (env : Env) (h : env.Memoryless) (w : World)
    (moves : List (Move (Agent × AgentInput)))
    (hapart : ∀ before m, before ++ [m] <+: moves →
      Apart env (Pool.run (Invocation.program env) ⟨w, []⟩ before) m) :
    Serializable env w moves := by
  induction moves using List.reverseRecOn with
  | nil =>
    refine ⟨rfl, fun before e hearlier => ?_⟩
    have hlength := hearlier.length_le
    simp [endings, Interleaving.history] at hlength
  | append_singleton moves m ih =>
    have hearlier : ∀ before m', before ++ [m'] <+: moves →
        Apart env (Pool.run (Invocation.program env) ⟨w, []⟩ before) m' :=
      fun before m' hearlier => hapart before m' (hearlier.trans (List.prefix_append _ _))
    exact serializable_concat h (run_upToDate h w hearlier) (ih hearlier)

end Serializable

/-! ## Two turns -/

/-- Two customers at once are served as one after the other. -/
theorem two_customers_serializable : Serializable recallingEnv World.initial
    [.start firstAsks, .start secondAsks, .resume 0, .resume 1, .resume 1, .resume 0] := by
  refine run_serializable recallingEnv recallingEnv_memoryless World.initial _ ?_
  refine Interleaving.allowed_cons (fun e he => by cases he)
    (Interleaving.allowed_cons (fun e he => by cases he) (Interleaving.allowed_cons ?_
      (Interleaving.allowed_cons ?_ (Interleaving.allowed_cons (fun e he => by cases he)
        (Interleaving.allowed_cons (fun e he => by cases he) ?_)))))
  · rintro e ⟨⟩ n other hne hother hasks -
    rcases n with _ | _ | n
    · exact absurd rfl hne
    · obtain rfl := Option.some.inj hother
      exact .inr (by decide)
    · cases hother
  · rintro e ⟨⟩ n other hne hother ⟨n', messages, used, outputs, hphase⟩ -
    rcases n with _ | _ | n
    · obtain rfl := Option.some.inj hother
      cases hphase
    · exact absurd rfl hne
    · cases hother
  · intro before m hearlier
    simp at hearlier

/-- Two turns of one conversation at once are not: neither knows of the other. -/
theorem one_conversation_not_serializable : ¬ Serializable recallingEnv World.initial
    [.start firstAsks, .start firstAsks, .resume 0, .resume 1] := by
  intro h
  have hanswer := h.answers _ _ (List.prefix_refl _)
  have hreply := congrArg (fun r => r.toOption.map AgentResult.reply) hanswer
  exact absurd hreply (by decide)

end AgentPlatform
