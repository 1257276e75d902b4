import AgentPlatform.Agents.History
import AgentPlatform.Graph.Turn

/-!
# Turns that fail

A run remembers its turn before it records it.  What fails earlier leaves the memory as it was; a
row the database does not take comes too late.

* `takeLast_append_eq_self_iff` — when a bounded list does not notice what is added to it.
* `AgentMemory.Same` — the same messages under every key.
* `same_append_iff` — when a memory does not notice a turn.
* `memory_untouched_iff` — **when a failed turn leaves the memory untouched**.
-/

namespace AgentPlatform

open MemoryOp (turn)

/-! ## What a bounded list does not notice -/

section Bounded

variable {α : Type} {n : ℕ} {t : List α}

/-- A list that shifting in `t` does not change consists of copies of `t`. -/
theorem eq_flatten_replicate (m : ℕ) {l : List α} (hl : l.length = m * n)
    (h : l.drop n ++ t = l) : l = (List.replicate m t).flatten := by
  induction m generalizing l with
  | zero =>
    rw [Nat.zero_mul, List.length_eq_zero_iff] at hl
    exact hl
  | succ m ih =>
    have hdrop : (l.drop n).length = m * n := by
      rw [List.length_drop, hl, Nat.succ_mul, Nat.add_sub_cancel]
    cases m with
    | zero =>
      rw [Nat.zero_mul, List.length_eq_zero_iff] at hdrop
      rw [hdrop, List.nil_append] at h
      rw [← h]
      simp
    | succ m =>
      -- the rest of the list is not changed either
      have hle : n ≤ (l.drop n).length := hdrop ▸ Nat.le_mul_of_pos_left n (Nat.succ_pos m)
      have hrest : (l.drop n).drop n ++ t = l.drop n := by
        conv_rhs => rw [← h]
        rw [List.drop_append_of_le_length hle]
      rw [List.replicate_succ', List.flatten_append, ← ih hdrop hrest, List.flatten_singleton, h]

/-- A list cut off at `m` times the length of `t` does not notice `t` at its end just where it
consists of `m` copies of it. -/
theorem takeLast_append_eq_self_iff (ht : t.length = n) (hn : 0 < n) {m : ℕ} (hm : 0 < m)
    (l : List α) : takeLast (m * n) (l ++ t) = l ↔ l = (List.replicate m t).flatten := by
  have hcopies : (List.replicate m t).flatten.length = m * n := by simp [ht]
  have hone : n ≤ m * n := Nat.le_mul_of_pos_left n hm
  constructor
  · intro h
    have hlength := congrArg List.length h
    rw [takeLast, List.length_drop, List.length_append, ht] at hlength
    have hl : l.length = m * n := by omega
    refine eq_flatten_replicate m hl ?_
    rwa [takeLast, List.length_append, ht, hl, Nat.add_sub_cancel_left,
      List.drop_append_of_le_length (hl ▸ hone)] at h
  · rintro rfl
    rw [takeLast, List.length_append, ht, hcopies, Nat.add_sub_cancel_left]
    have hrotate : (List.replicate m t).flatten ++ t = t ++ (List.replicate m t).flatten := by
      rw [← List.flatten_cons, ← List.replicate_succ, List.replicate_succ', List.flatten_append,
        List.flatten_singleton]
    rw [hrotate, ← ht, List.drop_left]

end Bounded

/-! ## What a memory does not notice -/

/-- Two memories with the same messages under every key. -/
def AgentMemory.Same (m m' : AgentMemory) : Prop := ∀ k, m.messages k = m'.messages k

theorem AgentMemory.Same.refl (m : AgentMemory) : m.Same m := fun _ => rfl

/-- The memory keeps ten copies of this turn under the key of the conversation. -/
def AgentMemory.Saturated (m : AgentMemory) (inp : AgentInput) (reply : String) : Prop :=
  m.messages inp.memoryKey = (List.replicate 10 (turn inp reply)).flatten

/-- A memory does not notice a turn without a conversation, nor one it is full of. -/
theorem same_append_iff {m : AgentMemory} {inp : AgentInput} {reply : String} :
    (m.append inp reply).Same m ↔
      inp.conversationId.getD "" = "" ∨ m.Saturated inp reply := by
  by_cases hnone : inp.conversationId.getD "" = ""
  · rw [AgentMemory.append_of_no_conversation hnone]
    exact iff_of_true (AgentMemory.Same.refl m) (Or.inl hnone)
  · rw [or_iff_right hnone]
    have hkey : ∀ k, (m.append inp reply).messages k =
        if k = inp.memoryKey then takeLast (10 * 2) (m.messages k ++ turn inp reply)
        else m.messages k := fun k => MemoryStore.messages_append m reply k hnone
    have hfull : takeLast (10 * 2) (m.messages inp.memoryKey ++ turn inp reply) =
        m.messages inp.memoryKey ↔ m.Saturated inp reply :=
      takeLast_append_eq_self_iff (n := 2) rfl (by norm_num) (by norm_num) _
    rw [← hfull]
    constructor
    · intro hsame
      have hhere := hsame inp.memoryKey
      rwa [hkey, if_pos rfl] at hhere
    · intro hhere k
      rw [hkey]
      split_ifs with hk
      · rwa [hk]
      · rfl

/-! ## Failed turns -/

section Failed

variable (env : Env) (agent : Agent) (inp : AgentInput) (w : World)

/-- If the run raises, the memory of the agent is as it was. -/
def Agent.Untouched : Prop :=
  ∀ e, (agent.invoke env inp w).1 = .error e →
    ((agent.invoke env inp w).2.memory agent.key).Same (w.memory agent.key)

/-- **When a failed turn leaves the memory untouched.**  Whatever stops the run, a guardrail or
the provider, in any round, comes before the turn is remembered; the row of a run that comes to its
end does not.  There the memory is touched unless the database takes the row, or there is no
conversation, or the memory is full of copies of this very turn. -/
theorem memory_untouched_iff : agent.Untouched env inp w ↔
    ∀ final, agent.outcome env inp w = .ok final →
      env.commit w.runs.asked = true ∨ inp.conversationId.getD "" = "" ∨
        (w.memory agent.key).Saturated inp (saidText final) := by
  unfold Agent.Untouched
  rcases Agent.invoke_cases env agent inp w with ⟨e, houtcome, hunsaid⟩ | ⟨final, houtcome, hsaid⟩
  · refine iff_of_true (fun _ _ => ?_) fun final h => ?_
    · rw [hunsaid.memory]
      exact AgentMemory.Same.refl _
    · rw [houtcome] at h
      cases h
  · have hmemory : (agent.invoke env inp w).2.memory agent.key =
        (w.memory agent.key).append inp (saidText final) := by
      rw [hsaid.memory, Function.update_self]
    rw [hmemory]
    simp only [houtcome, Except.ok.injEq, forall_eq']
    cases hcommit : env.commit w.runs.asked with
    | true =>
      obtain ⟨used, outputs, hresult, -⟩ := hsaid.taken hcommit
      refine iff_of_true (fun e he => ?_) (Or.inl rfl)
      rw [hresult] at he
      cases he
    | false =>
      rw [(hsaid.refused hcommit).1, same_append_iff]
      simp

end Failed

/-- A platform whose database takes no row. -/
def refusingEnv : Env :=
  { demoEnv fun _ => some (replies "Here you are.") with commit := fun _ => false }

/-- A row that is not taken: the run raises, and its turn is in the memory. -/
theorem failed_turn_remembered :
    (customerSupportAgent.invoke refusingEnv demoInput .initial).1 = .error .operationalError ∧
      ((World.initial.memory "customer_support").messages demoInput.memoryKey) = [] ∧
      ((customerSupportAgent.invoke refusingEnv demoInput .initial).2.memory
        "customer_support").messages demoInput.memoryKey = turn demoInput "Here you are." ∧
      ¬ customerSupportAgent.Untouched refusingEnv demoInput .initial := by
  have hraised : (customerSupportAgent.invoke refusingEnv demoInput .initial).1 =
      .error .operationalError := rfl
  have hafter : ((customerSupportAgent.invoke refusingEnv demoInput .initial).2.memory
      "customer_support").messages demoInput.memoryKey = turn demoInput "Here you are." := rfl
  refine ⟨hraised, rfl, hafter, fun h => ?_⟩
  have hsame := h _ hraised demoInput.memoryKey
  rw [show customerSupportAgent.key = "customer_support" from rfl, hafter] at hsame
  cases hsame

end AgentPlatform
