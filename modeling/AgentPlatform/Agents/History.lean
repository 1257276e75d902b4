import AgentPlatform.Agents.Namespaces

/-!
# The memory and the whole history

What an agent remembers is cut off after every turn, and once more when it is read.  Under the
memory lies the whole history of a conversation: the two messages of every turn under its key,
none forgotten.  The memory keeps its tail.

* `Turn`, `AgentMemory.afterTurns` — turns, and the memory after a sequence of them.
* `turnsUnder`, `history` — the turns of a key, and the messages of its whole history.
* `messages_afterTurns` — the messages kept are those of the last ten turns.
* `afterTurns_refines_history` — **the memory is the tail of the history**.
-/

namespace AgentPlatform

open MemoryOp (turn)

/-- One call of `append`: what was asked, and what was replied. -/
structure Turn where
  inp : AgentInput
  reply : String

namespace Turn

variable (t : Turn)

/-- Has the turn a conversation to go to? -/
def InConversation : Prop := t.inp.conversationId.getD "" ≠ ""

/-- The key the turn is kept under. -/
def key : String :=
  AgentMemory.key t.inp.tenantId t.inp.userId (t.inp.conversationId.getD "")

/-- Is the turn kept under this key? -/
def IsUnder (k : String) : Prop := t.InConversation ∧ k = t.key

instance (k : String) : Decidable (t.IsUnder k) := by
  unfold IsUnder InConversation
  infer_instance

/-- The message of the user and the reply. -/
def messages : List ChatMessage := turn t.inp t.reply

end Turn

/-- The memory after turns, from an empty one. -/
def AgentMemory.afterTurns (turns : List Turn) : AgentMemory :=
  turns.foldl (fun m t => m.append t.inp t.reply) {}

/-- The turns kept under a key. -/
def turnsUnder (turns : List Turn) (k : String) : List Turn := turns.filter fun t => t.IsUnder k

/-- The whole history under a key: every message, none forgotten. -/
def history (turns : List Turn) (k : String) : List ChatMessage :=
  turns.foldl (fun msgs t => if t.IsUnder k then msgs ++ t.messages else msgs) []

/-! ## Messages in pairs -/

theorem length_flatMap_messages (turns : List Turn) :
    (turns.flatMap Turn.messages).length = 2 * turns.length := by
  simp [List.length_flatMap, Turn.messages, turn, Nat.mul_comm]

theorem drop_flatMap_messages (k : ℕ) (turns : List Turn) :
    (turns.flatMap Turn.messages).drop (2 * k) = (turns.drop k).flatMap Turn.messages := by
  induction k generalizing turns with
  | zero => rfl
  | succ k ih =>
    cases turns with
    | nil => rfl
    | cons t turns => exact ih turns

/-- The last messages of turns are the messages of the last turns. -/
theorem takeLast_flatMap_messages (n : ℕ) (turns : List Turn) :
    takeLast (2 * n) (turns.flatMap Turn.messages) = (takeLast n turns).flatMap Turn.messages := by
  rw [takeLast, length_flatMap_messages, ← Nat.mul_sub, drop_flatMap_messages]
  rfl

/-- Messages alternate: the user, the assistant, and so on. -/
def Alternates (msgs : List ChatMessage) : Prop :=
  ∀ (i : ℕ) (msg : ChatMessage), msgs[i]? = some msg →
    msg.role = if i % 2 = 0 then .user else .assistant

theorem alternates_flatMap_messages (turns : List Turn) :
    Alternates (turns.flatMap Turn.messages) := by
  induction turns with
  | nil =>
    intro i msg h
    cases h
  | cons t turns ih =>
    intro i msg h
    match i with
    | 0 => exact (Option.some.inj h) ▸ rfl
    | 1 => exact (Option.some.inj h) ▸ rfl
    | i + 2 =>
      rw [Nat.add_mod_right]
      exact ih i msg h

/-! ## The memory is the tail of the history -/

theorem turnsUnder_concat (turns : List Turn) (t : Turn) (k : String) :
    turnsUnder (turns ++ [t]) k =
      if t.IsUnder k then turnsUnder turns k ++ [t] else turnsUnder turns k := by
  unfold turnsUnder
  rw [List.filter_append]
  split_ifs with h <;> simp [h]

theorem history_eq (turns : List Turn) (k : String) :
    history turns k = (turnsUnder turns k).flatMap Turn.messages := by
  induction turns using List.reverseRecOn with
  | nil => rfl
  | append_singleton turns t ih =>
    rw [turnsUnder_concat, history, List.foldl_append, ← history, ih, List.foldl_cons,
      List.foldl_nil]
    split_ifs
    · rw [List.flatMap_append, List.flatMap_singleton]
    · rfl

theorem afterTurns_concat (turns : List Turn) (t : Turn) :
    AgentMemory.afterTurns (turns ++ [t]) =
      (AgentMemory.afterTurns turns).append t.inp t.reply := by
  rw [AgentMemory.afterTurns, List.foldl_append]
  rfl

/-- A turn that is not kept under a key changes nothing under it. -/
theorem messages_append_of_not_isUnder (m : AgentMemory) {t : Turn} {k : String}
    (h : ¬ t.IsUnder k) : (m.append t.inp t.reply).messages k = m.messages k := by
  by_cases hc : t.inp.conversationId.getD "" = ""
  · rw [AgentMemory.append_of_no_conversation hc]
  · rw [MemoryStore.messages_append _ _ _ hc]
    exact if_neg fun hk => h ⟨hc, hk⟩

/-- **One turn** keeps the memory at the tail of the history. -/
theorem messages_append_of_isUnder (m : AgentMemory) {t : Turn} {k : String} (h : t.IsUnder k) :
    (m.append t.inp t.reply).messages k = takeLast 20 (m.messages k ++ t.messages) := by
  rw [MemoryStore.messages_append _ _ _ h.1]
  exact if_pos h.2

/-- What is kept is the tail of the history, after any turns. -/
theorem messages_afterTurns (turns : List Turn) (k : String) :
    (AgentMemory.afterTurns turns).messages k = takeLast 20 (history turns k) := by
  induction turns using List.reverseRecOn with
  | nil => rfl
  | append_singleton turns t ih =>
    rw [afterTurns_concat, history_eq, turnsUnder_concat]
    by_cases h : t.IsUnder k
    · rw [messages_append_of_isUnder _ h, ih, takeLast_takeLast_append, history_eq, if_pos h,
        List.flatMap_append, List.flatMap_singleton]
    · rw [messages_append_of_not_isUnder _ h, ih, history_eq, if_neg h]

/-- What is kept are the messages of the last ten turns. -/
theorem messages_afterTurns_eq (turns : List Turn) (k : String) :
    (AgentMemory.afterTurns turns).messages k =
      (takeLast 10 (turnsUnder turns k)).flatMap Turn.messages := by
  rw [messages_afterTurns, history_eq, ← takeLast_flatMap_messages]

/-- **The memory is the tail of the history**, after any turns of any conversations: a read gives
the last ten messages of the history of its key; what is kept under a key are twenty messages at
most, in pairs of the user and the assistant; and a turn under another key, or without a
conversation, changes nothing under it. -/
theorem afterTurns_refines_history (turns : List Turn) (k : String) :
    (∀ query : AgentInput, query.conversationId.getD "" ≠ "" →
      AgentMemory.key query.tenantId query.userId (query.conversationId.getD "") = k →
      (AgentMemory.afterTurns turns).getShortTerm query = takeLast 10 (history turns k)) ∧
    Even ((AgentMemory.afterTurns turns).messages k).length ∧
    ((AgentMemory.afterTurns turns).messages k).length ≤ 20 ∧
    Alternates ((AgentMemory.afterTurns turns).messages k) ∧
    ∀ t : Turn, (¬ t.InConversation →
        AgentMemory.afterTurns (turns ++ [t]) = AgentMemory.afterTurns turns) ∧
      (t.key ≠ k → (AgentMemory.afterTurns (turns ++ [t])).messages k =
        (AgentMemory.afterTurns turns).messages k) := by
  have hpairs : ((AgentMemory.afterTurns turns).messages k).length =
      2 * (takeLast 10 (turnsUnder turns k)).length := by
    rw [messages_afterTurns_eq, length_flatMap_messages]
  refine ⟨?_, ?_, ?_, ?_, fun t => ⟨fun hnone => ?_, fun hkey => ?_⟩⟩
  · intro query hquery hk
    rw [MemoryStore.getShortTerm_eq _ hquery, hk, messages_afterTurns,
      takeLast_takeLast (by norm_num)]
  · exact hpairs ▸ even_two_mul _
  · rw [hpairs, takeLast, List.length_drop]
    omega
  · rw [messages_afterTurns_eq]
    exact alternates_flatMap_messages _
  · rw [afterTurns_concat, AgentMemory.append_of_no_conversation (not_not.1 hnone)]
  · rw [afterTurns_concat, messages_append_of_not_isUnder _ fun h => hkey h.2.symm]

end AgentPlatform
