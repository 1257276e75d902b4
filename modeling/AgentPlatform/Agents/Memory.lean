import AgentPlatform.Gateway.Models

/-!
# Requests, results and memory

What an agent is asked, what it answers, and the conversation it remembers.  The
short-term memory keeps the last turns of a conversation, scoped by tenant and
user through the key it is kept under.
-/

namespace AgentPlatform

/-- What an agent is asked. -/
structure AgentInput where
  tenantId : String
  userId : String
  roles : List String
  correlationId : String
  message : String
  conversationId : Option String := none
  resourceOwnerId : Option String := none

/-- The record of one tool call in a result. -/
structure ToolOutput where
  tool : String
  ok : Bool
  data : Dict

def ToolOutput.asdict (o : ToolOutput) : Json :=
  .obj [("tool", .str o.tool), ("ok", .bool o.ok), ("data", .obj o.data)]

/-- What an agent answers. -/
structure AgentResult where
  reply : String
  usedTools : List String := []
  toolOutputs : List ToolOutput := []
  delegatedTo : List String := []
  tokenUsage : Usage := []
  needsHumanApproval : Bool := false
  decision : Option Dict := none

/-- A result apart from its token counts. -/
def AgentResult.uncounted (result : AgentResult) : AgentResult := { result with tokenUsage := [] }

/-- `xs[-n:]` -/
def takeLast {α : Type} (n : ℕ) (xs : List α) : List α := xs.drop (xs.length - n)

theorem mem_of_mem_takeLast {α : Type} {n : ℕ} {xs : List α} {x : α} (h : x ∈ takeLast n xs) :
    x ∈ xs :=
  List.mem_of_mem_drop h

theorem takeLast_concat {α : Type} (n : ℕ) (xs : List α) (x : α) :
    takeLast (n + 1) (xs ++ [x]) = takeLast n xs ++ [x] := by
  unfold takeLast
  rw [List.length_append, List.length_singleton, Nat.add_sub_add_right,
    List.drop_append_of_le_length (Nat.sub_le _ _)]

theorem takeLast_of_length_le {α : Type} {n : ℕ} {xs : List α} (h : xs.length ≤ n) :
    takeLast n xs = xs := by
  rw [takeLast, Nat.sub_eq_zero_of_le h, List.drop_zero]

/-- What comes first does not count, where enough comes after it. -/
theorem takeLast_append_of_le {α : Type} {n : ℕ} {ys : List α} (h : n ≤ ys.length)
    (xs : List α) : takeLast n (xs ++ ys) = takeLast n ys := by
  unfold takeLast
  rw [List.length_append, List.drop_append, List.drop_eq_nil_of_le (by omega), List.nil_append]
  congr 1
  omega

theorem takeLast_takeLast {α : Type} {m n : ℕ} (h : m ≤ n) (xs : List α) :
    takeLast m (takeLast n xs) = takeLast m xs := by
  unfold takeLast
  rw [List.drop_drop, List.length_drop]
  congr 1
  omega

/-- What was forgotten before stays forgotten. -/
theorem takeLast_takeLast_append {α : Type} (n : ℕ) (xs ys : List α) :
    takeLast n (takeLast n xs ++ ys) = takeLast n (xs ++ ys) := by
  by_cases hlength : xs.length ≤ n
  · rw [takeLast_of_length_le hlength]
  · have hkept : n ≤ (takeLast n xs ++ ys).length := by
      rw [List.length_append, takeLast, List.length_drop]
      omega
    have hsplit : xs ++ ys = xs.take (xs.length - n) ++ (takeLast n xs ++ ys) := by
      rw [takeLast, ← List.append_assoc, List.take_append_drop]
    rw [hsplit, takeLast_append_of_le hkept]

/-- The conversations of one agent, by key. -/
structure AgentMemory where
  short : List (String × List ChatMessage) := []

namespace AgentMemory

/-- The key a conversation is kept under. -/
def key (tenantId userId conversationId : String) : String :=
  s!"conv:{tenantId}:{userId}:{conversationId}"

/-- The messages kept under a key. -/
def messages (m : AgentMemory) (k : String) : List ChatMessage := (m.short.lookup k).getD []

/-- The messages of one key replaced. -/
def setMessages (m : AgentMemory) (k : String) (msgs : List ChatMessage) : AgentMemory :=
  ⟨(k, msgs) :: m.short.filter fun p => p.1 ≠ k⟩

/-- The last messages of a conversation; a request without a conversation has none. -/
def getShortTerm (m : AgentMemory) (inp : AgentInput) : List ChatMessage :=
  match inp.conversationId with
  | none => []
  | some conversation =>
    if conversation = "" then []
    else takeLast 10 (m.messages (key inp.tenantId inp.userId conversation))

/-- Add a turn to a conversation, and forget the oldest. -/
def append (m : AgentMemory) (inp : AgentInput) (reply : String) : AgentMemory :=
  match inp.conversationId with
  | none => m
  | some conversation =>
    if conversation = "" then m
    else
      let k := key inp.tenantId inp.userId conversation
      let turn : List ChatMessage := [⟨.user, inp.message, none⟩, ⟨.assistant, reply, none⟩]
      m.setMessages k (takeLast 20 (m.messages k ++ turn))

theorem messages_setMessages (m : AgentMemory) (k k' : String) (msgs : List ChatMessage) :
    (m.setMessages k msgs).messages k' = if k' = k then msgs else m.messages k' := by
  unfold messages setMessages
  by_cases h : k' = k
  · subst h
    simp
  · have hlookup : (m.short.filter fun p => p.1 ≠ k).lookup k' = m.short.lookup k' := by
      induction m.short with
      | nil => rfl
      | cons p ps ih =>
        by_cases hp : p.1 = k
        · have hne : (k' == p.1) = false := by simpa [hp] using h
          rw [List.filter_cons_of_neg (by simpa using hp), ih, List.lookup_cons, hne]
        · rw [List.filter_cons_of_pos (by simpa using hp), List.lookup_cons, List.lookup_cons, ih]
    have hne : (k' == k) = false := by simpa using h
    rw [List.lookup_cons, hne, if_neg h]
    simp only [hlookup]

/-- What is kept after a turn was kept before, or is one of its two messages. -/
theorem mem_append {m : AgentMemory} {inp : AgentInput} {reply k : String} {msg : ChatMessage}
    (h : msg ∈ (m.append inp reply).messages k) :
    msg ∈ m.messages k ∨ msg = ⟨.user, inp.message, none⟩ ∨ msg = ⟨.assistant, reply, none⟩ := by
  unfold append at h
  split at h
  · exact Or.inl h
  · next conversation _ =>
    split at h
    · exact Or.inl h
    · rw [messages_setMessages] at h
      split at h
      · next hk =>
        rw [hk]
        simpa using mem_of_mem_takeLast h
      · exact Or.inl h

/-- A conversation that is named. -/
theorem exists_conversation {inp : AgentInput} (h : inp.conversationId.getD "" ≠ "") :
    ∃ conversation, inp.conversationId = some conversation ∧ conversation ≠ "" := by
  cases hc : inp.conversationId with
  | none =>
    rw [hc] at h
    exact absurd rfl h
  | some conversation =>
    rw [hc] at h
    exact ⟨conversation, rfl, h⟩

/-- A turn is kept only in a conversation. -/
theorem append_of_no_conversation {m : AgentMemory} {inp : AgentInput}
    (h : inp.conversationId.getD "" = "") (reply : String) : m.append inp reply = m := by
  unfold append
  cases hc : inp.conversationId with
  | none => rfl
  | some conversation =>
    rw [hc] at h
    exact if_pos h

/-- In a conversation, what is remembered tells what was replied. -/
theorem append_eq_append_iff {m : AgentMemory} {inp : AgentInput} {a b : String} :
    m.append inp a = m.append inp b ↔ inp.conversationId.getD "" = "" ∨ a = b := by
  by_cases h : inp.conversationId.getD "" = ""
  · simp [append_of_no_conversation h, h]
  · rw [or_iff_right h]
    refine ⟨fun heq => ?_, fun heq => by rw [heq]⟩
    obtain ⟨conversation, hc, hne⟩ := exists_conversation h
    simp only [append, hc, if_neg hne, setMessages, mk.injEq, List.cons.injEq, Prod.mk.injEq,
      true_and, and_true] at heq
    have hturn : ∀ reply : String,
        takeLast 20 (m.messages (key inp.tenantId inp.userId conversation) ++
          [⟨.user, inp.message, none⟩, ⟨.assistant, reply, none⟩]) =
        takeLast 19 (m.messages (key inp.tenantId inp.userId conversation) ++
          [⟨.user, inp.message, none⟩]) ++ [⟨.assistant, reply, none⟩] := by
      intro reply
      rw [← takeLast_concat, List.append_assoc]
      rfl
    rw [hturn, hturn] at heq
    have hlast := List.append_inj_right' heq rfl
    simpa using hlast

end AgentMemory

/-- The key a message is kept under. -/
def AgentInput.memoryKey (inp : AgentInput) : String :=
  AgentMemory.key inp.tenantId inp.userId (inp.conversationId.getD "")

end AgentPlatform
