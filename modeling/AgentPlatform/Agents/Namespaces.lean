import AgentPlatform.Agents.Memory
import AgentPlatform.Lib.Delimited
import Mathlib.Data.List.Infix

/-!
# The namespaces of the memory

Conversations and durable facts are kept under keys made of a tenant, a user and a third name,
joined by colons.  Names with a colon in them can be joined to the key of another user.

* `MemoryStore`, `MemoryOp` — the two dictionaries, and the operations that write to them.
* `MemoryStore.Isolated` — a read gives only what was written under exactly its names.
* `isolated_of_separable` — names that can be told apart keep the memory isolated.
* `run_isolated_iff` — **when a run keeps it isolated**: after every operation, exactly if the names
  of every operation can be told apart.
* `short_of_principals`, `long_of_principals` — principals without a colon in their names share
  nothing.
-/

namespace AgentPlatform

/-- The dictionaries `_short` and `_long` of a memory. -/
structure MemoryStore where
  short : AgentMemory := {}
  long : String → Option Dict := fun _ => none

namespace MemoryStore

/-- The key a durable fact is kept under. -/
def longKey (tenantId userId key : String) : String := s!"{tenantId}:{userId}:{key}"

def putLongTerm (m : MemoryStore) (tenantId userId key : String) (value : Dict) : MemoryStore :=
  { m with long := Function.update m.long (longKey tenantId userId key) (some value) }

def getLongTerm (m : MemoryStore) (tenantId userId key : String) : Option Dict :=
  m.long (longKey tenantId userId key)

end MemoryStore

/-- What is written to a memory. -/
inductive MemoryOp where
  | append (inp : AgentInput) (reply : String)
  | putLongTerm (tenantId userId key : String) (value : Dict)

namespace MemoryOp

def apply : MemoryOp → MemoryStore → MemoryStore
  | append inp reply, m => { m with short := m.short.append inp reply }
  | putLongTerm tenantId userId key value, m => m.putLongTerm tenantId userId key value

/-- The two messages of a turn. -/
def turn (inp : AgentInput) (reply : String) : List ChatMessage :=
  [⟨.user, inp.message, none⟩, ⟨.assistant, reply, none⟩]

/-- The names of the operation can be told apart in its key: there is no colon in them, but for
the last place of a conversation id, which is never the empty one. -/
def Separable : MemoryOp → Prop
  | append inp _ =>
    inp.conversationId.getD "" = "" ∨
      Delimited.Plain ':' inp.tenantId.toList inp.userId.toList
        (inp.conversationId.getD "").toList.dropLast
  | putLongTerm tenantId userId key _ =>
    Delimited.Plain ':' tenantId.toList userId.toList key.toList

instance (op : MemoryOp) : Decidable op.Separable := by
  cases op <;> unfold Separable <;> infer_instance

end MemoryOp

namespace MemoryStore

open MemoryOp (turn)

/-- The memory after operations, from an empty one. -/
def run (ops : List MemoryOp) : MemoryStore := ops.foldl (fun m op => op.apply m) {}

/-- A read after the operations gives only what was written under exactly its names. -/
structure Isolated (ops : List MemoryOp) : Prop where
  short : ∀ query : AgentInput, ∀ msg ∈ (run ops).short.getShortTerm query, ∃ inp reply,
    .append inp reply ∈ ops ∧ inp.tenantId = query.tenantId ∧ inp.userId = query.userId ∧
      inp.conversationId = query.conversationId ∧ msg ∈ turn inp reply
  long : ∀ tenantId userId key value, (run ops).getLongTerm tenantId userId key = some value →
    .putLongTerm tenantId userId key value ∈ ops

/-! ## The keys -/

/-- The names of a read or a write of a conversation, as the delimiter joins them. -/
def names (inp : AgentInput) : List Char :=
  Delimited.join ':' inp.tenantId.toList inp.userId.toList
    (inp.conversationId.getD "").toList

theorem key_inj_iff {a b : AgentInput} :
    AgentMemory.key a.tenantId a.userId (a.conversationId.getD "") =
      AgentMemory.key b.tenantId b.userId (b.conversationId.getD "") ↔ names a = names b := by
  rw [← String.toList_inj]
  simp [AgentMemory.key, names, Delimited.join, toString, String.toList_append]

theorem longKey_inj_iff {t u k t' u' k' : String} : longKey t u k = longKey t' u' k' ↔
    Delimited.join ':' t.toList u.toList k.toList =
      Delimited.join ':' t'.toList u'.toList k'.toList := by
  rw [← String.toList_inj]
  simp [longKey, Delimited.join, toString, String.toList_append]

/-- What a conversation's read gives. -/
theorem getShortTerm_eq (m : AgentMemory) {query : AgentInput}
    (h : query.conversationId.getD "" ≠ "") : m.getShortTerm query = takeLast 10 (m.messages
      (AgentMemory.key query.tenantId query.userId (query.conversationId.getD ""))) := by
  obtain ⟨conversation, hc, hne⟩ := AgentMemory.exists_conversation h
  unfold AgentMemory.getShortTerm
  rw [hc]
  exact if_neg hne

theorem getShortTerm_of_no_conversation (m : AgentMemory) {query : AgentInput}
    (h : query.conversationId.getD "" = "") : m.getShortTerm query = [] := by
  unfold AgentMemory.getShortTerm
  cases hc : query.conversationId with
  | none => rfl
  | some conversation =>
    rw [hc] at h
    exact if_pos h

/-- What a turn leaves under a key. -/
theorem messages_append (m : AgentMemory) {inp : AgentInput} (reply k : String)
    (h : inp.conversationId.getD "" ≠ "") : (m.append inp reply).messages k =
      if k = AgentMemory.key inp.tenantId inp.userId (inp.conversationId.getD "") then
        takeLast 20 (m.messages k ++ turn inp reply) else m.messages k := by
  obtain ⟨conversation, hc, hne⟩ := AgentMemory.exists_conversation h
  unfold AgentMemory.append
  rw [hc]
  dsimp only [Option.getD_some]
  rw [if_neg hne, AgentMemory.messages_setMessages]
  by_cases hk : k = AgentMemory.key inp.tenantId inp.userId conversation
  · rw [if_pos hk, if_pos hk, hk]
    rfl
  · rw [if_neg hk, if_neg hk]

/-- What is kept under a fact's key after a put. -/
theorem long_putLongTerm (m : MemoryStore) (t u key : String) (value : Dict) (k : String) :
    (m.putLongTerm t u key value).long k =
      if k = longKey t u key then some value else m.long k :=
  Function.update_apply _ _ _ _

/-! ## What a run leaves -/

theorem run_concat (ops : List MemoryOp) (op : MemoryOp) :
    run (ops ++ [op]) = op.apply (run ops) := by
  rw [run, List.foldl_append]
  rfl

/-- What is kept under a conversation's key was written by a turn with that key. -/
theorem mem_messages_run {ops : List MemoryOp} {k : String} {msg : ChatMessage}
    (h : msg ∈ (run ops).short.messages k) : ∃ inp reply, .append inp reply ∈ ops ∧
      inp.conversationId.getD "" ≠ "" ∧
      AgentMemory.key inp.tenantId inp.userId (inp.conversationId.getD "") = k ∧
      msg ∈ turn inp reply := by
  induction ops using List.reverseRecOn with
  | nil => cases h
  | append_singleton ops op ih =>
    have hearlier : msg ∈ (run ops).short.messages k → ∃ inp reply,
        .append inp reply ∈ ops ++ [op] ∧ inp.conversationId.getD "" ≠ "" ∧
          AgentMemory.key inp.tenantId inp.userId (inp.conversationId.getD "") = k ∧
          msg ∈ turn inp reply := by
      intro hmem
      obtain ⟨inp, reply, hop, hrest⟩ := ih hmem
      exact ⟨inp, reply, List.mem_append_left _ hop, hrest⟩
    rw [run_concat] at h
    cases op with
    | append inp reply =>
      by_cases hc : inp.conversationId.getD "" = ""
      · rw [MemoryOp.apply, AgentMemory.append_of_no_conversation hc] at h
        exact hearlier h
      · rw [MemoryOp.apply, messages_append _ _ _ hc] at h
        split at h
        · next hk =>
          rcases List.mem_append.1 (mem_of_mem_takeLast h) with hold | hnew
          · exact hearlier hold
          · exact ⟨inp, reply, List.mem_append_right _ (List.mem_singleton_self _), hc, hk.symm,
              hnew⟩
        · exact hearlier h
    | putLongTerm t u key value => exact hearlier h

/-- What is kept under a fact's key was put under that key. -/
theorem long_run {ops : List MemoryOp} {k : String} {value : Dict}
    (h : (run ops).long k = some value) :
    ∃ t u key, .putLongTerm t u key value ∈ ops ∧ longKey t u key = k := by
  induction ops using List.reverseRecOn with
  | nil => cases h
  | append_singleton ops op ih =>
    have hearlier : (run ops).long k = some value →
        ∃ t u key, .putLongTerm t u key value ∈ ops ++ [op] ∧ longKey t u key = k := by
      intro hold
      obtain ⟨t, u, key, hop, hkey⟩ := ih hold
      exact ⟨t, u, key, List.mem_append_left _ hop, hkey⟩
    rw [run_concat] at h
    cases op with
    | append inp reply => exact hearlier h
    | putLongTerm t u key written =>
      rw [MemoryOp.apply, long_putLongTerm] at h
      split at h
      · next hk =>
        obtain rfl := Option.some.inj h
        exact ⟨t, u, key, List.mem_append_right _ (List.mem_singleton_self _), hk.symm⟩
      · exact hearlier h

/-! ## Names that can be told apart -/

/-- Two conversations are one if the names in one of them can be told apart. -/
theorem conversation_eq {inp query : AgentInput} {reply : String}
    (hsep : (MemoryOp.append inp reply).Separable) (hinp : inp.conversationId.getD "" ≠ "")
    (hquery : query.conversationId.getD "" ≠ "") (h : names inp = names query) :
    inp.tenantId = query.tenantId ∧ inp.userId = query.userId ∧
      inp.conversationId = query.conversationId := by
  have hplain := hsep.resolve_left hinp
  obtain ⟨ht, hu, hc⟩ := Delimited.join_inj_dropLast hplain (by simpa using hinp)
    (by simpa using hquery) h
  refine ⟨String.toList_inj.1 ht, String.toList_inj.1 hu, ?_⟩
  have hids : inp.conversationId.getD "" = query.conversationId.getD "" := String.toList_inj.1 hc
  cases ha : inp.conversationId with
  | none => rw [ha] at hinp; exact absurd rfl hinp
  | some a =>
    cases hb : query.conversationId with
    | none => rw [hb] at hquery; exact absurd rfl hquery
    | some b =>
      rw [ha, hb] at hids
      exact congrArg some hids

/-- Names that can be told apart keep the memory isolated. -/
theorem isolated_of_separable {ops : List MemoryOp} (h : ∀ op ∈ ops, op.Separable) :
    Isolated ops where
  short := by
    intro query msg hmsg
    by_cases hquery : query.conversationId.getD "" = ""
    · rw [getShortTerm_of_no_conversation _ hquery] at hmsg
      cases hmsg
    · rw [getShortTerm_eq _ hquery] at hmsg
      obtain ⟨inp, reply, hop, hinp, hkey, hturn⟩ := mem_messages_run (mem_of_mem_takeLast hmsg)
      obtain ⟨ht, hu, hc⟩ := conversation_eq (h _ hop) hinp hquery (key_inj_iff.1 hkey)
      exact ⟨inp, reply, hop, ht, hu, hc, hturn⟩
  long := by
    intro t u key value hvalue
    obtain ⟨t', u', key', hop, hkey⟩ := long_run hvalue
    obtain ⟨ht, hu, hk⟩ := Delimited.join_inj_left (h _ hop) (longKey_inj_iff.1 hkey)
    rw [String.toList_inj] at ht hu hk
    subst ht hu hk
    exact hop

/-! ## Names that cannot -/

/-- A turn can be read right after it. -/
theorem mem_getShortTerm_append (m : AgentMemory) {inp query : AgentInput} (reply : String)
    (hinp : inp.conversationId.getD "" ≠ "") (hquery : query.conversationId.getD "" ≠ "")
    (h : names inp = names query) :
    ⟨.user, inp.message, none⟩ ∈ (m.append inp reply).getShortTerm query := by
  rw [getShortTerm_eq _ hquery, messages_append _ _ _ hinp, if_pos (key_inj_iff.2 h.symm)]
  have hends : ∀ xs : List ChatMessage, takeLast 10 (takeLast 20 (xs ++ turn inp reply)) =
      takeLast 8 (takeLast 18 xs) ++ turn inp reply := by
    intro xs
    have hsplit : xs ++ turn inp reply =
        xs ++ [⟨.user, inp.message, none⟩] ++ [⟨.assistant, reply, none⟩] := by simp [turn]
    rw [hsplit, takeLast_concat, takeLast_concat, takeLast_concat, takeLast_concat]
    simp [turn]
  rw [hends]
  simp [turn]

/-- After a turn whose names cannot be told apart, it can be read under other names. -/
theorem not_isolated_append (ops : List MemoryOp) {inp : AgentInput} {reply : String}
    (hops : ∀ op ∈ ops, op.Separable) (hop : ¬ (MemoryOp.append inp reply).Separable) :
    ¬ Isolated (ops ++ [.append inp reply]) := by
  intro hisolated
  have hinp : inp.conversationId.getD "" ≠ "" := fun hc => hop (Or.inl hc)
  have hplain : ¬ Delimited.Plain ':' inp.tenantId.toList inp.userId.toList
      (inp.conversationId.getD "").toList.dropLast := fun hp => hop (Or.inr hp)
  obtain ⟨t, u, c, hjoin, hother, hc⟩ :=
    Delimited.exists_other_dropLast (by simpa using hinp) hplain
  -- the reader who goes by the other names
  let query : AgentInput := { inp with
    tenantId := String.ofList t, userId := String.ofList u,
    conversationId := some (String.ofList c) }
  have hquery : query.conversationId.getD "" ≠ "" := by
    intro h
    have hnil := congrArg String.toList h
    exact hc (by simpa [query] using hnil)
  have hnames : names inp = names query := by
    simp only [names, query, String.toList_ofList, Option.getD_some]
    exact hjoin.symm
  have hread : ⟨.user, inp.message, none⟩ ∈
      (run (ops ++ [.append inp reply])).short.getShortTerm query := by
    rw [run_concat]
    exact mem_getShortTerm_append _ _ hinp hquery hnames
  obtain ⟨inp', reply', hmem, ht, hu, hc', -⟩ := hisolated.short query _ hread
  -- the turn that was read has the names of the writer, too
  obtain ⟨ht', hu'⟩ : inp'.tenantId = inp.tenantId ∧ inp'.userId = inp.userId := by
    rcases List.mem_append.1 hmem with hearlier | hlast
    · have hsame : names inp' = names inp := by
        rw [hnames, names, names, ht, hu, hc']
      obtain ⟨ht', hu', -⟩ := conversation_eq (hops _ hearlier) (by rwa [hc']) hinp hsame
      exact ⟨ht', hu'⟩
    · obtain ⟨rfl, -⟩ := MemoryOp.append.inj (List.mem_singleton.1 hlast)
      exact ⟨rfl, rfl⟩
  refine hother ⟨?_, ?_⟩
  · rw [← ht', ht, String.toList_ofList]
  · rw [← hu', hu, String.toList_ofList]

/-- After a fact is put whose names cannot be told apart, it can be read under other names. -/
theorem not_isolated_putLongTerm (ops : List MemoryOp) {t u key : String} {value : Dict}
    (hops : ∀ op ∈ ops, op.Separable) (hop : ¬ (MemoryOp.putLongTerm t u key value).Separable) :
    ¬ Isolated (ops ++ [.putLongTerm t u key value]) := by
  intro hisolated
  obtain ⟨t', u', key', hjoin, hother⟩ := Delimited.exists_other hop
  have hkeys : longKey (String.ofList t') (String.ofList u') (String.ofList key') =
      longKey t u key := by
    rw [longKey_inj_iff, String.toList_ofList, String.toList_ofList, String.toList_ofList]
    exact hjoin
  have hvalue : (run (ops ++ [.putLongTerm t u key value])).getLongTerm (String.ofList t')
      (String.ofList u') (String.ofList key') = some value := by
    rw [run_concat, getLongTerm, hkeys, MemoryOp.apply, long_putLongTerm, if_pos rfl]
  obtain ⟨ht, hu⟩ : String.ofList t' = t ∧ String.ofList u' = u := by
    rcases List.mem_append.1 (hisolated.long _ _ _ _ hvalue) with hearlier | hlast
    · obtain ⟨ht, hu, -⟩ := Delimited.join_inj_left (hops _ hearlier) (longKey_inj_iff.1 hkeys)
      exact ⟨String.toList_inj.1 ht, String.toList_inj.1 hu⟩
    · obtain ⟨ht, hu, -⟩ := MemoryOp.putLongTerm.inj (List.mem_singleton.1 hlast)
      exact ⟨ht, hu⟩
  refine hother ⟨?_, ?_⟩
  · rw [← ht, String.toList_ofList]
  · rw [← hu, String.toList_ofList]

/-- After a first operation whose names cannot be told apart, something written under other
names can be read. -/
theorem not_isolated_concat (ops : List MemoryOp) {op : MemoryOp}
    (hops : ∀ op ∈ ops, op.Separable) (hop : ¬ op.Separable) : ¬ Isolated (ops ++ [op]) := by
  cases op with
  | append inp reply => exact not_isolated_append ops hops hop
  | putLongTerm t u key value => exact not_isolated_putLongTerm ops hops hop

/-- **When a run keeps the memory isolated.**  After every operation of it a read gives only what
was written under exactly its names, if and only if the names of every operation can be told
apart. -/
theorem run_isolated_iff (ops : List MemoryOp) :
    (∀ before, before <+: ops → Isolated before) ↔ ∀ op ∈ ops, op.Separable := by
  constructor
  · intro hisolated
    induction ops using List.reverseRecOn with
    | nil => intro op hop; cases hop
    | append_singleton ops op ih =>
      have hops := ih fun before hbefore =>
        hisolated before (hbefore.trans (List.prefix_append _ _))
      have hop : op.Separable :=
        by_contra fun hop => not_isolated_concat ops hops hop (hisolated _ (List.prefix_refl _))
      intro op' hop'
      rcases List.mem_append.1 hop' with hmem | hlast
      · exact hops op' hmem
      · rwa [List.mem_singleton.1 hlast]
  · intro hsep before hbefore
    exact isolated_of_separable fun op hop => hsep op (hbefore.subset hop)

/-- A turn of a user of a federated directory, whose id has colons in it. -/
def federatedTurn : AgentInput where
  tenantId := "t1"
  userId := "f:ldap:alice"
  roles := ["customer"]
  correlationId := "c-1"
  message := "What do I owe?"
  conversationId := some "loan"

/-- The user `f` of the tenant reads it, under a conversation id of their own making. -/
theorem federatedTurn_not_isolated :
    ⟨.user, "What do I owe?", none⟩ ∈
        (run [.append federatedTurn "82000"]).short.getShortTerm
          { federatedTurn with userId := "f", conversationId := some "ldap:alice:loan" } ∧
      ¬ Isolated [.append federatedTurn "82000"] := by
  refine ⟨by decide, ?_⟩
  exact not_isolated_concat [] (fun op hop => by cases hop) (by decide)

/-! ## Principals without a colon -/

/-- Two principals without a colon in their names share no conversation, whatever they call it. -/
theorem short_of_principals {ops : List MemoryOp} {query : AgentInput} {msg : ChatMessage}
    (hops : ∀ inp reply, .append inp reply ∈ ops →
      ':' ∉ inp.tenantId.toList ∧ ':' ∉ inp.userId.toList)
    (htenant : ':' ∉ query.tenantId.toList) (huser : ':' ∉ query.userId.toList)
    (h : msg ∈ (run ops).short.getShortTerm query) : ∃ inp reply, .append inp reply ∈ ops ∧
      inp.tenantId = query.tenantId ∧ inp.userId = query.userId ∧
      inp.conversationId.getD "" = query.conversationId.getD "" ∧ msg ∈ turn inp reply := by
  by_cases hquery : query.conversationId.getD "" = ""
  · rw [getShortTerm_of_no_conversation _ hquery] at h
    cases h
  · rw [getShortTerm_eq _ hquery] at h
    obtain ⟨inp, reply, hop, -, hkey, hturn⟩ := mem_messages_run (mem_of_mem_takeLast h)
    obtain ⟨htenant', huser'⟩ := hops inp reply hop
    obtain ⟨ht, hu, hc⟩ := Delimited.join_inj_front htenant' huser' htenant huser
      (key_inj_iff.1 hkey)
    exact ⟨inp, reply, hop, String.toList_inj.1 ht, String.toList_inj.1 hu,
      String.toList_inj.1 hc, hturn⟩

/-- Nor a durable fact. -/
theorem long_of_principals {ops : List MemoryOp} {t u key : String} {value : Dict}
    (hops : ∀ t u key value, .putLongTerm t u key value ∈ ops → ':' ∉ t.toList ∧ ':' ∉ u.toList)
    (htenant : ':' ∉ t.toList) (huser : ':' ∉ u.toList)
    (h : (run ops).getLongTerm t u key = some value) : .putLongTerm t u key value ∈ ops := by
  obtain ⟨t', u', key', hop, hkey⟩ := long_run h
  obtain ⟨htenant', huser'⟩ := hops _ _ _ _ hop
  obtain ⟨ht, hu, hk⟩ := Delimited.join_inj_front htenant' huser' htenant huser
    (longKey_inj_iff.1 hkey)
  rw [String.toList_inj] at ht hu hk
  subst ht hu hk
  exact hop

end MemoryStore

end AgentPlatform
