import AgentPlatform.Lib.Effect

/-!
# Stores with keys, behind a connection that may fail

A store keeps one value under a key.  A client puts values into it one after the
other.  A put leads to a key, or past the store, and two puts may lead to the same key; it
ends in one of three ways: the value is stored, the store refuses it, or the connection is
lost, before or after the value arrived.  A refusal goes unnoticed; a lost connection raises
and ends the sequence.

* `KeyedStore` — what is asked of a store.
* `sendAll` — the client.
* `get?_sendAll_cases` — **what is found afterwards** under a key: what the last put that wrote
  there left, or what was there.
* `holds_sendAll_iff`, `same_sendAll_iff` — when everything is stored, and when nothing has
  changed.
* `allOrNothing_sendAll_iff` — **when a sequence of puts is all or nothing.**
-/

/-- A store that keeps one value under a key: a put replaces what was there. -/
class KeyedStore (S : Type) (K V : outParam Type) where
  empty : S
  get? : S → K → Option V
  put : S → K → V → S
  get?_empty : ∀ k, get? empty k = none
  get?_put_self : ∀ s k v, get? (put s k v) k = some v
  get?_put_of_ne : ∀ s k v k', k' ≠ k → get? (put s k v) k' = get? s k'

namespace KeyedStore

variable {S K V E : Type} [KeyedStore S K V]

/-! ## Puts -/

/-- How a put ends. -/
inductive Delivery where
  | stored
  | refused
  | lost (arrived : Bool)

namespace Delivery

/-- Is the value in the store afterwards? -/
def stores : Delivery → Bool
  | stored => true
  | refused => false
  | lost arrived => arrived

/-- Does the client notice? -/
def raises : Delivery → Bool
  | lost _ => true
  | _ => false

end Delivery

/-- Where a put leads. -/
inductive Target (K : Type) where
  | key (k : K)
  /-- To none of the values of the store. -/
  | elsewhere
  /-- The client has no way of sending it, and raises. -/
  | unsendable
  deriving DecidableEq

namespace Target

/-- Does the client notice how a put there ends? -/
def raises : Target K → Delivery → Bool
  | unsendable, _ => true
  | _, d => d.raises

/-- The store after a put there. -/
def receive (s : S) : Target K → Delivery → V → S
  | key k, d, v => if d.stores then put s k v else s
  | _, _, _ => s

variable {s : S} {t : Target K} {d : Delivery} {k : K} {v : V}

theorem get?_receive_self (h : d.stores = true) : get? ((key k).receive s d v) k = some v := by
  rw [receive, if_pos h]
  exact get?_put_self s k v

/-- A put that does not store its value under a key leaves what is there. -/
theorem get?_receive_of_not (h : ¬ (t = key k ∧ d.stores = true)) :
    get? (t.receive s d v) k = get? s k := by
  cases t with
  | key k' =>
    rw [receive]
    by_cases hstores : d.stores = true
    · have hne : k ≠ k' := by
        rintro rfl
        exact h ⟨rfl, hstores⟩
      rw [if_pos hstores]
      exact get?_put_of_ne s k' v k hne
    · rw [if_neg hstores]
  | elsewhere => rfl
  | unsendable => rfl

end Target

/-- One put. -/
def send (e : E) (d : Delivery) (t : Target K) (v : V) : Effect S E Unit := fun s =>
  (if t.raises d then .error e else .ok (), t.receive s d v)

/-- One put after the other, until one raises; `outcome` says how each of them ends. -/
def sendAll (e : E) : (ℕ → Delivery) → List (Target K × V) → Effect S E Unit
  | _, [] => return ()
  | outcome, (t, v) :: kvs => do
    send e (outcome 0) t v
    sendAll e (fun n => outcome (n + 1)) kvs

/-! ## What puts write -/

/-- The put of that number raises, if it is made. -/
def Raises (outcome : ℕ → Delivery) (kvs : List (Target K × V)) (n : ℕ) : Prop :=
  ∃ t v, kvs[n]? = some (t, v) ∧ t.raises (outcome n) = true

/-- The put of that number is made, and stores its value under the key. -/
def Writes (outcome : ℕ → Delivery) (kvs : List (Target K × V)) (n : ℕ) (k : K) (v : V) : Prop :=
  kvs[n]? = some (.key k, v) ∧ (outcome n).stores = true ∧ ∀ m < n, ¬ Raises outcome kvs m

/-- The put of that number leaves its value under the key: no later one writes there. -/
def Leaves (outcome : ℕ → Delivery) (kvs : List (Target K × V)) (n : ℕ) (k : K) (v : V) : Prop :=
  Writes outcome kvs n k v ∧ ∀ m v', n < m → ¬ Writes outcome kvs m k v'

section Send

variable {e : E} {outcome : ℕ → Delivery} {t : Target K} {k : K} {v : V}
  {kvs : List (Target K × V)} {s : S} {n : ℕ}

@[simp] theorem raises_zero :
    Raises outcome ((t, v) :: kvs) 0 ↔ t.raises (outcome 0) = true := by
  simp [Raises]

@[simp] theorem raises_succ : Raises outcome ((t, v) :: kvs) (n + 1) ↔
    Raises (fun n => outcome (n + 1)) kvs n := Iff.rfl

theorem writes_zero {v' : V} : Writes outcome ((t, v) :: kvs) 0 k v' ↔
    t = .key k ∧ v = v' ∧ (outcome 0).stores = true := by
  simp [Writes, and_assoc]

theorem writes_succ {v' : V} : Writes outcome ((t, v) :: kvs) (n + 1) k v' ↔
    t.raises (outcome 0) = false ∧ Writes (fun n => outcome (n + 1)) kvs n k v' := by
  have hbefore : (∀ m < n + 1, ¬ Raises outcome ((t, v) :: kvs) m) ↔
      t.raises (outcome 0) = false ∧ ∀ m < n, ¬ Raises (fun n => outcome (n + 1)) kvs m := by
    rw [Nat.forall_lt_succ_left', raises_zero, Bool.not_eq_true]
    rfl
  rw [Writes, Writes, hbefore, List.getElem?_cons_succ]
  constructor
  · rintro ⟨hget, hstores, hraises, hrest⟩
    exact ⟨hraises, hget, hstores, hrest⟩
  · rintro ⟨hraises, hget, hstores, hrest⟩
    exact ⟨hget, hstores, hraises, hrest⟩

theorem Raises.lt_length (h : Raises outcome kvs n) : n < kvs.length := by
  obtain ⟨t, v, hget, -⟩ := h
  exact (List.getElem?_eq_some_iff.1 hget).1

theorem sendAll_cons_of_raises (h : t.raises (outcome 0) = true) :
    sendAll e outcome ((t, v) :: kvs) s = (.error e, t.receive s (outcome 0) v) := by
  simp only [sendAll, Effect.bind_apply, send, h, if_true]

theorem sendAll_cons_of_not_raises (h : t.raises (outcome 0) = false) :
    sendAll e outcome ((t, v) :: kvs) s =
      sendAll e (fun n => outcome (n + 1)) kvs (t.receive s (outcome 0) v) := by
  simp [sendAll, Effect.bind_apply, send, h]

/-- The sequence goes through if no put raises. -/
theorem sendAll_eq_ok_iff :
    (sendAll e outcome kvs s).1 = .ok () ↔ ∀ n, ¬ Raises outcome kvs n := by
  induction kvs generalizing outcome s with
  | nil => simp [sendAll, Raises]
  | cons kv kvs ih =>
    obtain ⟨t, v⟩ := kv
    rw [← Nat.and_forall_add_one, raises_zero]
    cases h : t.raises (outcome 0) with
    | true => simp [sendAll_cons_of_raises h]
    | false => rw [sendAll_cons_of_not_raises h, ih]; simp

/-! ## What is found afterwards -/

/-- What is found where no put but the first may have written. -/
theorem get?_cons_cases {s' : S}
    (hlater : ∀ n v', ¬ Writes outcome ((t, v) :: kvs) (n + 1) k v')
    (hget : get? s' k = get? (t.receive s (outcome 0) v) k) :
    (∃ n v', Leaves outcome ((t, v) :: kvs) n k v' ∧ get? s' k = some v') ∨
      ((∀ n v', ¬ Writes outcome ((t, v) :: kvs) n k v') ∧ get? s' k = get? s k) := by
  by_cases hzero : t = .key k ∧ (outcome 0).stores = true
  · obtain ⟨rfl, hstores⟩ := hzero
    refine Or.inl ⟨0, v, ⟨writes_zero.2 ⟨rfl, rfl, hstores⟩, fun m v' hm => ?_⟩, ?_⟩
    · obtain ⟨m, rfl⟩ := Nat.exists_eq_add_one.2 hm
      exact hlater m v'
    · rw [hget, Target.get?_receive_self hstores]
  · refine Or.inr ⟨fun n v' hwrites => ?_, ?_⟩
    · cases n with
      | zero =>
        obtain ⟨hkey, -, hstores⟩ := writes_zero.1 hwrites
        exact hzero ⟨hkey, hstores⟩
      | succ n => exact hlater n v' hwrites
    · rw [hget, Target.get?_receive_of_not hzero]

/-- **What is found under a key**: what the last put that wrote there left, or what was there. -/
theorem get?_sendAll_cases (e : E) (outcome : ℕ → Delivery) (kvs : List (Target K × V)) (s : S)
    (k : K) :
    (∃ n v, Leaves outcome kvs n k v ∧ get? (sendAll e outcome kvs s).2 k = some v) ∨
      ((∀ n v, ¬ Writes outcome kvs n k v) ∧ get? (sendAll e outcome kvs s).2 k = get? s k) := by
  induction kvs generalizing outcome s with
  | nil =>
    refine Or.inr ⟨?_, rfl⟩
    rintro n v ⟨hget, -⟩
    cases hget
  | cons kv kvs ih =>
    obtain ⟨t, v⟩ := kv
    cases hraises : t.raises (outcome 0) with
    | true =>
      rw [sendAll_cons_of_raises hraises]
      refine get?_cons_cases (fun n v' hwrites => ?_) rfl
      rw [(writes_succ.1 hwrites).1] at hraises
      cases hraises
    | false =>
      rw [sendAll_cons_of_not_raises hraises]
      rcases ih (fun n => outcome (n + 1)) (t.receive s (outcome 0) v) with
        ⟨n, v', ⟨hwrites, hlast⟩, hget⟩ | ⟨hno, hget⟩
      · refine Or.inl ⟨n + 1, v', ⟨writes_succ.2 ⟨hraises, hwrites⟩, fun m w hm => ?_⟩, hget⟩
        obtain ⟨m, rfl⟩ := Nat.exists_eq_add_one.2 (Nat.zero_lt_of_lt hm)
        exact fun hm' => hlast m w (Nat.lt_of_succ_lt_succ hm) (writes_succ.1 hm').2
      · exact get?_cons_cases (fun n v' hwrites => hno n v' (writes_succ.1 hwrites).2) hget

/-- A put that leaves its value is the only one that does. -/
theorem Leaves.unique {m : ℕ} {v' : V} (h : Leaves outcome kvs n k v)
    (h' : Leaves outcome kvs m k v') : n = m := by
  rcases Nat.lt_trichotomy n m with hlt | heq | hgt
  · exact absurd h'.1 (h.2 m v' hlt)
  · exact heq
  · exact absurd h.1 (h'.2 n v hgt)

/-- What a put leaves is found. -/
theorem get?_sendAll_of_leaves (h : Leaves outcome kvs n k v) :
    get? (sendAll e outcome kvs s).2 k = some v := by
  rcases get?_sendAll_cases e outcome kvs s k with ⟨m, v', hleaves, hget⟩ | ⟨hno, -⟩
  · obtain rfl := h.unique hleaves
    obtain ⟨-, rfl⟩ := Prod.mk.inj (Option.some.inj (h.1.1.symm.trans hleaves.1.1))
    exact hget
  · exact absurd h.1 (hno n v)

/-- Where nothing is written, what was there is found. -/
theorem get?_sendAll_of_not_writes (h : ∀ n v, ¬ Writes outcome kvs n k v) :
    get? (sendAll e outcome kvs s).2 k = get? s k := by
  rcases get?_sendAll_cases e outcome kvs s k with ⟨n, v, hleaves, -⟩ | ⟨-, hget⟩
  · exact absurd hleaves.1 (h n v)
  · exact hget

/-- How the sequence ends depends on how its puts end. -/
theorem sendAll_fst (s s' : S) :
    (sendAll e outcome kvs s).1 = (sendAll e outcome kvs s').1 := by
  induction kvs generalizing outcome s s' with
  | nil => rfl
  | cons kv kvs ih =>
    obtain ⟨t, v⟩ := kv
    cases hraises : t.raises (outcome 0) with
    | true => rw [sendAll_cons_of_raises hraises, sendAll_cons_of_raises hraises]
    | false =>
      rw [sendAll_cons_of_not_raises hraises, sendAll_cons_of_not_raises hraises]
      exact ih _ _

/-- What is found under a key depends on what was there under it. -/
theorem get?_sendAll_congr {s' : S} (h : get? s k = get? s' k) :
    get? (sendAll e outcome kvs s).2 k = get? (sendAll e outcome kvs s').2 k := by
  rcases get?_sendAll_cases e outcome kvs s k with ⟨n, v, hleaves, hget⟩ | ⟨hno, hget⟩
  · rw [hget, get?_sendAll_of_leaves hleaves]
  · rw [hget, get?_sendAll_of_not_writes hno, h]

/-- What is found under a key after one put depends on what was there under it. -/
theorem Target.get?_receive_congr {s' : S} {d : Delivery} (h : get? s k = get? s' k) :
    get? (t.receive s d v) k = get? (t.receive s' d v) k := by
  by_cases hkey : t = .key k ∧ d.stores = true
  · obtain ⟨rfl, hstores⟩ := hkey
    rw [get?_receive_self hstores, get?_receive_self hstores]
  · rw [get?_receive_of_not hkey, get?_receive_of_not hkey, h]

/-! ## Everything, or nothing -/

/-- Everything that is to be put is found where its put leads. -/
def Holds (s : S) (kvs : List (Target K × V)) : Prop :=
  ∀ kv ∈ kvs, ∃ k, kv.1 = .key k ∧ get? s k = some kv.2

/-- Two stores with the same content. -/
def SameContent (s t : S) : Prop := ∀ k, get? t k = get? s k

/-- The put of that number is of a value that is found where it leads. -/
def Found (s : S) (kvs : List (Target K × V)) (n : ℕ) : Prop :=
  ∃ k v, kvs[n]? = some (.key k, v) ∧ get? s k = some v

/-- The put of that number writes its value, and none after it writes over it. -/
def Stays (outcome : ℕ → Delivery) (kvs : List (Target K × V)) (n : ℕ) : Prop :=
  ∃ k v, Leaves outcome kvs n k v

/-- Nothing is written where the put of that number leads. -/
def Spared (outcome : ℕ → Delivery) (kvs : List (Target K × V)) (n : ℕ) : Prop :=
  ∀ k v, kvs[n]? = some (.key k, v) → ∀ m v', ¬ Writes outcome kvs m k v'

theorem holds_iff_found : Holds s kvs ↔ ∀ n < kvs.length, Found s kvs n := by
  constructor
  · intro h n hn
    obtain ⟨k, hkey, hget⟩ := h _ (List.getElem_mem hn)
    exact ⟨k, _, by rw [List.getElem?_eq_getElem hn, ← hkey], hget⟩
  · intro h kv hmem
    obtain ⟨n, hn, rfl⟩ := List.getElem_of_mem hmem
    obtain ⟨k, v, hkv, hget⟩ := h n hn
    rw [List.getElem?_eq_getElem hn] at hkv
    rw [Option.some.inj hkv]
    exact ⟨k, rfl, hget⟩

/-- Nothing is found in the empty store. -/
theorem not_found_empty : ¬ Found (KeyedStore.empty : S) kvs n := by
  rintro ⟨k, v, -, hget⟩
  rw [get?_empty] at hget
  cases hget

/-- No value is put twice. -/
theorem eq_of_nodup {m : ℕ} {t t' : Target K} (hnodup : (kvs.map Prod.snd).Nodup)
    (hn : kvs[n]? = some (t, v)) (hm : kvs[m]? = some (t', v)) : n = m := by
  have hlt : n < (kvs.map Prod.snd).length := by
    rw [List.length_map]
    exact (List.getElem?_eq_some_iff.1 hn).1
  refine (List.getElem?_inj hlt hnodup).1 ?_
  rw [List.getElem?_map, List.getElem?_map, hn, hm]
  rfl

/-- **What of the puts is found afterwards**, if no value is put twice: what stays, and what was
there and is spared. -/
theorem found_sendAll_iff (hnodup : (kvs.map Prod.snd).Nodup) :
    Found (sendAll e outcome kvs s).2 kvs n ↔
      Stays outcome kvs n ∨ Spared outcome kvs n ∧ Found s kvs n := by
  constructor
  · rintro ⟨k, v, hkv, hget⟩
    rcases get?_sendAll_cases e outcome kvs s k with ⟨m, v', hleaves, hleft⟩ | ⟨hno, hkept⟩
    · obtain rfl := Option.some.inj (hleft.symm.trans hget)
      obtain rfl := eq_of_nodup hnodup hkv hleaves.1.1
      exact Or.inl ⟨k, v', hleaves⟩
    · refine Or.inr ⟨fun k' v' hkv' => ?_, k, v, hkv, hkept.symm.trans hget⟩
      obtain ⟨hkey, -⟩ := Prod.mk.inj (Option.some.inj (hkv.symm.trans hkv'))
      obtain rfl := Target.key.inj hkey
      exact hno
  · rintro (⟨k, v, hleaves⟩ | ⟨hspared, k, v, hkv, hget⟩)
    · exact ⟨k, v, hleaves.1.1, get?_sendAll_of_leaves hleaves⟩
    · exact ⟨k, v, hkv, (get?_sendAll_of_not_writes (hspared k v hkv)).trans hget⟩

/-- Everything is found afterwards if every value stays, or was there and is spared. -/
theorem holds_sendAll_iff (hnodup : (kvs.map Prod.snd).Nodup) :
    Holds (sendAll e outcome kvs s).2 kvs ↔
      ∀ n < kvs.length, Stays outcome kvs n ∨ Spared outcome kvs n ∧ Found s kvs n := by
  rw [holds_iff_found]
  exact forall₂_congr fun n _ => found_sendAll_iff hnodup

/-- Nothing has changed if everything that stays was there. -/
theorem same_sendAll_iff : SameContent s (sendAll e outcome kvs s).2 ↔
    ∀ n, Stays outcome kvs n → Found s kvs n := by
  constructor
  · rintro h n ⟨k, v, hleaves⟩
    refine ⟨k, v, hleaves.1.1, ?_⟩
    rw [← h k]
    exact get?_sendAll_of_leaves hleaves
  · intro h k
    rcases get?_sendAll_cases e outcome kvs s k with ⟨n, v, hleaves, hget⟩ | ⟨-, hget⟩
    · obtain ⟨k', v', hkv, hfound⟩ := h n ⟨k, v, hleaves⟩
      obtain ⟨hkey, rfl⟩ := Prod.mk.inj (Option.some.inj (hleaves.1.1.symm.trans hkv))
      obtain rfl := Target.key.inj hkey
      rw [hget, hfound]
    · exact hget

/-- The puts of a sequence are all or nothing: it goes through exactly if everything is
found afterwards, and otherwise nothing has changed. -/
def AllOrNothing (e : E) (outcome : ℕ → Delivery) (kvs : List (Target K × V)) (s : S) : Prop :=
  ((sendAll e outcome kvs s).1 = .ok () ↔ Holds (sendAll e outcome kvs s).2 kvs) ∧
    ((sendAll e outcome kvs s).1 ≠ .ok () → SameContent s (sendAll e outcome kvs s).2)

/-- **When a sequence of puts is all or nothing**: if no put raises, every value stays or is there
already and spared; if one raises, what stays was there already, and something else was not. -/
theorem allOrNothing_sendAll_iff (hnodup : (kvs.map Prod.snd).Nodup) :
    AllOrNothing e outcome kvs s ↔
      ((∀ n, ¬ Raises outcome kvs n) →
        ∀ n < kvs.length, Stays outcome kvs n ∨ Spared outcome kvs n ∧ Found s kvs n) ∧
      ((∃ n, Raises outcome kvs n) →
        (∀ n, Stays outcome kvs n → Found s kvs n) ∧ ∃ n < kvs.length, ¬ Found s kvs n) := by
  unfold AllOrNothing
  rw [Ne, sendAll_eq_ok_iff, same_sendAll_iff]
  by_cases hquiet : ∀ n, ¬ Raises outcome kvs n
  · have hno : ¬ ∃ n, Raises outcome kvs n := not_exists.2 hquiet
    rw [holds_sendAll_iff hnodup, iff_true_intro hquiet, iff_false_intro hno, true_iff,
      true_imp_iff, false_imp_iff, and_true, not_true, false_imp_iff, and_true]
  · have hsome : ∃ n, Raises outcome kvs n := by
      push Not at hquiet
      exact hquiet
    rw [iff_false_intro hquiet, iff_true_intro hsome, false_iff, not_false_iff, true_imp_iff,
      false_imp_iff, true_and, true_imp_iff, and_comm, and_congr_right_iff]
    intro hstays
    -- nothing has changed, so that what is found afterwards was there
    have hsame : SameContent s (sendAll e outcome kvs s).2 := same_sendAll_iff.2 hstays
    have hholds : Holds (sendAll e outcome kvs s).2 kvs ↔ Holds s kvs := by
      unfold Holds
      simp only [hsame _]
    rw [hholds, holds_iff_found]
    push Not
    rfl

end Send

/-! ## Tables -/

/-- A table of values by key. -/
structure Table (K V : Type) where
  lookup : K → Option V

instance [DecidableEq K] : KeyedStore (Table K V) K V where
  empty := ⟨fun _ => none⟩
  get? t k := t.lookup k
  put t k v := ⟨fun k' => if k' = k then some v else t.lookup k'⟩
  get?_empty _ := rfl
  get?_put_self _ _ _ := if_pos rfl
  get?_put_of_ne _ _ _ _ h := if_neg h

end KeyedStore
