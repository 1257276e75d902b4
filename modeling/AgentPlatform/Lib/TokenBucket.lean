import Mathlib.Algebra.Order.Field.Basic
import Mathlib.Data.List.Induction
import Mathlib.Tactic.Linarith
import Mathlib.Tactic.Ring

/-!
# Token buckets

A bucket holds at most `capacity` tokens and is refilled at a constant rate.  A call takes a token
if there is a whole one, and is admitted exactly then.  The bucket keeps one number, which is cut
off at the capacity whenever it is looked at.

Over a run this number is a minimum over windows: for every earlier call, what may be admitted from
that call on, less what has been.  Nothing is asked of the capacity and of the rate for this; where
they are not negative, no interval holds too many calls.

* `TokenBucket.consume`, `TokenBucket.run` — one call, and a sequence of calls at given times.
* `TokenBucket.le_filled_iff` — **the balance as a minimum** over the windows that end now.
* `TokenBucket.admitted_iff` — a call is admitted exactly if no window that ends with it would then
  hold too many.
* `TokenBucket.countP_run_le` — **the bound**: in any interval no more calls are admitted than
  the capacity and what is refilled in the interval.
-/

/-- The parameters of a bucket. -/
structure TokenBucket (K : Type) where
  capacity : K
  rate : K

namespace TokenBucket

variable {K : Type} [Field K] [LinearOrder K]

/-- The tokens in a bucket when it was last looked at, and when that was. -/
structure Level (K : Type) where
  tokens : K
  last : K

section Balance

variable (b : TokenBucket K)

/-- Neither the capacity nor the rate is negative. -/
structure Nonneg : Prop where
  capacity : 0 ≤ b.capacity
  rate : 0 ≤ b.rate

/-- The tokens in a bucket at a time; a bucket nobody has looked at is full. -/
def filled (level : Option (Level K)) (now : K) : K :=
  match level with
  | none => b.capacity
  | some l => min b.capacity (l.tokens + (now - l.last) * b.rate)

/-- One call: is it admitted, and what is left? -/
def consume (level : Option (Level K)) (now : K) : Bool × Level K :=
  let tokens := b.filled level now
  if 1 ≤ tokens then (true, ⟨tokens - 1, now⟩) else (false, ⟨tokens, now⟩)

/-- What is left after calls at given times. -/
def after (level : Option (Level K)) : List K → Option (Level K)
  | [] => level
  | now :: later => after (some (b.consume level now).2) later

/-- The calls at given times, with the answer to each. -/
def run (level : Option (Level K)) : List K → List (K × Bool)
  | [] => []
  | now :: later => (now, (b.consume level now).1) :: run (some (b.consume level now).2) later

/-- How many of the calls are admitted. -/
def admitted (outcomes : List (K × Bool)) : ℕ := outcomes.countP Prod.snd

/-- A level that was left by calls up to a time. -/
def Valid (level : Option (Level K)) (now : K) : Prop :=
  ∀ l, level = some l → 0 ≤ l.tokens ∧ l.last ≤ now

end Balance

variable {b : TokenBucket K} {level : Option (Level K)} {now : K}

theorem consume_last : (b.consume level now).2.last = now := by
  unfold consume
  dsimp only
  split <;> rfl

/-- A call takes a token exactly if it is admitted. -/
theorem consume_tokens : (b.consume level now).2.tokens =
    b.filled level now - (if (b.consume level now).1 then 1 else 0) := by
  unfold consume
  dsimp only
  split
  · simp
  · simp

theorem consume_admitted : (b.consume level now).1 = true ↔ 1 ≤ b.filled level now := by
  unfold consume
  dsimp only
  split <;> simp_all

/-- The balance at a later time. -/
theorem filled_consume {later : K} : b.filled (some (b.consume level now).2) later =
    min b.capacity (b.filled level now - (if (b.consume level now).1 then 1 else 0) +
      (later - now) * b.rate) := by
  rw [filled, consume_last, consume_tokens]

theorem filled_le_capacity : b.filled level now ≤ b.capacity := by
  cases level with
  | none => exact le_refl _
  | some l => exact min_le_left _ _

/-! ## One call more -/

theorem after_append (times later : List K) : b.after level (times ++ later) =
    b.after (b.after level times) later := by
  induction times generalizing level with
  | nil => rfl
  | cons t times ih =>
    rw [List.cons_append, after, ih]
    rfl

theorem run_append (times later : List K) : b.run level (times ++ later) =
    b.run level times ++ b.run (b.after level times) later := by
  induction times generalizing level with
  | nil => rfl
  | cons t times ih =>
    rw [List.cons_append, run, ih]
    rfl

theorem length_run (times : List K) : (b.run level times).length = times.length := by
  induction times generalizing level with
  | nil => rfl
  | cons t times ih => rw [run, List.length_cons, ih, List.length_cons]

theorem after_concat (times : List K) : b.after level (times ++ [now]) =
    some (b.consume (b.after level times) now).2 := by
  rw [after_append]
  rfl

theorem run_concat (times : List K) : b.run level (times ++ [now]) =
    b.run level times ++
      [(now, (b.consume (b.after level times) now).1)] := by
  rw [run_append]
  rfl

omit [LinearOrder K] in
theorem admitted_concat (outcomes : List (K × Bool)) (o : K × Bool) :
    (admitted (outcomes ++ [o]) : K) = admitted outcomes + (if o.2 then 1 else 0) := by
  rw [admitted, List.countP_append, List.countP_singleton]
  push_cast
  rfl

theorem run_take (times : List K) (i : ℕ) :
    (b.run level times).take i = b.run level (times.take i) := by
  have happend : b.run level (times.take i ++ times.drop i) = _ := run_append _ _
  rw [List.take_append_drop] at happend
  by_cases hi : i ≤ times.length
  · rw [happend]
    refine List.take_left' ?_
    rw [length_run, List.length_take, min_eq_left hi]
  · have hlong : times.length ≤ i := (not_le.1 hi).le
    rw [List.take_of_length_le hlong, List.take_of_length_le ((length_run times).le.trans hlong)]

/-- The call at a place of a run is the time there, answered from what the calls before left. -/
theorem run_getElem? {times : List K} {i : ℕ} {o : K × Bool}
    (h : (b.run level times)[i]? = some o) :
    o.2 = (b.consume (b.after level (times.take i)) o.1).1 := by
  obtain ⟨hi, -⟩ := List.getElem?_eq_some_iff.1 h
  rw [length_run] at hi
  have hconcat : times.take (i + 1) = times.take i ++ [times[i]] := by
    rw [List.take_add_one, List.getElem?_eq_getElem hi]
    rfl
  have hrun : b.run level (times.take i ++ [times[i]]) = _ := run_concat _
  rw [← hconcat, ← run_take] at hrun
  have hlength : (b.run level (times.take i)).length = i := by
    rw [length_run, List.length_take, min_eq_left hi.le]
  have hlast := congrArg (fun outcomes : List (K × Bool) => outcomes[i]?) hrun
  rw [List.getElem?_take_of_lt (Nat.lt_succ_self i), h,
    List.getElem?_append_right hlength.le, hlength, Nat.sub_self] at hlast
  obtain rfl := Option.some.inj hlast
  rfl

/-! ## The minimum over windows -/

/-- The windows of a list with one element more: the windows there were, with this element at
their end, and the one that starts with it. -/
theorem forall_window_concat {α : Type} (P : α → List α → Prop) (l : List α) (x : α) :
    (∀ j o, (l ++ [x])[j]? = some o → P o ((l ++ [x]).drop j)) ↔
      P x [x] ∧ ∀ j o, l[j]? = some o → P o (l.drop j ++ [x]) := by
  constructor
  · intro h
    refine ⟨?_, fun j o hj => ?_⟩
    · have hlast := h l.length x List.getElem?_concat_length
      rwa [List.drop_left] at hlast
    · obtain ⟨hlt, -⟩ := List.getElem?_eq_some_iff.1 hj
      have hwindow := h j o (by rw [List.getElem?_append_left hlt, hj])
      rwa [List.drop_append_of_le_length hlt.le] at hwindow
  · rintro ⟨hlast, hwindows⟩ j o hj
    by_cases hlt : j < l.length
    · rw [List.getElem?_append_left hlt] at hj
      rw [List.drop_append_of_le_length hlt.le]
      exact hwindows j o hj
    · obtain ⟨hle, -⟩ := List.getElem?_eq_some_iff.1 hj
      rw [List.length_append, List.length_singleton] at hle
      obtain rfl : j = l.length := by omega
      rw [List.getElem?_concat_length] at hj
      obtain rfl := Option.some.inj hj
      rwa [List.drop_left]

/-- **The balance as a minimum.**  The balance is at least `y` exactly if the capacity is, and
for every call so far so is what may be admitted from that call on, less what has been. -/
theorem le_filled_iff [IsStrictOrderedRing K] (times : List K) (now y : K) :
    y ≤ b.filled (b.after none times) now ↔
      y ≤ b.capacity ∧ ∀ j o, (b.run none times)[j]? = some o →
        y + admitted ((b.run none times).drop j) ≤
          b.capacity + b.rate * (now - o.1) := by
  induction times using List.reverseRecOn generalizing now y with
  | nil => simp [after, run, filled]
  | append_singleton times t ih =>
    rw [after_concat, run_concat, filled_consume, le_min_iff]
    -- what the balance has to be when the last call comes
    generalize (b.consume (b.after none times) t).1 = admits
    have hbefore : y ≤ b.filled (b.after none times) t -
          (if admits then 1 else 0) + (now - t) * b.rate ↔
        y + (if admits then 1 else 0) - (now - t) * b.rate ≤
          b.filled (b.after none times) t := by
      constructor
      · intro h
        linarith
      · intro h
        linarith
    rw [hbefore, ih, forall_window_concat fun o window =>
      y + (admitted window : K) ≤ b.capacity + b.rate * (now - o.1)]
    refine and_congr_right fun _ => and_congr ?_ (forall₃_congr fun j o _ => ?_)
    · -- the window of the last call
      have hlast := admitted_concat (K := K) [] (t, admits)
      have hnone : ((admitted ([] : List (K × Bool)) : ℕ) : K) = 0 := by simp [admitted]
      have hcomm : b.rate * (now - t) = (now - t) * b.rate := mul_comm _ _
      rw [List.nil_append, hnone, zero_add] at hlast
      rw [hlast]
      constructor <;> intro h <;> linarith
    · -- a window that starts with an earlier call
      have hsum : b.rate * (now - o.1) = b.rate * (t - o.1) + (now - t) * b.rate := by ring
      rw [admitted_concat]
      constructor <;> intro h <;> linarith

/-- A window of a run that ends before a place of it. -/
theorem drop_take_self {α : Type} (l : List α) (i : ℕ) : (l.take i).drop i = [] := by
  refine List.drop_eq_nil_of_le ?_
  rw [List.length_take]
  exact min_le_left _ _

/-- **When a call is admitted.**  Exactly if no window that ends with it, from the call itself or
an earlier one on, then holds more than the capacity and what is refilled. -/
theorem admitted_iff [IsStrictOrderedRing K] {times : List K} {i : ℕ} {o : K × Bool}
    (h : (b.run none times)[i]? = some o) :
    o.2 = true ↔ ∀ j ≤ i, ∀ o', (b.run none times)[j]? = some o' →
      (admitted (((b.run none times).take i).drop j) : K) + 1 ≤
        b.capacity + b.rate * (o.1 - o'.1) := by
  rw [run_getElem? h, consume_admitted, le_filled_iff, ← run_take]
  constructor
  · rintro ⟨hcapacity, hwindows⟩ j hj o' ho'
    rcases hj.lt_or_eq with hlt | rfl
    · have hwindow := hwindows j o' (by rw [List.getElem?_take_of_lt hlt, ho'])
      linarith
    · rw [h] at ho'
      obtain rfl := Option.some.inj ho'
      rw [drop_take_self]
      simpa [admitted] using hcapacity
  · intro hwindows
    refine ⟨?_, fun j o' ho' => ?_⟩
    · have hself := hwindows i (le_refl i) o h
      rw [drop_take_self] at hself
      simpa [admitted] using hself
    · obtain ⟨hlt, -⟩ := List.getElem?_eq_some_iff.1 ho'
      have hji : j < i := lt_of_lt_of_le hlt (List.length_take_le _ _)
      rw [List.getElem?_take_of_lt hji] at ho'
      have hwindow := hwindows j hji.le o' ho'
      linarith

/-! ## The bound -/

theorem run_times (times : List K) : (b.run level times).map Prod.fst = times := by
  induction times generalizing level with
  | nil => rfl
  | cons now later ih => rw [run, List.map_cons, ih]

/-- Nothing is counted until a time that is over before the first call. -/
theorem countP_run_of_late {later : List K} {e : K} {p : K × Bool → Bool}
    (hsorted : (now :: later).Pairwise (· ≤ ·)) (hnow : ¬ now ≤ e)
    (hp : ∀ o, p o = true → o.1 ≤ e) : (b.run level (now :: later)).countP p = 0 := by
  rw [List.countP_eq_zero]
  intro o ho hcounted
  have htimes : (b.run level (now :: later)).map Prod.fst = now :: later := run_times _
  have htime : o.1 ∈ now :: later := htimes ▸ List.mem_map_of_mem ho
  rcases List.mem_cons.1 htime with hfirst | hmem
  · exact hnow (hfirst ▸ hp o hcounted)
  · exact hnow (((List.pairwise_cons.1 hsorted).1 o.1 hmem).trans (hp o hcounted))

/-- The first call counts if it is admitted. -/
theorem countP_run_cons {later : List K} {e : K} (hle : now ≤ e) :
    ((b.run level (now :: later)).countP (fun o => o.2 && decide (o.1 ≤ e)) : K) =
      (if (b.consume level now).1 then 1 else 0) +
        (b.run (some (b.consume level now).2) later).countP (fun o => o.2 && decide (o.1 ≤ e)) := by
  rw [run, List.countP_cons]
  cases (b.consume level now).1 with
  | true => simp [hle, add_comm]
  | false => simp

theorem valid_none : Valid (none : Option (Level K)) now := fun _ h => by cases h

variable [IsStrictOrderedRing K]

theorem filled_nonneg (hb : b.Nonneg) (h : Valid level now) : 0 ≤ b.filled level now := by
  cases level with
  | none => exact hb.capacity
  | some l =>
    obtain ⟨htokens, hlast⟩ := h l rfl
    have hrefill : 0 ≤ (now - l.last) * b.rate := mul_nonneg (by linarith) hb.rate
    exact le_min hb.capacity (by linarith)

theorem consume_tokens_nonneg (hb : b.Nonneg) (h : Valid level now) :
    0 ≤ (b.consume level now).2.tokens := by
  have hfilled := filled_nonneg hb h
  unfold consume
  dsimp only
  split
  · rename_i hwhole
    show 0 ≤ b.filled level now - 1
    linarith
  · exact hfilled

/-- What a call leaves is valid for every later one. -/
theorem valid_consume (hb : b.Nonneg) (h : Valid level now) {later : K} (hle : now ≤ later) :
    Valid (some (b.consume level now).2) later := by
  intro l hl
  obtain rfl := Option.some.inj hl
  exact ⟨consume_tokens_nonneg hb h, consume_last.le.trans hle⟩

/-- From a first call on, no more is admitted until a time than is there and refilled. -/
theorem countP_run_le_filled (hb : b.Nonneg) {later : List K} {e : K} (h : Valid level now)
    (hsorted : (now :: later).Pairwise (· ≤ ·)) (hle : now ≤ e) :
    ((b.run level (now :: later)).countP (fun o => o.2 && decide (o.1 ≤ e)) : K) ≤
      b.filled level now + (e - now) * b.rate := by
  have hleft := consume_tokens_nonneg hb h
  have htaken : (b.consume level now).2.tokens = _ := consume_tokens
  have hrefill : 0 ≤ (e - now) * b.rate := mul_nonneg (by linarith) hb.rate
  rw [countP_run_cons hle]
  induction later generalizing level now with
  | nil =>
    simp only [run, List.countP_nil, Nat.cast_zero, add_zero]
    linarith
  | cons next later ih =>
    rw [List.pairwise_cons] at hsorted
    obtain ⟨hfirst, hrest⟩ := hsorted
    have hnow : now ≤ next := hfirst next (by simp)
    by_cases hnext : next ≤ e
    · have hvalid : Valid (some (b.consume level now).2) next := valid_consume hb h hnow
      have hbound := ih hvalid hrest hnext (consume_tokens_nonneg hb hvalid) consume_tokens
        (mul_nonneg (by linarith) hb.rate)
      have hfilled : b.filled (some (b.consume level now).2) next ≤
          b.filled level now - (if (b.consume level now).1 then 1 else 0) +
            (next - now) * b.rate := filled_consume.le.trans (min_le_right _ _)
      rw [countP_run_cons hnext]
      calc (if (b.consume level now).1 then (1 : K) else 0) + _
          ≤ (if (b.consume level now).1 then (1 : K) else 0) +
              (b.filled (some (b.consume level now).2) next + (e - next) * b.rate) := by linarith
        _ ≤ (if (b.consume level now).1 then (1 : K) else 0) +
              (b.filled level now - (if (b.consume level now).1 then 1 else 0) +
                (next - now) * b.rate + (e - next) * b.rate) := by linarith
        _ = b.filled level now + (e - now) * b.rate := by ring
    · -- what follows is too late
      rw [countP_run_of_late hrest hnext (by simp), Nat.cast_zero, add_zero]
      linarith

/-- **The bound.**  In an interval no more calls are admitted than the capacity and what is
refilled in the interval. -/
theorem countP_run_le (hb : b.Nonneg) {times : List K} (h : ∀ t ∈ times, Valid level t)
    (hsorted : times.Pairwise (· ≤ ·)) (start length : K) (hlength : 0 ≤ length) :
    ((b.run level times).countP
        (fun o => o.2 && decide (start ≤ o.1) && decide (o.1 ≤ start + length)) : K) ≤
      b.capacity + b.rate * length := by
  have hrefill : 0 ≤ b.rate * length := mul_nonneg hb.rate hlength
  have hcapacity := hb.capacity
  induction times generalizing level with
  | nil =>
    simp only [run, List.countP_nil, Nat.cast_zero]
    linarith
  | cons now later ih =>
    have hvalid : Valid level now := h now (by simp)
    obtain ⟨hfirst, hrest⟩ := List.pairwise_cons.1 hsorted
    by_cases hstart : now < start
    · -- before the interval
      rw [run, List.countP_cons_of_neg (by simp [not_le.2 hstart])]
      exact ih (fun t ht => valid_consume hb hvalid (hfirst t ht)) hrest
    · have hstart' : start ≤ now := not_lt.1 hstart
      by_cases hend : now ≤ start + length
      · have hmono : (b.run level (now :: later)).countP
            (fun o => o.2 && decide (start ≤ o.1) && decide (o.1 ≤ start + length)) ≤
          (b.run level (now :: later)).countP (fun o => o.2 && decide (o.1 ≤ start + length)) :=
          List.countP_mono_left fun o _ ho => by
            simp only [Bool.and_eq_true] at ho ⊢
            exact ⟨ho.1.1, ho.2⟩
        have hbound := countP_run_le_filled hb hvalid hsorted hend
        have hfull : b.filled level now ≤ b.capacity := filled_le_capacity
        have hshort : (start + length - now) * b.rate ≤ b.rate * length := by
          rw [mul_comm b.rate]
          exact mul_le_mul_of_nonneg_right (by linarith) hb.rate
        calc ((b.run level (now :: later)).countP
              (fun o => o.2 && decide (start ≤ o.1) && decide (o.1 ≤ start + length)) : K)
            ≤ (b.run level (now :: later)).countP fun o => o.2 && decide (o.1 ≤ start + length) :=
              Nat.cast_le.2 hmono
          _ ≤ b.filled level now + (start + length - now) * b.rate := hbound
          _ ≤ b.capacity + b.rate * length := add_le_add hfull hshort
      · -- after the interval
        rw [countP_run_of_late hsorted hend (by simp), Nat.cast_zero]
        linarith

/-- The bound, for a bucket nobody has looked at. -/
theorem countP_run_le_fresh (hb : b.Nonneg) {times : List K}
    (hsorted : times.Pairwise (· ≤ ·)) (start length : K) (hlength : 0 ≤ length) :
    ((b.run none times).countP
        (fun o => o.2 && decide (start ≤ o.1) && decide (o.1 ≤ start + length)) : K) ≤
      b.capacity + b.rate * length :=
  countP_run_le hb (fun _ _ => valid_none) hsorted start length hlength

/-- A bucket that is looked at twice at the same time has not changed in between. -/
theorem filled_consume_self : b.filled (some (b.consume level now).2) now =
    (b.consume level now).2.tokens := by
  have hcapacity : (b.consume level now).2.tokens ≤ b.capacity := by
    have htaken : (b.consume level now).2.tokens = _ := consume_tokens
    have hfull : b.filled level now ≤ b.capacity := filled_le_capacity
    split at htaken <;> linarith
  show min b.capacity _ = _
  rw [consume_last, sub_self, zero_mul, add_zero, min_eq_right hcapacity]

/-- As many calls at one time are admitted as there are tokens. -/
theorem run_replicate {n : ℕ} (h : (n : K) ≤ b.filled level now) :
    b.run level (List.replicate n now) = List.replicate n (now, true) := by
  induction n generalizing level with
  | zero => rfl
  | succ n ih =>
    have hwhole : 1 ≤ b.filled level now := by
      rw [Nat.cast_succ] at h
      have hn : (0 : K) ≤ n := Nat.cast_nonneg n
      linarith
    have hcall : b.consume level now = (true, ⟨b.filled level now - 1, now⟩) := by
      rw [consume, if_pos hwhole]
    have hrest : (n : K) ≤ b.filled (some (b.consume level now).2) now := by
      rw [filled_consume_self, hcall]
      rw [Nat.cast_succ] at h
      show (n : K) ≤ b.filled level now - 1
      linarith
    rw [List.replicate_succ, run, ih hrest, hcall, List.replicate_succ]

end TokenBucket
