import AgentPlatform.Middleware.RedisCounters
import Mathlib.Algebra.Order.Floor.Semiring

/-!
# How many requests the counters in Redis let through

In production no request goes past the counters: a command that raises denies its call.  A
counter is made at most once a minute and lets no more requests through than the capacity, so
the requests under a key are bounded in any stretch of any run, in whatever order the commands
of the calls take effect and whichever of them raise.

* `State.credit` — the requests a counter has still to let through; `credit_step`.
* `State.nextWindow` — the time before which no new counter is made; `nextWindow_step`.
* `stretch_admits_le` — **the bound**, for every stretch of every run; `admittedIn_reached` — it is
  reached in short stretches.
-/

namespace AgentPlatform

namespace DistributedLimiter

variable (limiter : DistributedLimiter)

/-- The call of an event, and its key. -/
def State.caller (s : State) : Event → Option (ℕ × String)
  | .call id key => some (id, key)
  | .incr id _ =>
    match s.calls id with
    | some (.incr key) => some (id, key)
    | _ => none
  | .expire id _ =>
    match s.calls id with
    | some (.expire key _) => some (id, key)
    | _ => none
  | .pass _ => none

/-- Whether a call with the key returns that it is allowed. -/
def admits (key : String) (s : State) (e : Event) : Bool :=
  match s.caller e with
  | some (id, key') =>
    key' = key &&
      match (limiter.step s e).bind fun s' => s'.calls id with
      | some (.returned allowed) => allowed
      | _ => false
  | none => false

/-- How many calls with a key are allowed in a stretch of a run. -/
def admittedIn (key : String) (s : State) (stretch : List Event) : ℕ :=
  Transitions.total limiter.step (fun s e => (limiter.admits key s e).toNat) s stretch

/-- Whether the event makes the counter. -/
def makes (rk : String) (s : State) (e : Event) : Bool :=
  (s.redis rk).isNone && ((limiter.step s e).bind fun s' => s'.redis rk).isSome

/-- The requests the counter under a key has still to let through.  The call that made it is one
of them until it has set the expiry. -/
def State.credit (s : State) (rk : String) : ℕ :=
  match s.redis rk with
  | none => 0
  | some c =>
    limiter.capacity - c.count + if c.expiry = none then min 1 limiter.capacity else 0

/-- The time before which no new counter is made under a key. -/
def State.nextWindow (s : State) (rk : String) : ℚ :=
  match s.redis.expiries rk with
  | none => s.now
  | some expiry => expiry.getD (s.now + 60)

variable {limiter} {s s' t : State} {id : ℕ} {key rk : String}

/-! ## What is left of a counter -/

/-- The call that waits to set an expiry has counted one. -/
def State.FirstOnly (s : State) : Prop :=
  ∀ id key count, s.calls id = some (.expire key count) → count = 1

theorem credit_congr (h : s'.redis rk = s.redis rk) :
    s'.credit limiter rk = s.credit limiter rk := by
  rw [State.credit, State.credit, h]

theorem credit_of_none (h : s.redis rk = none) : s.credit limiter rk = 0 := by
  rw [State.credit, h]

theorem credit_of_some {c : Counter} (h : s.redis rk = some c) : s.credit limiter rk =
    limiter.capacity - c.count + if c.expiry = none then min 1 limiter.capacity else 0 := by
  rw [State.credit, h]

/-- A new counter lets through as many as there is capacity. -/
theorem credit_of_first (h : s.redis rk = some ⟨1, none, Nat.one_pos⟩) :
    s.credit limiter rk = limiter.capacity := by
  rw [credit_of_some h, if_pos rfl]
  dsimp only
  omega

/-- Each one counted is one less to let through. -/
theorem credit_of_count {c : Counter} (h : s.redis rk = some c)
    (h' : s'.redis rk = some ⟨c.count + 1, c.expiry, Nat.succ_pos _⟩) :
    (decide (c.count + 1 ≤ limiter.capacity)).toNat + s'.credit limiter rk ≤
      s.credit limiter rk := by
  rw [credit_of_some h, credit_of_some h']
  by_cases hle : c.count + 1 ≤ limiter.capacity
  · simp only [hle, decide_true, Bool.toNat_true]
    omega
  · simp only [hle, decide_false, Bool.toNat_false]
    omega

/-- The first one is let through when the expiry is set. -/
theorem credit_of_expire {c : Counter} {e : ℚ} (h : s.redis rk = some c) (hunset : c.expiry = none)
    (h' : s'.redis rk = some { c with expiry := some e }) :
    (decide (1 ≤ limiter.capacity)).toNat + s'.credit limiter rk ≤ s.credit limiter rk := by
  rw [credit_of_some h, credit_of_some h', if_pos hunset, if_neg (by simp)]
  by_cases hle : 1 ≤ limiter.capacity
  · simp only [hle, decide_true, Bool.toNat_true]
    omega
  · simp only [hle, decide_false, Bool.toNat_false]
    omega

theorem credit_left (now : ℚ) :
    State.credit limiter { s with now := now, redis := s.redis.left now } rk ≤
      s.credit limiter rk := by
  cases hcounter : s.redis rk with
  | none =>
    refine le_of_eq_of_le (credit_of_none ?_) (Nat.zero_le _)
    simp [Redis.left, hcounter]
  | some c =>
    by_cases hleft : (c.expiry.all fun e => now < e) = true
    · refine le_of_eq (credit_congr ?_)
      simp [Redis.left, hcounter, hleft]
    · refine le_of_eq_of_le (credit_of_none ?_) (Nat.zero_le _)
      simp [Redis.left, hcounter, hleft]

/-! ## What a step lets through -/

/-- What holds in every run of a limiter with Redis in production. -/
structure Guarded (limiter : DistributedLimiter) (s : State) : Prop extends Inv s where
  firstOnly : s.FirstOnly

theorem admits_of_caller_none {e : Event} (h : s.caller e = none) :
    limiter.admits key s e = false := by
  rw [admits, h]

theorem admits_of_step {e : Event} {key' : String} (hcaller : s.caller e = some (id, key'))
    (hstep : limiter.step s e = some s') {call : Call} (hcall : s'.calls id = some call) :
    limiter.admits key s e = true ↔ key' = key ∧ call = .returned true := by
  unfold admits
  rw [hcaller, hstep]
  simp only [Option.bind_some, hcall, Bool.and_eq_true, decide_eq_true_eq]
  refine and_congr_right fun _ => ?_
  cases call with
  | incr key => simp
  | expire key count => simp
  | returned allowed => simp

/-- Nobody is let through by a call that has not returned that it is allowed. -/
theorem admits_of_denied {e : Event} {key' : String} (hcaller : s.caller e = some (id, key'))
    (hstep : limiter.step s e = some s') {call : Call} (hcall : s'.calls id = some call)
    (hdenied : call ≠ .returned true) : limiter.admits key s e = false := by
  rw [Bool.eq_false_iff]
  intro hadmits
  exact hdenied ((admits_of_step hcaller hstep hcall).1 hadmits).2

/-- A call with another key lets nobody through. -/
theorem admits_of_ne {e : Event} {key' : String} (hcaller : s.caller e = some (id, key'))
    (hne : key' ≠ key) : limiter.admits key s e = false := by
  rw [admits, hcaller]
  simp [hne]

theorem admits_le_of_returned {e : Event} {key' : String} {allowed : Bool}
    (hcaller : s.caller e = some (id, key')) (hstep : limiter.step s e = some s')
    (hcall : s'.calls id = some (.returned allowed)) :
    (limiter.admits key s e).toNat ≤ allowed.toNat := by
  refine Bool.toNat_le_toNat fun hadmits => ?_
  have hreturned := ((admits_of_step hcaller hstep hcall).1 hadmits).2
  injection hreturned

/-- A step that leaves Redis alone lets nobody through in production. -/
theorem credit_quiet {e : Event} (hadmits : limiter.admits key s e = false)
    (hredis : s'.redis rk = s.redis rk) :
    (limiter.admits key s e).toNat + s'.credit limiter rk ≤
      s.credit limiter rk + limiter.capacity * (limiter.makes rk s e).toNat := by
  rw [hadmits, credit_congr hredis, Bool.toNat_false, Nat.zero_add]
  exact Nat.le_add_right _ _

theorem onException_production (hproduction : limiter.isProduction = true) :
    limiter.onException s id key = s.goto id (.returned false) := by
  rw [onException, if_pos hproduction]

/-- The call whose command raises is denied. -/
theorem credit_raised {e : Event} {key' : String} (hproduction : limiter.isProduction = true)
    (hcaller : s.caller e = some (id, key'))
    (hstep : limiter.step s e = some (limiter.onException s id key')) :
    (limiter.admits key s e).toNat + (limiter.onException s id key').credit limiter rk ≤
      s.credit limiter rk + limiter.capacity * (limiter.makes rk s e).toNat := by
  rw [onException_production hproduction] at hstep ⊢
  refine credit_quiet ?_ rfl
  exact admits_of_denied hcaller hstep State.goto_calls_self (by simp)

/-- What an answer to `incr` lets through, whether it makes the counter or counts on. -/
theorem credit_counted {key' : String} (hcall : s.calls id = some (.incr key')) :
    (limiter.admits key s (.incr id .done)).toNat +
        (limiter.onCount { s with redis := (s.redis.incr (redisKey key')).2 } id key'
          (s.redis.incr (redisKey key')).1).credit limiter (redisKey key) ≤
      s.credit limiter (redisKey key) +
        limiter.capacity * (limiter.makes (redisKey key) s (.incr id .done)).toNat := by
  have hcaller : s.caller (.incr id .done) = some (id, key') := by simp [State.caller, hcall]
  have hstep : limiter.step s (.incr id .done) =
      some (limiter.onCount { s with redis := (s.redis.incr (redisKey key')).2 } id key'
        (s.redis.incr (redisKey key')).1) := by
    simp [step, hcall]
  cases hcounter : s.redis (redisKey key') with
  | none =>
    have hincr : s.redis.incr (redisKey key') =
        (1, s.redis.set (redisKey key') ⟨1, none, Nat.one_pos⟩) := by
      rw [Redis.incr, hcounter]
    rw [hincr, onCount, if_pos rfl] at hstep ⊢
    have hadmits : limiter.admits key s (.incr id .done) = false :=
      admits_of_denied hcaller hstep State.goto_calls_self (by simp)
    by_cases hrk : redisKey key = redisKey key'
    · have hmakes : limiter.makes (redisKey key) s (.incr id .done) = true := by
        rw [makes, hstep, hrk, hcounter]
        simp [State.goto, Redis.set]
      have hfirst := (congrArg (s.redis.set (redisKey key') ⟨1, none, Nat.one_pos⟩) hrk).trans
        Redis.set_self
      rw [hadmits, hmakes, Bool.toNat_false, Bool.toNat_true, Nat.zero_add, Nat.mul_one]
      exact le_of_eq_of_le (credit_of_first hfirst) (Nat.le_add_left _ _)
    · exact credit_quiet hadmits (Redis.set_of_ne hrk)
  | some c =>
    have hincr : s.redis.incr (redisKey key') = (c.count + 1,
        s.redis.set (redisKey key') ⟨c.count + 1, c.expiry, Nat.succ_pos _⟩) := by
      rw [Redis.incr, hcounter]
    have hpos := c.count_pos
    rw [hincr, onCount, if_neg (by omega)] at hstep ⊢
    have hadmits : (limiter.admits key s (.incr id .done)).toNat ≤
        (decide (c.count + 1 ≤ limiter.capacity)).toNat :=
      admits_le_of_returned hcaller hstep State.goto_calls_self
    by_cases hrk : redisKey key = redisKey key'
    · have hcount := (congrArg (s.redis.set (redisKey key')
        ⟨c.count + 1, c.expiry, Nat.succ_pos _⟩) hrk).trans Redis.set_self
      exact (Nat.add_le_add_right hadmits _).trans
        ((credit_of_count (hrk ▸ hcounter) hcount).trans (Nat.le_add_right _ _))
    · have hne : key' ≠ key := fun h => hrk (congrArg redisKey h.symm)
      exact credit_quiet (admits_of_ne hcaller hne) (Redis.set_of_ne hrk)

/-- What an answer to `expire` lets through. -/
theorem credit_expired (hguarded : Guarded limiter s) {key' : String} {count : ℕ}
    (hcall : s.calls id = some (.expire key' count)) :
    (limiter.admits key s (.expire id .done)).toNat + State.credit limiter
        ({ s with redis := s.redis.expire (redisKey key') 60 s.now }.goto id
          (.returned (count ≤ limiter.capacity))) (redisKey key) ≤
      s.credit limiter (redisKey key) +
        limiter.capacity * (limiter.makes (redisKey key) s (.expire id .done)).toNat := by
  have hcaller : s.caller (.expire id .done) = some (id, key') := by simp [State.caller, hcall]
  have hstep : limiter.step s (.expire id .done) =
      some ({ s with redis := s.redis.expire (redisKey key') 60 s.now }.goto id
        (.returned (count ≤ limiter.capacity))) := by
    simp [step, hcall]
  obtain rfl := hguarded.firstOnly id key' count hcall
  have hadmits : (limiter.admits key s (.expire id .done)).toNat ≤
      (decide (1 ≤ limiter.capacity)).toNat :=
    admits_le_of_returned hcaller hstep State.goto_calls_self
  by_cases hrk : redisKey key = redisKey key'
  · obtain ⟨c, hc, hunset⟩ := Option.map_eq_some_iff.1
      (hguarded.unset id (redisKey key') (waits_of_calls hcall))
    have hset : s.redis.expire (redisKey key') 60 s.now (redisKey key) =
        some { c with expiry := some (s.now + 60) } := by
      rw [hrk, Redis.expire, Function.update_self, hc]
      rfl
    exact (Nat.add_le_add_right hadmits _).trans
      ((credit_of_expire (hrk ▸ hc) hunset hset).trans (Nat.le_add_right _ _))
  · have hne : key' ≠ key := fun h => hrk (congrArg redisKey h.symm)
    exact credit_quiet (admits_of_ne hcaller hne) (Redis.expire_of_ne hrk)

/-- **What a step lets through**, it takes from what the counter has left, unless it makes the
counter. -/
theorem credit_step (hredis : limiter.hasRedis = true) (hproduction : limiter.isProduction = true)
    (hguarded : Guarded limiter s) {e : Event} (h : limiter.step s e = some s') :
    (limiter.admits key s e).toNat + s'.credit limiter (redisKey key) ≤
      s.credit limiter (redisKey key) +
        limiter.capacity * (limiter.makes (redisKey key) s e).toNat := by
  have hsame := h
  cases e with
  | call id key' =>
    unfold step at h
    dsimp only at h
    split at h
    · obtain rfl := Option.some.inj h
      rw [onCall, if_pos hredis] at hsame ⊢
      exact credit_quiet (admits_of_denied rfl hsame State.goto_calls_self (by simp)) rfl
    · cases h
  | incr id answer =>
    unfold step at h
    dsimp only at h
    split at h
    · rename_i hcall
      obtain rfl := Option.some.inj h
      exact credit_counted hcall
    · rename_i hcall
      obtain rfl := Option.some.inj h
      exact credit_raised hproduction (by simp [State.caller, hcall]) hsame
    · cases h
  | expire id answer =>
    unfold step at h
    dsimp only at h
    split at h
    · rename_i hcall
      obtain rfl := Option.some.inj h
      exact credit_expired hguarded hcall
    · rename_i hcall
      obtain rfl := Option.some.inj h
      exact credit_raised hproduction (by simp [State.caller, hcall]) hsame
    · cases h
  | pass seconds =>
    unfold step at h
    dsimp only at h
    split at h
    · obtain rfl := Option.some.inj h
      rw [admits_of_caller_none rfl, Bool.toNat_false, Nat.zero_add]
      exact (credit_left _).trans (Nat.le_add_right _ _)
    · cases h

/-! ## When the counters are made -/

theorem makes_of_step {e : Event} (h : limiter.step s e = some s') :
    limiter.makes rk s e = ((s.redis.expiries rk).isNone && (s'.redis.expiries rk).isSome) := by
  rw [makes, h, Redis.expiries, Redis.expiries, Option.isNone_map, Option.isSome_map,
    Option.bind_some]

/-- Where a counter and the time stay as they are, none is made. -/
theorem nextWindow_same {e : Event} (h : limiter.step s e = some s')
    (hsame : s'.redis.expiries rk = s.redis.expiries rk) (hnow : s'.now = s.now) :
    60 * ((limiter.makes rk s e).toNat : ℚ) + s.nextWindow rk ≤ s'.nextWindow rk := by
  have hnone : limiter.makes rk s e = false := by
    rw [makes_of_step h, hsame]
    cases s.redis.expiries rk <;> simp
  rw [hnone, State.nextWindow, State.nextWindow, hsame, hnow]
  simp

/-- As time passes, a counter may go, and none is made. -/
theorem nextWindow_passed {seconds : ℚ} (hnonneg : 0 ≤ seconds)
    (h : limiter.step s (.pass seconds) =
      some { s with now := s.now + seconds, redis := s.redis.left (s.now + seconds) }) :
    60 * ((limiter.makes rk s (.pass seconds)).toNat : ℚ) + s.nextWindow rk ≤
      State.nextWindow
        { s with now := s.now + seconds, redis := s.redis.left (s.now + seconds) } rk := by
  have hleft : (s.redis.left (s.now + seconds)).expiries rk =
      (s.redis.expiries rk).filter fun expiry => expiry.all fun e => s.now + seconds < e :=
    Redis.expiries_left _
  have hnone : limiter.makes rk s (.pass seconds) = false := by
    rw [makes_of_step h]
    dsimp only
    rw [hleft]
    cases s.redis.expiries rk <;> simp
  rw [hnone, State.nextWindow, State.nextWindow]
  dsimp only
  rw [hleft]
  cases hexpiry : s.redis.expiries rk with
  | none => simpa using hnonneg
  | some expiry =>
    rw [Option.filter_some]
    cases expiry with
    | none => simpa using hnonneg
    | some e =>
      by_cases hlater : s.now + seconds < e
      · simp [hlater]
      · simpa [hlater] using not_lt.1 hlater

/-- **When a counter is made**, a minute at least goes by before the next. -/
theorem nextWindow_step (rk : String) (hinv : Inv s) {e : Event} (h : limiter.step s e = some s') :
    60 * ((limiter.makes rk s e).toNat : ℚ) + s.nextWindow rk ≤ s'.nextWindow rk := by
  have hmove := move_of_step h
  cases hmove with
  | quiet hleaves hnot hevent =>
    refine nextWindow_same h ?_ hleaves.now_eq
    rw [hleaves.redis_eq]
  | @made id made _ hnone hredis hnow hwaits =>
    have hexpiries : s'.redis.expiries = Function.update s.redis.expiries made (some none) := by
      rw [hredis, Redis.expiries_set]
    by_cases hrk : rk = made
    · subst hrk
      have hfresh : s.redis.expiries rk = none := by simp [Redis.expiries, hnone]
      have hmade : s'.redis.expiries rk = some none := by rw [hexpiries, Function.update_self]
      rw [makes_of_step h, State.nextWindow, State.nextWindow, hfresh, hmade, hnow]
      simp [add_comm]
    · refine nextWindow_same h ?_ hnow
      rw [hexpiries, Function.update_of_ne hrk]
  | @counted id counted c _ hsome hleaves hnot =>
    refine nextWindow_same h ?_ hleaves.now_eq
    rw [hleaves.redis_eq]
    exact congrFun (Redis.expiries_count hsome) rk
  | @expires id set _ hwaits hleaves =>
    have hunset := hinv.unset id set hwaits
    have hexpiries : s'.redis.expiries =
        Function.update s.redis.expiries set (some (some (s.now + 60))) := by
      rw [hleaves.redis_eq]
      exact Redis.expiries_expire hunset
    by_cases hrk : rk = set
    · subst hrk
      have hset : s'.redis.expiries rk = some (some (s.now + 60)) := by
        rw [hexpiries, Function.update_self]
      rw [makes_of_step h, State.nextWindow, State.nextWindow, hunset, hset]
      simp
    · refine nextWindow_same h ?_ hleaves.now_eq
      rw [hexpiries, Function.update_of_ne hrk]
  | raised hwaits hleaves =>
    refine nextWindow_same h ?_ hleaves.now_eq
    rw [hleaves.redis_eq]
  | passed hnonneg => exact nextWindow_passed hnonneg h

theorem now_le_nextWindow (hinv : Inv s) : s.now ≤ s.nextWindow rk := by
  unfold State.nextWindow
  cases hexpiry : s.redis.expiries rk with
  | none => exact le_refl _
  | some expiry =>
    cases expiry with
    | none => simp
    | some e => exact (hinv.window rk e hexpiry).1.le

theorem nextWindow_le (hinv : Inv s) : s.nextWindow rk ≤ s.now + 60 := by
  unfold State.nextWindow
  cases hexpiry : s.redis.expiries rk with
  | none => simp
  | some expiry =>
    cases expiry with
    | none => exact le_refl _
    | some e => exact (hinv.window rk e hexpiry).2

/-! ## Every stretch of every run -/

theorem firstOnly_goto {call : Call} (hfirst : s.FirstOnly)
    (h : ∀ key count, call = .expire key count → count = 1) : (s.goto id call).FirstOnly := by
  intro i key count hcall
  by_cases hi : i = id
  · subst hi
    rw [State.goto_calls_self] at hcall
    exact h key count (Option.some.inj hcall)
  · rw [State.goto_calls_of_ne hi] at hcall
    exact hfirst i key count hcall

theorem firstOnly_onException (hfirst : s.FirstOnly) :
    (limiter.onException s id key).FirstOnly := by
  unfold onException consumeLocally
  split
  · exact firstOnly_goto hfirst (by simp)
  · exact firstOnly_goto (s := { s with buckets := _ }) hfirst (by simp)

theorem firstOnly_step {e : Event} (hfirst : s.FirstOnly) (h : limiter.step s e = some s') :
    s'.FirstOnly := by
  cases e with
  | call id key =>
    unfold step onCall consumeLocally at h
    dsimp only at h
    split at h
    · obtain rfl := Option.some.inj h
      split
      · exact firstOnly_goto hfirst (by simp)
      · exact firstOnly_goto (s := { s with buckets := _ }) hfirst (by simp)
    · cases h
  | incr id answer =>
    unfold step at h
    dsimp only at h
    split at h
    · obtain rfl := Option.some.inj h
      unfold onCount
      split
      · rename_i hone
        refine firstOnly_goto (s := { s with redis := _ }) hfirst ?_
        rintro key count hcall
        injection hcall with _ hcount
        exact hcount ▸ hone
      · exact firstOnly_goto (s := { s with redis := _ }) hfirst (by simp)
    · obtain rfl := Option.some.inj h
      exact firstOnly_onException hfirst
    · cases h
  | expire id answer =>
    unfold step at h
    dsimp only at h
    split at h
    · obtain rfl := Option.some.inj h
      exact firstOnly_goto (s := { s with redis := _ }) hfirst (by simp)
    · obtain rfl := Option.some.inj h
      exact firstOnly_onException hfirst
    · cases h
  | pass seconds =>
    unfold step at h
    dsimp only at h
    split at h
    · obtain rfl := Option.some.inj h
      exact hfirst
    · cases h

theorem guarded_step {e : Event} (hguarded : Guarded limiter s)
    (h : limiter.step s e = some s') : Guarded limiter s' :=
  ⟨inv_step hguarded.toInv h, firstOnly_step hguarded.firstOnly h⟩

theorem guarded_run {now : ℚ} {before : List Event}
    (h : limiter.run (.start now) before = some s) : Guarded limiter s := by
  have hstart : Guarded limiter (.start now) := ⟨inv_start now, by rintro id key count ⟨⟩⟩
  exact Transitions.run_invariant (fun _ _ _ => guarded_step) hstart h

theorem credit_le : s.credit limiter rk ≤ limiter.capacity := by
  cases hcounter : s.redis rk with
  | none => exact (credit_of_none hcounter).trans_le (Nat.zero_le _)
  | some c =>
    rw [credit_of_some hcounter]
    have hpos := c.count_pos
    split <;> omega

/-- How many counters are made in a stretch of a run. -/
def madeIn (limiter : DistributedLimiter) (rk : String) (s : State) (stretch : List Event) : ℕ :=
  Transitions.total limiter.step (fun s e => (limiter.makes rk s e).toNat) s stretch

/-- A counter is made at most once a minute. -/
theorem madeIn_le {stretch : List Event} (hinv : Inv s) (h : limiter.run s stretch = some t) :
    60 * (limiter.madeIn rk s stretch : ℚ) ≤
      t.now - s.now - (s.nextWindow rk - s.now) + 60 := by
  have htotal := Transitions.total_le_of_potential (P := Inv)
    (g := fun s e => 60 * ((limiter.makes rk s e).toNat : ℚ)) (c := fun _ _ => 0)
    (f := fun s => - s.nextWindow rk) (fun _ _ _ => inv_step)
    (fun _ _ _ hs hstep => by linarith [nextWindow_step rk hs hstep]) hinv h
  have hscaled : 60 * (limiter.madeIn rk s stretch : ℚ) =
      Transitions.total limiter.step (fun s e => 60 * ((limiter.makes rk s e).toNat : ℚ)) s
        stretch :=
    Transitions.map_total ((AddMonoidHom.mulLeft (60 : ℚ)).comp (Nat.castAddMonoidHom ℚ)) stretch
  have hinv' : Inv t := Transitions.run_invariant (fun _ _ _ => inv_step) hinv h
  have hlast : t.nextWindow rk ≤ t.now + 60 := nextWindow_le hinv'
  rw [Transitions.total_zero] at htotal
  rw [hscaled]
  linarith

/-- What is let through in a stretch was left of the counter, or comes with the counters made. -/
theorem admittedIn_le_made (hredis : limiter.hasRedis = true)
    (hproduction : limiter.isProduction = true) {stretch : List Event}
    (hguarded : Guarded limiter s) (h : limiter.run s stretch = some t) :
    limiter.admittedIn key s stretch ≤ s.credit limiter (redisKey key) +
      limiter.capacity * limiter.madeIn (redisKey key) s stretch := by
  have htotal := Transitions.total_le_of_potential (P := Guarded limiter)
    (g := fun s e => (limiter.admits key s e).toNat)
    (c := fun s e => limiter.capacity * (limiter.makes (redisKey key) s e).toNat)
    (f := fun s => s.credit limiter (redisKey key)) (fun _ _ _ => guarded_step)
    (fun _ _ _ hs hstep => credit_step hredis hproduction hs hstep) hguarded h
  have hscaled : limiter.capacity * limiter.madeIn (redisKey key) s stretch =
      Transitions.total limiter.step
        (fun s e => limiter.capacity * (limiter.makes (redisKey key) s e).toNat) s stretch :=
    Transitions.map_total (AddMonoidHom.mulLeft limiter.capacity) stretch
  rw [hscaled]
  exact (Nat.le_add_right _ _).trans htotal

/-- So many whole minutes go into a length. -/
theorem le_floor_minutes {n : ℕ} {length : ℚ} (h : 60 * (n : ℚ) ≤ length) :
    n ≤ ⌊length / 60⌋₊ := by
  refine Nat.le_floor ?_
  rw [le_div_iff₀ (by norm_num), mul_comm]
  exact h

theorem le_floor_minutes_succ {n : ℕ} {length : ℚ} (h : 60 * (n : ℚ) ≤ length + 60) :
    n ≤ ⌊length / 60⌋₊ + 1 := by
  cases n with
  | zero => exact Nat.zero_le _
  | succ n =>
    rw [Nat.cast_succ] at h
    exact Nat.succ_le_succ (le_floor_minutes (by linarith))

/-- What is left of a counter at first, with the counters that can be made.  A counter without an
expiry is one that leaves no time for another. -/
theorem credit_add_le {made : ℕ} {length : ℚ} (hinv : Inv s)
    (hmade : 60 * (made : ℚ) ≤ length - (s.nextWindow rk - s.now) + 60) :
    s.credit limiter rk + limiter.capacity * made ≤
      limiter.capacity * (⌊length / 60⌋₊ + 2) - 1 := by
  have hwindow : s.now ≤ s.nextWindow rk := now_le_nextWindow hinv
  have hminutes : made ≤ ⌊length / 60⌋₊ + 1 := le_floor_minutes_succ (by linarith)
  have hnew := Nat.mul_le_mul_left limiter.capacity hminutes
  have hold : made ≤ ⌊length / 60⌋₊ →
      limiter.capacity * made ≤ limiter.capacity * ⌊length / 60⌋₊ :=
    Nat.mul_le_mul_left _
  rcases Nat.eq_zero_or_pos limiter.capacity with hzero | hcapacity
  · have hcredit : s.credit limiter rk ≤ limiter.capacity := credit_le
    rw [hzero] at hcredit ⊢
    simpa using hcredit
  rw [Nat.mul_add, Nat.mul_one] at hnew
  rw [Nat.mul_add]
  generalize limiter.capacity * ⌊length / 60⌋₊ = whole at hnew hold ⊢
  cases hcounter : s.redis rk with
  | none =>
    rw [credit_of_none hcounter]
    omega
  | some c =>
    have hpos := c.count_pos
    rw [credit_of_some hcounter]
    by_cases hunset : c.expiry = none
    · have hnext : s.nextWindow rk = s.now + 60 := by
        simp [State.nextWindow, Redis.expiries, hcounter, hunset]
      have hwhole : made ≤ ⌊length / 60⌋₊ := le_floor_minutes (by linarith)
      have hnone := hold hwhole
      rw [if_pos hunset]
      omega
    · rw [if_neg hunset]
      omega

/-- **The bound in production**, for every stretch of every run: no more requests under a key are
let through than the capacity for each minute of it and twice the capacity, less one, besides. -/
theorem stretch_admits_le (limiter : DistributedLimiter) (hredis : limiter.hasRedis = true)
    (hproduction : limiter.isProduction = true) (now : ℚ) (before stretch : List Event)
    (key : String) (s t : State) (hbefore : limiter.run (.start now) before = some s)
    (hstretch : limiter.run s stretch = some t) :
    limiter.admittedIn key s stretch ≤ limiter.capacity * (⌊(t.now - s.now) / 60⌋₊ + 2) - 1 := by
  have hguarded := guarded_run hbefore
  calc limiter.admittedIn key s stretch
      ≤ s.credit limiter (redisKey key) +
          limiter.capacity * limiter.madeIn (redisKey key) s stretch :=
        admittedIn_le_made hredis hproduction hguarded hstretch
    _ ≤ limiter.capacity * (⌊(t.now - s.now) / 60⌋₊ + 2) - 1 :=
        credit_add_le hguarded.toInv (madeIn_le hguarded.toInv hstretch)

/-- Two requests at once; the connection is lost before the expiry is set. -/
theorem productionLimiter_admits_le : ∃ t, productionLimiter.run (.start 0)
      [.call 0 userKey, .call 1 userKey, .incr 0 .done, .incr 1 .done, .expire 0 .raised,
        .pass 30] = some t ∧
    productionLimiter.admittedIn userKey (.start 0)
      [.call 0 userKey, .call 1 userKey, .incr 0 .done, .incr 1 .done, .expire 0 .raised,
        .pass 30] ≤ 60 * (⌊(t.now - 0) / 60⌋₊ + 2) - 1 := by
  have hrun : productionLimiter.run (.start 0)
      [.call 0 userKey, .call 1 userKey, .incr 0 .done, .incr 1 .done, .expire 0 .raised,
        .pass 30] = some _ := rfl
  exact ⟨_, hrun, stretch_admits_le productionLimiter rfl rfl 0 [] _ userKey _ _ rfl hrun⟩

/-! ## The bound is reached -/

/-- Calls one after the other, each counted on. -/
def serve (key : String) (first : ℕ) : ℕ → List Event
  | 0 => []
  | n + 1 => .call first key :: .incr first .done :: serve key (first + 1) n

/-- A call that makes the counter, and calls that are counted on. -/
def serveAll (key : String) (first n : ℕ) : List Event :=
  .call first key :: .incr first .done :: .expire first .done :: serve key (first + 1) n

/-- The calls are new from a number on. -/
def State.Free (s : State) (first : ℕ) : Prop := ∀ i, first ≤ i → s.calls i = none

theorem free_goto {call : Call} {first : ℕ} (h : s.Free first) :
    (s.goto first call).Free (first + 1) := by
  intro i hi
  rw [State.goto_calls_of_ne (by omega)]
  exact h i (by omega)

theorem step_call (limiter : DistributedLimiter) (key : String)
    (hredis : limiter.hasRedis = true) (hfree : s.calls id = none) :
    limiter.step s (.call id key) = some (s.goto id (.incr key)) := by
  simp [step, hfree, onCall, hredis]

theorem admittedIn_cons {e : Event} (h : limiter.step s e = some s') (later : List Event) :
    limiter.admittedIn key s (e :: later) =
      (limiter.admits key s e).toNat + limiter.admittedIn key s' later :=
  Transitions.total_cons h later

/-- A call alone lets nobody through. -/
theorem admittedIn_call (hredis : limiter.hasRedis = true) (hfree : s.calls id = none)
    (later : List Event) : limiter.admittedIn key s (.call id key :: later) =
      limiter.admittedIn key (s.goto id (.incr key)) later := by
  have hstep := step_call limiter key hredis hfree
  rw [admittedIn_cons hstep, admits_of_denied rfl hstep State.goto_calls_self (by simp),
    Bool.toNat_false, Nat.zero_add]

/-- The state once the call is counted on. -/
def State.recount (s : State) (id : ℕ) (key : String) (c : Counter) (allowed : Bool) : State :=
  { s with redis := s.redis.set (redisKey key) c }.goto id (.returned allowed)

theorem free_recount {first : ℕ} {c : Counter} {allowed : Bool} (h : s.Free (first + 1)) :
    (s.recount first key c allowed).Free (first + 1) := by
  intro i hi
  exact (State.goto_calls_of_ne (by omega)).trans (h i hi)

theorem step_counted (limiter : DistributedLimiter) {c : Counter}
    (hcall : s.calls id = some (.incr key)) (hc : s.redis (redisKey key) = some c) :
    limiter.step s (.incr id .done) = some (s.recount id key
      ⟨c.count + 1, c.expiry, Nat.succ_pos _⟩ (c.count + 1 ≤ limiter.capacity)) := by
  have hpos := c.count_pos
  have hmany : c.count + 1 ≠ 1 := by omega
  simp only [step, hcall, Redis.incr, hc, onCount, if_neg hmany, State.recount]

/-- One that is counted on within the capacity is let through. -/
theorem admits_counted (limiter : DistributedLimiter) {c : Counter}
    (hcall : s.calls id = some (.incr key)) (hc : s.redis (redisKey key) = some c)
    (hle : c.count + 1 ≤ limiter.capacity) :
    limiter.admits key s (.incr id .done) = true := by
  have hcaller : s.caller (.incr id .done) = some (id, key) := by simp [State.caller, hcall]
  refine (admits_of_step hcaller (step_counted limiter hcall hc) State.goto_calls_self).2 ⟨rfl, ?_⟩
  simp [hle]

/-- As many as the capacity allows are let through, one after the other. -/
theorem serve_admitted (limiter : DistributedLimiter) (hredis : limiter.hasRedis = true)
    {n first : ℕ} {c : Counter} (hfree : s.Free first) (hc : s.redis (redisKey key) = some c)
    (hle : c.count + n ≤ limiter.capacity) :
    ∃ t, limiter.run s (serve key first n) = some t ∧ t.Free (first + n) ∧ t.now = s.now ∧
      (∃ c', t.redis (redisKey key) = some c' ∧ c'.count = c.count + n ∧
        c'.expiry = c.expiry) ∧
      limiter.admittedIn key s (serve key first n) = n := by
  induction n generalizing s first c with
  | zero => exact ⟨s, rfl, hfree, rfl, ⟨c, hc, rfl, rfl⟩, rfl⟩
  | succ n ih =>
    have hnew : s.calls first = none := hfree first (le_refl _)
    have hcall := step_call limiter key hredis hnew
    have hcounted := step_counted limiter (s := s.goto first (.incr key))
      State.goto_calls_self hc
    have hadmits := admits_counted limiter (s := s.goto first (.incr key))
      State.goto_calls_self hc (by omega)
    obtain ⟨t, hrun, hfree', hnow, ⟨c', hc', hcount', hexpiry⟩, hcount⟩ :=
      ih (c := ⟨c.count + 1, c.expiry, _⟩) (free_recount (free_goto hfree)) Redis.set_self
        (by dsimp only; omega)
    refine ⟨t, ?_, ?_, hnow, ⟨c', hc', by rw [hcount']; dsimp only; omega, hexpiry⟩, ?_⟩
    · exact Transitions.run_cons_iff.2 ⟨_, hcall, Transitions.run_cons_iff.2 ⟨_, hcounted, hrun⟩⟩
    · rw [← Nat.add_assoc, Nat.add_right_comm]
      exact hfree'
    · rw [serve, admittedIn_call hredis hnew, admittedIn_cons hcounted, hadmits, hcount,
        Bool.toNat_true, Nat.add_comm]

/-- The state once the counter is made. -/
def State.makeCounter (s : State) (id : ℕ) (key : String) : State :=
  { s with redis := s.redis.set (redisKey key) ⟨1, none, Nat.one_pos⟩ }.goto id (.expire key 1)

theorem step_made (limiter : DistributedLimiter) (hcall : s.calls id = some (.incr key))
    (hnone : s.redis (redisKey key) = none) :
    limiter.step s (.incr id .done) = some (s.makeCounter id key) := by
  simp [step, hcall, Redis.incr, hnone, onCount, State.makeCounter]

theorem step_expired (limiter : DistributedLimiter) {c : Counter}
    (hcall : s.calls id = some (.expire key 1)) (hc : s.redis (redisKey key) = some c) :
    limiter.step s (.expire id .done) =
      some (s.recount id key { c with expiry := some (s.now + 60) } (1 ≤ limiter.capacity)) := by
  simp only [step, hcall, Redis.expire, hc, State.recount, Redis.set, Option.map_some]

/-- From no counter on, all the capacity is let through. -/
theorem serveAll_admitted (limiter : DistributedLimiter) (hredis : limiter.hasRedis = true)
    {n first : ℕ} (hfree : s.Free first) (hnone : s.redis (redisKey key) = none)
    (hle : n + 1 ≤ limiter.capacity) :
    ∃ t, limiter.run s (serveAll key first n) = some t ∧ t.Free (first + 1 + n) ∧
      t.now = s.now ∧
      (∃ c, t.redis (redisKey key) = some c ∧ c.count = n + 1 ∧
        c.expiry = some (s.now + 60)) ∧
      limiter.admittedIn key s (serveAll key first n) = n + 1 := by
  have hnew : s.calls first = none := hfree first (le_refl _)
  have hcall := step_call limiter key hredis hnew
  have hmade := step_made limiter (s := s.goto first (.incr key))
    State.goto_calls_self hnone
  have hexpired := step_expired limiter
    (s := (s.goto first (.incr key)).makeCounter first key) State.goto_calls_self Redis.set_self
  have hdenied : limiter.admits key (s.goto first (.incr key)) (.incr first .done) = false := by
    have hcaller : (s.goto first (.incr key)).caller (.incr first .done) = some (first, key) := by
      simp [State.caller]
    exact admits_of_denied hcaller hmade State.goto_calls_self (by simp)
  have hadmits : limiter.admits key ((s.goto first (.incr key)).makeCounter first key)
      (.expire first .done) = true := by
    have hcaller : ((s.goto first (.incr key)).makeCounter first key).caller
        (.expire first .done) = some (first, key) := by
      simp [State.caller, State.makeCounter]
    refine (admits_of_step hcaller hexpired State.goto_calls_self).2 ⟨rfl, ?_⟩
    have hone : 1 ≤ limiter.capacity := by omega
    simp [hone]
  have hfree' : State.Free (((s.goto first (.incr key)).makeCounter first key).recount first key
      { count := 1, expiry := some (s.now + 60), count_pos := Nat.one_pos }
      (1 ≤ limiter.capacity)) (first + 1) := by
    refine free_recount fun i hi => ?_
    exact (State.goto_calls_of_ne (by omega)).trans (free_goto hfree i hi)
  obtain ⟨t, hrun, hlater, hnow, ⟨c, hc, hcounted, hexpiry⟩, hcount⟩ :=
    serve_admitted limiter (n := n) hredis hfree' Redis.set_self (by dsimp only; omega)
  refine ⟨t, ?_, hlater, hnow, ⟨c, hc, hcounted.trans (Nat.add_comm 1 n), hexpiry⟩, ?_⟩
  · exact Transitions.run_cons_iff.2 ⟨_, hcall, Transitions.run_cons_iff.2 ⟨_, hmade,
      Transitions.run_cons_iff.2 ⟨_, hexpired, hrun⟩⟩⟩
  · rw [serveAll, admittedIn_call hredis hnew, admittedIn_cons hmade, hdenied,
      admittedIn_cons hexpired, hadmits]
    exact (congrArg (fun m => 0 + (1 + m)) hcount).trans (by omega)

/-- The state some time later. -/
def State.wait (s : State) (seconds : ℚ) : State :=
  { s with now := s.now + seconds, redis := s.redis.left (s.now + seconds) }

theorem step_pass (limiter : DistributedLimiter) {seconds : ℚ} (hnonneg : 0 ≤ seconds) :
    limiter.step s (.pass seconds) = some (s.wait seconds) := by
  simp [step, hnonneg, State.wait]

/-- **The bound is reached**, in stretches as short as one likes: calls just before a counter
expires and calls just after. -/
theorem admittedIn_reached (limiter : DistributedLimiter) (hredis : limiter.hasRedis = true)
    (hcapacity : 0 < limiter.capacity) (now : ℚ) (key : String) (length : ℚ) (hpos : 0 < length)
    (hshort : length < 60) :
    ∃ before stretch s t, limiter.run (.start now) before = some s ∧
      limiter.run s stretch = some t ∧ t.now - s.now = length ∧
      limiter.admittedIn key s stretch = limiter.capacity * 2 - 1 := by
  obtain ⟨n, hn⟩ : ∃ n, limiter.capacity = n + 1 := ⟨limiter.capacity - 1, by omega⟩
  -- one call makes the counter, and most of its minute goes by
  have hfresh : (State.start now).Free 0 := fun _ _ => rfl
  have hempty : (State.start now).redis (redisKey key) = none := rfl
  obtain ⟨r, hfirst, hfree, hnow, ⟨c, hc, hcount, hexpiry⟩, -⟩ :=
    serveAll_admitted limiter hredis hfresh hempty hcapacity
  have hwait := step_pass limiter (s := r) (sub_nonneg.2 hshort.le)
  have hkept : (r.wait (60 - length)).redis (redisKey key) = some c := by
    simpa [State.wait, Redis.left, hc, hexpiry, hnow] using hpos
  -- what is left of the counter is used up
  obtain ⟨m, hserved, hfree', hnow', ⟨c', hc', -, hexpiry'⟩, hold⟩ :=
    serve_admitted limiter (n := n) (s := r.wait (60 - length)) hredis hfree hkept
      (by omega)
  -- the counter expires, and the next one is used up
  have hpass := step_pass limiter (s := m) hpos.le
  have hlate : m.now + length = now + 60 := by
    rw [hnow', State.wait, hnow, State.start]
    ring
  have hgone : (m.wait length).redis (redisKey key) = none := by
    simp [State.wait, Redis.left, hc', hexpiry', hexpiry, hlate, State.start]
  obtain ⟨t, hlast, -, hend, -, hnew⟩ :=
    serveAll_admitted limiter (n := n) (s := m.wait length) hredis hfree' hgone
      hn.ge
  have hstretch : limiter.run m (.pass length :: serveAll key (0 + 1 + 0 + n) n) = some t :=
    Transitions.run_cons_iff.2 ⟨_, hpass, hlast⟩
  have hbefore : limiter.run r [.pass (60 - length)] = some (r.wait (60 - length)) :=
    Transitions.run_cons_iff.2 ⟨_, hwait, rfl⟩
  refine ⟨_, _, r.wait (60 - length), t, Transitions.run_append hfirst hbefore,
    Transitions.run_append hserved hstretch, ?_, ?_⟩
  · rw [hend, State.wait, hlate, State.wait, hnow, State.start]
    ring
  · have hquiet : limiter.admits key m (.pass length) = false := admits_of_caller_none rfl
    have hrest : limiter.admittedIn key m (.pass length :: serveAll key (0 + 1 + 0 + n) n) =
        n + 1 := by
      rw [admittedIn_cons hpass, hquiet, hnew, Bool.toNat_false, Nat.zero_add]
    rw [admittedIn, Transitions.total_append hserved]
    calc _ = n + (n + 1) := congrArg₂ (· + ·) hold hrest
      _ = limiter.capacity * 2 - 1 := by omega

/-- A hundred and nineteen requests within a second. -/
theorem productionLimiter_reached : ∃ before stretch s t,
    productionLimiter.run (.start 0) before = some s ∧ productionLimiter.run s stretch = some t ∧
      t.now - s.now = 1 ∧ productionLimiter.admittedIn userKey s stretch = 60 * 2 - 1 :=
  admittedIn_reached productionLimiter rfl (by decide) 0 userKey 1 (by norm_num) (by norm_num)

end DistributedLimiter

end AgentPlatform
