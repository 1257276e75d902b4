import AgentPlatform.Lib.Transitions
import AgentPlatform.Middleware.RateLimit

/-!
# The rate limiter with Redis

The requests under a key are counted in Redis.  The call that makes the counter sets its
expiry with a second command, and each command may raise.

* `Redis.incr`, `Redis.expire`, `Redis.left` — the commands, and the passing of time.
* `DistributedLimiter.step` — one step of any of the calls in progress.
* `Move` — **what a step does** to the counters.
* `stranded_of_raised`, `stranded_run` — a counter whose `expire` raised is there for good.
* `expires_iff` — **when the counters expire**: in the runs in which no `expire` raises.
-/

namespace AgentPlatform

/-- A counter in Redis, and when it expires, if that is set. -/
structure Counter where
  count : ℕ
  expiry : Option ℚ
  count_pos : 0 < count

/-- The counters in Redis. -/
abbrev Redis := String → Option Counter

namespace Redis

def set (redis : Redis) (key : String) (c : Counter) : Redis :=
  Function.update redis key (some c)

/-- `INCR`: what it answers, and what it leaves. -/
def incr (redis : Redis) (key : String) : ℕ × Redis :=
  match redis key with
  | none => (1, redis.set key ⟨1, none, Nat.one_pos⟩)
  | some c => (c.count + 1, redis.set key ⟨c.count + 1, c.expiry, Nat.succ_pos _⟩)

/-- `EXPIRE`, at a time -/
def expire (redis : Redis) (key : String) (seconds now : ℚ) : Redis :=
  Function.update redis key
    ((redis key).map fun c => { c with expiry := some (now + seconds) })

/-- What is left at a time. -/
def left (redis : Redis) (now : ℚ) : Redis :=
  fun key => (redis key).filter fun c => c.expiry.all fun e => now < e

theorem set_self {redis : Redis} {key : String} {c : Counter} : redis.set key c key = some c :=
  Function.update_self ..

theorem set_of_ne {redis : Redis} {key other : String} {c : Counter} (h : other ≠ key) :
    redis.set key c other = redis other :=
  Function.update_of_ne h ..

theorem expire_of_ne {redis : Redis} {key other : String} {seconds now : ℚ} (h : other ≠ key) :
    redis.expire key seconds now other = redis other :=
  Function.update_of_ne h ..

/-- A counter without an expiry is left at any time. -/
theorem left_of_unset {redis : Redis} {key : String} {c : Counter} {now : ℚ}
    (h : redis key = some c) (hunset : c.expiry = none) : redis.left now key = some c := by
  simp [left, h, hunset]

/-- The expiry set for each counter there is. -/
def expiries (redis : Redis) (key : String) : Option (Option ℚ) :=
  (redis key).map Counter.expiry

variable {redis : Redis} {key : String}

theorem expiries_set (c : Counter) :
    (redis.set key c).expiries = Function.update redis.expiries key (some c.expiry) := by
  funext other
  unfold expiries set
  by_cases h : other = key
  · subst h
    simp
  · simp [h]

/-- Counting on does not change an expiry. -/
theorem expiries_count {c : Counter} (h : redis key = some c) :
    (redis.set key ⟨c.count + 1, c.expiry, Nat.succ_pos _⟩).expiries = redis.expiries := by
  rw [expiries_set, Function.update_eq_self_iff, expiries, h]
  rfl

theorem expiries_expire {seconds now : ℚ} (h : redis.expiries key = some none) :
    (redis.expire key seconds now).expiries =
      Function.update redis.expiries key (some (some (now + seconds))) := by
  obtain ⟨c, hc, -⟩ := Option.map_eq_some_iff.1 h
  have hset : redis.expire key seconds now =
      redis.set key { c with expiry := some (now + seconds) } := by
    rw [expire, hc]
    rfl
  rw [hset, expiries_set]

theorem expiries_left (now : ℚ) :
    (redis.left now).expiries key =
      (redis.expiries key).filter fun expiry => expiry.all fun e => now < e := by
  unfold expiries left
  cases redis key with
  | none => rfl
  | some c =>
    simp only [Option.map_some, Option.filter_some]
    split <;> rfl

end Redis

/-- A limiter that may have a Redis client, and whether it runs in production. -/
structure DistributedLimiter extends RateLimiter where
  hasRedis : Bool
  isProduction : Bool

namespace DistributedLimiter

/-- How far a call of `_consume_distributed` is. -/
inductive Call
  /-- It waits for the answer to `incr`. -/
  | incr (key : String)
  /-- It waits for the answer to `expire`. -/
  | expire (key : String) (count : ℕ)
  | returned (allowed : Bool)

/-- A command takes effect, or it raises. -/
inductive Answer
  | done
  | raised
  deriving DecidableEq

/-- The calls are numbered. -/
structure State where
  now : ℚ
  redis : Redis
  buckets : Buckets
  calls : ℕ → Option Call

inductive Event
  /-- `_consume_distributed` is called with a key. -/
  | call (id : ℕ) (key : String)
  | incr (id : ℕ) (answer : Answer)
  | expire (id : ℕ) (answer : Answer)
  | pass (seconds : ℚ)

def redisKey (key : String) : String := s!"bfsi:rate:{key}"

/-- Nobody has called yet. -/
def State.start (now : ℚ) : State := ⟨now, fun _ => none, fun _ => none, fun _ => none⟩

/-- A call comes to a point. -/
def State.goto (s : State) (id : ℕ) (call : Call) : State :=
  { s with calls := Function.update s.calls id (some call) }

@[simp] theorem State.goto_calls_self {s : State} {id : ℕ} {call : Call} :
    (s.goto id call).calls id = some call :=
  Function.update_self ..

theorem State.goto_calls_of_ne {s : State} {id i : ℕ} {call : Call} (h : i ≠ id) :
    (s.goto id call).calls i = s.calls i :=
  Function.update_of_ne h ..

/-- No call is in progress. -/
def State.Idle (s : State) : Prop :=
  ∀ id call, s.calls id = some call → ∃ allowed, call = .returned allowed

variable (limiter : DistributedLimiter)

/-- `return self._consume(key)` -/
def consumeLocally (s : State) (id : ℕ) (key : String) : State :=
  let (allowed, buckets) := limiter.consume key s.now s.buckets
  { s with buckets := buckets }.goto id (.returned allowed)

/-- `except Exception` -/
def onException (s : State) (id : ℕ) (key : String) : State :=
  if limiter.isProduction then s.goto id (.returned false) else limiter.consumeLocally s id key

/-- The call up to its first command. -/
def onCall (s : State) (id : ℕ) (key : String) : State :=
  if limiter.hasRedis then s.goto id (.incr key) else limiter.consumeLocally s id key

/-- The call with the count. -/
def onCount (s : State) (id : ℕ) (key : String) (count : ℕ) : State :=
  if count = 1 then s.goto id (.expire key count)
  else s.goto id (.returned (count ≤ limiter.capacity))

/-- `_consume_distributed`, one step of a call, or time passes -/
def step (s : State) : Event → Option State
  | .call id key =>
    match s.calls id with
    | none => some (limiter.onCall s id key)
    | some _ => none
  | .incr id answer =>
    match s.calls id, answer with
    | some (.incr key), .done =>
      let (count, redis) := s.redis.incr (redisKey key)
      some (limiter.onCount { s with redis := redis } id key count)
    | some (.incr key), .raised => some (limiter.onException s id key)
    | _, _ => none
  | .expire id answer =>
    match s.calls id, answer with
    | some (.expire key count), .done =>
      some ({ s with redis := s.redis.expire (redisKey key) 60 s.now }.goto id
        (.returned (count ≤ limiter.capacity)))
    | some (.expire key _), .raised => some (limiter.onException s id key)
    | _, _ => none
  | .pass seconds =>
    if 0 ≤ seconds then
      some { s with now := s.now + seconds, redis := s.redis.left (s.now + seconds) }
    else none

/-- A run of the calls, from a state. -/
abbrev run (s : State) (events : List Event) : Option State :=
  Transitions.run limiter.step s events

/-! ## What a step does -/

/-- The call waits to set the expiry of a counter. -/
def State.Waits (s : State) (id : ℕ) (rk : String) : Prop :=
  ∃ key count, s.calls id = some (.expire key count) ∧ redisKey key = rk

/-- The call goes on, no longer waiting to set an expiry, and Redis is left alone. -/
structure Leaves (s : State) (id : ℕ) (s' : State) : Prop where
  redis_eq : s'.redis = s.redis
  now_eq : s'.now = s.now
  waits_iff : ∀ i rk, s'.Waits i rk ↔ s.Waits i rk ∧ i ≠ id

/-- What a step does to the counters, and to the calls that wait to set an expiry. -/
inductive Move (s : State) : Event → State → Prop
  /-- A call goes on that had no expiry to set. -/
  | quiet {e : Event} {id : ℕ} {s' : State} (hleaves : Leaves s id s')
      (hnot : ∀ rk, ¬ s.Waits id rk) (hevent : ∀ i, e ≠ .expire i .raised) : Move s e s'
  | made {id : ℕ} {rk : String} {s' : State} (hnone : s.redis rk = none)
      (hredis : s'.redis = s.redis.set rk ⟨1, none, Nat.one_pos⟩)
      (hnow : s'.now = s.now)
      (hwaits : ∀ i r, s'.Waits i r ↔ s.Waits i r ∨ i = id ∧ r = rk) :
      Move s (.incr id .done) s'
  | counted {id : ℕ} {rk : String} {c : Counter} {s' : State} (hsome : s.redis rk = some c)
      (hleaves : Leaves { s with
        redis := s.redis.set rk ⟨c.count + 1, c.expiry, Nat.succ_pos _⟩ } id s')
      (hnot : ∀ r, ¬ s.Waits id r) : Move s (.incr id .done) s'
  | expires {id : ℕ} {rk : String} {s' : State} (hwaits : s.Waits id rk)
      (hleaves : Leaves { s with redis := s.redis.expire rk 60 s.now } id s') :
      Move s (.expire id .done) s'
  | raised {id : ℕ} {rk : String} {s' : State} (hwaits : s.Waits id rk)
      (hleaves : Leaves s id s') : Move s (.expire id .raised) s'
  | passed {seconds : ℚ} (hnonneg : 0 ≤ seconds) :
      Move s (.pass seconds)
        { s with now := s.now + seconds, redis := s.redis.left (s.now + seconds) }

variable {limiter} {s s' : State} {id : ℕ} {key rk : String}

theorem waits_goto {call : Call} {i : ℕ} : (s.goto id call).Waits i rk ↔
    s.Waits i rk ∧ i ≠ id ∨
      i = id ∧ ∃ key count, call = .expire key count ∧ redisKey key = rk := by
  unfold State.Waits
  by_cases h : i = id
  · subst h
    simp
  · simp [h, State.goto_calls_of_ne h]

theorem leaves_goto {call : Call} (h : ∀ key count, call ≠ .expire key count) :
    Leaves s id (s.goto id call) := by
  refine ⟨rfl, rfl, fun i rk => ?_⟩
  rw [waits_goto]
  refine or_iff_left ?_
  rintro ⟨-, key, count, hcall, -⟩
  exact h key count hcall

theorem leaves_consumeLocally : Leaves s id (limiter.consumeLocally s id key) := by
  have hgoto : Leaves { s with buckets := (limiter.consume key s.now s.buckets).2 } id
      (limiter.consumeLocally s id key) := leaves_goto (by simp)
  exact ⟨hgoto.redis_eq, hgoto.now_eq, hgoto.waits_iff⟩

theorem leaves_onException : Leaves s id (limiter.onException s id key) := by
  unfold onException
  split
  · exact leaves_goto (by simp)
  · exact leaves_consumeLocally

theorem leaves_onCall : Leaves s id (limiter.onCall s id key) := by
  unfold onCall
  split
  · exact leaves_goto (by simp)
  · exact leaves_consumeLocally

theorem waits_of_calls {count : ℕ} (h : s.calls id = some (.expire key count)) :
    s.Waits id (redisKey key) :=
  ⟨key, count, h, rfl⟩

theorem not_waits_of_calls (h : ∀ key count, s.calls id ≠ some (.expire key count)) (rk : String) :
    ¬ s.Waits id rk := by
  rintro ⟨key, count, hcall, -⟩
  exact h key count hcall

/-- A call waits to set one expiry. -/
theorem waits_inj {rk' : String} (h : s.Waits id rk) (h' : s.Waits id rk') : rk = rk' := by
  obtain ⟨key, count, hcalls, rfl⟩ := h
  obtain ⟨key', count', hcalls', rfl⟩ := h'
  rw [hcalls] at hcalls'
  cases hcalls'
  rfl

/-- A call that has its count. -/
theorem move_incr (h : s.calls id = some (.incr key)) : Move s (.incr id .done)
    (limiter.onCount { s with redis := (s.redis.incr (redisKey key)).2 } id key
      (s.redis.incr (redisKey key)).1) := by
  cases hcounter : s.redis (redisKey key) with
  | none =>
    have hincr : s.redis.incr (redisKey key) =
        (1, s.redis.set (redisKey key) ⟨1, none, Nat.one_pos⟩) := by
      rw [Redis.incr, hcounter]
    rw [hincr]
    refine .made hcounter rfl rfl fun i r => ?_
    rw [onCount, if_pos rfl, waits_goto]
    refine or_congr (and_iff_left_of_imp ?_) (and_congr_right fun _ => ?_)
    · rintro hwaits rfl
      exact not_waits_of_calls (by simp [h]) r hwaits
    · constructor
      · rintro ⟨key', count, hcall, rfl⟩
        cases hcall
        rfl
      · rintro rfl
        exact ⟨key, 1, rfl, rfl⟩
  | some c =>
    have hincr : s.redis.incr (redisKey key) = (c.count + 1,
        s.redis.set (redisKey key) ⟨c.count + 1, c.expiry, Nat.succ_pos _⟩) := by
      rw [Redis.incr, hcounter]
    have hpos := c.count_pos
    rw [hincr]
    refine .counted hcounter ?_ (not_waits_of_calls (by simp [h]))
    rw [onCount, if_neg (by omega)]
    exact leaves_goto (by simp)

/-- **What a step does.** -/
theorem move_of_step {e : Event} (h : limiter.step s e = some s') : Move s e s' := by
  cases e with
  | call id key =>
    unfold step at h
    dsimp only at h
    split at h
    · rename_i hcalls
      cases h
      exact .quiet leaves_onCall (not_waits_of_calls (by simp [hcalls])) (by simp)
    · cases h
  | incr id answer =>
    unfold step at h
    dsimp only at h
    split at h
    · rename_i key hcalls
      cases h
      exact move_incr hcalls
    · rename_i key hcalls
      cases h
      exact .quiet leaves_onException (not_waits_of_calls (by simp [hcalls])) (by simp)
    · cases h
  | expire id answer =>
    unfold step at h
    dsimp only at h
    split at h
    · rename_i key count hcalls
      cases h
      exact .expires (waits_of_calls hcalls) (leaves_goto (by simp))
    · rename_i key count hcalls
      cases h
      exact .raised (waits_of_calls hcalls) leaves_onException
    · cases h
  | pass seconds =>
    unfold step at h
    dsimp only at h
    split at h
    · rename_i hnonneg
      cases h
      exact .passed hnonneg
    · cases h

/-! ## The counters of a run -/

/-- What holds in every run: a call that waits to set an expiry is the only one for its counter,
which has none yet, and no expiry is more than sixty seconds off. -/
structure Inv (s : State) : Prop where
  unset : ∀ id rk, s.Waits id rk → s.redis.expiries rk = some none
  unique : ∀ id id' rk, s.Waits id rk → s.Waits id' rk → id = id'
  window : ∀ rk e, s.redis.expiries rk = some (some e) → s.now < e ∧ e ≤ s.now + 60

theorem not_waits_start {now : ℚ} : ¬ (State.start now).Waits id rk := by
  rintro ⟨key, count, h, -⟩
  cases h

theorem inv_start (now : ℚ) : Inv (.start now) := by
  constructor
  · intro id rk h
    exact absurd h not_waits_start
  · intro id id' rk h
    exact absurd h not_waits_start
  · intro rk e h
    cases h

/-- A call that goes on leaves the others as they are. -/
theorem inv_leaves (hinv : Inv s) (hleaves : Leaves s id s') : Inv s' := by
  constructor
  · intro i rk hwaits
    rw [hleaves.redis_eq]
    exact hinv.unset i rk ((hleaves.waits_iff i rk).1 hwaits).1
  · intro i i' rk hwaits hwaits'
    exact hinv.unique i i' rk ((hleaves.waits_iff i rk).1 hwaits).1
      ((hleaves.waits_iff i' rk).1 hwaits').1
  · intro rk e he
    rw [hleaves.redis_eq] at he
    rw [hleaves.now_eq]
    exact hinv.window rk e he

theorem inv_made (hinv : Inv s) (hnone : s.redis rk = none)
    (hredis : s'.redis = s.redis.set rk ⟨1, none, Nat.one_pos⟩) (hnow : s'.now = s.now)
    (hwaits : ∀ i r, s'.Waits i r ↔ s.Waits i r ∨ i = id ∧ r = rk) : Inv s' := by
  have hfree : ∀ i, ¬ s.Waits i rk := by
    intro i hwaiting
    have hunset := hinv.unset i rk hwaiting
    rw [Redis.expiries, hnone] at hunset
    cases hunset
  constructor
  · intro i r hi
    rw [hredis, Redis.expiries_set]
    rcases (hwaits i r).1 hi with hwas | ⟨-, rfl⟩
    · have hne : r ≠ rk := fun h => hfree i (h ▸ hwas)
      rw [Function.update_of_ne hne]
      exact hinv.unset i r hwas
    · rw [Function.update_self]
  · intro i i' r hi hi'
    rcases (hwaits i r).1 hi with hwas | ⟨rfl, rfl⟩
    · rcases (hwaits i' r).1 hi' with hwas' | ⟨rfl, rfl⟩
      · exact hinv.unique i i' r hwas hwas'
      · exact absurd hwas (hfree i)
    · rcases (hwaits i' r).1 hi' with hwas' | ⟨rfl, -⟩
      · exact absurd hwas' (hfree i')
      · rfl
  · intro r e he
    rw [hredis, Redis.expiries_set] at he
    rw [hnow]
    by_cases hr : r = rk
    · subst hr
      rw [Function.update_self] at he
      cases he
    · rw [Function.update_of_ne hr] at he
      exact hinv.window r e he

theorem inv_counted (hinv : Inv s) {c : Counter} (hsome : s.redis rk = some c) :
    Inv { s with redis := s.redis.set rk ⟨c.count + 1, c.expiry, Nat.succ_pos _⟩ } := by
  refine ⟨?_, hinv.unique, ?_⟩
  · intro i r hi
    rw [Redis.expiries_count hsome]
    exact hinv.unset i r hi
  · intro r e he
    rw [Redis.expiries_count hsome] at he
    exact hinv.window r e he

theorem inv_expires (hinv : Inv s) (hwaits : s.Waits id rk)
    (hleaves : Leaves { s with redis := s.redis.expire rk 60 s.now } id s') : Inv s' := by
  have hexpiries : s'.redis.expiries =
      Function.update s.redis.expiries rk (some (some (s.now + 60))) := by
    rw [hleaves.redis_eq]
    exact Redis.expiries_expire (hinv.unset id rk hwaits)
  have hothers : ∀ i r, s'.Waits i r → s.Waits i r ∧ i ≠ id :=
    fun i r h => (hleaves.waits_iff i r).1 h
  constructor
  · intro i r hi
    obtain ⟨hwas, hne⟩ := hothers i r hi
    have hr : r ≠ rk := fun h => hne (hinv.unique i id rk (h ▸ hwas) hwaits)
    rw [hexpiries, Function.update_of_ne hr]
    exact hinv.unset i r hwas
  · intro i i' r hi hi'
    exact hinv.unique i i' r (hothers i r hi).1 (hothers i' r hi').1
  · intro r e he
    have hnow : s'.now = s.now := hleaves.now_eq
    rw [hexpiries] at he
    rw [hnow]
    by_cases hr : r = rk
    · subst hr
      rw [Function.update_self] at he
      cases he
      constructor
      · linarith
      · exact le_refl _
    · rw [Function.update_of_ne hr] at he
      exact hinv.window r e he

theorem inv_passed (hinv : Inv s) {seconds : ℚ} (hnonneg : 0 ≤ seconds) :
    Inv { s with now := s.now + seconds, redis := s.redis.left (s.now + seconds) } := by
  constructor
  · intro i r hi
    show (s.redis.left _).expiries r = _
    rw [Redis.expiries_left, hinv.unset i r hi]
    rfl
  · exact hinv.unique
  · intro r e he
    rw [Redis.expiries_left, Option.filter_eq_some_iff] at he
    obtain ⟨hset, hlater⟩ := he
    have hwindow := hinv.window r e hset
    constructor
    · simpa using hlater
    · show e ≤ s.now + seconds + 60
      linarith [hwindow.2]

/-- Every step keeps it. -/
theorem inv_step {e : Event} (hinv : Inv s) (h : limiter.step s e = some s') : Inv s' := by
  cases move_of_step h with
  | quiet hleaves hnot hevent => exact inv_leaves hinv hleaves
  | made hnone hredis hnow hwaits => exact inv_made hinv hnone hredis hnow hwaits
  | counted hsome hleaves hnot => exact inv_leaves (inv_counted hinv hsome) hleaves
  | expires hwaits hleaves => exact inv_expires hinv hwaits hleaves
  | raised hwaits hleaves => exact inv_leaves hinv hleaves
  | passed hnonneg => exact inv_passed hinv hnonneg

theorem inv_run {now : ℚ} {events : List Event} (h : limiter.run (.start now) events = some s) :
    Inv s :=
  Transitions.run_invariant (fun _ _ _ => inv_step) (inv_start now) h

/-! ## A counter whose expiry was not set -/

/-- A counter that has counted so far has no expiry, and no call waits to set one. -/
def State.Stranded (s : State) (rk : String) (n : ℕ) : Prop :=
  (∃ c, s.redis rk = some c ∧ c.expiry = none ∧ n ≤ c.count) ∧ ∀ id, ¬ s.Waits id rk

/-- A call whose `expire` raises strands its counter. -/
theorem stranded_of_raised (hinv : Inv s) (h : limiter.step s (.expire id .raised) = some s') :
    ∃ rk, s'.Stranded rk 0 := by
  cases move_of_step h with
  | quiet hleaves hnot hevent => exact absurd rfl (hevent id)
  | @raised _ rk _ hwaits hleaves =>
    obtain ⟨c, hc, hunset⟩ := Option.map_eq_some_iff.1 (hinv.unset id rk hwaits)
    refine ⟨rk, ⟨c, ?_, hunset, Nat.zero_le _⟩, fun i hi => ?_⟩
    · rw [hleaves.redis_eq]
      exact hc
    · obtain ⟨hwas, hne⟩ := (hleaves.waits_iff i rk).1 hi
      exact hne (hinv.unique i id rk hwas hwaits)

theorem stranded_leaves {n : ℕ} (hstranded : s.Stranded rk n) (hleaves : Leaves s id s') :
    s'.Stranded rk n := by
  refine ⟨?_, fun i hi => ?_⟩
  · rw [hleaves.redis_eq]
    exact hstranded.1
  · exact hstranded.2 i ((hleaves.waits_iff i rk).1 hi).1

theorem stranded_counted {n : ℕ} (hstranded : s.Stranded rk n) {counted : String} {c : Counter}
    (hsome : s.redis counted = some c) :
    State.Stranded
      { s with redis := s.redis.set counted ⟨c.count + 1, c.expiry, Nat.succ_pos _⟩ } rk n := by
  obtain ⟨⟨c', hc', hunset, hle⟩, hnot⟩ := hstranded
  refine ⟨?_, hnot⟩
  by_cases h : rk = counted
  · subst h
    rw [hsome] at hc'
    obtain rfl := Option.some.inj hc'
    exact ⟨_, Redis.set_self, hunset, Nat.le_succ_of_le hle⟩
  · exact ⟨c', (Redis.set_of_ne h).trans hc', hunset, hle⟩

theorem stranded_step {n : ℕ} {e : Event} (hstranded : s.Stranded rk n)
    (h : limiter.step s e = some s') : s'.Stranded rk n := by
  cases move_of_step h with
  | quiet hleaves hnot hevent => exact stranded_leaves hstranded hleaves
  | @made id made _ hnone hredis hnow hwaits =>
    obtain ⟨⟨c, hc, hunset, hle⟩, hnot⟩ := hstranded
    have hne : rk ≠ made := by
      rintro rfl
      rw [hnone] at hc
      cases hc
    refine ⟨⟨c, ?_, hunset, hle⟩, fun i hi => ?_⟩
    · rw [hredis, Redis.set_of_ne hne]
      exact hc
    · rcases (hwaits i rk).1 hi with hwas | ⟨-, rfl⟩
      · exact hnot i hwas
      · exact hne rfl
  | counted hsome hleaves hnot =>
    exact stranded_leaves (stranded_counted hstranded hsome) hleaves
  | @expires id set _ hwaits hleaves =>
    obtain ⟨⟨c, hc, hunset, hle⟩, hnot⟩ := hstranded
    have hne : rk ≠ set := fun h => hnot id (h ▸ hwaits)
    have hset : State.Stranded { s with redis := s.redis.expire set 60 s.now } rk n :=
      ⟨⟨c, (Redis.expire_of_ne hne).trans hc, hunset, hle⟩, hnot⟩
    exact stranded_leaves hset hleaves
  | raised hwaits hleaves => exact stranded_leaves hstranded hleaves
  | passed hnonneg =>
    obtain ⟨⟨c, hc, hunset, hle⟩, hnot⟩ := hstranded
    exact ⟨⟨c, Redis.left_of_unset hc hunset, hunset, hle⟩, hnot⟩

/-- **It is there for good**, and counts on. -/
theorem stranded_run {n : ℕ} {later : List Event} (hstranded : s.Stranded rk n)
    (h : limiter.run s later = some s') : s'.Stranded rk n :=
  Transitions.run_invariant (P := fun t => t.Stranded rk n) (fun _ _ _ => stranded_step)
    hstranded h

/-- **Locked out.**  Once a stranded counter has used up the capacity, however long from then,
every call that Redis answers is denied. -/
theorem locked_out {later : List Event} {m : State}
    (hstranded : s.Stranded (redisKey key) limiter.capacity)
    (hlater : limiter.run s later = some m) (hcalls : m.calls id = some (.incr key))
    (h : limiter.step m (.incr id .done) = some s') : s'.calls id = some (.returned false) := by
  obtain ⟨⟨c, hc, -, hle⟩, -⟩ := stranded_run hstranded hlater
  have hpos := c.count_pos
  unfold step at h
  simp only [hcalls, Redis.incr, hc, onCount] at h
  rw [if_neg (by omega)] at h
  obtain rfl := Option.some.inj h
  have hdenied : ¬ c.count + 1 ≤ limiter.capacity := by omega
  simp [hdenied]

/-! ## A counter whose expiry is set -/

/-- Every counter without an expiry has a call that waits to set it. -/
def State.Covered (s : State) : Prop :=
  ∀ rk, s.redis.expiries rk = some none → ∃ id, s.Waits id rk

theorem covered_leaves (hcovered : s.Covered) (hleaves : Leaves s id s')
    (hnot : ∀ rk, ¬ s.Waits id rk) : s'.Covered := by
  intro rk hunset
  rw [hleaves.redis_eq] at hunset
  obtain ⟨i, hi⟩ := hcovered rk hunset
  have hne : i ≠ id := fun h => hnot rk (h ▸ hi)
  exact ⟨i, (hleaves.waits_iff i rk).2 ⟨hi, hne⟩⟩

/-- The events at which no `expire` raises. -/
def Event.ExpireDone (e : Event) : Prop := ∀ id, e ≠ .expire id .raised

theorem covered_step {e : Event} (he : e.ExpireDone) (h : limiter.step s e = some s')
    (hinv : Inv s) (hcovered : s.Covered) : s'.Covered := by
  cases move_of_step h with
  | quiet hleaves hnot hevent => exact covered_leaves hcovered hleaves hnot
  | @made id made _ hnone hredis hnow hwaits =>
    intro rk hunset
    rw [hredis, Redis.expiries_set] at hunset
    by_cases hrk : rk = made
    · exact ⟨id, (hwaits id rk).2 (Or.inr ⟨rfl, hrk⟩)⟩
    · rw [Function.update_of_ne hrk] at hunset
      obtain ⟨i, hi⟩ := hcovered rk hunset
      exact ⟨i, (hwaits i rk).2 (Or.inl hi)⟩
  | @counted id counted c _ hsome hleaves hnot =>
    have hcounted : State.Covered { s with
        redis := s.redis.set counted ⟨c.count + 1, c.expiry, Nat.succ_pos _⟩ } := by
      intro rk hunset
      rw [Redis.expiries_count hsome] at hunset
      exact hcovered rk hunset
    exact covered_leaves hcounted hleaves hnot
  | @expires id set _ hwaits hleaves =>
    intro rk hunset
    rw [hleaves.redis_eq] at hunset
    change (s.redis.expire set 60 s.now).expiries rk = some none at hunset
    rw [Redis.expiries_expire (hinv.unset id set hwaits)] at hunset
    by_cases hrk : rk = set
    · subst hrk
      rw [Function.update_self] at hunset
      cases hunset
    · rw [Function.update_of_ne hrk] at hunset
      obtain ⟨i, hi⟩ := hcovered rk hunset
      have hne : i ≠ id := fun h => hrk (waits_inj (h ▸ hi) hwaits)
      exact ⟨i, (hleaves.waits_iff i rk).2 ⟨hi, hne⟩⟩
  | raised hwaits hleaves => exact absurd rfl (he _)
  | passed hnonneg =>
    intro rk hunset
    change (s.redis.left _).expiries rk = some none at hunset
    rw [Redis.expiries_left, Option.filter_eq_some_iff] at hunset
    exact hcovered rk hunset.1

theorem covered_run {now : ℚ} {events : List Event} (hdone : ∀ e ∈ events, e.ExpireDone)
    (h : limiter.run (.start now) events = some s) : s.Covered := by
  have hstart : Inv (.start now) ∧ (State.start now).Covered :=
    ⟨inv_start now, fun rk hunset => by cases hunset⟩
  refine (Transitions.run_keeps (P := fun t => Inv t ∧ t.Covered) ?_ hdone hstart h).2
  intro t e t' he ht hstep
  exact ⟨inv_step ht.1 hstep, covered_step he hstep ht.1 ht.2⟩

/-- An expiry stays as it is until the counter is gone. -/
theorem expiry_step {e : Event} {expiry : ℚ} (hset : s.redis.expiries rk = some (some expiry))
    (hinv : Inv s) (h : limiter.step s e = some s') :
    s'.redis.expiries rk = some (some expiry) ∨ s'.redis rk = none := by
  cases move_of_step h with
  | quiet hleaves hnot hevent =>
    left
    rw [hleaves.redis_eq]
    exact hset
  | @made id made _ hnone hredis hnow hwaits =>
    left
    have hne : rk ≠ made := by
      rintro rfl
      rw [Redis.expiries, hnone] at hset
      cases hset
    rw [hredis, Redis.expiries_set, Function.update_of_ne hne]
    exact hset
  | counted hsome hleaves hnot =>
    left
    rw [hleaves.redis_eq]
    show (s.redis.set _ _).expiries rk = _
    rw [Redis.expiries_count hsome]
    exact hset
  | @expires id set _ hwaits hleaves =>
    left
    have hunset := hinv.unset id set hwaits
    have hne : rk ≠ set := by
      rintro rfl
      rw [hset] at hunset
      cases hunset
    rw [hleaves.redis_eq]
    show (s.redis.expire set 60 s.now).expiries rk = _
    rw [Redis.expiries_expire hunset, Function.update_of_ne hne]
    exact hset
  | raised hwaits hleaves =>
    left
    rw [hleaves.redis_eq]
    exact hset
  | @passed seconds hnonneg =>
    show (s.redis.left (s.now + seconds)).expiries rk = _ ∨ s.redis.left (s.now + seconds) rk = none
    by_cases hlater : s.now + seconds < expiry
    · left
      rw [Redis.expiries_left, hset]
      simp [hlater]
    · right
      have hgone : (s.redis.left (s.now + seconds)).expiries rk = none := by
        rw [Redis.expiries_left, hset]
        simp [not_lt.1 hlater]
      exact Option.map_eq_none_iff.1 hgone

/-- A run that goes on until an expiry passes a moment at which the counter is gone. -/
theorem gone_run {expiry : ℚ} {later : List Event}
    (hset : s.redis.expiries rk = some (some expiry)) (hinv : Inv s)
    (h : limiter.run s later = some s') (hlate : expiry ≤ s'.now) :
    ∃ before, before <+: later ∧ ∃ m, limiter.run s before = some m ∧ m.redis rk = none := by
  have hrun := Transitions.run_unless
    (P := fun t => t.redis.expiries rk = some (some expiry) ∧ Inv t)
    (Q := fun t => t.redis rk = none) ?_ ⟨hset, hinv⟩ h
  · rcases hrun with ⟨hstill, hinv'⟩ | hgone
    · have hwindow := hinv'.window rk expiry hstill
      exact absurd hwindow.1 (not_lt.2 hlate)
    · exact hgone
  · intro t e t' ht hstep
    exact (expiry_step ht.1 ht.2 hstep).imp_left fun hstill => ⟨hstill, inv_step ht.2 hstep⟩

/-! ## When the counters expire -/

/-- Every counter has an expiry: sixty seconds after its window opened it has been gone, whatever
the calls do in the meantime. -/
def Expires (limiter : DistributedLimiter) (s : State) : Prop :=
  ∀ rk c, s.redis rk = some c → ∃ opened ≤ s.now, c.expiry = some (opened + 60) ∧
    ∀ later s', limiter.run s later = some s' → opened + 60 ≤ s'.now →
      ∃ before, before <+: later ∧ ∃ m, limiter.run s before = some m ∧ m.redis rk = none

theorem not_waits_of_idle (hidle : s.Idle) : ¬ s.Waits id rk := by
  rintro ⟨key, count, hcall, -⟩
  obtain ⟨allowed, hreturned⟩ := hidle id _ hcall
  cases hreturned

/-- **When the counters expire**, for every run at whose end no call is in progress: if no
`expire` raises in it. -/
theorem expires_iff (limiter : DistributedLimiter) (now : ℚ) (events : List Event) (s : State)
    (hrun : limiter.run (.start now) events = some s) (hidle : s.Idle) :
    Expires limiter s ↔ ∀ id, .expire id .raised ∉ events := by
  have hinv := inv_run hrun
  constructor
  · intro hexpires id hraised
    obtain ⟨before, m, m', after, -, hbefore, hstep, hafter⟩ :=
      Transitions.run_split hraised hrun
    obtain ⟨rk, hstranded⟩ := stranded_of_raised (inv_run hbefore) hstep
    obtain ⟨⟨c, hc, hunset, -⟩, -⟩ := stranded_run hstranded hafter
    obtain ⟨opened, -, hset, -⟩ := hexpires rk c hc
    rw [hset] at hunset
    cases hunset
  · intro hdone rk c hc
    have hcovered : s.Covered :=
      covered_run (fun e he id heq => hdone id (heq ▸ he)) hrun
    have hexpiry : s.redis.expiries rk = some c.expiry := by
      rw [Redis.expiries, hc]
      rfl
    cases hset : c.expiry with
    | none =>
      rw [hset] at hexpiry
      obtain ⟨id, hwaits⟩ := hcovered rk hexpiry
      exact absurd hwaits (not_waits_of_idle hidle)
    | some e =>
      rw [hset] at hexpiry
      obtain ⟨-, hle⟩ := hinv.window rk e hexpiry
      refine ⟨e - 60, by linarith, by rw [sub_add_cancel], fun later s' hlater hlate => ?_⟩
      exact gone_run hexpiry hinv hlater (by linarith)

/-- The limiter of the application in production. -/
def productionLimiter : DistributedLimiter :=
  { RateLimiter.defaultLimiter with hasRedis := true, isProduction := true }

def userKey : String := "t1:user_1:10.0.0.1:/api/v1/chats"

/-- The only call returns. -/
theorem idle_goto {allowed : Bool} (h : ∀ i, i ≠ id → s.calls i = none) :
    (s.goto id (.returned allowed)).Idle := by
  intro i call hcall
  by_cases hi : i = id
  · subst hi
    rw [State.goto_calls_self] at hcall
    exact ⟨allowed, (Option.some.inj hcall).symm⟩
  · rw [State.goto_calls_of_ne hi, h i hi] at hcall
    cases hcall

/-- One request: its counter expires. -/
theorem productionLimiter_expires : ∃ s, productionLimiter.run (.start 0)
      [.call 0 userKey, .incr 0 .done, .expire 0 .done] = some s ∧
    Expires productionLimiter s := by
  have hrun : productionLimiter.run (.start 0)
      [.call 0 userKey, .incr 0 .done, .expire 0 .done] = some _ := rfl
  refine ⟨_, hrun, (expires_iff productionLimiter 0 _ _ hrun ?_).2 (by simp)⟩
  refine idle_goto fun i hi => ?_
  simp [onCount, onCall, productionLimiter, State.goto, State.start, hi]

/-- One request, and the connection to Redis is lost between the two commands. -/
theorem productionLimiter_not_expires : ∃ s, productionLimiter.run (.start 0)
      [.call 0 userKey, .incr 0 .done, .expire 0 .raised] = some s ∧
    s.Idle ∧ ¬ Expires productionLimiter s := by
  refine ⟨_, rfl, ?_, ?_⟩
  · refine idle_goto fun i hi => ?_
    simp [onCount, onCall, productionLimiter, State.goto, State.start, hi]
  · intro hexpires
    have hcounter : Redis.set (fun _ => none) (redisKey userKey) ⟨1, none, Nat.one_pos⟩
        (redisKey userKey) = some ⟨1, none, Nat.one_pos⟩ := Redis.set_self
    obtain ⟨opened, -, hset, -⟩ := hexpires (redisKey userKey) _ hcounter
    cases hset

end DistributedLimiter

end AgentPlatform
