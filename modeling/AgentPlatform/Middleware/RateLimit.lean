import AgentPlatform.Api.Dependencies
import AgentPlatform.Middleware.LocalLimiter

/-!
# The rate limiter in one process

A request is let through if the bucket of its key has a whole token.  The key is made of
the tenant and the user the request is authenticated as, of where it says it comes from,
and of its path.

* `RateLimiter.consume`, `RateLimiter.enforce` — the limiter, which calls `_consume` with the key
  of a request.
* `RateLimiter.run` — requests at given times.
* `run_filter` — what a run does to one key is a run of that key's bucket.
* `admitted_le_of_client` — **the bound on a principal**, while its requests say they come from
  one place.
* `bounds_iff` — **when the limit binds a principal**: only if they can say nothing else.
-/

namespace AgentPlatform

/-- What the limiter reads of a request. -/
structure HttpRequest where
  /-- `request.state.tenant_id` and `request.state.user_id`, where they are set. -/
  tenantId : Option String := none
  userId : Option String := none
  /-- The header `X-Forwarded-For`. -/
  forwardedFor : Option String := none
  /-- `request.client.host` -/
  host : Option String := none
  path : String

namespace HttpRequest

variable (rt : PyRuntime) (request : HttpRequest)

def tenant : String := request.tenantId.getD "anon"

def user : String := request.userId.getD "anon"

/-- Where the request says it comes from. -/
def client : String :=
  let first := rt.strip (String.ofList
    ((request.forwardedFor.getD "").toList.takeWhile fun c => c ≠ ','))
  if first ≠ "" then first else request.host.getD "unknown"

/-- The request is of the tenant and the user, for the path. -/
def isOf (tenant user path : String) : Bool :=
  request.tenant = tenant && request.user = user && request.path = path

/-- The key of the request's bucket. -/
def key : String :=
  s!"{request.tenant}:{request.user}:{request.client rt}:{request.path}"

end HttpRequest

/-- A limiter; it is never made with a negative refill. -/
structure RateLimiter where
  capacity : ℕ
  refillPerSec : ℚ
  refill_nonneg : 0 ≤ refillPerSec

namespace RateLimiter

variable (limiter : RateLimiter)

/-- The limiter, with its capacity as a number of tokens. -/
def inProcess : LocalLimiter := ⟨limiter.capacity, limiter.refillPerSec⟩

/-- `_consume` at a time -/
def consume (key : String) (now : ℚ) (buckets : Buckets) : Bool × Buckets :=
  limiter.inProcess.consume key now buckets

def rateLimited : ApiError := .http 429 "rate limit exceeded"

/-- `enforce`, up to the call of the next handler -/
def enforce (rt : PyRuntime) (request : HttpRequest) (now : ℚ) (buckets : Buckets) :
    Except ApiError Unit × Buckets :=
  let (allowed, buckets') := limiter.consume (request.key rt) now buckets
  (if allowed then .ok () else .error rateLimited, buckets')

/-- A request at a time. -/
structure Arrival where
  time : ℚ
  request : HttpRequest

/-- The requests in order, each with whether it is let through. -/
def run (rt : PyRuntime) (buckets : Buckets) : List Arrival → List (Arrival × Bool)
  | [] => []
  | a :: later =>
    let (result, buckets') := limiter.enforce rt a.request a.time buckets
    (a, result.isOk) :: run rt buckets' later

/-! ## One key of a run -/

/-- The call of `_consume` a request comes to. -/
def Arrival.call (rt : PyRuntime) (a : Arrival) : LocalLimiter.Call := ⟨a.request.key rt, a.time⟩

variable {limiter} {rt : PyRuntime} {buckets : Buckets} {key : String}

theorem bucket_nonneg (limiter : RateLimiter) : limiter.inProcess.bucket.Nonneg :=
  ⟨Nat.cast_nonneg _, limiter.refill_nonneg⟩

theorem run_cons (a : Arrival) (later : List Arrival) :
    limiter.run rt buckets (a :: later) =
      (a, (limiter.consume (a.request.key rt) a.time buckets).1) ::
        limiter.run rt (limiter.consume (a.request.key rt) a.time buckets).2 later := by
  rw [run, enforce]
  cases limiter.consume (a.request.key rt) a.time buckets with
  | mk allowed buckets' => cases allowed <;> rfl

/-- A run of requests is a run of the calls they come to. -/
theorem run_map_call (arrivals : List Arrival) :
    (limiter.run rt buckets arrivals).map (fun o => (o.1.call rt, o.2)) =
      limiter.inProcess.run buckets (arrivals.map (Arrival.call rt)) := by
  induction arrivals generalizing buckets with
  | nil => rfl
  | cons a later ih =>
    rw [run_cons, List.map_cons, ih]
    rfl

/-- **What a run does to one key** is a run of that key's bucket. -/
theorem run_filter (arrivals : List Arrival) :
    ((limiter.run rt buckets arrivals).filter fun o => o.1.request.key rt = key).map
        (fun o => (o.1.time, o.2)) =
      limiter.inProcess.bucket.run (LocalLimiter.level (buckets key))
        ((arrivals.filter fun a => a.request.key rt = key).map Arrival.time) := by
  have hcalls : ((limiter.inProcess.run buckets (arrivals.map (Arrival.call rt))).filter
      fun o => o.1.key = key).map (fun o => (o.1.time, o.2)) = _ := LocalLimiter.run_filter _
  rw [← run_map_call, List.filter_map, List.filter_map, List.map_map, List.map_map] at hcalls
  exact hcalls

/-- The same from buckets nobody has looked at. -/
theorem run_filter_fresh (limiter : RateLimiter) (rt : PyRuntime) (key : String)
    (arrivals : List Arrival) :
    ((limiter.run rt (fun _ => none) arrivals).filter fun o => o.1.request.key rt = key).map
        (fun o => (o.1.time, o.2)) =
      limiter.inProcess.bucket.run none
        ((arrivals.filter fun a => a.request.key rt = key).map Arrival.time) :=
  run_filter arrivals

theorem run_arrivals (arrivals : List Arrival) :
    (limiter.run rt buckets arrivals).map Prod.fst = arrivals := by
  induction arrivals generalizing buckets with
  | nil => rfl
  | cons a later ih => rw [run_cons, List.map_cons, ih]

/-! ## The bound on a principal -/

/-- How many requests of a principal for a path are let through in an interval. -/
def admittedIn (tenant user path : String) (start length : ℚ) (outcomes : List (Arrival × Bool)) :
    ℕ :=
  outcomes.countP fun o => o.1.request.isOf tenant user path &&
    (o.2 && decide (start ≤ o.1.time) && decide (o.1.time ≤ start + length))

/-- The limit binds the principal on the path: in any interval, at any length, no more requests
are let through than the capacity and what is refilled. -/
def Binds (limiter : RateLimiter) (tenant user path : String) (outcomes : List (Arrival × Bool)) :
    Prop :=
  ∀ start length, 0 ≤ length → (admittedIn tenant user path start length outcomes : ℚ) ≤
    limiter.capacity + limiter.refillPerSec * length

/-- The bound on a key, from buckets nobody has looked at. -/
theorem countP_key_le (limiter : RateLimiter) (rt : PyRuntime) {arrivals : List Arrival}
    (hsorted : (arrivals.map Arrival.time).Pairwise (· ≤ ·)) (key : String) (start length : ℚ)
    (hlength : 0 ≤ length) :
    ((limiter.run rt (fun _ => none) arrivals).countP (fun o => o.1.request.key rt = key &&
        (o.2 && decide (start ≤ o.1.time) && decide (o.1.time ≤ start + length))) : ℚ) ≤
      limiter.capacity + limiter.refillPerSec * length := by
  have hrun := run_filter_fresh limiter rt key arrivals
  have htimes : ((arrivals.filter fun a => a.request.key rt = key).map Arrival.time).Pairwise
      (· ≤ ·) := hsorted.sublist (List.filter_sublist.map _)
  have hbound := TokenBucket.countP_run_le_fresh limiter.bucket_nonneg htimes start length hlength
  rw [← hrun, List.countP_map, List.countP_filter] at hbound
  refine le_trans (le_of_eq ?_) hbound
  congr 1
  refine List.countP_congr fun o _ => ?_
  simp [and_comm]

/-- A request of the principal has the key of where it says it comes from. -/
theorem key_of_isOf {request : HttpRequest} {tenant user path : String}
    (h : request.isOf tenant user path = true) :
    request.key rt = s!"{tenant}:{user}:{request.client rt}:{path}" := by
  simp only [HttpRequest.isOf, Bool.and_eq_true, decide_eq_true_eq] at h
  obtain ⟨⟨rfl, rfl⟩, rfl⟩ := h
  rfl

/-- **The bound on a principal**, while its requests say they come from one place. -/
theorem binds_of_client {arrivals : List Arrival} {tenant user path client : String}
    (hsorted : (arrivals.map Arrival.time).Pairwise (· ≤ ·))
    (hclient : ∀ a ∈ arrivals, a.request.isOf tenant user path = true →
      a.request.client rt = client) :
    Binds limiter tenant user path (limiter.run rt (fun _ => none) arrivals) := by
  intro start length hlength
  refine le_trans (Nat.cast_le.2 ?_)
    (countP_key_le limiter rt hsorted s!"{tenant}:{user}:{client}:{path}" start length hlength)
  refine List.countP_mono_left fun o ho hcounted => ?_
  rw [Bool.and_eq_true] at hcounted ⊢
  refine ⟨?_, hcounted.2⟩
  have harrived : o.1 ∈ arrivals := by
    have hmem := List.mem_map_of_mem (f := Prod.fst) ho
    rwa [run_arrivals] at hmem
  rw [key_of_isOf hcounted.1, hclient o.1 harrived hcounted.1]
  exact decide_eq_true rfl

/-! ## When the limit binds -/

/-- Nothing is let through without capacity. -/
theorem not_admitted_of_capacity_zero (h : limiter.capacity = 0) {arrivals : List Arrival}
    {o : Arrival × Bool} (ho : o ∈ limiter.run rt buckets arrivals) : o.2 = false := by
  induction arrivals generalizing buckets with
  | nil => cases ho
  | cons a later ih =>
    rw [run_cons] at ho
    rcases List.mem_cons.1 ho with rfl | hlater
    · have hfull : limiter.inProcess.bucket.filled
          (LocalLimiter.level (buckets (a.request.key rt))) a.time ≤ 0 := by
        refine TokenBucket.filled_le_capacity.trans ?_
        simp [inProcess, LocalLimiter.bucket, h]
      rw [consume, LocalLimiter.consume_eq, TokenBucket.consume, if_neg (by linarith)]
    · exact ih hlater

theorem binds_of_capacity_zero (h : limiter.capacity = 0) (tenant user path : String)
    (arrivals : List Arrival) :
    Binds limiter tenant user path (limiter.run rt (fun _ => none) arrivals) := by
  intro start length hlength
  have hnone : admittedIn tenant user path start length
      (limiter.run rt (fun _ => none) arrivals) = 0 := by
    rw [admittedIn, List.countP_eq_zero]
    intro o ho
    simp [not_admitted_of_capacity_zero h ho]
  have hrefill : 0 ≤ limiter.refillPerSec * length := mul_nonneg limiter.refill_nonneg hlength
  have hcapacity : (0 : ℚ) ≤ limiter.capacity := Nat.cast_nonneg _
  rw [hnone, Nat.cast_zero]
  linarith

/-- Where requests of a principal say they come from can be read off their keys. -/
theorem client_of_key {r r' : HttpRequest} {tenant user path : String}
    (hr : r.isOf tenant user path = true) (hr' : r'.isOf tenant user path = true)
    (h : r.key rt = r'.key rt) : r.client rt = r'.client rt := by
  rw [key_of_isOf hr, key_of_isOf hr'] at h
  have hchars := congrArg String.toList h
  simp only [toString, String.toList_append, List.append_assoc, List.append_cancel_left_eq,
    List.append_cancel_right_eq] at hchars
  exact String.toList_injective hchars

/-- As many requests as there is capacity, and one more from elsewhere, all at once. -/
def burst (n : ℕ) (r r' : HttpRequest) : List Arrival :=
  List.replicate n ⟨0, r⟩ ++ [⟨0, r'⟩]

theorem mem_burst {n : ℕ} {r r' : HttpRequest} {a : Arrival} (h : a ∈ burst n r r') :
    a.time = 0 ∧ (a.request = r ∨ a.request = r') := by
  rcases List.mem_append.1 h with hmem | hmem
  · rw [List.eq_of_mem_replicate hmem]
    exact ⟨rfl, Or.inl rfl⟩
  · rw [List.mem_singleton.1 hmem]
    exact ⟨rfl, Or.inr rfl⟩

/-- One key of a burst is a burst of its bucket. -/
theorem burst_filter {n : ℕ} {r r' : HttpRequest} (h : r.key rt ≠ r'.key rt) {a : Arrival}
    (ha : a ∈ burst n r r') :
    ((burst n r r').filter fun a' => a'.request.key rt = a.request.key rt).map Arrival.time =
        List.replicate n 0 ∨
      ((burst n r r').filter fun a' => a'.request.key rt = a.request.key rt).map Arrival.time =
        List.replicate 1 0 := by
  rcases (mem_burst ha).2 with heq | heq
  · left
    rw [heq]
    simp [burst, List.filter_append, Ne.symm h]
  · right
    rw [heq]
    simp [burst, List.filter_append, h]

/-- A burst is let through as a whole. -/
theorem burst_admitted {n : ℕ} {r r' : HttpRequest} (hn : n ≤ limiter.capacity)
    (hone : 1 ≤ limiter.capacity) (h : r.key rt ≠ r'.key rt) {o : Arrival × Bool}
    (ho : o ∈ limiter.run rt (fun _ => none) (burst n r r')) : o.2 = true := by
  have harrived : o.1 ∈ burst n r r' := by
    have hmem := List.mem_map_of_mem (f := Prod.fst) ho
    rwa [run_arrivals] at hmem
  have hkey : (o.1.time, o.2) ∈ limiter.inProcess.bucket.run none (((burst n r r').filter
      fun a => a.request.key rt = o.1.request.key rt).map Arrival.time) := by
    rw [← run_filter_fresh]
    exact List.mem_map.2 ⟨o, List.mem_filter.2 ⟨ho, by simp⟩, rfl⟩
  have hall : ∀ m ≤ limiter.capacity, (o.1.time, o.2) ∈
      limiter.inProcess.bucket.run none (List.replicate m 0) → o.2 = true := by
    intro m hm hmem
    rw [TokenBucket.run_replicate (show (m : ℚ) ≤ limiter.capacity from Nat.cast_le.2 hm)] at hmem
    exact congrArg Prod.snd (List.eq_of_mem_replicate hmem)
  rcases burst_filter h harrived with htimes | htimes
  · rw [htimes] at hkey
    exact hall n hn hkey
  · rw [htimes] at hkey
    exact hall 1 hone hkey

/-- A burst from two places goes beyond the limit. -/
theorem not_binds_burst {r r' : HttpRequest} {tenant user path : String}
    (hr : r.isOf tenant user path = true) (hr' : r'.isOf tenant user path = true)
    (hone : 1 ≤ limiter.capacity) (hne : r.client rt ≠ r'.client rt) :
    ¬ Binds limiter tenant user path
      (limiter.run rt (fun _ => none) (burst limiter.capacity r r')) := by
  intro hbinds
  have hkey : r.key rt ≠ r'.key rt := fun h => hne (client_of_key hr hr' h)
  have hcount : admittedIn tenant user path 0 0
      (limiter.run rt (fun _ => none) (burst limiter.capacity r r')) = limiter.capacity + 1 := by
    have hlength : (limiter.run rt (fun _ => none) (burst limiter.capacity r r')).length =
        limiter.capacity + 1 := by
      rw [← List.length_map (f := Prod.fst), run_arrivals]
      simp [burst]
    rw [admittedIn, ← hlength, List.countP_eq_length]
    intro o ho
    have harrived : o.1 ∈ burst limiter.capacity r r' := by
      have hmem := List.mem_map_of_mem (f := Prod.fst) ho
      rwa [run_arrivals] at hmem
    obtain ⟨htime, hrequest⟩ := mem_burst harrived
    have hof : o.1.request.isOf tenant user path = true := by
      rcases hrequest with heq | heq
      · rw [heq]
        exact hr
      · rw [heq]
        exact hr'
    simp [hof, burst_admitted (le_refl _) hone hkey ho, htime]
  have hbound := hbinds 0 0 (le_refl _)
  rw [hcount, mul_zero, add_zero, Nat.cast_succ] at hbound
  linarith

/-- **When the limit binds a principal**, over every run of requests of a kind: there is no
capacity, or its requests of that kind all say they come from one place. -/
theorem bounds_iff (limiter : RateLimiter) (rt : PyRuntime) (tenant user path : String)
    (requests : Set HttpRequest) :
    (∀ arrivals : List Arrival, (arrivals.map Arrival.time).Pairwise (· ≤ ·) →
        (∀ a ∈ arrivals, a.request ∈ requests) →
        Binds limiter tenant user path (limiter.run rt (fun _ => none) arrivals)) ↔
      limiter.capacity = 0 ∨
        ∀ r ∈ requests, ∀ r' ∈ requests, r.isOf tenant user path = true →
          r'.isOf tenant user path = true → r.client rt = r'.client rt := by
  constructor
  · intro hbinds
    refine or_iff_not_imp_left.2 fun hcapacity r hmem r' hmem' hr hr' => by_contra fun hne => ?_
    have hone : 1 ≤ limiter.capacity := Nat.one_le_iff_ne_zero.2 hcapacity
    refine not_binds_burst hr hr' hone hne (hbinds _ ?_ fun a ha => ?_)
    · have htimes : (burst limiter.capacity r r').map Arrival.time =
          List.replicate (limiter.capacity + 1) 0 := by
        simp [burst, List.replicate_succ']
      rw [htimes]
      exact List.pairwise_replicate.2 (Or.inr (le_refl _))
    · rcases (mem_burst ha).2 with heq | heq
      · rw [heq]
        exact hmem
      · rw [heq]
        exact hmem'
  · rintro (hcapacity | hone) arrivals hsorted hrequests
    · exact binds_of_capacity_zero hcapacity tenant user path arrivals
    · by_cases hsome : ∃ a ∈ arrivals, a.request.isOf tenant user path = true
      · obtain ⟨a, ha, hof⟩ := hsome
        exact binds_of_client hsorted fun a' ha' hof' =>
          hone a'.request (hrequests a' ha') a.request (hrequests a ha) hof' hof
      · have hnone : ∀ a ∈ arrivals, a.request.isOf tenant user path = true →
            a.request.client rt = "" :=
          fun a ha hof => absurd ⟨a, ha, hof⟩ hsome
        exact binds_of_client hsorted hnone

/-- The limiter of the application. -/
def defaultLimiter : RateLimiter := ⟨60, 10, by norm_num⟩

/-- A request to the chat endpoint that says it comes from an address. -/
def chatFrom (address : String) : HttpRequest where
  tenantId := some "t1"
  userId := some "user_1"
  forwardedFor := some address
  host := some "10.0.0.9"
  path := "/api/v1/chats"

/-- Sixty-one requests at once, by a user who changes a header once. -/
theorem defaultLimiter_not_binds : ∃ arrivals : List Arrival,
    (arrivals.map Arrival.time).Pairwise (· ≤ ·) ∧
      ¬ Binds defaultLimiter "t1" "user_1" "/api/v1/chats"
        (defaultLimiter.run .ascii (fun _ => none) arrivals) := by
  refine ⟨burst 60 (chatFrom "10.0.0.1") (chatFrom "10.0.0.2"), ?_, ?_⟩
  · have htimes : (burst 60 (chatFrom "10.0.0.1") (chatFrom "10.0.0.2")).map Arrival.time =
        List.replicate 61 0 := by
      simp [burst, List.replicate_succ']
    rw [htimes]
    exact List.pairwise_replicate.2 (Or.inr (le_refl _))
  · exact not_binds_burst (by decide) (by decide) (by decide) (by decide)

end RateLimiter

end AgentPlatform
