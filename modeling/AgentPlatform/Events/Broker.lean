import AgentPlatform.Lib.Interleaving
import AgentPlatform.Security.Pii

/-!
# The event broker in one process

Publishing an event calls the consumers of its topic, each in a thread that is waited for, while
others publish and subscribe.  The list of consumers that is gone through is the one the registry
has, so that who subscribes in the meantime is called as well.

* `DomainEvent.topic`, `emitDomainEvent` — the events, and how the services make them.
* `broker` — publications and subscriptions in progress, over one registry.
* `calls`, `told` — the calls of a run, and those of one publication.
* `publish_delivers` — **what is delivered**, in every run: a publication calls the consumers of
  its topic in the order of their subscription, each once, and leaves none out that had subscribed
  when it began, unless one of them raises.
-/

namespace AgentPlatform

open Interleaving

/-! ## Events -/

inductive EventType where
  | customerCreated
  | customerUpdated
  | kycCompleted
  | kycRejected
  | transactionCreated
  | transactionFlagged
  | fraudDetected
  | loanApplicationCreated
  | loanApproved
  | loanRejected
  | loanDisbursed
  | documentUploaded
  | documentIndexed
  | agentExecuted
  | humanApprovalRequested
  | humanApprovalResolved
  | complianceAlertCreated
  | sanctionsHit
  deriving DecidableEq

def EventType.value : EventType → String
  | customerCreated => "customer.created.v1"
  | customerUpdated => "customer.updated.v1"
  | kycCompleted => "kyc.completed.v1"
  | kycRejected => "kyc.rejected.v1"
  | transactionCreated => "transaction.created.v1"
  | transactionFlagged => "transaction.flagged.v1"
  | fraudDetected => "fraud.detected.v1"
  | loanApplicationCreated => "loan.application.created.v1"
  | loanApproved => "loan.approved.v1"
  | loanRejected => "loan.rejected.v1"
  | loanDisbursed => "loan.disbursed.v1"
  | documentUploaded => "document.uploaded.v1"
  | documentIndexed => "document.indexed.v1"
  | agentExecuted => "agent.executed.v1"
  | humanApprovalRequested => "approval.requested.v1"
  | humanApprovalResolved => "approval.resolved.v1"
  | complianceAlertCreated => "compliance.alert.created.v1"
  | sanctionsHit => "sanctions.hit.v1"

structure DomainEvent where
  eventId : String
  eventType : EventType
  version : ℕ := 1
  tenantId : String
  institutionId : Option String := none
  correlationId : String
  producer : String
  occurredAt : String
  payload : Dict := []

/-- `self.event_type.value.split(".")[0]` -/
def DomainEvent.topic (e : DomainEvent) : String :=
  String.ofList (e.eventType.value.toList.takeWhile fun c => c ≠ '.')

/-- The event of `emit_domain_event`, with a new id and the time: its payload is masked. -/
def emitDomainEvent (rt : PyRuntime) (eventId occurredAt : String) (eventType : EventType)
    (tenantId correlationId producer : String) (institutionId : Option String)
    (payload : Option Dict) : DomainEvent where
  eventId := eventId
  eventType := eventType
  tenantId := tenantId
  institutionId := institutionId
  correlationId := correlationId
  producer := producer
  occurredAt := occurredAt
  payload := maskPayload rt (payload.getD [])

/-! ## Publications and subscriptions -/

section Broker

variable {C : Type}

/-- `_consumers` -/
abbrev Consumers (C : Type) := String → Option (List C)

namespace Consumers

/-- `_consumers.get(topic, [])` -/
def of (consumers : Consumers C) (topic : String) : List C := (consumers topic).getD []

/-- `_consumers.setdefault(topic, []).append(fn)` -/
def subscribe (consumers : Consumers C) (topic : String) (fn : C) : Consumers C :=
  Function.update consumers topic (some (consumers.of topic ++ [fn]))

end Consumers

/-- What is started: a subscription, or a publication and which of its calls raise. -/
inductive BrokerTask (C : Type) where
  | subscribe (topic : String) (fn : C)
  | publish (event : DomainEvent) (raises : ℕ → Bool)

/-- How far a task is. -/
inductive BrokerTask.Phase where
  | created
  /-- It waits for the call of that number. -/
  | calling (k : ℕ)
  | finished
  | raised
  deriving DecidableEq

structure Publication (C : Type) where
  task : BrokerTask C
  phase : BrokerTask.Phase

namespace Publication

/-- The `for` goes on with the consumer of a number, if there is one. -/
def next (consumers : List C) (k : ℕ) : BrokerTask.Phase :=
  if k < consumers.length then .calling k else .finished

/-- From one `await` to the next: `subscribe`, `LocalEventBroker.publish` -/
def resume (p : Publication C) (consumers : Consumers C) : Publication C × Consumers C :=
  match p.task, p.phase with
  | .subscribe topic fn, .created => ({ p with phase := .finished }, consumers.subscribe topic fn)
  | .publish event _, .created => ({ p with phase := next (consumers.of event.topic) 0 }, consumers)
  | .publish event raises, .calling k =>
    ({ p with
        phase := if raises k then .raised else next (consumers.of event.topic) (k + 1) }, consumers)
  | _, _ => (p, consumers)

/-- The event that is handed to a consumer when the task goes on, and the consumer. -/
def call? (p : Publication C) (consumers : Consumers C) : Option (DomainEvent × C) :=
  match p.task, (p.resume consumers).1.phase with
  | .publish event _, .calling k => ((consumers.of event.topic)[k]?).map fun fn => (event, fn)
  | _, _ => none

end Publication

/-- The tasks over one registry. -/
def broker (C : Type) : Program (BrokerTask C) (Consumers C) (Publication C) where
  start task _ := ⟨task, .created⟩
  resume := Publication.resume

/-- The pool after moves, from no tasks. -/
abbrev brokerRun (consumers : Consumers C) (moves : List (Move (BrokerTask C))) :
    Pool (Consumers C) (Publication C) := Pool.run (broker C) ⟨consumers, []⟩ moves

/-- A call of a consumer, with the number of the task. -/
structure ConsumerCall (C : Type) where
  task : ℕ
  event : DomainEvent
  consumer : C

/-- The call that a move makes. -/
def callOf (p : Pool (Consumers C) (Publication C)) : Move (BrokerTask C) → Option (ConsumerCall C)
  | .start _ => none
  | .resume n => (p.procs[n]?.bind fun proc => proc.call? p.shared).map fun c => ⟨n, c.1, c.2⟩

/-- The calls of a run. -/
def calls (consumers : Consumers C) (moves : List (Move (BrokerTask C))) : List (ConsumerCall C) :=
  Interleaving.history (broker C) callOf ⟨consumers, []⟩ moves

/-- The consumers that a task has called. -/
def told (consumers : Consumers C) (moves : List (Move (BrokerTask C))) (n : ℕ) : List C :=
  ((calls consumers moves).filter fun c => c.task = n).map ConsumerCall.consumer

variable {consumers : Consumers C} {moves : List (Move (BrokerTask C))} {n : ℕ}
  {event : DomainEvent} {raises : ℕ → Bool}

/-! ## What a move does -/

theorem of_subscribe {topic other : String} {fn : C} :
    consumers.of topic <+: (consumers.subscribe other fn).of topic := by
  by_cases h : topic = other
  · subst h
    simp [Consumers.subscribe, Consumers.of]
  · simp [Consumers.subscribe, Consumers.of, h]

/-- A task only ever adds consumers. -/
theorem of_resume (proc : Publication C) (topic : String) :
    consumers.of topic <+: ((proc.resume consumers).2).of topic := by
  obtain ⟨task, phase⟩ := proc
  cases task with
  | subscribe other fn =>
    cases phase with
    | created => exact of_subscribe
    | calling k => exact List.prefix_rfl
    | finished => exact List.prefix_rfl
    | raised => exact List.prefix_rfl
  | publish event raises =>
    cases phase with
    | created => exact List.prefix_rfl
    | calling k => exact List.prefix_rfl
    | finished => exact List.prefix_rfl
    | raised => exact List.prefix_rfl

theorem of_move (p : Pool (Consumers C) (Publication C)) (m : Move (BrokerTask C))
    (topic : String) : p.shared.of topic <+: (p.move (broker C) m).shared.of topic := by
  cases m with
  | start task => exact List.prefix_rfl
  | resume n =>
    cases hn : p.procs[n]? with
    | none =>
      rw [Pool.move_resume_none hn]
    | some proc =>
      rw [Pool.move_resume hn]
      exact of_resume proc topic

/-- The consumers of a topic at one moment are the first of those later. -/
theorem of_earlier {before : List (Move (BrokerTask C))} (h : before <+: moves) (topic : String) :
    (brokerRun consumers before).shared.of topic <+:
      (brokerRun consumers moves).shared.of topic := by
  obtain ⟨after, rfl⟩ := h
  induction after using List.reverseRecOn with
  | nil =>
    rw [List.append_nil]
  | append_singleton after m ih =>
    rw [← List.append_assoc, brokerRun, brokerRun, Pool.run_concat]
    exact ih.trans (of_move _ m topic)

theorem told_concat (m : Move (BrokerTask C)) : told consumers (moves ++ [m]) n =
    told consumers moves n ++
      (((callOf (brokerRun consumers moves) m).toList.filter fun c => c.task = n).map
        ConsumerCall.consumer) := by
  rw [told, calls, history_concat, List.filter_append, List.map_append]
  rfl

/-- Only its own moves call for a task. -/
theorem told_other {m : Move (BrokerTask C)} (h : m ≠ .resume n) :
    told consumers (moves ++ [m]) n = told consumers moves n := by
  rw [told_concat]
  cases m with
  | start task => exact List.append_nil _
  | resume k =>
    have hk : k ≠ n := fun heq => h (heq ▸ rfl)
    rw [callOf]
    cases (brokerRun consumers moves).procs[k]?.bind fun proc =>
        proc.call? (brokerRun consumers moves).shared with
    | none => exact List.append_nil _
    | some c => simp [hk]

/-- A move of its own calls who is next. -/
theorem told_own {proc : Publication C}
    (hn : (brokerRun consumers moves).procs[n]? = some proc) :
    told consumers (moves ++ [.resume n]) n = told consumers moves n ++
      (proc.call? (brokerRun consumers moves).shared).toList.map Prod.snd := by
  rw [told_concat, callOf, hn]
  cases hcall : proc.call? (brokerRun consumers moves).shared with
  | none => simp [hcall]
  | some c => simp [hcall]

/-! ## What is delivered -/

/-- The publication begins after these moves. -/
structure Begins (consumers : Consumers C) (moves : List (Move (BrokerTask C))) (n : ℕ)
    (event : DomainEvent) (raises : ℕ → Bool) (before : List (Move (BrokerTask C))) : Prop where
  resumed : before ++ [.resume n] <+: moves
  created : (brokerRun consumers before).procs[n]? = some ⟨.publish event raises, .created⟩

/-- What a publication has done, by how far it is. -/
inductive Progress (consumers : Consumers C) (moves : List (Move (BrokerTask C))) (n : ℕ)
    (event : DomainEvent) (raises : ℕ → Bool) : BrokerTask.Phase → Prop
  | created (htold : told consumers moves n = []) : Progress consumers moves n event raises .created
  | calling {k : ℕ} {before : List (Move (BrokerTask C))}
      (hbegins : Begins consumers moves n event raises before)
      (hquiet : ∀ j < k, raises j = false)
      (hk : k < ((brokerRun consumers moves).shared.of event.topic).length)
      (htold : told consumers moves n =
        ((brokerRun consumers moves).shared.of event.topic).take (k + 1)) :
      Progress consumers moves n event raises (.calling k)
  | finished {before : List (Move (BrokerTask C))}
      (hbegins : Begins consumers moves n event raises before)
      (hquiet : ∀ j < (told consumers moves n).length, raises j = false)
      (htold : told consumers moves n <+: (brokerRun consumers moves).shared.of event.topic)
      (hall : (brokerRun consumers before).shared.of event.topic <+: told consumers moves n) :
      Progress consumers moves n event raises .finished
  | raised {k : ℕ} {before : List (Move (BrokerTask C))}
      (hbegins : Begins consumers moves n event raises before)
      (hquiet : ∀ j < k, raises j = false) (hraises : raises k = true)
      (hlength : (told consumers moves n).length = k + 1)
      (htold : told consumers moves n <+: (brokerRun consumers moves).shared.of event.topic) :
      Progress consumers moves n event raises .raised

theorem Begins.later {before after : List (Move (BrokerTask C))}
    (h : Begins consumers moves n event raises before) (hlater : moves <+: after) :
    Begins consumers after n event raises before :=
  ⟨h.resumed.trans hlater, h.created⟩

/-- Where nobody was called for it, a publication is where it was. -/
theorem Progress.later {phase : BrokerTask.Phase}
    (h : Progress consumers moves n event raises phase) {after : List (Move (BrokerTask C))}
    (hlater : moves <+: after)
    (hsame : told consumers after n = told consumers moves n) :
    Progress consumers after n event raises phase := by
  have hof : (brokerRun consumers moves).shared.of event.topic <+: _ :=
    of_earlier hlater event.topic
  cases h with
  | created htold => exact .created (hsame.trans htold)
  | calling hbegins hquiet hk htold =>
    refine .calling (hbegins.later hlater) hquiet (hk.trans_le hof.length_le) ?_
    obtain ⟨more, hmore⟩ := hof
    rw [hsame, htold, ← hmore, List.take_append_of_le_length hk]
  | finished hbegins hquiet htold hall =>
    refine .finished (hbegins.later hlater) ?_ ?_ ?_
    · rw [hsame]
      exact hquiet
    · rw [hsame]
      exact htold.trans hof
    · rw [hsame]
      exact hall
  | raised hbegins hquiet hraises hlength htold =>
    refine .raised (hbegins.later hlater) hquiet hraises ?_ ?_
    · rw [hsame]
      exact hlength
    · rw [hsame]
      exact htold.trans hof

/-- The registry is left alone by a publication. -/
theorem shared_publish {phase : BrokerTask.Phase}
    (hn : (brokerRun consumers moves).procs[n]? = some ⟨.publish event raises, phase⟩) :
    (brokerRun consumers (moves ++ [.resume n])).shared = (brokerRun consumers moves).shared := by
  rw [brokerRun, Pool.run_concat, Pool.move_resume hn]
  cases phase with
  | created => rfl
  | calling k => rfl
  | finished => rfl
  | raised => rfl

/-- Who is next is called. -/
theorem call?_of_next {proc : Publication C} {k : ℕ} (htask : proc.task = .publish event raises)
    (hphase : (proc.resume consumers).1.phase = Publication.next (consumers.of event.topic) k) :
    proc.call? consumers = ((consumers.of event.topic)[k]?).map fun fn => (event, fn) := by
  by_cases hk : k < (consumers.of event.topic).length
  · have hcalling : (proc.resume consumers).1.phase = .calling k := hphase.trans (if_pos hk)
    simp only [Publication.call?, htask, hcalling]
  · have hfinished : (proc.resume consumers).1.phase = .finished := hphase.trans (if_neg hk)
    rw [List.getElem?_eq_none_iff.2 (Nat.le_of_not_lt hk)]
    simp only [Publication.call?, htask, hfinished, Option.map_none]

/-- A publication goes on to the consumer of a number, if there is one. -/
theorem Progress.next {k : ℕ} {before : List (Move (BrokerTask C))}
    (hbegins : Begins consumers moves n event raises before) (hquiet : ∀ j < k, raises j = false)
    (htold : told consumers moves n =
      ((brokerRun consumers moves).shared.of event.topic).take (k + 1)) :
    Progress consumers moves n event raises
      (Publication.next ((brokerRun consumers moves).shared.of event.topic) k) := by
  unfold Publication.next
  split
  · rename_i hk
    exact .calling hbegins hquiet hk htold
  · rename_i hk
    have hall : told consumers moves n = (brokerRun consumers moves).shared.of event.topic := by
      rw [htold, List.take_of_length_le (by omega)]
    have hbefore : before <+: moves := (List.prefix_append _ _).trans hbegins.resumed
    refine .finished hbegins ?_ ?_ ?_
    · intro j hj
      rw [hall] at hj
      exact hquiet j (by omega)
    · rw [hall]
    · rw [hall]
      exact of_earlier hbefore event.topic

/-- The consumer of a number is called next, if there is one. -/
theorem told_next {phase : BrokerTask.Phase} {k : ℕ}
    (hn : (brokerRun consumers moves).procs[n]? = some ⟨.publish event raises, phase⟩)
    (hphase : (Publication.resume ⟨.publish event raises, phase⟩
      (brokerRun consumers moves).shared).1.phase =
        Publication.next ((brokerRun consumers moves).shared.of event.topic) k)
    (htold : told consumers moves n =
      ((brokerRun consumers moves).shared.of event.topic).take k) :
    told consumers (moves ++ [.resume n]) n =
      ((brokerRun consumers (moves ++ [.resume n])).shared.of event.topic).take (k + 1) := by
  rw [told_own hn, call?_of_next rfl hphase, shared_publish hn, htold, List.take_add_one]
  cases ((brokerRun consumers moves).shared.of event.topic)[k]? with
  | none => rfl
  | some fn => rfl

/-- Nobody is called any more. -/
theorem told_silent {proc : Publication C}
    (hn : (brokerRun consumers moves).procs[n]? = some proc)
    (hnone : proc.call? (brokerRun consumers moves).shared = none) :
    told consumers (moves ++ [.resume n]) n = told consumers moves n := by
  rw [told_own hn, hnone]
  exact List.append_nil _

/-- A publication goes on after a consumer, unless that one raised. -/
theorem Progress.own_calling {k : ℕ} {before : List (Move (BrokerTask C))}
    (hn : (brokerRun consumers moves).procs[n]? = some ⟨.publish event raises, .calling k⟩)
    (hbegins : Begins consumers moves n event raises before) (hquiet : ∀ j < k, raises j = false)
    (hk : k < ((brokerRun consumers moves).shared.of event.topic).length)
    (htold : told consumers moves n =
      ((brokerRun consumers moves).shared.of event.topic).take (k + 1)) :
    Progress consumers (moves ++ [.resume n]) n event raises
      (Publication.resume ⟨.publish event raises, .calling k⟩
        (brokerRun consumers moves).shared).1.phase := by
  have hlater : moves <+: moves ++ [.resume n] := List.prefix_append _ _
  cases hraises : raises k with
  | true =>
    have hphase : (Publication.resume ⟨.publish event raises, .calling k⟩
        (brokerRun consumers moves).shared).1.phase = .raised := by
      simp [Publication.resume, hraises]
    have hsilent := told_silent hn (by simp [Publication.call?, Publication.resume, hraises])
    rw [hphase]
    refine .raised (hbegins.later hlater) hquiet hraises ?_ ?_
    · rw [hsilent, htold, List.length_take]
      omega
    · rw [hsilent, htold, shared_publish hn]
      exact List.take_prefix _ _
  | false =>
    have hphase : (Publication.resume ⟨.publish event raises, .calling k⟩
        (brokerRun consumers moves).shared).1.phase =
          Publication.next ((brokerRun consumers moves).shared.of event.topic) (k + 1) := by
      simp [Publication.resume, hraises]
    have htold' := told_next hn hphase htold
    rw [hphase, ← shared_publish hn]
    refine .next (hbegins.later hlater) (fun j hj => ?_) htold'
    rcases Nat.lt_succ_iff_lt_or_eq.1 hj with hlt | rfl
    · exact hquiet j hlt
    · exact hraises

/-- A publication goes on. -/
theorem Progress.own {phase : BrokerTask.Phase}
    (hn : (brokerRun consumers moves).procs[n]? = some ⟨.publish event raises, phase⟩)
    (h : Progress consumers moves n event raises phase) :
    Progress consumers (moves ++ [.resume n]) n event raises
      (Publication.resume ⟨.publish event raises, phase⟩
        (brokerRun consumers moves).shared).1.phase := by
  have hlater : moves <+: moves ++ [.resume n] := List.prefix_append _ _
  cases h with
  | created htold =>
    have htold' := told_next hn rfl (htold.trans List.take_zero.symm)
    show Progress _ _ _ _ _ (Publication.next _ 0)
    rw [← shared_publish hn]
    exact .next ⟨List.prefix_rfl, hn⟩ (by simp) htold'
  | calling hbegins hquiet hk htold => exact own_calling hn hbegins hquiet hk htold
  | finished hbegins hquiet htold hall =>
    exact (Progress.finished hbegins hquiet htold hall).later hlater (told_silent hn rfl)
  | raised hbegins hquiet hraises hlength htold =>
    exact (Progress.raised hbegins hquiet hraises hlength htold).later hlater (told_silent hn rfl)

theorem resume_task (proc : Publication C) : (proc.resume consumers).1.task = proc.task := by
  obtain ⟨task, phase⟩ := proc
  cases task with
  | subscribe topic fn =>
    cases phase with
    | created => rfl
    | calling k => rfl
    | finished => rfl
    | raised => rfl
  | publish event raises =>
    cases phase with
    | created => rfl
    | calling k => rfl
    | finished => rfl
    | raised => rfl

/-- What is handed over is the event of the task. -/
theorem call?_event {proc : Publication C} {c : DomainEvent × C}
    (h : proc.call? consumers = some c) : ∃ raises, proc.task = .publish c.1 raises := by
  unfold Publication.call? at h
  split at h
  · rename_i event raises k htask hphase
    obtain ⟨fn, -, rfl⟩ := Option.map_eq_some_iff.1 h
    exact ⟨raises, htask⟩
  · cases h

/-- A call is of a task that has been started, with its event. -/
theorem task_of_mem_calls (moves : List (Move (BrokerTask C))) :
    ∀ c ∈ calls consumers moves, ∃ proc raises,
      (brokerRun consumers moves).procs[c.task]? = some proc ∧
        proc.task = .publish c.event raises := by
  induction moves using List.reverseRecOn with
  | nil =>
    intro c hc
    cases hc
  | append_singleton moves m ih =>
    intro c hc
    have hkept : ∀ proc raises, (brokerRun consumers moves).procs[c.task]? = some proc →
        proc.task = .publish c.event raises → ∃ proc' raises',
          (brokerRun consumers (moves ++ [m])).procs[c.task]? = some proc' ∧
            proc'.task = .publish c.event raises' := by
      intro proc raises hproc htask
      rw [brokerRun, Pool.run_concat]
      obtain ⟨proc', hproc', heq⟩ := Pool.proc_move (P := broker C) hproc m
      refine ⟨proc', raises, hproc', ?_⟩
      rcases heq with rfl | rfl
      · exact htask
      · exact (resume_task proc).trans htask
    rw [calls, history_concat, List.mem_append] at hc
    rcases hc with hold | hnew
    · obtain ⟨proc, raises, hproc, htask⟩ := ih c hold
      exact hkept proc raises hproc htask
    · rw [Option.mem_toList] at hnew
      cases m with
      | start task => cases hnew
      | resume k =>
        obtain ⟨call, hcall, rfl⟩ := Option.map_eq_some_iff.1 hnew
        obtain ⟨proc, hproc, hcall⟩ := Option.bind_eq_some_iff.1 hcall
        obtain ⟨raises, htask⟩ := call?_event hcall
        exact hkept proc raises hproc htask

/-- Who has just been started has not called anybody. -/
theorem told_of_new (moves : List (Move (BrokerTask C))) :
    told consumers moves (brokerRun consumers moves).procs.length = [] := by
  rw [told, List.filter_eq_nil_iff.2, List.map_nil]
  intro c hc
  obtain ⟨proc, raises, hproc, -⟩ := task_of_mem_calls moves c hc
  have hlt := (List.getElem?_eq_some_iff.1 hproc).1
  simpa using hlt.ne

/-- How far a publication is in a run. -/
theorem progress_run (consumers : Consumers C) (moves : List (Move (BrokerTask C))) {n : ℕ}
    {proc : Publication C} (hn : (brokerRun consumers moves).procs[n]? = some proc) :
    ∀ event raises, proc.task = .publish event raises →
      Progress consumers moves n event raises proc.phase := by
  refine run_each (P := broker C) (p := ⟨consumers, []⟩) (J := fun moves n proc =>
    ∀ event raises, proc.task = .publish event raises →
      Progress consumers moves n event raises proc.phase) ?_ ?_ ?_ ?_ moves hn
  · intro n proc hproc
    simp at hproc
  · intro moves task event raises _
    refine .created ?_
    rw [told_other (by simp)]
    exact told_of_new moves
  · rintro moves n ⟨task, phase⟩ hproc hprogress event raises htask
    obtain rfl : task = .publish event raises := (resume_task _).symm.trans htask
    exact (hprogress event raises rfl).own hproc
  · rintro moves m n proc hproc hm hprogress event raises htask
    exact (hprogress event raises htask).later (List.prefix_append _ _) (told_other hm)

/-- **What is delivered**, in every run of publications and subscriptions.  A publication has
handed its event to the first consumers of its topic, each once, in the order of their subscription.
One that has finished has left out nobody who had subscribed when it began, and none of its calls
raised; one that has raised has called nobody after the call that did. -/
theorem publish_delivers (consumers : Consumers C) (moves : List (Move (BrokerTask C))) (n : ℕ)
    (event : DomainEvent) (raises : ℕ → Bool) (phase : BrokerTask.Phase)
    (hn : (brokerRun consumers moves).procs[n]? = some ⟨.publish event raises, phase⟩) :
    (∀ c ∈ calls consumers moves, c.task = n → c.event = event) ∧
      told consumers moves n <+: (brokerRun consumers moves).shared.of event.topic ∧
      (phase = .finished → (∀ j < (told consumers moves n).length, raises j = false) ∧
        ∃ before, Begins consumers moves n event raises before ∧
          (brokerRun consumers before).shared.of event.topic <+: told consumers moves n) ∧
      (phase = .raised → ∃ k, (told consumers moves n).length = k + 1 ∧ raises k = true ∧
        ∀ j < k, raises j = false) := by
  constructor
  · rintro c hc rfl
    obtain ⟨proc, raises', hproc, htask⟩ := task_of_mem_calls moves c hc
    obtain rfl := Option.some.inj (hn.symm.trans hproc)
    injection htask with hevent
    exact hevent.symm
  have hprogress : Progress consumers moves n event raises phase :=
    progress_run consumers moves hn event raises rfl
  cases hprogress with
  | created htold =>
    rw [htold]
    exact ⟨List.nil_prefix, by rintro ⟨⟩, by rintro ⟨⟩⟩
  | calling hbegins hquiet hk htold =>
    rw [htold]
    exact ⟨List.take_prefix _ _, by rintro ⟨⟩, by rintro ⟨⟩⟩
  | finished hbegins hquiet htold hall =>
    exact ⟨htold, fun _ => ⟨hquiet, _, hbegins, hall⟩, by rintro ⟨⟩⟩
  | raised hbegins hquiet hraises hlength htold =>
    exact ⟨htold, by rintro ⟨⟩, fun _ => ⟨_, hlength, hraises, hquiet⟩⟩

end Broker

/-- A transaction is flagged. -/
def flagged : DomainEvent :=
  emitDomainEvent .ascii "e-1" "2026-01-01T00:00:00" .transactionFlagged "t1" "c-1" "fraud" none
    (some [("account_number", .str "123456789012")])

def alertsOnly : Consumers String := Function.update (fun _ => none) "transaction" (some ["alerts"])

/-- While the first consumer is called, another subscribes. -/
def flaggedMoves : List (Move (BrokerTask String)) :=
  [.start (.publish flagged fun _ => false), .start (.subscribe "transaction" "ledger"),
    .resume 0, .resume 1, .resume 0, .resume 0]

/-- Both are called. -/
theorem flagged_delivered : told alertsOnly flaggedMoves 0 = ["alerts", "ledger"] ∧
    ∃ before, Begins alertsOnly flaggedMoves 0 flagged (fun _ => false) before ∧
      (brokerRun alertsOnly before).shared.of flagged.topic <+:
        told alertsOnly flaggedMoves 0 := by
  have hdelivers :=
    publish_delivers alertsOnly flaggedMoves 0 flagged (fun _ => false) .finished rfl
  exact ⟨rfl, (hdelivers.2.2.1 rfl).2⟩

end AgentPlatform
