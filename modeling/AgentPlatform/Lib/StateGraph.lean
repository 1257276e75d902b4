import Mathlib.Algebra.Ring.Nat
import Mathlib.Data.List.Basic

/-!
# Checkpointed state graphs

The execution model of a graph of nodes that work on one merged state.  A node
reads the state, acts on the world and returns an update; the update is merged
into the state, and the edge out of the node, evaluated on the merged state,
names the next node.  The state is saved after every superstep, so a run that
raises leaves behind the state of its last completed superstep.

* `StateGraph.steps` — the supersteps, at most `limit` of them.
* `StateGraph.start` — a run on a thread: the input is an update to whatever the
  thread has saved.
* `StateGraph.steps_induction` — **the invariant rule**: what every superstep
  keeps holds when the run ends, and what every superstep makes of an error holds
  when the run raises.
* `StateGraph.steps_kept` — **the rule for threads**: what the nodes keep of state and world.
* `StateGraph.steps_world`, `StateGraph.steps_saved` — what every node does to the
  world, a run does to it, and what every update keeps, the saved state keeps.
* `StateGraph.steps_respects` — **two runs** from worlds that no node can tell apart.
* `StateGraph.trace` — the nodes that act in a run; `StateGraph.trace_cost_le` — **the rule for
  bounds**: what the nodes cost, a potential of the states pays for.
* `StateGraph.steps_last` — a run with supersteps to spare is ended by the node that acts last.
-/

/-- A graph over nodes `N`, states (and updates) `S`, worlds `W` and errors `E`. -/
structure StateGraph (N S W E : Type*) where
  /-- The node the run starts at. -/
  entry : N
  /-- How an update is merged into the state. -/
  merge : S → S → S
  /-- What a node does: raise, or return an update; either way the world moves on. -/
  act : N → S → W → Except E S × W
  /-- The edge out of a node, on the merged state; `none` ends the run. -/
  next : N → S → Option N
  /-- What is raised when the supersteps run out. -/
  outOfSteps : E

namespace StateGraph

variable {N S W E : Type*}

/-- How a run ended: its outcome, the state its checkpointer holds, the world. -/
structure Finish (S W E : Type*) where
  /-- The final state, or what was raised. -/
  outcome : Except E S
  /-- The state saved last. -/
  saved : S
  /-- The world the run left. -/
  world : W

variable (g : StateGraph N S W E)

/-- Run at most `limit` supersteps from a node. -/
def steps : ℕ → N → S → W → Finish S W E
  | 0, _, s, w => ⟨.error g.outOfSteps, s, w⟩
  | limit + 1, n, s, w =>
    match g.act n s w with
    | (.error e, w') => ⟨.error e, s, w'⟩
    | (.ok u, w') =>
      match g.next n (g.merge s u) with
      | none => ⟨.ok (g.merge s u), g.merge s u, w'⟩
      | some n' => steps limit n' (g.merge s u) w'

/-- Start a run on a thread that has saved `saved`. -/
def start (limit : ℕ) (saved input : S) (w : W) : Finish S W E :=
  g.steps limit g.entry (g.merge saved input) w

theorem steps_error {limit : ℕ} {n : N} {s : S} {w w' : W} {e : E}
    (h : g.act n s w = (.error e, w')) : g.steps (limit + 1) n s w = ⟨.error e, s, w'⟩ := by
  rw [steps, h]

theorem steps_next {limit : ℕ} {n n' : N} {s u : S} {w w' : W}
    (h : g.act n s w = (.ok u, w')) (hn : g.next n (g.merge s u) = some n') :
    g.steps (limit + 1) n s w = g.steps limit n' (g.merge s u) w' := by
  rw [steps, h]
  simp only [hn]

theorem steps_end {limit : ℕ} {n : N} {s u : S} {w w' : W}
    (h : g.act n s w = (.ok u, w')) (hn : g.next n (g.merge s u) = none) :
    g.steps (limit + 1) n s w = ⟨.ok (g.merge s u), g.merge s u, w'⟩ := by
  rw [steps, h]
  simp only [hn]

/-- **The invariant rule.**  `P` is what holds when a node is about to act, `Q`
what is wanted of a final state, `R` of a raised error. -/
theorem steps_induction {P : N → S → W → Prop} {Q : S → W → Prop} {R : E → W → Prop}
    (hlimit : ∀ n s w, P n s w → R g.outOfSteps w)
    (herror : ∀ n s w e w', P n s w → g.act n s w = (.error e, w') → R e w')
    (hend : ∀ n s w u w', P n s w → g.act n s w = (.ok u, w') →
      g.next n (g.merge s u) = none → Q (g.merge s u) w')
    (hnext : ∀ n s w u w' n', P n s w → g.act n s w = (.ok u, w') →
      g.next n (g.merge s u) = some n' → P n' (g.merge s u) w')
    (limit : ℕ) {n : N} {s : S} {w : W} (h : P n s w) :
    match (g.steps limit n s w).outcome with
    | .ok t => Q t (g.steps limit n s w).world
    | .error e => R e (g.steps limit n s w).world := by
  induction limit generalizing n s w with
  | zero => exact hlimit n s w h
  | succ limit ih =>
    obtain ⟨r, w', hact⟩ : ∃ r w', g.act n s w = (r, w') := ⟨_, _, rfl⟩
    cases r with
    | error e =>
      rw [g.steps_error hact]
      exact herror n s w e w' h hact
    | ok u =>
      cases hn : g.next n (g.merge s u) with
      | none =>
        rw [g.steps_end hact hn]
        exact hend n s w u w' h hact hn
      | some n' =>
        rw [g.steps_next hact hn]
        exact ih (hnext n s w u w' n' h hact hn)

/-- **The rule for threads.**  What holds of the state and the world when a node is about to act
holds of the state that is saved and the world that is left, if every node keeps it and none
breaks the world's part when it raises. -/
theorem steps_kept {J : S → Prop} {I : W → Prop}
    (hok : ∀ n s w u w', J s → I w → g.act n s w = (.ok u, w') → J (g.merge s u) ∧ I w')
    (herror : ∀ n s w e w', J s → I w → g.act n s w = (.error e, w') → I w')
    (limit : ℕ) {n : N} {s : S} {w : W} (hs : J s) (hw : I w) :
    J (g.steps limit n s w).saved ∧ I (g.steps limit n s w).world := by
  induction limit generalizing n s w with
  | zero => exact ⟨hs, hw⟩
  | succ limit ih =>
    obtain ⟨r, w', hact⟩ : ∃ r w', g.act n s w = (r, w') := ⟨_, _, rfl⟩
    cases r with
    | error e =>
      rw [g.steps_error hact]
      exact ⟨hs, herror n s w e w' hs hw hact⟩
    | ok u =>
      have hkept := hok n s w u w' hs hw hact
      cases hn : g.next n (g.merge s u) with
      | none =>
        rw [g.steps_end hact hn]
        exact hkept
      | some n' =>
        rw [g.steps_next hact hn]
        exact ih hkept.1 hkept.2

/-- A relation between worlds that every node respects, whether or not it raises, is
respected by a run. -/
theorem steps_world {R : W → W → Prop} (hrefl : ∀ w, R w w)
    (htrans : ∀ w w' w'', R w w' → R w' w'' → R w w'')
    (hact : ∀ n s w, R w (g.act n s w).2) (limit : ℕ) (n : N) (s : S) (w : W) :
    R w (g.steps limit n s w).world := by
  induction limit generalizing n s w with
  | zero => exact hrefl w
  | succ limit ih =>
    have hstep := hact n s w
    obtain ⟨r, w', h⟩ : ∃ r w', g.act n s w = (r, w') := ⟨_, _, rfl⟩
    rw [h] at hstep
    cases r with
    | error e =>
      rw [g.steps_error h]
      exact hstep
    | ok u =>
      cases hn : g.next n (g.merge s u) with
      | none =>
        rw [g.steps_end h hn]
        exact hstep
      | some n' =>
        rw [g.steps_next h hn]
        exact htrans w w' _ hstep (ih n' (g.merge s u) w')

/-- What every node does to the world, a run of at least one superstep does to the world
its first node leaves. -/
theorem steps_after_first {R : W → W → Prop} (hrefl : ∀ w, R w w)
    (htrans : ∀ w w' w'', R w w' → R w' w'' → R w w'')
    (hact : ∀ n s w, R w (g.act n s w).2) (limit : ℕ) (n : N) (s : S) (w : W) :
    R (g.act n s w).2 (g.steps (limit + 1) n s w).world := by
  obtain ⟨r, w', h⟩ : ∃ r w', g.act n s w = (r, w') := ⟨_, _, rfl⟩
  rw [h]
  cases r with
  | error e =>
    rw [g.steps_error h]
    exact hrefl w'
  | ok u =>
    cases hn : g.next n (g.merge s u) with
    | none =>
      rw [g.steps_end h hn]
      exact hrefl w'
    | some n' =>
      rw [g.steps_next h hn]
      exact g.steps_world hrefl htrans hact limit n' (g.merge s u) w'

/-- **Two runs**: from related worlds that no node can tell apart, and that every node
leaves related, a graph ends alike, and saves the same. -/
theorem steps_respects {R : W → W → Prop}
    (hact : ∀ n s w w', R w w' → (g.act n s w).1 = (g.act n s w').1 ∧
      R (g.act n s w).2 (g.act n s w').2) (limit : ℕ) (n : N) (s : S) {w w' : W} (h : R w w') :
    (g.steps limit n s w).outcome = (g.steps limit n s w').outcome ∧
      (g.steps limit n s w).saved = (g.steps limit n s w').saved ∧
      R (g.steps limit n s w).world (g.steps limit n s w').world := by
  induction limit generalizing n s w w' with
  | zero => exact ⟨rfl, rfl, h⟩
  | succ limit ih =>
    obtain ⟨hr, hworlds⟩ := hact n s w w' h
    obtain ⟨r, v, hv⟩ : ∃ r v, g.act n s w = (r, v) := ⟨_, _, rfl⟩
    obtain ⟨r', v', hv'⟩ : ∃ r' v', g.act n s w' = (r', v') := ⟨_, _, rfl⟩
    rw [hv, hv'] at hr hworlds
    obtain rfl : r = r' := hr
    cases r with
    | error e =>
      rw [g.steps_error hv, g.steps_error hv']
      exact ⟨rfl, rfl, hworlds⟩
    | ok u =>
      cases hn : g.next n (g.merge s u) with
      | none =>
        rw [g.steps_end hv hn, g.steps_end hv' hn]
        exact ⟨rfl, rfl, hworlds⟩
      | some n' =>
        rw [g.steps_next hv hn, g.steps_next hv' hn]
        exact ih n' (g.merge s u) hworlds

/-- A property of states that every merged update keeps is a property of the state
that is saved. -/
theorem steps_saved {P : S → Prop}
    (hmerge : ∀ n s w u, P s → (g.act n s w).1 = .ok u → P (g.merge s u)) (limit : ℕ) (n : N)
    {s : S} (w : W) (hs : P s) : P (g.steps limit n s w).saved := by
  induction limit generalizing n s w with
  | zero => exact hs
  | succ limit ih =>
    obtain ⟨r, w', h⟩ : ∃ r w', g.act n s w = (r, w') := ⟨_, _, rfl⟩
    cases r with
    | error e =>
      rw [g.steps_error h]
      exact hs
    | ok u =>
      have hu : P (g.merge s u) := hmerge n s w u hs (by rw [h])
      cases hn : g.next n (g.merge s u) with
      | none =>
        rw [g.steps_end h hn]
        exact hu
      | some n' =>
        rw [g.steps_next h hn]
        exact ih n' w' hu

/-! ## Which nodes act -/

/-- The nodes that act in a run, in order. -/
def trace : ℕ → N → S → W → List N
  | 0, _, _, _ => []
  | limit + 1, n, s, w =>
    n :: match g.act n s w with
      | (.error _, _) => []
      | (.ok u, w') =>
        match g.next n (g.merge s u) with
        | none => []
        | some n' => trace limit n' (g.merge s u) w'

theorem trace_error {limit : ℕ} {n : N} {s : S} {w w' : W} {e : E}
    (h : g.act n s w = (.error e, w')) : g.trace (limit + 1) n s w = [n] := by
  rw [trace, h]

theorem trace_next {limit : ℕ} {n n' : N} {s u : S} {w w' : W}
    (h : g.act n s w = (.ok u, w')) (hn : g.next n (g.merge s u) = some n') :
    g.trace (limit + 1) n s w = n :: g.trace limit n' (g.merge s u) w' := by
  rw [trace, h]
  simp only [hn]

theorem trace_end {limit : ℕ} {n : N} {s u : S} {w w' : W}
    (h : g.act n s w = (.ok u, w')) (hn : g.next n (g.merge s u) = none) :
    g.trace (limit + 1) n s w = [n] := by
  rw [trace, h]
  simp only [hn]

/-- `P` holds whenever a node is about to act, if it does at the start. -/
def Kept (P : N → S → W → Prop) : Prop :=
  ∀ n s w u w' n', P n s w → g.act n s w = (.ok u, w') → g.next n (g.merge s u) = some n' →
    P n' (g.merge s u) w'

/-- **The rule for bounds.**  A potential that can pay for the node that is about to act, and
that falls by at least the cost of a node with every superstep, bounds what a run costs. -/
theorem trace_cost_le {P : N → S → W → Prop} {cost : N → ℕ} {potential : N → S → ℕ}
    (hkept : g.Kept P) (hlast : ∀ n s w, P n s w → cost n ≤ potential n s)
    (hnext : ∀ n s w u w' n', P n s w → g.act n s w = (.ok u, w') →
      g.next n (g.merge s u) = some n' → cost n + potential n' (g.merge s u) ≤ potential n s)
    (limit : ℕ) {n : N} {s : S} {w : W} (h : P n s w) :
    ((g.trace limit n s w).map cost).sum ≤ potential n s := by
  induction limit generalizing n s w with
  | zero => exact Nat.zero_le _
  | succ limit ih =>
    obtain ⟨r, w', hact⟩ : ∃ r w', g.act n s w = (r, w') := ⟨_, _, rfl⟩
    cases r with
    | error e =>
      rw [g.trace_error hact]
      simpa using hlast n s w h
    | ok u =>
      cases hn : g.next n (g.merge s u) with
      | none =>
        rw [g.trace_end hact hn]
        simpa using hlast n s w h
      | some n' =>
        rw [g.trace_next hact hn, List.map_cons, List.sum_cons]
        have hrest := ih (hkept n s w u w' n' h hact hn)
        have hpaid := hnext n s w u w' n' h hact hn
        omega

/-- How a run ends at the node that acts last. -/
inductive Ends (n : N) (s : S) (w : W) : Finish S W E → Prop
  | raised {e : E} {w' : W} (h : g.act n s w = (.error e, w')) : Ends n s w ⟨.error e, s, w'⟩
  | returned {u : S} {w' : W} (h : g.act n s w = (.ok u, w'))
      (hn : g.next n (g.merge s u) = none) :
      Ends n s w ⟨.ok (g.merge s u), g.merge s u, w'⟩

/-- **The last superstep.**  A run that would not use one superstep more is ended by the node
that acts last, and any higher limit gives the same run. -/
theorem steps_last {P : N → S → W → Prop} (hkept : g.Kept P) (limit : ℕ) {n : N} {s : S} {w : W}
    (h : P n s w) (hspare : (g.trace (limit + 1) n s w).length ≤ limit) :
    ∃ before n' s' w', g.trace limit n s w = before ++ [n'] ∧ P n' s' w' ∧
      g.Ends n' s' w' (g.steps limit n s w) ∧
      ∀ k, g.steps (limit + k) n s w = g.steps limit n s w := by
  induction limit generalizing n s w with
  | zero => simp [trace] at hspare
  | succ limit ih =>
    obtain ⟨r, w', hact⟩ : ∃ r w', g.act n s w = (r, w') := ⟨_, _, rfl⟩
    cases r with
    | error e =>
      refine ⟨[], n, s, w, g.trace_error hact, h, ?_, fun k => ?_⟩
      · rw [g.steps_error hact]
        exact .raised hact
      · rw [Nat.add_right_comm, g.steps_error hact, g.steps_error hact]
    | ok u =>
      cases hn : g.next n (g.merge s u) with
      | none =>
        refine ⟨[], n, s, w, g.trace_end hact hn, h, ?_, fun k => ?_⟩
        · rw [g.steps_end hact hn]
          exact .returned hact hn
        · rw [Nat.add_right_comm, g.steps_end hact hn, g.steps_end hact hn]
      | some n' =>
        rw [g.trace_next hact hn, List.length_cons] at hspare
        obtain ⟨before, n'', s', v, htrace, hP, hends, hmore⟩ :=
          ih (hkept n s w u w' n' h hact hn) (Nat.le_of_succ_le_succ hspare)
        refine ⟨n :: before, n'', s', v, ?_, hP, ?_, fun k => ?_⟩
        · rw [g.trace_next hact hn, htrace]
          rfl
        · rw [g.steps_next hact hn]
          exact hends
        · rw [Nat.add_right_comm, g.steps_next hact hn, g.steps_next hact hn]
          exact hmore k

end StateGraph
