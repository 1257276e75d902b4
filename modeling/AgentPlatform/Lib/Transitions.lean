import Mathlib.Algebra.Group.Hom.Defs
import Mathlib.Algebra.Order.Monoid.Defs
import Mathlib.Data.List.Infix

/-!
# Runs of a system that takes steps

At an event a system takes a step, if the event is possible in its state.  A run is a list
of events that are possible one after the other.

* `Transitions.run` — the state after a list of events.
* `run_keeps` — **the invariant rule**, for the events that are allowed.
* `run_split` — a run through an event is two runs and a step.
* `run_unless` — what every step keeps until something else holds.
* `total_le_of_potential` — **the potential rule**: what the steps of a run give, at most what the
  state could give at its start and what the steps cost.
* `Grounded` — a history where everything rests on something that is there by then.
-/

namespace Transitions

variable {σ ε : Type}

/-- The state after the events, if they are possible in their order. -/
def run (step : σ → ε → Option σ) : σ → List ε → Option σ
  | s, [] => some s
  | s, e :: later => (step s e).bind fun s' => run step s' later

variable {step : σ → ε → Option σ} {s t : σ}

theorem run_cons_iff {e : ε} {later : List ε} :
    run step s (e :: later) = some t ↔ ∃ s', step s e = some s' ∧ run step s' later = some t := by
  rw [run, Option.bind_eq_some_iff]

/-- **The invariant rule.**  What every allowed step keeps, every run of allowed events keeps. -/
theorem run_keeps {P : σ → Prop} {allowed : ε → Prop}
    (hstep : ∀ s e s', allowed e → P s → step s e = some s' → P s') {events : List ε}
    (hallowed : ∀ e ∈ events, allowed e) (hs : P s) (hrun : run step s events = some t) : P t := by
  induction events generalizing s with
  | nil =>
    obtain rfl := Option.some.inj hrun
    exact hs
  | cons e later ih =>
    obtain ⟨s', hfirst, hlater⟩ := run_cons_iff.1 hrun
    have hkept : P s' := hstep s e s' (hallowed e (by simp)) hs hfirst
    exact ih (fun e' he' => hallowed e' (by simp [he'])) hkept hlater

/-- The invariant rule where every event is allowed. -/
theorem run_invariant {P : σ → Prop} (hstep : ∀ s e s', P s → step s e = some s' → P s')
    {events : List ε} (hs : P s) (hrun : run step s events = some t) : P t :=
  run_keeps (fun s e s' (_ : True) => hstep s e s') (fun _ _ => trivial) hs hrun

/-- Two runs one after the other are a run. -/
theorem run_append {m : σ} {before after : List ε} (hbefore : run step s before = some m)
    (hafter : run step m after = some t) : run step s (before ++ after) = some t := by
  induction before generalizing s with
  | nil =>
    obtain rfl := Option.some.inj hbefore
    exact hafter
  | cons e later ih =>
    obtain ⟨s', hfirst, hlater⟩ := run_cons_iff.1 hbefore
    exact run_cons_iff.2 ⟨s', hfirst, ih hlater⟩

/-- A run through an event is a run up to it, its step, and a run from there. -/
theorem run_split {events : List ε} {e : ε} (he : e ∈ events)
    (hrun : run step s events = some t) :
    ∃ before m m' after, events = before ++ e :: after ∧ run step s before = some m ∧
      step m e = some m' ∧ run step m' after = some t := by
  induction events generalizing s with
  | nil => cases he
  | cons e' later ih =>
    obtain ⟨s', hfirst, hlater⟩ := run_cons_iff.1 hrun
    rcases List.mem_cons.1 he with rfl | hmem
    · exact ⟨[], s, s', later, rfl, rfl, hfirst, hlater⟩
    · obtain ⟨before, m, m', after, heq, hbefore, hstep, hafter⟩ := ih hmem hlater
      exact ⟨e' :: before, m, m', after, by rw [heq, List.cons_append],
        run_cons_iff.2 ⟨s', hfirst, hbefore⟩, hstep, hafter⟩

/-- What every step keeps unless something else comes to hold, holds at the end of a run, or
the other has held at a moment of it. -/
theorem run_unless {P Q : σ → Prop} (hstep : ∀ s e s', P s → step s e = some s' → P s' ∨ Q s')
    {events : List ε} (hs : P s) (hrun : run step s events = some t) :
    P t ∨ ∃ before, before <+: events ∧ ∃ m, run step s before = some m ∧ Q m := by
  induction events generalizing s with
  | nil =>
    obtain rfl := Option.some.inj hrun
    exact Or.inl hs
  | cons e later ih =>
    obtain ⟨s', hfirst, hlater⟩ := run_cons_iff.1 hrun
    rcases hstep s e s' hs hfirst with hkept | hother
    · refine (ih hkept hlater).imp_right ?_
      rintro ⟨before, hprefix, m, hbefore, hm⟩
      exact ⟨e :: before, List.cons_prefix_cons.2 ⟨rfl, hprefix⟩, m,
        run_cons_iff.2 ⟨s', hfirst, hbefore⟩, hm⟩
    · exact Or.inr ⟨[e], List.cons_prefix_cons.2 ⟨rfl, List.nil_prefix⟩, s',
        run_cons_iff.2 ⟨s', hfirst, rfl⟩, hother⟩

/-! ## What the steps of a run amount to -/

section Totals

variable {M N : Type} [AddCommMonoid M] [AddCommMonoid N]

/-- What is counted at the events, each in the state it happens in. -/
def total (step : σ → ε → Option σ) (count : σ → ε → M) : σ → List ε → M
  | _, [] => 0
  | s, e :: later =>
    count s e + ((step s e).map fun s' => total step count s' later).getD 0

theorem total_cons {count : σ → ε → M} {e : ε} {s' : σ} (h : step s e = some s')
    (later : List ε) : total step count s (e :: later) = count s e + total step count s' later := by
  rw [total, h]
  rfl

theorem total_zero (events : List ε) : total step (fun _ _ => (0 : M)) s events = 0 := by
  induction events generalizing s with
  | nil => rfl
  | cons e later ih =>
    rw [total, zero_add]
    cases step s e with
    | none => rfl
    | some s' => exact ih

theorem total_append {count : σ → ε → M} {before : List ε} (hbefore : run step s before = some t)
    (after : List ε) :
    total step count s (before ++ after) =
      total step count s before + total step count t after := by
  induction before generalizing s with
  | nil =>
    obtain rfl := Option.some.inj hbefore
    exact (zero_add _).symm
  | cons e later ih =>
    obtain ⟨s', hfirst, hlater⟩ := run_cons_iff.1 hbefore
    rw [List.cons_append, total_cons hfirst, total_cons hfirst, ih hlater, add_assoc]

theorem map_total (φ : M →+ N) {count : σ → ε → M} (events : List ε) :
    φ (total step count s events) = total step (fun s e => φ (count s e)) s events := by
  induction events generalizing s with
  | nil => exact map_zero φ
  | cons e later ih =>
    rw [total, total, map_add]
    cases step s e with
    | none => exact congrArg _ (map_zero φ)
    | some s' => exact congrArg _ ih

/-- **The potential rule.**  If what each step gives, together with what the state can give after
it, is at most what it could give before and what the step costs, so it is for a whole run. -/
theorem total_le_of_potential [PartialOrder M] [IsOrderedAddMonoid M] {P : σ → Prop}
    {g c : σ → ε → M} {f : σ → M}
    (hkeep : ∀ s e s', P s → step s e = some s' → P s')
    (hstep : ∀ s e s', P s → step s e = some s' → g s e + f s' ≤ f s + c s e)
    {events : List ε} (hs : P s) (hrun : run step s events = some t) :
    total step g s events + f t ≤ f s + total step c s events := by
  induction events generalizing s with
  | nil =>
    obtain rfl := Option.some.inj hrun
    rw [total, total, zero_add, add_zero]
  | cons e later ih =>
    obtain ⟨s', hfirst, hlater⟩ := run_cons_iff.1 hrun
    have hrest := ih (hkeep s e s' hs hfirst) hlater
    rw [total_cons hfirst, total_cons hfirst]
    calc g s e + total step g s' later + f t
        = g s e + (total step g s' later + f t) := add_assoc _ _ _
      _ ≤ g s e + (f s' + total step c s' later) := add_le_add_right hrest _
      _ = g s e + f s' + total step c s' later := (add_assoc _ _ _).symm
      _ ≤ f s + c s e + total step c s' later :=
        add_le_add_left (hstep s e s' hs hfirst) _
      _ = f s + (c s e + total step c s' later) := add_assoc _ _ _

end Totals

/-! ## Histories where everything rests on something -/

/-- Everything in the list rests on something in it that is not after it. -/
def Grounded {α : Type} (R : α → α → Prop) (l : List α) : Prop :=
  ∀ (i : ℕ) (a : α), l[i]? = some a → ∃ (j : ℕ) (b : α), j ≤ i ∧ l[j]? = some b ∧ R b a

namespace Grounded

variable {α : Type} {R : α → α → Prop} {l new : List α}

theorem nil : Grounded R [] := fun _ _ h => by cases h

/-- What is added rests on itself, or on something that is there. -/
theorem append (h : Grounded R l) (hnew : ∀ a ∈ new, R a a ∨ ∃ b ∈ l, R b a) :
    Grounded R (l ++ new) := by
  intro i a ha
  by_cases hi : i < l.length
  · rw [List.getElem?_append_left hi] at ha
    obtain ⟨j, b, hj, hb, hR⟩ := h i a ha
    refine ⟨j, b, hj, ?_, hR⟩
    rw [List.getElem?_append_left (by omega)]
    exact hb
  · have hmem : a ∈ new := by
      rw [List.getElem?_append_right (not_lt.1 hi)] at ha
      exact List.mem_of_getElem? ha
    rcases hnew a hmem with hself | ⟨b, hb, hR⟩
    · exact ⟨i, a, le_rfl, ha, hself⟩
    · obtain ⟨j, hj, rfl⟩ := List.getElem_of_mem hb
      refine ⟨j, l[j], by omega, ?_, hR⟩
      rw [List.getElem?_append_left hj, List.getElem?_eq_getElem hj]

end Grounded

end Transitions
