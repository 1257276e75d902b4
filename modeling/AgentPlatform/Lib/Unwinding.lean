import Mathlib.Data.List.Basic

/-!
# Machines shared by several parties

A `Machine` answers operations one at a time and moves its state on.  The
operations come from several parties; `dom` says which party issued one.  The
question of this file is what a party can learn about the others.

* `Machine.outputs` — a whole run, every operation with its answer.
* `Machine.outputs_forall` — an invariant that every operation keeps, and that
  makes every answer good, makes every answer of a run good.
* `Unwinds` — the three local conditions on a party's `view` of the state.
* `Unwinds.outputs_purge` — **local conditions are enough**: what the party is
  answered in a run is what it would be answered if nobody else had acted.
-/

namespace Unwinding

/-- A deterministic machine: an operation is answered and changes the state. -/
structure Machine (State Op Out : Type*) where
  /-- Answer one operation. -/
  step : State → Op → Out × State

namespace Machine

variable {State Op Out : Type*} (M : Machine State Op Out)

/-- Every operation of a run with the answer it got. -/
def outputs (s : State) : List Op → List (Op × Out)
  | [] => []
  | o :: os => (o, (M.step s o).1) :: outputs (M.step s o).2 os

@[simp] theorem outputs_nil (s : State) : M.outputs s [] = [] := rfl

@[simp] theorem outputs_cons (s : State) (o : Op) (os : List Op) :
    M.outputs s (o :: os) = (o, (M.step s o).1) :: M.outputs (M.step s o).2 os := rfl

/-- If every operation keeps `I`, and is answered well from a state in `I`, then
every answer of a run is good. -/
theorem outputs_forall {I : State → Prop} {Good : Op → Out → Prop}
    (hstep : ∀ s o, I s → I (M.step s o).2) (hgood : ∀ s o, I s → Good o (M.step s o).1)
    (ops : List Op) {s : State} (hs : I s) : ∀ p ∈ M.outputs s ops, Good p.1 p.2 := by
  induction ops generalizing s with
  | nil => intro p hp; simp at hp
  | cons o os ih =>
    intro p hp
    rw [outputs_cons, List.mem_cons] at hp
    rcases hp with rfl | hp
    · exact hgood s o hs
    · exact ih (hstep s o hs) p hp

/-- Two machines that take the operations of a run alike answer them alike. -/
theorem outputs_congr {M' : Machine State Op Out} {ops : List Op}
    (h : ∀ o ∈ ops, ∀ s, M.step s o = M'.step s o) (s : State) :
    M.outputs s ops = M'.outputs s ops := by
  induction ops generalizing s with
  | nil => rfl
  | cons o os ih =>
    have hstep := h o (List.mem_cons_self ..) s
    rw [outputs_cons, outputs_cons, hstep, ih fun o' ho' => h o' (List.mem_cons_of_mem _ ho')]

end Machine

variable {State Op Out Dom View : Type*}

/-- The unwinding conditions for a party `d` that sees `view` of the state: its
own answers and its next view depend only on its view, and the operations of the
others leave its view alone. -/
structure Unwinds (M : Machine State Op Out) (dom : Op → Dom) (d : Dom) (view : State → View) :
    Prop where
  /-- The party is answered from its view. -/
  output_eq : ∀ s t o, dom o = d → view s = view t → (M.step s o).1 = (M.step t o).1
  /-- The party's own operation updates its view from its view. -/
  view_step_eq : ∀ s t o, dom o = d → view s = view t →
    view (M.step s o).2 = view (M.step t o).2
  /-- Nobody else changes the party's view. -/
  view_step_other : ∀ s o, dom o ≠ d → view (M.step s o).2 = view s

/-- **Noninterference from local conditions.**  The answers a party gets in a run
are the answers it gets when only its own operations are run, from any state
that looks the same to it. -/
theorem Unwinds.outputs_purge [DecidableEq Dom] {M : Machine State Op Out} {dom : Op → Dom}
    {d : Dom} {view : State → View} (h : Unwinds M dom d view) (ops : List Op) {s t : State}
    (hst : view s = view t) :
    (M.outputs s ops).filter (fun p => dom p.1 = d) =
      M.outputs t (ops.filter (fun o => dom o = d)) := by
  induction ops generalizing s t with
  | nil => rfl
  | cons o os ih =>
    by_cases ho : dom o = d
    · have hout : (M.step s o).1 = (M.step t o).1 := h.output_eq s t o ho hst
      have hview : view (M.step s o).2 = view (M.step t o).2 := h.view_step_eq s t o ho hst
      rw [Machine.outputs_cons, List.filter_cons_of_pos (by simpa using ho),
        List.filter_cons_of_pos (by simpa using ho), Machine.outputs_cons, hout, ih hview]
    · have hview : view (M.step s o).2 = view t := (h.view_step_other s o ho).trans hst
      rw [Machine.outputs_cons, List.filter_cons_of_neg (by simpa using ho),
        List.filter_cons_of_neg (by simpa using ho), ih hview]

end Unwinding
