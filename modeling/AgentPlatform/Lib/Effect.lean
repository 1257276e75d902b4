import Mathlib.Data.List.Basic

/-!
# Effects: a world that moves on, and exceptions

A computation in the world `W` returns a value or raises, and the world moves on
either way: what was done before an exception stays done.

* `Effect` — the monad, with `raise`, `ofExcept`, `modify` and `tryCatch`.
* `Effect.bind_of_ok`, `Effect.bind_of_error` — running a sequence step by step.
* `Triple` — pre- and postconditions, one postcondition for a value and one for an
  exception, with the **rule for a sequence**.
* `Keeps`, `Ensures`, `Respects` — invariants, invariants with a condition on the value,
  and relations between two runs, with the rules for sequences.
* `RespectsUpTo` — two runs that agree on a part of the value.
-/

/-- A computation that changes the world and may raise. -/
def Effect (W E α : Type) : Type := W → Except E α × W

namespace Effect

variable {W E α β : Type}

instance : Monad (Effect W E) where
  pure a := fun w => (.ok a, w)
  bind x f := fun w =>
    match x w with
    | (.error e, w') => (.error e, w')
    | (.ok a, w') => f a w'

/-- Raise an exception. -/
def raise (e : E) : Effect W E α := fun w => (.error e, w)

/-- A computation that does not touch the world. -/
def ofExcept (r : Except E α) : Effect W E α := fun w => (r, w)

/-- Read the world. -/
def get : Effect W E W := fun w => (.ok w, w)

/-- Change the world. -/
def modify (f : W → W) : Effect W E Unit := fun w => (.ok (), f w)

/-- `try`: what the body did before it raised stays done. -/
def tryCatch (x : Effect W E α) (handler : E → Effect W E α) : Effect W E α := fun w =>
  match x w with
  | (.error e, w') => handler e w'
  | (.ok a, w') => (.ok a, w')

@[simp] theorem pure_apply (a : α) (w : W) : (pure a : Effect W E α) w = (.ok a, w) := rfl

@[simp] theorem raise_apply (e : E) (w : W) : (raise e : Effect W E α) w = (.error e, w) := rfl

@[simp] theorem ofExcept_apply (r : Except E α) (w : W) : ofExcept r w = (r, w) := rfl

@[simp] theorem get_apply (w : W) : (get : Effect W E W) w = (.ok w, w) := rfl

@[simp] theorem modify_apply (f : W → W) (w : W) :
    (modify f : Effect W E Unit) w = (.ok (), f w) := rfl

theorem bind_apply (x : Effect W E α) (f : α → Effect W E β) (w : W) :
    (x >>= f) w =
      match x w with
      | (.error e, w') => (.error e, w')
      | (.ok a, w') => f a w' := rfl

/-- A sequence goes on where its first part returned. -/
theorem bind_of_ok {x : Effect W E α} {w w' : W} {a : α} (h : x w = (.ok a, w'))
    (f : α → Effect W E β) : (x >>= f) w = f a w' := by
  rw [bind_apply, h]

/-- A sequence ends where its first part raised. -/
theorem bind_of_error {x : Effect W E α} {w w' : W} {e : E} (h : x w = (.error e, w'))
    (f : α → Effect W E β) : (x >>= f) w = (.error e, w') := by
  rw [bind_apply, h]

@[simp] theorem modify_bind (f : W → W) (g : Unit → Effect W E α) (w : W) :
    (modify f >>= g) w = g () (f w) := rfl

theorem tryCatch_of_ok {x : Effect W E α} {w w' : W} {a : α} (h : x w = (.ok a, w'))
    (handler : E → Effect W E α) : tryCatch x handler w = (.ok a, w') := by
  rw [tryCatch, h]

theorem tryCatch_of_error {x : Effect W E α} {w w' : W} {e : E} (h : x w = (.error e, w'))
    (handler : E → Effect W E α) : tryCatch x handler w = handler e w' := by
  rw [tryCatch, h]

end Effect

/-! ## Triples -/

/-- From a world in `P`, a value is returned in a world of `Q`, or an exception is
raised in a world of `R`. -/
def Triple {W E α : Type} (P : W → Prop) (x : Effect W E α) (Q : α → W → Prop)
    (R : E → W → Prop) : Prop :=
  ∀ w, P w →
    match x w with
    | (.ok a, w') => Q a w'
    | (.error e, w') => R e w'

namespace Triple

variable {W E α β : Type} {P : W → Prop} {Q : α → W → Prop} {S : β → W → Prop}
  {R : E → W → Prop}

theorem pure {a : α} (h : ∀ w, P w → Q a w) : Triple P (Pure.pure a : Effect W E α) Q R :=
  fun w hw => h w hw

theorem raise {e : E} (h : ∀ w, P w → R e w) : Triple P (Effect.raise e : Effect W E α) Q R :=
  fun w hw => h w hw

theorem modify {f : W → W} {Q : Unit → W → Prop} (h : ∀ w, P w → Q () (f w)) :
    Triple P (Effect.modify f) Q R :=
  fun w hw => h w hw

theorem get {Q : W → W → Prop} (h : ∀ w, P w → Q w w) :
    Triple P (Effect.get : Effect W E W) Q R :=
  fun w hw => h w hw

theorem ofExcept {r : Except E α} (hok : ∀ a w, r = .ok a → P w → Q a w)
    (herror : ∀ e w, r = .error e → P w → R e w) : Triple P (Effect.ofExcept r) Q R := by
  intro w hw
  cases r with
  | error e => exact herror e w rfl hw
  | ok a => exact hok a w rfl hw

/-- A weaker postcondition. -/
theorem weaken {x : Effect W E α} {Q' : α → W → Prop} (hx : Triple P x Q R)
    (h : ∀ a w, Q a w → Q' a w) : Triple P x Q' R := by
  intro w hw
  have hw' := hx w hw
  cases hrun : x w with
  | mk r w' =>
    rw [hrun] at hw'
    cases r with
    | error e => exact hw'
    | ok a => exact h a w' hw'

/-- A weaker condition for what is raised. -/
theorem raises {x : Effect W E α} {R' : E → W → Prop} (hx : Triple P x Q R)
    (h : ∀ e w, R e w → R' e w) : Triple P x Q R' := by
  intro w hw
  have hw' := hx w hw
  cases hrun : x w with
  | mk r w' =>
    rw [hrun] at hw'
    cases r with
    | error e => exact h e w' hw'
    | ok a => exact hw'

/-- **The rule for a sequence.** -/
theorem bind {x : Effect W E α} {f : α → Effect W E β} (hx : Triple P x Q R)
    (hf : ∀ a, Triple (Q a) (f a) S R) : Triple P (x >>= f) S R := by
  intro w hw
  have hw' := hx w hw
  rw [Effect.bind_apply]
  cases h : x w with
  | mk r w' =>
    rw [h] at hw'
    cases r with
    | error e => exact hw'
    | ok a => exact hf a w' hw'

/-- What holds when a value is returned. -/
theorem of_ok {x : Effect W E α} (hx : Triple P x Q R) {w w' : W} (hw : P w) {a : α}
    (h : x w = (.ok a, w')) : Q a w' := by
  have := hx w hw
  rwa [h] at this

/-- What holds when an exception is raised. -/
theorem of_error {x : Effect W E α} (hx : Triple P x Q R) {w w' : W} (hw : P w) {e : E}
    (h : x w = (.error e, w')) : R e w' := by
  have := hx w hw
  rwa [h] at this

end Triple

/-! ## Invariants and relations -/

/-- The computation keeps an invariant of the world, whether or not it raises. -/
def Keeps {W E α : Type} (I : W → Prop) (x : Effect W E α) : Prop := ∀ w, I w → I (x w).2

namespace Keeps

variable {W E α β : Type} {I : W → Prop}

theorem pure (a : α) : Keeps I (Pure.pure a : Effect W E α) := fun _ hw => hw

theorem raise (e : E) : Keeps I (Effect.raise e : Effect W E α) := fun _ hw => hw

theorem ofExcept (r : Except E α) : Keeps I (Effect.ofExcept r : Effect W E α) := fun _ hw => hw

/-- An invariant that is kept, as a triple. -/
theorem triple {x : Effect W E α} {R : E → W → Prop} (hx : Keeps I x)
    (hR : ∀ e w, I w → R e w) : Triple I x (fun _ => I) R := by
  intro w hw
  have hw' := hx w hw
  cases h : x w with
  | mk r w' =>
    rw [h] at hw'
    cases r with
    | error e => exact hR e w' hw'
    | ok a => exact hw'

theorem get : Keeps I (Effect.get : Effect W E W) := fun _ hw => hw

/-- What holds after the first part of a sequence, if the rest keeps it. -/
theorem bind_after {x : Effect W E α} {f : α → Effect W E β} {w : W} (hx : I (x w).2)
    (hf : ∀ a, Keeps I (f a)) : I ((x >>= f) w).2 := by
  rw [Effect.bind_apply]
  cases h : x w with
  | mk r w' =>
    rw [h] at hx
    cases r with
    | error e => exact hx
    | ok a => exact hf a w' hx

/-- The rule for a sequence. -/
theorem bind {x : Effect W E α} {f : α → Effect W E β} (hx : Keeps I x)
    (hf : ∀ a, Keeps I (f a)) : Keeps I (x >>= f) :=
  fun w hw => bind_after (hx w hw) hf

end Keeps

/-- Under an invariant of the world, a returned value satisfies `Q`; the invariant holds
afterwards, whether or not the computation raises. -/
def Ensures {W E α : Type} (I : W → Prop) (x : Effect W E α) (Q : α → Prop) : Prop :=
  Triple I x (fun a w => Q a ∧ I w) (fun _ w => I w)

namespace Ensures

variable {W E α β : Type} {I : W → Prop} {Q : α → Prop} {S : β → Prop}

theorem pure {a : α} (h : Q a) : Ensures I (Pure.pure a : Effect W E α) Q :=
  Triple.pure fun _ hw => ⟨h, hw⟩

theorem raise (e : E) : Ensures I (Effect.raise e : Effect W E α) Q := Triple.raise fun _ hw => hw

theorem ofExcept {r : Except E α} (h : ∀ a, r = .ok a → Q a) :
    Ensures I (Effect.ofExcept r) Q := by
  intro w hw
  cases r with
  | error e => exact hw
  | ok a => exact ⟨h a rfl, hw⟩

/-- A computation that keeps the invariant, whatever it returns. -/
theorem of_keeps {x : Effect W E α} (hx : Keeps I x) : Ensures I x fun _ => True := by
  intro w hw
  have hw' := hx w hw
  cases h : x w with
  | mk r w' =>
    rw [h] at hw'
    cases r with
    | error e => exact hw'
    | ok a => exact ⟨trivial, hw'⟩

/-- The rule for a sequence. -/
theorem bind {x : Effect W E α} {f : α → Effect W E β} (hx : Ensures I x Q)
    (hf : ∀ a, Q a → Ensures I (f a) S) : Ensures I (x >>= f) S :=
  Triple.bind hx fun a w hw => hf a hw.1 w hw.2

/-- With no invariant to keep, only what comes last matters. -/
theorem of_last {x : Effect W E α} {f : α → Effect W E β}
    (hf : ∀ a, Ensures (fun _ => True) (f a) S) : Ensures (fun _ => True) (x >>= f) S :=
  (of_keeps fun _ _ => trivial).bind fun a _ => hf a

/-- What a run from a world of the invariant leaves. -/
theorem world {x : Effect W E α} (hx : Ensures I x Q) {w : W} (hw : I w) : I (x w).2 := by
  have hw' := hx w hw
  cases h : x w with
  | mk r w' =>
    rw [h] at hw'
    cases r with
    | error e => exact hw'
    | ok a => exact hw'.2

end Ensures

/-- A triple, and what holds of every value. -/
theorem Triple.and_ensures {W E α : Type} {P : W → Prop} {x : Effect W E α} {Q : α → W → Prop}
    {R : E → W → Prop} {S : α → Prop} (hx : Triple P x Q R)
    (hS : Ensures (fun _ => True) x S) : Triple P x (fun a w => Q a w ∧ S a) R := by
  intro w hw
  have hw' := hx w hw
  have hvalue := hS w trivial
  cases h : x w with
  | mk r w' =>
    rw [h] at hw' hvalue
    cases r with
    | error e => exact hw'
    | ok a => exact ⟨hw', hvalue.1⟩

/-- Two runs of a computation from related worlds return or raise the same, and leave
related worlds. -/
def Respects {W E α : Type} (R : W → W → Prop) (x : Effect W E α) : Prop :=
  ∀ w w', R w w' → (x w).1 = (x w').1 ∧ R (x w).2 (x w').2

namespace Respects

variable {W E α β : Type} {R : W → W → Prop}

theorem pure (a : α) : Respects R (Pure.pure a : Effect W E α) := fun _ _ h => ⟨rfl, h⟩

theorem raise (e : E) : Respects R (Effect.raise e : Effect W E α) := fun _ _ h => ⟨rfl, h⟩

theorem ofExcept (r : Except E α) : Respects R (Effect.ofExcept r : Effect W E α) :=
  fun _ _ h => ⟨rfl, h⟩

/-- The rule for a sequence. -/
theorem bind {x : Effect W E α} {f : α → Effect W E β} (hx : Respects R x)
    (hf : ∀ a, Respects R (f a)) : Respects R (x >>= f) := by
  intro w w' hw
  obtain ⟨hr, hw'⟩ := hx w w' hw
  rw [Effect.bind_apply, Effect.bind_apply]
  cases h : x w with
  | mk r v =>
    cases h' : x w' with
    | mk r' v' =>
      rw [h, h'] at hr hw'
      obtain rfl : r = r' := hr
      cases r with
      | error e => exact ⟨rfl, hw'⟩
      | ok a => exact hf a v v' hw'

end Respects

/-- Two runs from related worlds agree on what `obs` keeps of a value, or raise the same,
and leave related worlds. -/
def RespectsUpTo {W E α β : Type} (obs : α → β) (R : W → W → Prop) (x : Effect W E α) : Prop :=
  ∀ w w', R w w' → (x w).1.map obs = (x w').1.map obs ∧ R (x w).2 (x w').2

/-- A sequence whose last part is respected up to an observation. -/
theorem RespectsUpTo.bind {W E α β γ : Type} {R : W → W → Prop} {obs : β → γ}
    {x : Effect W E α} {f : α → Effect W E β} (hx : Respects R x)
    (hf : ∀ a, RespectsUpTo obs R (f a)) : RespectsUpTo obs R (x >>= f) := by
  intro w w' hw
  obtain ⟨hr, hw'⟩ := hx w w' hw
  rw [Effect.bind_apply, Effect.bind_apply]
  cases h : x w with
  | mk r v =>
    cases h' : x w' with
    | mk r' v' =>
      rw [h, h'] at hr hw'
      obtain rfl : r = r' := hr
      cases r with
      | error e => exact ⟨rfl, hw'⟩
      | ok a => exact hf a v v' hw'
