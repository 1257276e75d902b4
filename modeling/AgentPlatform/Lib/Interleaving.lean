import Mathlib.Data.List.Infix
import Mathlib.Data.List.Induction

/-!
# Processes that share a state

A process runs until it waits.  When it is resumed it goes on from where it is, on the state that
is shared, up to where it waits again; in between any other process may have been resumed.

* `Program`, `Pool` — what processes do, and those there are.
* `Pool.run` — the pool after moves, in whatever order they come.
* `run_all` — **the rule for pools**: what every process keeps of itself and of the others.
* `run_each` — the rule for what the moves of a run tell of a process.
* `run_alone` — **what does not depend on the others**: a view that moves alike in every state.
* `KeepsTo.run_alone` — **what is one's own**: processes that keep to disjoint parts of the state.
* `history`, `shared_run`, `OncePast.nodup` — what the moves leave, in their order and once each.
-/

namespace Interleaving

/-- What processes do: how one starts in a shared state, and what it does when it is resumed. -/
structure Program (ι σ π : Type) where
  start : ι → σ → π
  resume : π → σ → π × σ

/-- A shared state, and the processes that have been started. -/
structure Pool (σ π : Type) where
  shared : σ
  procs : List π := []

/-- A process is started, or the one of a number is resumed. -/
inductive Move (ι : Type) where
  | start (i : ι)
  | resume (n : ℕ)

variable {ι σ π : Type} (P : Program ι σ π)

namespace Pool

/-- The pool after a move. -/
def move (p : Pool σ π) : Move ι → Pool σ π
  | .start i => { p with procs := p.procs ++ [P.start i p.shared] }
  | .resume n =>
    match p.procs[n]? with
    | none => p
    | some proc =>
      ⟨(P.resume proc p.shared).2, p.procs.set n (P.resume proc p.shared).1⟩

/-- The pool after moves. -/
def run (p : Pool σ π) (moves : List (Move ι)) : Pool σ π := moves.foldl (move P) p

/-- Every process has a property in the shared state. -/
def All (I : σ → π → Prop) (p : Pool σ π) : Prop :=
  ∀ (n : ℕ) proc, p.procs[n]? = some proc → I p.shared proc

variable {P} {p : Pool σ π}

theorem run_concat (moves : List (Move ι)) (m : Move ι) :
    p.run P (moves ++ [m]) = (p.run P moves).move P m := by
  rw [run, List.foldl_append]
  rfl

theorem run_cons (m : Move ι) (moves : List (Move ι)) :
    p.run P (m :: moves) = (p.move P m).run P moves := rfl

theorem move_resume {n : ℕ} {proc : π} (h : p.procs[n]? = some proc) :
    p.move P (.resume n) =
      ⟨(P.resume proc p.shared).2, p.procs.set n (P.resume proc p.shared).1⟩ := by
  rw [move, h]

theorem move_resume_none {n : ℕ} (h : p.procs[n]? = none) : p.move P (.resume n) = p := by
  rw [move, h]

/-- The process that was resumed, after a move. -/
theorem procs_move_self {n : ℕ} {proc : π} (h : p.procs[n]? = some proc) :
    (p.move P (.resume n)).procs[n]? = some (P.resume proc p.shared).1 := by
  have hlt : n < p.procs.length := (List.getElem?_eq_some_iff.1 h).1
  rw [move_resume h, List.getElem?_set_self hlt]

/-- Another one. -/
theorem procs_move_of_ne {n m : ℕ} {proc : π} (h : p.procs[n]? = some proc) (hne : m ≠ n) :
    (p.move P (.resume n)).procs[m]? = p.procs[m]? := by
  rw [move_resume h, List.getElem?_set_ne hne.symm]

/-- A process after a move: it has been resumed, or it is as it was. -/
theorem proc_move {n : ℕ} {proc : π} (h : p.procs[n]? = some proc) (m : Move ι) :
    ∃ proc', (p.move P m).procs[n]? = some proc' ∧
      (proc' = proc ∨ proc' = (P.resume proc p.shared).1) := by
  cases m with
  | start i =>
    have hlt : n < p.procs.length := (List.getElem?_eq_some_iff.1 h).1
    exact ⟨proc, (List.getElem?_append_left hlt).trans h, Or.inl rfl⟩
  | resume m =>
    cases hm : p.procs[m]? with
    | none =>
      rw [move_resume_none hm]
      exact ⟨proc, h, Or.inl rfl⟩
    | some resumed =>
      by_cases hne : n = m
      · subst hne
        obtain rfl := Option.some.inj (hm.symm.trans h)
        exact ⟨_, procs_move_self hm, Or.inr rfl⟩
      · exact ⟨proc, (procs_move_of_ne hm hne).trans h, Or.inl rfl⟩

end Pool

/-- Every move of a run is allowed: the first one, and every later one after it. -/
theorem allowed_cons {P : Program ι σ π} {allowed : Pool σ π → Move ι → Prop} {p : Pool σ π}
    {first : Move ι} {moves : List (Move ι)} (hfirst : allowed p first)
    (hlater : ∀ before m, before ++ [m] <+: moves → allowed ((p.move P first).run P before) m) :
    ∀ before m, before ++ [m] <+: first :: moves → allowed (p.run P before) m := by
  intro before m hearlier
  cases before with
  | nil =>
    obtain ⟨rfl, -⟩ := List.cons_prefix_cons.1 hearlier
    exact hfirst
  | cons x before =>
    obtain ⟨rfl, hrest⟩ := List.cons_prefix_cons.1 hearlier
    exact hlater before m hrest

/-- **The rule for pools.**  A property that a process has when it is started, keeps when it is
resumed, and keeps when another one is, is one of every process after every run of allowed
moves. -/
theorem run_all {P : Program ι σ π} {I : σ → π → Prop} {allowed : Pool σ π → Move ι → Prop}
    (hstart : ∀ (p : Pool σ π) i, allowed p (.start i) → I p.shared (P.start i p.shared))
    (hown : ∀ (p : Pool σ π) n proc, allowed p (.resume n) → p.procs[n]? = some proc →
      I p.shared proc → I (P.resume proc p.shared).2 (P.resume proc p.shared).1)
    (hother : ∀ (p : Pool σ π) n proc m other, allowed p (.resume n) →
      p.procs[n]? = some proc → p.procs[m]? = some other → m ≠ n → I p.shared other →
      I (P.resume proc p.shared).2 other)
    {p : Pool σ π} (hp : p.All I) {moves : List (Move ι)}
    (hallowed : ∀ before m, before ++ [m] <+: moves → allowed (p.run P before) m) :
    (p.run P moves).All I := by
  induction moves using List.reverseRecOn with
  | nil => exact hp
  | append_singleton moves m ih =>
    have hearlier : (p.run P moves).All I :=
      ih fun before m' h => hallowed before m' (h.trans (List.prefix_append _ _))
    have hm := hallowed moves m List.prefix_rfl
    rw [Pool.run_concat]
    set q := p.run P moves with hq
    intro k proc hproc
    cases m with
    | start i =>
      have hprocs : (q.procs ++ [P.start i q.shared])[k]? = some proc := hproc
      rw [List.getElem?_append] at hprocs
      split at hprocs
      · exact hearlier k proc hprocs
      · rw [List.getElem?_singleton] at hprocs
        split at hprocs
        · obtain rfl := Option.some.inj hprocs
          exact hstart q i hm
        · cases hprocs
    | resume n =>
      cases hn : q.procs[n]? with
      | none =>
        rw [Pool.move_resume_none hn] at hproc ⊢
        exact hearlier k proc hproc
      | some resumed =>
        by_cases hk : k = n
        · subst hk
          rw [Pool.procs_move_self hn] at hproc
          obtain rfl := Option.some.inj hproc
          rw [Pool.move_resume hn]
          exact hown q k resumed hm hn (hearlier k resumed hn)
        · rw [Pool.procs_move_of_ne hn hk] at hproc
          rw [Pool.move_resume hn]
          exact hother q n resumed k proc hm hn hproc hk (hearlier k proc hproc)

/-- **The rule for what the moves tell of a process**: what they tell when it is started, when it
is resumed and when another one is. -/
theorem run_each {P : Program ι σ π} {p : Pool σ π} {J : List (Move ι) → ℕ → π → Prop}
    (hfirst : ∀ (n : ℕ) proc, p.procs[n]? = some proc → J [] n proc)
    (hstart : ∀ moves i, J (moves ++ [.start i]) (p.run P moves).procs.length
      (P.start i (p.run P moves).shared))
    (hresume : ∀ moves n proc, (p.run P moves).procs[n]? = some proc → J moves n proc →
      J (moves ++ [.resume n]) n (P.resume proc (p.run P moves).shared).1)
    (hkeep : ∀ moves m n proc, (p.run P moves).procs[n]? = some proc → m ≠ .resume n →
      J moves n proc → J (moves ++ [m]) n proc)
    (moves : List (Move ι)) {n : ℕ} {proc : π} (hn : (p.run P moves).procs[n]? = some proc) :
    J moves n proc := by
  induction moves using List.reverseRecOn generalizing n proc with
  | nil => exact hfirst n proc hn
  | append_singleton moves m ih =>
    rw [Pool.run_concat] at hn
    set q := p.run P moves with hq
    cases m with
    | start i =>
      have hprocs : (q.procs ++ [P.start i q.shared])[n]? = some proc := hn
      by_cases hlt : n < q.procs.length
      · rw [List.getElem?_append_left hlt] at hprocs
        exact hkeep moves _ n proc hprocs (fun h => by cases h) (ih hprocs)
      · rw [List.getElem?_append_right (Nat.le_of_not_lt hlt), List.getElem?_singleton] at hprocs
        split at hprocs
        · obtain rfl := Option.some.inj hprocs
          have hlength : n = q.procs.length := by omega
          rw [hlength]
          exact hstart moves i
        · cases hprocs
    | resume m =>
      cases hm : q.procs[m]? with
      | none =>
        rw [Pool.move_resume_none hm] at hn
        have hne : (Move.resume m : Move ι) ≠ .resume n := by
          rintro ⟨⟩
          rw [hn] at hm
          cases hm
        exact hkeep moves _ n proc hn hne (ih hn)
      | some resumed =>
        by_cases hne : n = m
        · subst hne
          rw [Pool.procs_move_self hm] at hn
          obtain rfl := Option.some.inj hn
          exact hresume moves n resumed hm (ih hm)
        · rw [Pool.procs_move_of_ne hm hne] at hn
          exact hkeep moves _ n proc hn (fun h => hne (Move.resume.inj h).symm) (ih hn)

/-! ## Processes that do not notice each other -/

/-- A process that is resumed again and again, with nothing in between. -/
def Program.alone : ℕ → π × σ → π × σ
  | 0, x => x
  | n + 1, x => alone n (P.resume x.1 x.2)

section Alike

variable {P}

theorem Program.alone_add (m n : ℕ) (x : π × σ) : P.alone (m + n) x = P.alone n (P.alone m x) := by
  induction m generalizing x with
  | zero => rw [Nat.zero_add]; rfl
  | succ m ih => rw [Nat.succ_add]; exact ih _

/-- A view of the processes that moves alike in every shared state. -/
def Program.Unaware {ρ : Type} (P : Program ι σ π) (view : π → ρ) : Prop :=
  ∀ proc proc' s s', view proc = view proc' → view (P.resume proc s).1 = view (P.resume proc' s').1

/-- From places that look alike, processes that are alone come to places that do. -/
theorem Program.Unaware.alone {ρ : Type} {view : π → ρ} (h : P.Unaware view) (n : ℕ)
    {x y : π × σ} (hview : view x.1 = view y.1) :
    view (P.alone n x).1 = view (P.alone n y).1 := by
  induction n generalizing x y with
  | zero => exact hview
  | succ n ih => exact ih (h _ _ _ _ hview)

/-- **Processes that do not notice each other.**  After every run, the view of a process is the one
of a process that was started in the same state and has been alone since. -/
theorem run_alone {ρ : Type} {view : π → ρ} (h : P.Unaware view) (s : σ) (moves : List (Move ι))
    {n : ℕ} {proc : π} (hn : (Pool.run P ⟨s, []⟩ moves).procs[n]? = some proc) :
    ∃ before i k, before ++ [.start i] <+: moves ∧
      (Pool.run P ⟨s, []⟩ before).procs.length = n ∧
      view proc = view (P.alone k (P.start i (Pool.run P ⟨s, []⟩ before).shared,
        (Pool.run P ⟨s, []⟩ before).shared)).1 := by
  refine run_each (P := P) (p := ⟨s, []⟩) (J := fun moves n proc =>
    ∃ before i k, before ++ [.start i] <+: moves ∧
      (Pool.run P ⟨s, []⟩ before).procs.length = n ∧
      view proc = view (P.alone k (P.start i (Pool.run P ⟨s, []⟩ before).shared,
        (Pool.run P ⟨s, []⟩ before).shared)).1) ?_ ?_ ?_ ?_ moves hn
  · intro n proc hproc
    simp at hproc
  · exact fun moves i => ⟨moves, i, 0, List.prefix_rfl, rfl, rfl⟩
  · rintro moves n proc - ⟨before, i, k, hearlier, hlength, hview⟩
    refine ⟨before, i, k + 1, hearlier.trans (List.prefix_append _ _), hlength, ?_⟩
    rw [Program.alone_add]
    exact h _ _ _ _ hview
  · rintro moves m n proc - - ⟨before, i, k, hearlier, hlength, hview⟩
    exact ⟨before, i, k, hearlier.trans (List.prefix_append _ _), hlength, hview⟩

end Alike

/-! ## Processes that keep to what is theirs -/

/-- What has been started, in order. -/
def starts : List (Move ι) → List ι
  | [] => []
  | .start i :: moves => i :: starts moves
  | .resume _ :: moves => starts moves

theorem starts_append (before after : List (Move ι)) :
    starts (before ++ after) = starts before ++ starts after := by
  induction before with
  | nil => rfl
  | cons m moves ih =>
    cases m with
    | start i => exact congrArg (i :: ·) ih
    | resume n => exact ih

/-- Processes that look at parts of the shared state, and change them, only if they own them; what
is `valid` of a process stays so. -/
structure KeepsTo {κ α : Type} (P : Program ι σ π) (valid : π → Prop) (owner : ι → κ → Prop)
    (own : π → κ → Prop) (part : κ → σ → α) : Prop where
  valid_start : ∀ i s, valid (P.start i s)
  valid_resume : ∀ proc s, valid proc → valid (P.resume proc s).1
  start_eq : ∀ i s s', P.start i s = P.start i s'
  own_start : ∀ i s, own (P.start i s) = owner i
  own_resume : ∀ proc s, own (P.resume proc s).1 = own proc
  reads : ∀ proc s s', (∀ k, own proc k → part k s = part k s') →
    (P.resume proc s).1 = (P.resume proc s').1 ∧
      ∀ k, own proc k → part k (P.resume proc s).2 = part k (P.resume proc s').2
  writes : ∀ proc s k, valid proc → ¬ own proc k → part k (P.resume proc s).2 = part k s

/-- Nothing is owned by two. -/
def NothingShared {κ : Type} (owner : ι → κ → Prop) (tasks : List ι) : Prop :=
  tasks.Pairwise fun i j => ∀ k, owner i k → ¬ owner j k

/-- How far a process has come that was started in a state and has been alone since. -/
def Program.solo (i : ι) (s : σ) (m : ℕ) : π × σ := P.alone m (P.start i s, s)

theorem Program.solo_succ (i : ι) (s : σ) (m : ℕ) :
    P.solo i s (m + 1) = P.resume (P.solo i s m).1 (P.solo i s m).2 :=
  P.alone_add m 1 _

/-- Two at different places own nothing in common. -/
theorem disjoint_getElem? {κ : Type} {owner : ι → κ → Prop} {tasks : List ι} {n m : ℕ} {i j : ι}
    {k : κ} (h : NothingShared owner tasks) (hi : tasks[n]? = some i) (hj : tasks[m]? = some j)
    (hne : n ≠ m) (hk : owner i k) : ¬ owner j k := by
  obtain ⟨hn, rfl⟩ := List.getElem?_eq_some_iff.1 hi
  obtain ⟨hm, rfl⟩ := List.getElem?_eq_some_iff.1 hj
  rcases Nat.lt_or_gt_of_ne hne with hlt | hgt
  · exact List.pairwise_iff_getElem.1 h n m hn hm hlt k hk
  · exact fun hk' => List.pairwise_iff_getElem.1 h m n hm hn hgt k hk' hk

section KeepsTo

variable {P} {κ α : Type} {valid : π → Prop} {owner : ι → κ → Prop} {own : π → κ → Prop}
  {part : κ → σ → α}

theorem KeepsTo.own_solo (h : KeepsTo P valid owner own part) (i : ι) (s : σ) (m : ℕ) :
    own (P.solo i s m).1 = owner i := by
  induction m with
  | zero => exact h.own_start i s
  | succ m ih => rw [Program.solo_succ, h.own_resume, ih]

theorem KeepsTo.valid_solo (h : KeepsTo P valid owner own part) (i : ι) (s : σ) (m : ℕ) :
    valid (P.solo i s m).1 := by
  induction m with
  | zero => exact h.valid_start i s
  | succ m ih =>
    rw [Program.solo_succ]
    exact h.valid_resume _ _ ih

/-- A part is as it was if it is nobody's; a process is where it would be alone, and what it owns
is as it would be. -/
structure Apart (P : Program ι σ π) (owner : ι → κ → Prop) (part : κ → σ → α) (s : σ)
    (tasks : List ι) (p : Pool σ π) : Prop where
  length_eq : p.procs.length = tasks.length
  solo : ∀ (n : ℕ) proc i, p.procs[n]? = some proc → tasks[n]? = some i →
    ∃ m, proc = (P.solo i s m).1 ∧ ∀ k, owner i k → part k p.shared = part k (P.solo i s m).2
  free : ∀ k, (∀ i ∈ tasks, ¬ owner i k) → part k p.shared = part k s

theorem KeepsTo.apart_start (h : KeepsTo P valid owner own part) {s : σ} {tasks : List ι}
    {p : Pool σ π} (hp : Apart P owner part s tasks p) {i : ι}
    (hdisjoint : NothingShared owner (tasks ++ [i])) :
    Apart P owner part s (tasks ++ [i]) (p.move P (.start i)) := by
  refine ⟨by simp [Pool.move, hp.length_eq], ?_, ?_⟩
  · intro n proc j hproc hj
    have hprocs : (p.procs ++ [P.start i p.shared])[n]? = some proc := hproc
    by_cases hlt : n < p.procs.length
    · rw [List.getElem?_append_left hlt] at hprocs
      rw [List.getElem?_append_left (hp.length_eq ▸ hlt)] at hj
      exact hp.solo n proc j hprocs hj
    · rw [List.getElem?_append_right (Nat.le_of_not_lt hlt), List.getElem?_singleton] at hprocs
      rw [List.getElem?_append_right (hp.length_eq ▸ Nat.le_of_not_lt hlt), ← hp.length_eq,
        List.getElem?_singleton] at hj
      split at hprocs
      · rename_i hlast
        rw [if_pos hlast] at hj
        obtain rfl := Option.some.inj hprocs
        obtain rfl := Option.some.inj hj
        refine ⟨0, h.start_eq _ _ _, fun k hk => ?_⟩
        exact hp.free k fun j hj hother =>
          (List.pairwise_append.1 hdisjoint).2.2 j hj i (List.mem_singleton.2 rfl) k hother hk
      · cases hprocs
  · intro k hk
    exact hp.free k fun i hi => hk i (List.mem_append_left _ hi)

theorem KeepsTo.apart_resume (h : KeepsTo P valid owner own part) {s : σ} {tasks : List ι}
    {p : Pool σ π} (hp : Apart P owner part s tasks p) (hdisjoint : NothingShared owner tasks)
    (n : ℕ) :
    Apart P owner part s tasks (p.move P (.resume n)) := by
  cases hn : p.procs[n]? with
  | none =>
    rw [Pool.move_resume_none hn]
    exact hp
  | some proc =>
    have hlt : n < tasks.length := hp.length_eq ▸ (List.getElem?_eq_some_iff.1 hn).1
    obtain ⟨i, hi⟩ : ∃ i, tasks[n]? = some i := ⟨_, List.getElem?_eq_getElem hlt⟩
    obtain ⟨m, hproc, hparts⟩ := hp.solo n proc i hn hi
    have hown : own proc = owner i := by rw [hproc, h.own_solo]
    have hvalid : valid proc := hproc ▸ h.valid_solo i s m
    have hread := h.reads proc p.shared (P.solo i s m).2 fun k hk => hparts k (hown ▸ hk)
    refine ⟨?_, ?_, ?_⟩
    · rw [Pool.move_resume hn]
      exact (List.length_set ..).trans hp.length_eq
    · intro n' proc' j hproc' hj
      by_cases hne : n' = n
      · subst hne
        obtain rfl := Option.some.inj (hi.symm.trans hj)
        rw [Pool.procs_move_self hn] at hproc'
        obtain rfl := Option.some.inj hproc'
        rw [Pool.move_resume hn]
        refine ⟨m + 1, ?_, fun k hk => ?_⟩
        · rw [Program.solo_succ, ← hproc]
          exact hread.1
        · rw [Program.solo_succ, ← hproc]
          exact hread.2 k (hown ▸ hk)
      · rw [Pool.procs_move_of_ne hn hne] at hproc'
        obtain ⟨m', hother, hparts'⟩ := hp.solo n' proc' j hproc' hj
        rw [Pool.move_resume hn]
        refine ⟨m', hother, fun k hk => ?_⟩
        have hforeign : ¬ own proc k := by
          rw [hown]
          exact fun hmine => disjoint_getElem? hdisjoint hi hj (Ne.symm hne) hmine hk
        rw [h.writes proc p.shared k hvalid hforeign]
        exact hparts' k hk
    · intro k hk
      rw [Pool.move_resume hn, h.writes proc p.shared k hvalid]
      · exact hp.free k hk
      · rw [hown]
        exact hk i (List.mem_of_getElem? hi)

/-- **What is one's own.**  In every run of processes that own different parts, each is where it
would be alone, and so is what it owns; the rest is as it was. -/
theorem KeepsTo.run_alone (h : KeepsTo P valid owner own part) (s : σ) (moves : List (Move ι))
    (hdisjoint : NothingShared owner (starts moves)) :
    Apart P owner part s (starts moves) (Pool.run P ⟨s, []⟩ moves) := by
  induction moves using List.reverseRecOn with
  | nil =>
    refine ⟨rfl, ?_, fun _ _ => rfl⟩
    intro n proc i hproc
    simp [Pool.run] at hproc
  | append_singleton moves m ih =>
    rw [starts_append] at hdisjoint ⊢
    rw [Pool.run_concat]
    have hearlier := ih (List.pairwise_append.1 hdisjoint).1
    cases m with
    | start i => exact h.apart_start hearlier hdisjoint
    | resume n =>
      have hnone : starts [(Move.resume n : Move ι)] = [] := rfl
      rw [hnone, List.append_nil] at hdisjoint ⊢
      exact h.apart_resume hearlier hdisjoint n

end KeepsTo

/-! ## What the moves of a run leave -/

/-- What moves put down, in the order in which they come. -/
def history {ε : Type} (emit : Pool σ π → Move ι → Option ε) : Pool σ π → List (Move ι) → List ε
  | _, [] => []
  | p, m :: moves => (emit p m).toList ++ history emit (p.move P m) moves

section History

variable {P} {ε : Type} {emit : Pool σ π → Move ι → Option ε}

theorem history_concat (p : Pool σ π) (moves : List (Move ι)) (m : Move ι) :
    history P emit p (moves ++ [m]) =
      history P emit p moves ++ (emit (p.run P moves) m).toList := by
  induction moves generalizing p with
  | nil => exact List.append_nil _
  | cons m' moves ih =>
    rw [List.cons_append, history, history, ih, List.append_assoc]
    rfl

/-- **A part of the shared state is what the moves have made of it**, one after the other. -/
theorem shared_run {τ : Type} (part : σ → τ) {write : τ → ε → τ}
    (h : ∀ (p : Pool σ π) m, part (p.move P m).shared =
      (emit p m).toList.foldl write (part p.shared)) (p : Pool σ π) (moves : List (Move ι)) :
    part (p.run P moves).shared = (history P emit p moves).foldl write (part p.shared) := by
  induction moves generalizing p with
  | nil => rfl
  | cons m moves ih => rw [Pool.run_cons, ih, h, history, List.foldl_append]

/-- What is put down at most once by a process: only by one that is not past it, and then is. -/
structure OncePast (P : Program ι σ π) (emit : Pool σ π → Move ι → Option ε) (number : ε → ℕ)
    (past : π → Prop) : Prop where
  stays : ∀ proc s, past proc → past (P.resume proc s).1
  emits : ∀ (p : Pool σ π) m e, emit p m = some e → ∃ proc, m = .resume (number e) ∧
    p.procs[number e]? = some proc ∧ ¬ past proc ∧ past (P.resume proc p.shared).1

/-- A process that is past it stays so. -/
theorem OncePast.run_stays {number : ε → ℕ} {past : π → Prop} (h : OncePast P emit number past)
    {p : Pool σ π} {m : Move ι} {n : ℕ} {proc : π} (hn : p.procs[n]? = some proc)
    (hpast : past proc) : ∃ proc', (p.move P m).procs[n]? = some proc' ∧ past proc' := by
  obtain ⟨proc', hproc', heq⟩ := Pool.proc_move (P := P) hn m
  refine ⟨proc', hproc', ?_⟩
  rcases heq with rfl | rfl
  · exact hpast
  · exact h.stays _ _ hpast

/-- Who has put something down is past it. -/
theorem OncePast.past_run {number : ε → ℕ} {past : π → Prop} (h : OncePast P emit number past)
    (p : Pool σ π) (moves : List (Move ι)) : ∀ e ∈ history P emit p moves,
      ∃ proc, (p.run P moves).procs[number e]? = some proc ∧ past proc := by
  induction moves using List.reverseRecOn with
  | nil => exact fun e he => absurd he List.not_mem_nil
  | append_singleton moves m ih =>
    intro e he
    rw [Pool.run_concat]
    rw [history_concat, List.mem_append] at he
    rcases he with hold | hnew
    · obtain ⟨proc, hproc, hpast⟩ := ih e hold
      exact h.run_stays hproc hpast
    · rw [Option.mem_toList] at hnew
      obtain ⟨proc, rfl, hproc, -, hpast⟩ := h.emits _ _ _ hnew
      exact ⟨_, Pool.procs_move_self hproc, hpast⟩

/-- **No process puts it down twice.** -/
theorem OncePast.nodup {number : ε → ℕ} {past : π → Prop} (h : OncePast P emit number past)
    (p : Pool σ π) (moves : List (Move ι)) : ((history P emit p moves).map number).Nodup := by
  induction moves using List.reverseRecOn with
  | nil => exact List.nodup_nil
  | append_singleton moves m ih =>
    rw [history_concat, List.map_append]
    cases hemit : emit (p.run P moves) m with
    | none =>
      rw [Option.toList_none, List.map_nil, List.append_nil]
      exact ih
    | some e =>
      obtain ⟨proc, -, hproc, hnot, -⟩ := h.emits _ _ _ hemit
      rw [Option.toList_some, List.map_singleton]
      refine List.nodup_append.2 ⟨ih, List.nodup_cons.2 ⟨List.not_mem_nil, List.nodup_nil⟩, ?_⟩
      intro n hn n' hn' heq
      obtain rfl := List.mem_singleton.1 hn'
      obtain ⟨e', he', rfl⟩ := List.mem_map.1 hn
      obtain ⟨proc', hproc', hpast⟩ := h.past_run p moves e' he'
      rw [heq, hproc] at hproc'
      exact hnot (Option.some.inj hproc' ▸ hpast)

end History

end Interleaving
