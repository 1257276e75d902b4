import Mathlib.Data.List.Basic
import Mathlib.Data.List.Count

/-!
# Names joined by a delimiter

Three names are joined by a delimiter that may occur in the names themselves.  Such a text can
be read back only if the delimiter occurs in none of them; otherwise there is another reading.

* `Delimited.join` — the three names with the delimiter in between.
* `Delimited.join_inj_left` — names without the delimiter are the only reading of their text.
* `Delimited.join_inj_front` — it is enough that the first two names, of both readings, are such.
* `Delimited.exists_other` — every other text has another reading.
* `Delimited.join_inj_dropLast`, `Delimited.exists_other_dropLast` — the same for readings whose
  last name is not empty.
-/

namespace Delimited

variable {α : Type} [DecidableEq α]

/-- Three names with a delimiter in between. -/
def join (d : α) (a b c : List α) : List α := a ++ d :: (b ++ d :: c)

/-- The delimiter occurs in none of the names. -/
structure Plain (d : α) (a b c : List α) : Prop where
  first : d ∉ a
  second : d ∉ b
  third : d ∉ c

instance (d : α) (a b c : List α) : Decidable (Plain d a b c) :=
  decidable_of_iff (d ∉ a ∧ d ∉ b ∧ d ∉ c)
    ⟨fun h => ⟨h.1, h.2.1, h.2.2⟩, fun h => ⟨h.first, h.second, h.third⟩⟩

variable {d : α} {a b c a' b' c' : List α}

theorem plain_iff_count : Plain d a b c ↔ (join d a b c).count d = 2 := by
  have hcount : (join d a b c).count d = a.count d + b.count d + c.count d + 2 := by
    simp only [join, List.count_append, List.count_cons_self]
    omega
  rw [hcount]
  constructor
  · rintro ⟨ha, hb, hc⟩
    rw [List.count_eq_zero.2 ha, List.count_eq_zero.2 hb, List.count_eq_zero.2 hc]
  · intro h
    exact ⟨List.count_eq_zero.1 (by omega), List.count_eq_zero.1 (by omega),
      List.count_eq_zero.1 (by omega)⟩

omit [DecidableEq α] in
/-- What comes before the first delimiter is read back. -/
theorem append_cons_inj {r r' : List α} (ha : d ∉ a) (ha' : d ∉ a')
    (h : a ++ d :: r = a' ++ d :: r') : a = a' ∧ r = r' := by
  induction a generalizing a' with
  | nil =>
    cases a' with
    | nil => exact ⟨rfl, (List.cons.inj h).2⟩
    | cons x xs =>
      rw [(List.cons.inj h).1] at ha'
      exact absurd (List.mem_cons_self ..) ha'
  | cons y ys ih =>
    cases a' with
    | nil =>
      rw [← (List.cons.inj h).1] at ha
      exact absurd (List.mem_cons_self ..) ha
    | cons x xs =>
      obtain ⟨hhead, htail⟩ := List.cons.inj h
      have hys : d ∉ ys := fun hmem => ha (List.mem_cons_of_mem _ hmem)
      have hxs : d ∉ xs := fun hmem => ha' (List.mem_cons_of_mem _ hmem)
      obtain ⟨heq, hrest⟩ := ih hys hxs htail
      exact ⟨by rw [hhead, heq], hrest⟩

omit [DecidableEq α] in
/-- A stretch without the delimiter ends before the delimiter does. -/
theorem append_cons_eq_append {r y : List α} (hc : d ∉ c) (h : a ++ d :: r = c ++ y) :
    ∃ b, a = c ++ b ∧ y = b ++ d :: r := by
  rcases List.append_eq_append_iff.1 h with ⟨b, rfl, hb⟩ | ⟨b, rfl, hb⟩
  · cases b with
    | nil => exact ⟨[], by simp, by simpa using hb.symm⟩
    | cons x xs =>
      obtain ⟨rfl, -⟩ := List.cons.inj hb
      exact absurd (by simp) hc
  · exact ⟨b, rfl, hb⟩

omit [DecidableEq α] in
/-- Two readings whose first two names are without the delimiter are one. -/
theorem join_inj_front (ha : d ∉ a) (hb : d ∉ b) (ha' : d ∉ a') (hb' : d ∉ b')
    (h : join d a b c = join d a' b' c') : a = a' ∧ b = b' ∧ c = c' := by
  obtain ⟨hfirst, hrest⟩ := append_cons_inj ha ha' h
  exact ⟨hfirst, append_cons_inj hb hb' hrest⟩

/-- Names without the delimiter are the only reading of their text. -/
theorem join_inj_left (hplain : Plain d a b c) (h : join d a b c = join d a' b' c') :
    a = a' ∧ b = b' ∧ c = c' := by
  have hplain' : Plain d a' b' c' := by
    rw [plain_iff_count, ← h]
    exact plain_iff_count.1 hplain
  exact join_inj_front hplain.first hplain.second hplain'.first hplain'.second h

/-- Every other text has another reading. -/
theorem exists_other (hplain : ¬ Plain d a b c) :
    ∃ a' b' c', join d a' b' c' = join d a b c ∧ ¬ (a' = a ∧ b' = b) := by
  by_cases ha : d ∈ a
  · -- the first name is split, and the others make one
    obtain ⟨a₁, a₂, rfl⟩ := List.append_of_mem ha
    refine ⟨a₁, a₂, b ++ d :: c, by simp [join], fun h => ?_⟩
    simpa using h.1
  · by_cases hb : d ∈ b
    · obtain ⟨b₁, b₂, rfl⟩ := List.append_of_mem hb
      refine ⟨a, b₁, b₂ ++ d :: c, by simp [join], fun h => ?_⟩
      simpa using h.2
    · have hc : d ∈ c := by_contra fun hc => hplain ⟨ha, hb, hc⟩
      obtain ⟨c₁, c₂, rfl⟩ := List.append_of_mem hc
      refine ⟨a, b ++ d :: c₁, c₂, by simp [join], fun h => ?_⟩
      simpa using h.2

/-! ## A last name that is not empty -/

omit [DecidableEq α] in
/-- The last place of the last name is the last place of the text. -/
theorem join_dropLast (hc : c ≠ []) :
    join d a b c = join d a b c.dropLast ++ [c.getLast hc] := by
  conv_lhs => rw [← List.dropLast_append_getLast hc]
  simp [join]

/-- Names of which only the last place may be the delimiter are the only reading of their text
whose last name is not empty. -/
theorem join_inj_dropLast (hplain : Plain d a b c.dropLast) (hc : c ≠ []) (hc' : c' ≠ [])
    (h : join d a b c = join d a' b' c') : a = a' ∧ b = b' ∧ c = c' := by
  rw [join_dropLast hc, join_dropLast hc'] at h
  obtain ⟨hfront, hlast⟩ := List.append_inj' h rfl
  obtain ⟨ha, hb, hinit⟩ := join_inj_left hplain hfront
  refine ⟨ha, hb, ?_⟩
  rw [← List.dropLast_append_getLast hc, ← List.dropLast_append_getLast hc', hinit,
    (List.cons.inj hlast).1]

/-- Every other text has another reading whose last name is not empty. -/
theorem exists_other_dropLast (hc : c ≠ []) (hplain : ¬ Plain d a b c.dropLast) :
    ∃ a' b' c', join d a' b' c' = join d a b c ∧ ¬ (a' = a ∧ b' = b) ∧ c' ≠ [] := by
  obtain ⟨a', b', c', hjoin, hother⟩ := exists_other hplain
  refine ⟨a', b', c' ++ [c.getLast hc], ?_, hother, by simp⟩
  rw [join_dropLast hc, ← hjoin]
  simp [join]

end Delimited
