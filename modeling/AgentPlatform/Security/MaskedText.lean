import AgentPlatform.Security.Detectors

/-!
# Redacted text

`maskText` runs its four detectors one after the other, each over what the one
before it has left.

* `emailPass_quiet`, `phonePass_quiet`, `cardPass_quiet`, `panPass_quiet` — each pass
  removes what it looks for.
* `masked_no_pan`, `masked_no_phone` — and the later passes do not bring it back,
  if it is a PAN or a phone number.
* `phonePass_trace` — the one way in which a later pass makes something new: the mask
  of a phone number ends in letters.
-/

namespace AgentPlatform

open Regex

/-! ## The four passes -/

section Passes

variable (rt : PyRuntime)

def panPass (t : List Char) : List Char := panRe.sub rt.isWord "PANXXXX9999".toList t

def emailPass (t : List Char) : List Char := emailRe.sub rt.isWord "***@***".toList t

def phonePass (t : List Char) : List Char := (phoneRe rt).sub rt.isWord "******XXXX".toList t

def cardPass (t : List Char) : List Char := (cardRe rt).sub rt.isWord "*****".toList t

theorem toList_maskText (text : String) :
    (maskText rt text).toList =
      cardPass rt (phonePass rt (emailPass rt (panPass rt text.toList))) := by
  rw [maskText, String.toList_ofList]
  rfl

end Passes

section Completeness

variable {rt : PyRuntime} (h : rt.Classes) {t c : List Char}

/-! ## Words and masks -/

/-- A word that begins like a local part and has no star is apart from the masks of
addresses and cards. -/
theorem apart_of_local {x : Char} {xs : List Char} (hc : c = x :: xs) (hx : isLocal x = true)
    (hstar : '*' ∉ c) : Apart "***@***".toList c ∧ Apart "*****".toList c := by
  subst hc
  have hx' : x ∉ "***@***".toList := by
    intro hmem
    rw [not_isLocal_of_mem hmem] at hx
    cases hx
  have hx'' : x ∉ "*****".toList := by
    intro hmem
    exact hx' (by revert hmem; simp; exact .inl)
  exact ⟨⟨by simp, by simpa using hx', by simpa using hstar⟩,
    ⟨by simp, by simpa using hx'', by simpa using hstar⟩⟩

theorem PanWord.apart (hc : PanWord c) :
    Apart "***@***".toList c ∧ Apart "*****".toList c := by
  obtain ⟨x, xs, hxs, hx⟩ := hc.head
  refine apart_of_local hxs ?_ ?_
  · exact isLocal_of_isDomain (isDomain_of_isAlphaAZ (isAlphaAZ_of_isUpperAZ hx))
  · intro hstar
    exact absurd (hc.mem '*' hstar) (by decide)

theorem EmailWord.apart (hc : EmailWord c) :
    Apart "***@***".toList c ∧ Apart "*****".toList c := by
  obtain ⟨x, xs, hxs, hx⟩ := hc.head
  refine apart_of_local hxs hx ?_
  intro hstar
  exact absurd (hc.mem '*' hstar) (by decide)

include h

/-- Digits and their separators are apart from the masks of numbers. -/
theorem apart_of_digits (hne : c ≠ [])
    (hc : ∀ x ∈ c, rt.isDigit x = true ∨ x ∈ "+- ".toList) :
    Apart "******XXXX".toList c ∧ Apart "*****".toList c := by
  have hmask : ∀ x ∈ "******XXXX".toList, isAlphaAZ x = true ∨ x ∈ "*@".toList :=
    List.all_iff_forall_prop.1 (by decide)
  have hmask' : ∀ x ∈ "*****".toList, isAlphaAZ x = true ∨ x ∈ "*@".toList :=
    List.all_iff_forall_prop.1 (by decide)
  exact ⟨.of_disjoint hne fun x hx hmem => h.not_in_number (hmask x hmem) (hc x hx),
    .of_disjoint hne fun x hx hmem => h.not_in_number (hmask' x hmem) (hc x hx)⟩

theorem PhoneWord.apart (hc : PhoneWord rt c) :
    Apart "******XXXX".toList c ∧ Apart "*****".toList c := by
  refine apart_of_digits h ?_ (hc.mem h)
  obtain ⟨code, n, rfl, -, x, xs, rfl, -⟩ := hc
  simp

theorem CardWord.apart (hc : CardWord rt c) : Apart "*****".toList c := by
  refine (apart_of_digits h ?_ hc.mem).2
  rintro rfl
  exact not_spans_nil rfl _ _ hc

/-! ## Every pass removes what it looks for -/

omit h in
theorem emailPass_quiet : ¬ Occurs (Edged rt.isWord EmailWord) none (emailPass rt t) :=
  (email_rewrites rt t).not_occurs (by simp) fun _ hc => hc.apart.1

theorem phonePass_quiet : ¬ Occurs (Edged rt.isWord (PhoneWord rt)) none (phonePass rt t) :=
  (phone_rewrites rt t).not_occurs (by simp) fun _ hc => (hc.apart h).1

theorem cardPass_quiet : ¬ Occurs (Edged rt.isWord (CardWord rt)) none (cardPass rt t) :=
  (card_rewrites rt t).not_occurs (by simp) fun _ hc => hc.apart h

/-- The characters of a PAN, and those of its mask, can stand in a word. -/
theorem word_of_pan {x : Char} (hx : isUpperAZ x = true ∨ isDigit09 x = true) :
    rt.isWord x = true := by
  rcases hx with hx | hx
  · exact h.word_of_alpha (isAlphaAZ_of_isUpperAZ hx)
  · exact h.word_of_digit x (h.digit_of_digit09 hx)

omit h in
/-- The mask of a PAN does not begin with a PAN. -/
theorem PanWord.append_ne {y out : List Char} (hc : PanWord c) :
    c ++ y ≠ "PANXXXX9999".toList ++ out := by
  obtain ⟨a, b, z, rfl, ⟨ha, -⟩, ⟨hlen, hb⟩, -⟩ := hc
  intro heq
  cases b with
  | nil => simp at hlen
  | cons x xs =>
    rw [List.append_assoc] at heq
    obtain ⟨-, hrest⟩ := List.append_inj
      (heq.trans (List.append_assoc "PANXX".toList "XX9999".toList out)) (by rw [ha]; rfl)
    obtain ⟨rfl, -⟩ := List.cons.inj hrest
    exact absurd (hb 'X' List.mem_cons_self) (by decide)

/-- The mask of a PAN is a word of its own, so no PAN overlaps it. -/
theorem panPass_quiet : ¬ Occurs (Edged rt.isWord PanWord) none (panPass rt t) := by
  rintro ⟨a, c, y, hout, hc⟩
  have hpan := hc.2.1
  obtain ⟨x, xs, rfl, hx⟩ := hpan.head
  obtain ⟨hleft, -, hright⟩ := (edged_iff (by simp)).1 hc
  have hR : Rewrites rt.isWord PanWord "PANXXXX9999".toList none t (a ++ (x :: xs ++ y)) :=
    hout ▸ pan_rewrites rt t
  rcases hR.trace_back (by simp) (by simp) hleft hright with ⟨a', y', -, hl, hr, hquiet⟩ |
    ⟨p, c₁, c₂, s, rest, out, hcc, -, hs, hmask⟩ |
    ⟨a', s, rest, b, r₁, r₂, out, -, hmask, hr₁, hr₂, rfl, hstart, -⟩
  · exact hquiet [] (x :: xs) rfl (by simp) _ y' rfl ((edged_iff (by simp)).2 ⟨hl, hpan, hr⟩)
  · -- Before the mask of a PAN stands no word character, so it is at the start.
    by_cases hc₁ : c₁ = []
    · subst hc₁
      rw [List.nil_append] at hcc
      rw [← hcc] at hmask
      exact hpan.append_ne hmask
    · obtain ⟨z, hz, hlast⟩ := lastOr_mem hc₁ p
      obtain ⟨w, ws, rfl, hw⟩ := hs.2.1.head
      have hedge := (edge_left_iff (word_of_pan h (.inl hw))).1 hs.1
      have hzword := word_of_pan h (hpan.mem z (by rw [hcc]; exact List.mem_append_left _ hz))
      rw [hlast, Option.any_some, hzword] at hedge
      cases hedge
  · -- Inside the mask of a PAN there is no edge.
    have hchars : ∀ z ∈ "PANXXXX9999".toList, isUpperAZ z = true ∨ isDigit09 z = true :=
      List.all_iff_forall_prop.1 (by decide)
    have hhead : r₂.head? = (x :: xs).head? := by
      rw [← List.head?_append_of_ne_nil r₂ hr₂, ← hstart, List.head?_append_of_ne_nil _ (by simp)]
    rw [lastOr_append, ← hhead] at hleft
    exact not_edge_inside (fun z hz => word_of_pan h (hchars z hz)) hmask hr₁ hr₂ _ hleft

/-! ## The mask of a phone number

It ends in letters, and something that begins there may be read as one word with
what follows the number. -/

omit h in
/-- Inside the mask of a phone number, past the stars, the only edge is before its
letters. -/
theorem phone_mask_cut {r₁ r₂ : List Char} (hmask : "******XXXX".toList = r₁ ++ r₂)
    (hr₁ : r₁ ≠ []) (hstar : r₂.head? ≠ some '*') (hr₂ : r₂ ≠ [])
    (hedge : Edge rt.isWord (lastOr none r₁) r₂.head?) : r₂ = "XXXX".toList := by
  have hcuts : ∀ k < 10, k ≠ 0 → ("******XXXX".toList.drop k).head? = some '*' ∨
      (lastOr none ("******XXXX".toList.take k) = some 'X' ∧
        ("******XXXX".toList.drop k).head? = some 'X') ∨
      "******XXXX".toList.drop k = "XXXX".toList := by decide
  have hlen : 10 = r₁.length + r₂.length := by
    rw [← List.length_append, ← hmask]
    rfl
  have hpos := List.length_pos_iff.2 hr₁
  have hpos' := List.length_pos_iff.2 hr₂
  have hcut := hcuts r₁.length (by omega) (by omega)
  rw [hmask, List.drop_left, List.take_left] at hcut
  rcases hcut with hcut | ⟨hlast, hhead⟩ | hcut
  · exact absurd hcut hstar
  · rw [hlast, hhead] at hedge
    exact absurd rfl hedge
  · exact hcut

omit h in
/-- What starts inside the mask of a phone number starts with its letters, and the
number ends there. -/
theorem phonePass_trace {a c y : List Char} (hout : phonePass rt t = a ++ (c ++ y))
    (hne : c ≠ []) (hstar : '*' ∉ c) (hleft : Edge rt.isWord (lastOr none a) c.head?)
    (hright : Edge rt.isWord (lastOr none c) y.head?) :
    (∃ a' y', t = a' ++ (c ++ y') ∧ Edge rt.isWord (lastOr none a') c.head? ∧
      Edge rt.isWord (lastOr none c) y'.head?) ∨
    ∃ a' s rest out, t = a' ++ (s ++ rest) ∧ c ++ y = "XXXX".toList ++ out ∧
      Edged rt.isWord (PhoneWord rt) (lastOr none a') s rest.head? ∧
      Rewrites rt.isWord (PhoneWord rt) "******XXXX".toList (lastOr (lastOr none a') s)
        rest out := by
  have hR : Rewrites rt.isWord (PhoneWord rt) "******XXXX".toList none t (a ++ (c ++ y)) :=
    hout ▸ phone_rewrites rt t
  rcases hR.trace_back (by simp) hne hleft hright with ⟨a', y', ht, hl, hr, -⟩ |
    ⟨_, c₁, c₂, s, rest, out, hcc, hc₂, -, hmask⟩ |
    ⟨a', s, rest, b, r₁, r₂, out, ht, hmask, hr₁, hr₂, rfl, hc, hs, hrest⟩
  · exact .inl ⟨a', y', ht, hl, hr⟩
  · exact absurd hmask (not_runs_into (by simp) (by simpa using hstar) hcc hc₂)
  · have hhead : r₂.head? = c.head? := by
      rw [← List.head?_append_of_ne_nil c hne, hc, List.head?_append_of_ne_nil r₂ hr₂]
    rw [lastOr_append, lastOr_eq_of_ne_nil hr₁ _ none, ← hhead] at hleft
    have hX : r₂ = "XXXX".toList := by
      refine phone_mask_cut hmask hr₁ ?_ hr₂ hleft
      rw [hhead]
      exact fun hs => hstar (List.mem_of_mem_head? hs)
    exact .inr ⟨a', s, rest, out, ht, by rw [hc, hX], hs, hrest⟩

/-- Where no word went on, none goes on after a pass whose mask begins with a star. -/
theorem after_kept {K : List Char → Prop} {repl y out : List Char} {prev : Option Char}
    (hrepl : repl.head? = some '*') (hy : y.head?.any rt.isWord = false)
    (hR : Rewrites rt.isWord K repl prev y out) : out.head?.any rt.isWord = false := by
  have hne : repl ≠ [] := by
    rintro rfl
    cases hrepl
  rcases hR.head?_result hne with heq | ⟨heq, -⟩
  · rw [heq]
    exact hy
  · rw [heq, hrepl]
    exact h.not_word_of_mem (by decide)

/-- After a phone number the text goes on with something that is no word character. -/
theorem after_phone {s rest out : List Char} {prev : Option Char}
    (hs : Edged rt.isWord (PhoneWord rt) prev s rest.head?)
    (hrest : Rewrites rt.isWord (PhoneWord rt) "******XXXX".toList (lastOr prev s) rest out) :
    rest.head?.any rt.isWord = false ∧ out.head?.any rt.isWord = false := by
  obtain ⟨-, ⟨code, n, rfl, -, hn⟩, hright⟩ := hs
  have hne : n ≠ [] := by
    obtain ⟨x, xs, rfl, -⟩ := hn
    simp
  obtain ⟨z, hz, hlast⟩ := lastOr_mem hne (lastOr prev code)
  rw [lastOr_append, hlast] at hright
  have hafter := (edge_right_iff (h.word_of_digit z (hn.mem h z hz))).1 hright
  exact ⟨hafter, after_kept h rfl hafter hrest⟩

/-- A PAN in what the phone pass leaves was there before. -/
theorem phonePass_pan (hocc : Occurs (Edged rt.isWord PanWord) none (phonePass rt t)) :
    Occurs (Edged rt.isWord PanWord) none t := by
  obtain ⟨a, c, y, hout, hc⟩ := hocc
  have hpan := hc.2.1
  have hne : c ≠ [] := hpan.apart.1.1
  obtain ⟨hleft, -, hright⟩ := (edged_iff hne).1 hc
  have hstar : '*' ∉ c := fun hstar => absurd (hpan.mem '*' hstar) (by decide)
  rcases phonePass_trace hout hne hstar hleft hright with ⟨a', y', rfl, hl, hr⟩ |
    ⟨a', s, rest, out, -, hX, hs, hrest⟩
  · exact ⟨a', c, y', rfl, (edged_iff hne).2 ⟨hl, hpan, hr⟩⟩
  · -- The fifth letter would stand where the number has ended.
    obtain ⟨-, hafter⟩ := after_phone h hs hrest
    obtain ⟨l, b, z, rfl, ⟨hlen, hl⟩, -, -⟩ := hpan
    match l, hlen, hl with
    | [x₁, x₂, x₃, x₄, x₅], _, hl =>
      obtain ⟨-, -, -, -, rfl⟩ : x₁ = 'X' ∧ x₂ = 'X' ∧ x₃ = 'X' ∧ x₄ = 'X' ∧
        x₅ :: (b ++ (z :: y)) = out := by simpa using hX
      have hword := word_of_pan h (.inl (hl x₅ (by simp)))
      rw [List.head?_cons, Option.any_some, hword] at hafter
      cases hafter

/-! ## Three of the four detectors -/

/-- No PAN is left, and none comes up. -/
theorem masked_no_pan : ¬ Occurs (Edged rt.isWord PanWord) none
    (cardPass rt (phonePass rt (emailPass rt (panPass rt t)))) := by
  intro hocc
  have hphone := (card_rewrites rt _).occurs_back (by simp) (fun _ hc => hc.apart.2) hocc
  have hemail := phonePass_pan h hphone
  exact panPass_quiet h
    ((email_rewrites rt _).occurs_back (by simp) (fun _ hc => hc.apart.1) hemail)

/-- No phone number is left, and none comes up. -/
theorem masked_no_phone :
    ¬ Occurs (Edged rt.isWord (PhoneWord rt)) none (cardPass rt (phonePass rt t)) := fun hocc =>
  phonePass_quiet h
    ((card_rewrites rt _).occurs_back (by simp) (fun _ hc => (hc.apart h).2) hocc)

end Completeness

end AgentPlatform
