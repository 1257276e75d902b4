import Mathlib.Data.Bool.AllAny
import AgentPlatform.Lib.Substitution
import AgentPlatform.Security.Pii

/-!
# What the detectors find

Each of the four detectors of the redaction is an expression between two word edges.
This file says which words it finds, and that a pass of `re.sub` with it is a
rewriting of these words.

* `PanWord`, `EmailWord`, `PhoneWord`, `CardWord` — the words.
* `pan_rewrites`, `email_rewrites`, `phone_rewrites`, `card_rewrites` — the four
  passes of `maskText`.
-/

namespace AgentPlatform

open Regex

/-! ## Character classes -/

/-- What the interpreter's tables say of ASCII characters, and that a digit can
stand in a word. -/
structure PyRuntime.Classes (rt : PyRuntime) : Prop where
  /-- `\d` on ASCII. -/
  digit_ascii : ∀ c : Char, c.toNat < 128 → rt.isDigit c = isDigit09 c
  /-- `\w` on ASCII. -/
  word_ascii : ∀ c : Char, c.toNat < 128 →
    rt.isWord c = (isAlphaAZ c || isDigit09 c || c == '_')
  /-- `\d` is part of `\w`. -/
  word_of_digit : ∀ c : Char, rt.isDigit c = true → rt.isWord c = true

/-- `[A-Za-z0-9._%+-]` -/
def isLocal (c : Char) : Bool := isAlphaAZ c || isDigit09 c || "._%+-".toList.contains c

/-- `[A-Za-z0-9.-]` -/
def isDomain (c : Char) : Bool := isAlphaAZ c || isDigit09 c || ".-".toList.contains c

theorem inRange_iff {lo hi c : Char} :
    inRange lo hi c = true ↔ lo.toNat ≤ c.toNat ∧ c.toNat ≤ hi.toNat := by
  rw [inRange, Bool.and_eq_true, decide_eq_true_eq, decide_eq_true_eq]
  exact Iff.rfl

theorem isAlphaAZ_iff {c : Char} :
    isAlphaAZ c = true ↔ (65 ≤ c.toNat ∧ c.toNat ≤ 90) ∨ (97 ≤ c.toNat ∧ c.toNat ≤ 122) := by
  rw [isAlphaAZ, Bool.or_eq_true, inRange_iff, inRange_iff]
  exact Iff.rfl

theorem isDigit09_iff {c : Char} : isDigit09 c = true ↔ 48 ≤ c.toNat ∧ c.toNat ≤ 57 :=
  inRange_iff

theorem isAlphaAZ_of_isUpperAZ {c : Char} (h : isUpperAZ c = true) : isAlphaAZ c = true := by
  rw [isAlphaAZ, Bool.or_eq_true]
  exact .inl h

theorem isDomain_of_isAlphaAZ {c : Char} (h : isAlphaAZ c = true) : isDomain c = true := by
  simp [isDomain, h]

theorem isLocal_of_isDigit09 {c : Char} (h : isDigit09 c = true) : isLocal c = true := by
  simp [isLocal, h]

theorem isLocal_of_isDomain {c : Char} (h : isDomain c = true) : isLocal c = true := by
  simp only [isDomain, isLocal, Bool.or_eq_true, List.contains_iff_mem] at h ⊢
  rcases h with h | h
  · exact .inl h
  · refine .inr ?_
    revert h
    simp
    rintro (rfl | rfl) <;> simp

theorem toNat_lt_of_isLocal {c : Char} (h : isLocal c = true) : c.toNat < 128 := by
  simp only [isLocal, Bool.or_eq_true, List.contains_iff_mem] at h
  rcases h with (h | h) | h
  · have := isAlphaAZ_iff.1 h
    omega
  · have := isDigit09_iff.1 h
    omega
  · have hall : ∀ c ∈ "._%+-".toList, c.toNat < 128 :=
      List.all_iff_forall_prop.1 (by decide)
    exact hall c h

/-- The characters of a mask that no address begins with. -/
theorem not_isLocal_of_mem {c : Char} (h : c ∈ "***@***".toList) : isLocal c = false := by
  have hall : ∀ c ∈ "***@***".toList, isLocal c = false :=
    List.all_iff_forall_prop.1 (by decide)
  exact hall c h

namespace PyRuntime.Classes

variable {rt : PyRuntime} (h : rt.Classes)

include h

theorem word_of_alpha {c : Char} (hc : isAlphaAZ c = true) : rt.isWord c = true := by
  have hlt : c.toNat < 128 := by have := isAlphaAZ_iff.1 hc; omega
  rw [h.word_ascii c hlt, hc, Bool.true_or, Bool.true_or]

theorem digit_of_digit09 {c : Char} (hc : isDigit09 c = true) : rt.isDigit c = true := by
  have hlt : c.toNat < 128 := by have := isDigit09_iff.1 hc; omega
  rw [h.digit_ascii c hlt, hc]

/-- The separators and the characters of the masks that stand in no word. -/
theorem not_word_of_mem {c : Char} (hc : c ∈ "+- *@.".toList) : rt.isWord c = false := by
  have hall : ∀ c ∈ "+- *@.".toList, c.toNat < 128 ∧
      (isAlphaAZ c || isDigit09 c || c == '_') = false :=
    List.all_iff_forall_prop.1 (by decide)
  rw [h.word_ascii c (hall c hc).1]
  exact (hall c hc).2

/-- No letter is a digit. -/
theorem not_digit_of_alpha {c : Char} (hc : isAlphaAZ c = true) : rt.isDigit c = false := by
  have hrange := isAlphaAZ_iff.1 hc
  rw [h.digit_ascii c (by omega), Bool.eq_false_iff]
  intro hd
  have := isDigit09_iff.1 hd
  omega

/-- Letters, and the other characters of the masks, are in no phone or card number. -/
theorem not_in_number {c : Char} (hc : isAlphaAZ c = true ∨ c ∈ "*@".toList) :
    ¬ (rt.isDigit c = true ∨ c ∈ "+- ".toList) := by
  have hpunct : ∀ c ∈ "*@".toList, c.toNat < 128 ∧ isDigit09 c = false ∧ c ∉ "+- ".toList :=
    List.all_iff_forall_prop.1 (by decide)
  have hsep : ∀ c ∈ "+- ".toList, isAlphaAZ c = false := List.all_iff_forall_prop.1 (by decide)
  rintro (hdigit | hmem) <;> rcases hc with hc | hc
  · rw [h.not_digit_of_alpha hc] at hdigit
    cases hdigit
  · rw [h.digit_ascii c (hpunct c hc).1, (hpunct c hc).2.1] at hdigit
    cases hdigit
  · rw [hsep c hmem] at hc
    cases hc
  · exact (hpunct c hc).2.2 hmem

end PyRuntime.Classes

/-! ## The expressions -/

section Expressions

variable {isWord : Char → Bool} {prev next : Option Char} {s : List Char}

theorem spans_times {n : ℕ} {p : Char → Bool} :
    (times n p).Spans isWord prev s next ↔ s.length = n ∧ ∀ c ∈ s, p c = true := by
  constructor
  · rintro ⟨k, hmin, hmax, hk⟩
    obtain ⟨hlen, hall⟩ := Lang.rounds_char.1 hk
    have := hmax n rfl
    exact ⟨by omega, hall⟩
  · rintro ⟨hlen, hall⟩
    exact ⟨n, Nat.le_refl n, by simp, Lang.rounds_char.2 ⟨hlen, hall⟩⟩

theorem spans_atLeast {n : ℕ} {p : Char → Bool} :
    (atLeast n p).Spans isWord prev s next ↔ n ≤ s.length ∧ ∀ c ∈ s, p c = true := by
  constructor
  · rintro ⟨k, hmin, -, hk⟩
    obtain ⟨rfl, hall⟩ := Lang.rounds_char.1 hk
    exact ⟨hmin, hall⟩
  · rintro ⟨hlen, hall⟩
    exact ⟨s.length, hlen, by simp, Lang.rounds_char.2 ⟨rfl, hall⟩⟩

theorem spans_optional {r : Regex} :
    (optional r).Spans isWord prev s next ↔ s = [] ∨ r.Spans isWord prev s next := by
  constructor
  · rintro ⟨k, -, hmax, hk⟩
    have hk1 := hmax 1 rfl
    obtain rfl | rfl : k = 0 ∨ k = 1 := by omega
    · exact .inl hk
    · obtain ⟨u, v, rfl, hu, rfl⟩ := hk
      rw [List.append_nil]
      exact .inr hu
  · rintro (rfl | hr)
    · exact ⟨0, Nat.le_refl 0, by simp, rfl⟩
    · exact ⟨1, Nat.zero_le 1, by simp, s, [], by simp, hr, rfl⟩

theorem spans_char_eq {x : Char} :
    (char (· == x)).Spans isWord prev s next ↔ s = [x] := by
  constructor
  · rintro ⟨c, hc, rfl⟩
    rw [beq_iff_eq.1 hc]
  · rintro rfl
    exact ⟨x, by simp, rfl⟩

theorem spans_literal {w : String} :
    (literal w).Spans isWord prev s next ↔ s = w.toList := by
  rw [literal]
  generalize w.toList = l
  induction l generalizing prev s with
  | nil => exact Iff.rfl
  | cons x l ih =>
    constructor
    · rintro ⟨u, v, rfl, hu, hv⟩
      obtain rfl := spans_char_eq.1 hu
      obtain rfl := ih.1 hv
      rfl
    · rintro rfl
      exact ⟨[x], l, rfl, spans_char_eq.2 rfl, ih.2 rfl⟩

end Expressions

/-! ## The words of the detectors -/

section Words

variable (rt : PyRuntime)

/-- `[A-Z]{5}[0-9]{4}[A-Z]` -/
def PanWord (s : List Char) : Prop :=
  ∃ a b c, s = a ++ (b ++ [c]) ∧ (a.length = 5 ∧ ∀ x ∈ a, isUpperAZ x = true) ∧
    (b.length = 4 ∧ ∀ x ∈ b, isDigit09 x = true) ∧ isUpperAZ c = true

/-- `[A-Za-z0-9.-]+\.[A-Za-z]{2,}` -/
def DomainWord (s : List Char) : Prop :=
  ∃ e t, s = e ++ '.' :: t ∧ (1 ≤ e.length ∧ ∀ x ∈ e, isDomain x = true) ∧
    2 ≤ t.length ∧ ∀ x ∈ t, isAlphaAZ x = true

/-- `[A-Za-z0-9._%+-]+@[A-Za-z0-9.-]+\.[A-Za-z]{2,}` -/
def EmailWord (s : List Char) : Prop :=
  ∃ u d, s = u ++ '@' :: d ∧ (1 ≤ u.length ∧ ∀ x ∈ u, isLocal x = true) ∧ DomainWord d

/-- `[6-9]\d{9}` -/
def Subscriber (s : List Char) : Prop :=
  ∃ c ds, s = c :: ds ∧ inRange '6' '9' c = true ∧ ds.length = 9 ∧
    ∀ x ∈ ds, rt.isDigit x = true

/-- `(?:\+?91[- ]?)?` -/
def countryCodes : List (List Char) :=
  ["".toList, "91".toList, "91-".toList, "91 ".toList, "+91".toList, "+91-".toList,
    "+91 ".toList]

/-- `(?:\+?91[- ]?)?[6-9]\d{9}` -/
def PhoneWord (s : List Char) : Prop :=
  ∃ code n, s = code ++ n ∧ code ∈ countryCodes ∧ Subscriber rt n

/-- `\d[ -]*?` -/
def cardRound : Regex :=
  seq (char rt.isDigit) (rep false 0 none (char fun c => c == ' ' || c == '-'))

/-- `(?:\d[ -]*?){13,19}` -/
def CardWord (s : List Char) : Prop := (rep true 13 (some 19) (cardRound rt)).Word s

end Words

theorem mem_countryCodes_iff {s : List Char} :
    s ∈ countryCodes ↔ s = [] ∨
      ∃ plus sep, s = plus ++ ("91".toList ++ sep) ∧ (plus = [] ∨ plus = ['+']) ∧
        (sep = [] ∨ ∃ c, (c == '-' || c == ' ') = true ∧ sep = [c]) := by
  constructor
  · intro h
    simp only [countryCodes, List.mem_cons, List.not_mem_nil, or_false] at h
    rcases h with rfl | rfl | rfl | rfl | rfl | rfl | rfl
    · exact .inl rfl
    · exact .inr ⟨[], [], rfl, .inl rfl, .inl rfl⟩
    · exact .inr ⟨[], ['-'], rfl, .inl rfl, .inr ⟨'-', rfl, rfl⟩⟩
    · exact .inr ⟨[], [' '], rfl, .inl rfl, .inr ⟨' ', rfl, rfl⟩⟩
    · exact .inr ⟨['+'], [], rfl, .inr rfl, .inl rfl⟩
    · exact .inr ⟨['+'], ['-'], rfl, .inr rfl, .inr ⟨'-', rfl, rfl⟩⟩
    · exact .inr ⟨['+'], [' '], rfl, .inr rfl, .inr ⟨' ', rfl, rfl⟩⟩
  · rintro (rfl | ⟨plus, sep, rfl, hplus, hsep⟩)
    · simp [countryCodes]
    · simp only [Bool.or_eq_true, beq_iff_eq] at hsep
      rcases hplus with rfl | rfl <;>
        rcases hsep with rfl | ⟨c, rfl | rfl, rfl⟩ <;> simp [countryCodes]

/-- `[A-Z]{5}[0-9]{4}[A-Z]` -/
def panBody : Regex := seq (times 5 isUpperAZ) (seq (times 4 isDigit09) (char isUpperAZ))

/-- `[A-Za-z0-9._%+-]+@[A-Za-z0-9.-]+\.[A-Za-z]{2,}` -/
def emailBody : Regex :=
  seq (atLeast 1 isLocal) (seq (char (· == '@'))
    (seq (atLeast 1 isDomain) (seq (char (· == '.')) (atLeast 2 isAlphaAZ))))

/-- `(?:\+?91[- ]?)?[6-9]\d{9}` -/
def phoneBody (rt : PyRuntime) : Regex :=
  seq (optional (seq (optional (char (· == '+')))
      (seq (literal "91") (optional (char fun c => c == '-' || c == ' ')))))
    (seq (char (inRange '6' '9')) (times 9 rt.isDigit))

theorem word_panBody : panBody.Word = PanWord := by
  funext s
  apply propext
  constructor
  · rintro ⟨a, _, rfl, ha, b, _, rfl, hb, c, hc, rfl⟩
    exact ⟨a, b, c, rfl, spans_times.1 ha, spans_times.1 hb, hc⟩
  · rintro ⟨a, b, c, rfl, ha, hb, hc⟩
    exact ⟨a, b ++ [c], rfl, spans_times.2 ha, b, [c], rfl, spans_times.2 hb, c, hc, rfl⟩

theorem word_emailBody : emailBody.Word = EmailWord := by
  funext s
  apply propext
  constructor
  · rintro ⟨u, _, rfl, hu, a, _, rfl, ha, e, _, rfl, he, p, t, rfl, hp, ht⟩
    obtain rfl := spans_char_eq.1 ha
    obtain rfl := spans_char_eq.1 hp
    exact ⟨u, e ++ '.' :: t, rfl, spans_atLeast.1 hu, e, t, rfl, spans_atLeast.1 he,
      spans_atLeast.1 ht⟩
  · rintro ⟨u, _, rfl, hu, e, t, rfl, he, ht⟩
    exact ⟨u, _, rfl, spans_atLeast.2 hu, ['@'], _, rfl, spans_char_eq.2 rfl, e, _, rfl,
      spans_atLeast.2 he, ['.'], t, rfl, spans_char_eq.2 rfl, spans_atLeast.2 ht⟩

theorem word_phoneBody (rt : PyRuntime) : (phoneBody rt).Word = PhoneWord rt := by
  funext s
  apply propext
  constructor
  · rintro ⟨code, _, rfl, hcode, f, ds, rfl, ⟨c, hc, rfl⟩, hds⟩
    refine ⟨code, c :: ds, rfl, mem_countryCodes_iff.2 ?_, c, ds, rfl, hc, spans_times.1 hds⟩
    refine (spans_optional.1 hcode).imp_right ?_
    rintro ⟨plus, _, rfl, hplus, l, sep, rfl, hl, hsep⟩
    obtain rfl := spans_literal.1 hl
    exact ⟨plus, sep, rfl, (spans_optional.1 hplus).imp_right spans_char_eq.1,
      spans_optional.1 hsep⟩
  · rintro ⟨code, _, rfl, hcode, c, ds, rfl, hc, hds⟩
    refine ⟨code, c :: ds, rfl, spans_optional.2 ?_, [c], ds, rfl, ⟨c, hc, rfl⟩,
      spans_times.2 hds⟩
    refine (mem_countryCodes_iff.1 hcode).imp_right ?_
    rintro ⟨plus, sep, rfl, hplus, hsep⟩
    exact ⟨plus, _, rfl, spans_optional.2 (hplus.imp_right spans_char_eq.2), _, sep, rfl,
      spans_literal.2 rfl, spans_optional.2 hsep⟩

/-! ## The characters of a word -/

section Characters

theorem PanWord.head {s : List Char} (h : PanWord s) :
    ∃ x xs, s = x :: xs ∧ isUpperAZ x = true := by
  obtain ⟨a, b, c, rfl, ⟨hlen, ha⟩, -, -⟩ := h
  cases a with
  | nil => simp at hlen
  | cons x xs => exact ⟨x, xs ++ (b ++ [c]), rfl, ha x List.mem_cons_self⟩

theorem PanWord.mem {s : List Char} (h : PanWord s) :
    ∀ x ∈ s, isUpperAZ x = true ∨ isDigit09 x = true := by
  obtain ⟨a, b, c, rfl, ⟨-, ha⟩, ⟨-, hb⟩, hc⟩ := h
  intro x hx
  rw [List.mem_append, List.mem_append, List.mem_singleton] at hx
  rcases hx with hx | hx | rfl
  · exact .inl (ha x hx)
  · exact .inr (hb x hx)
  · exact .inl hc

theorem DomainWord.mem {s : List Char} (h : DomainWord s) : ∀ x ∈ s, isDomain x = true := by
  obtain ⟨e, t, rfl, ⟨-, he⟩, -, ht⟩ := h
  intro x hx
  rw [List.mem_append, List.mem_cons] at hx
  rcases hx with hx | rfl | hx
  · exact he x hx
  · rfl
  · exact isDomain_of_isAlphaAZ (ht x hx)

/-- A domain ends with a letter. -/
theorem DomainWord.last {s : List Char} (h : DomainWord s) (prev : Option Char) :
    ∃ c ∈ s, lastOr prev s = some c ∧ isAlphaAZ c = true := by
  obtain ⟨e, t, rfl, -, hlen, ht⟩ := h
  have hne : t ≠ [] := by
    rintro rfl
    simp at hlen
  obtain ⟨c, hc, hlast⟩ := lastOr_mem hne (some '.')
  exact ⟨c, by simp [hc], by rw [lastOr_append, lastOr_cons, hlast], ht c hc⟩

theorem EmailWord.head {s : List Char} (h : EmailWord s) :
    ∃ x xs, s = x :: xs ∧ isLocal x = true := by
  obtain ⟨u, d, rfl, ⟨hlen, hu⟩, -⟩ := h
  cases u with
  | nil => simp at hlen
  | cons x xs => exact ⟨x, xs ++ '@' :: d, rfl, hu x List.mem_cons_self⟩

theorem EmailWord.mem {s : List Char} (h : EmailWord s) :
    ∀ x ∈ s, isLocal x = true ∨ x = '@' := by
  obtain ⟨u, d, rfl, ⟨-, hu⟩, hd⟩ := h
  intro x hx
  rw [List.mem_append, List.mem_cons] at hx
  rcases hx with hx | rfl | hx
  · exact .inl (hu x hx)
  · exact .inr rfl
  · exact .inl (isLocal_of_isDomain (hd.mem x hx))

variable {rt : PyRuntime} (h : rt.Classes)

include h

/-- The digits of an address are ASCII. -/
theorem EmailWord.digit {s : List Char} (hs : EmailWord s) {c : Char} (hc : c ∈ s)
    (hdigit : rt.isDigit c = true) : isDigit09 c = true := by
  have hlt : c.toNat < 128 := by
    rcases hs.mem c hc with hlocal | rfl
    · exact toNat_lt_of_isLocal hlocal
    · decide
  rwa [← h.digit_ascii c hlt]

theorem Subscriber.mem {s : List Char} (hs : Subscriber rt s) :
    ∀ x ∈ s, rt.isDigit x = true := by
  obtain ⟨c, ds, rfl, hc, -, hds⟩ := hs
  refine List.forall_mem_cons.2 ⟨h.digit_of_digit09 ?_, hds⟩
  rw [inRange_iff] at hc
  exact isDigit09_iff.2 ⟨Nat.le_trans (by decide) hc.1, hc.2⟩

theorem PhoneWord.mem {s : List Char} (hs : PhoneWord rt s) :
    ∀ x ∈ s, rt.isDigit x = true ∨ x ∈ "+- ".toList := by
  obtain ⟨code, n, rfl, hcode, hn⟩ := hs
  have hcodes : ∀ x ∈ countryCodes.flatten, isDigit09 x = true ∨ x ∈ "+- ".toList :=
    List.all_iff_forall_prop.1 (by decide)
  intro x hx
  rcases List.mem_append.1 hx with hx | hx
  · exact (hcodes x (List.mem_flatten.2 ⟨code, hcode, hx⟩)).imp_left h.digit_of_digit09
  · exact .inl (hn.mem h x hx)

omit h in
theorem mem_of_cardRound {prev next : Option Char} {s : List Char}
    (hs : (cardRound rt).Spans (fun _ => false) prev s next) :
    ∀ x ∈ s, rt.isDigit x = true ∨ x ∈ "+- ".toList := by
  obtain ⟨_, seps, rfl, ⟨c, hc, rfl⟩, k, -, -, hseps⟩ := hs
  obtain ⟨-, hall⟩ := Lang.rounds_char.1 hseps
  rw [List.singleton_append, List.forall_mem_cons]
  refine ⟨.inl hc, fun x hx => .inr ?_⟩
  have hx := hall x hx
  rw [Bool.or_eq_true, beq_iff_eq, beq_iff_eq] at hx
  rcases hx with rfl | rfl <;> decide

omit h in
theorem CardWord.mem {s : List Char} (hs : CardWord rt s) :
    ∀ x ∈ s, rt.isDigit x = true ∨ x ∈ "+- ".toList := by
  obtain ⟨k, -, -, hk⟩ := hs
  exact Lang.forall_mem_of_rounds (fun _ _ _ => mem_of_cardRound) hk

end Characters

/-! ## The passes -/

section Passes

variable (rt : PyRuntime)

theorem pan_rewrites (text : List Char) :
    Rewrites rt.isWord PanWord "PANXXXX9999".toList none text
      (panRe.sub rt.isWord "PANXXXX9999".toList text) := by
  rw [← word_panBody]
  exact rewrites_sub rfl rfl rfl _ text

theorem email_rewrites (text : List Char) :
    Rewrites rt.isWord EmailWord "***@***".toList none text
      (emailRe.sub rt.isWord "***@***".toList text) := by
  rw [← word_emailBody]
  exact rewrites_sub rfl rfl rfl _ text

theorem phone_rewrites (text : List Char) :
    Rewrites rt.isWord (PhoneWord rt) "******XXXX".toList none text
      ((phoneRe rt).sub rt.isWord "******XXXX".toList text) := by
  rw [← word_phoneBody]
  exact rewrites_sub rfl rfl rfl _ text

theorem card_rewrites (text : List Char) :
    Rewrites rt.isWord (CardWord rt) "*****".toList none text
      ((cardRe rt).sub rt.isWord "*****".toList text) :=
  rewrites_sub rfl rfl rfl _ text

variable {rt} {text : List Char}

theorem panRe_search_iff : panRe.search? rt.isWord text = true ↔
    Occurs (Edged rt.isWord PanWord) none text := by
  rw [← word_panBody]
  exact search?_edged rfl rfl

theorem emailRe_search_iff : emailRe.search? rt.isWord text = true ↔
    Occurs (Edged rt.isWord EmailWord) none text := by
  rw [← word_emailBody]
  exact search?_edged rfl rfl

theorem phoneRe_search_iff : (phoneRe rt).search? rt.isWord text = true ↔
    Occurs (Edged rt.isWord (PhoneWord rt)) none text := by
  rw [← word_phoneBody]
  exact search?_edged rfl rfl

theorem cardRe_search_iff : (cardRe rt).search? rt.isWord text = true ↔
    Occurs (Edged rt.isWord (CardWord rt)) none text :=
  search?_edged rfl rfl

end Passes

end AgentPlatform
