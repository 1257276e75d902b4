import AgentPlatform.Security.Leaks

/-!
# When redaction is complete

The first pass replaces PANs, and what it puts in their place is as little a number
or an address as they are.  So a text leaks exactly if it does so before that pass,
and the redacted text is free of all four patterns, and redacting it again changes
nothing, exactly if the text does not leak.

* `UpToPans` — texts that differ by PANs and their masks.
* `leaks_panPass_iff` — such texts leak both or not at all.
-/

namespace AgentPlatform

open Regex

/-! ## Texts that differ by PANs -/

/-- What a PAN and its mask have in common. -/
structure PanBlock (b : List Char) : Prop where
  head : ∃ x xs, b = x :: xs ∧ isUpperAZ x = true
  mem : ∀ x ∈ b, isUpperAZ x = true ∨ isDigit09 x = true
  digit : ∃ x ∈ b, isDigit09 x = true

theorem PanWord.panBlock {s : List Char} (hs : PanWord s) : PanBlock s := by
  refine ⟨hs.head, hs.mem, ?_⟩
  obtain ⟨a, b, c, rfl, -, ⟨hlen, hb⟩, -⟩ := hs
  cases b with
  | nil => simp at hlen
  | cons x xs => exact ⟨x, by simp, hb x List.mem_cons_self⟩

theorem panBlock_mask : PanBlock "PANXXXX9999".toList := by
  exact ⟨⟨'P', "ANXXXX9999".toList, rfl, rfl⟩, List.all_iff_forall_prop.1 (by decide), '9',
    by decide, rfl⟩

section UpToPans

variable (rt : PyRuntime)

/-- Is a word character the last before this place?  `w` tells it of the place where
the stretch begins. -/
def wordAfter (w : Bool) : List Char → Bool
  | [] => w
  | x :: xs => wordAfter (rt.isWord x) xs

/-- Two texts that are the same up to blocks that are words of their own. -/
inductive UpToPans : Bool → List Char → List Char → Prop
  | done (w : Bool) : UpToPans w [] []
  | keep {w : Bool} {s t : List Char} (x : Char) (h : UpToPans (rt.isWord x) s t) :
      UpToPans w (x :: s) (x :: t)
  | swap {b b' s t : List Char} (hb : PanBlock b) (hb' : PanBlock b')
      (hs : s.head?.any rt.isWord = false) (ht : t.head?.any rt.isWord = false)
      (h : UpToPans true s t) : UpToPans false (b ++ s) (b' ++ t)

variable {rt} {w : Bool} {s t : List Char}

theorem wordAfter_append (a b : List Char) :
    wordAfter rt w (a ++ b) = wordAfter rt (wordAfter rt w a) b := by
  induction a generalizing w with
  | nil => rfl
  | cons x xs ih => exact ih

theorem any_lastOr (prev : Option Char) (a : List Char) :
    (lastOr prev a).any rt.isWord = wordAfter rt (prev.any rt.isWord) a := by
  induction a generalizing prev with
  | nil => rfl
  | cons x xs ih => exact ih (some x)

theorem UpToPans.symm (h : UpToPans rt w s t) : UpToPans rt w t s := by
  induction h with
  | done w => exact .done w
  | keep x h ih => exact .keep x ih
  | swap hb hb' hs ht h ih => exact .swap hb' hb ht hs ih

/-- What holds of capital letters and digits, and of all characters of one text,
holds of those of the other. -/
theorem UpToPans.forall_mem (h : UpToPans rt w s t) {P : Char → Prop}
    (hP : ∀ x, isUpperAZ x = true ∨ isDigit09 x = true → P x) (hs : ∀ x ∈ s, P x) :
    ∀ x ∈ t, P x := by
  induction h with
  | done w => exact hs
  | keep x h ih =>
    rw [List.forall_mem_cons] at hs ⊢
    exact ⟨hs.1, ih hs.2⟩
  | swap hb hb' _ _ h ih =>
    rw [List.forall_mem_append] at hs ⊢
    exact ⟨fun x hx => hP x (hb'.mem x hx), ih hs.2⟩

theorem UpToPans.length_pos (h : UpToPans rt w s t) (hs : 0 < s.length) : 0 < t.length := by
  cases h with
  | done => exact hs
  | keep => simp
  | swap hb hb' =>
    obtain ⟨x, xs, rfl, -⟩ := hb'.head
    simp

/-- A stretch without a capital letter is the same in both texts. -/
theorem UpToPans.kept {c : List Char} (h : UpToPans rt w (c ++ s) t)
    (hc : ∀ x ∈ c, isUpperAZ x = false) :
    ∃ t', t = c ++ t' ∧ UpToPans rt (wordAfter rt w c) s t' := by
  induction c generalizing w t with
  | nil => exact ⟨t, rfl, h⟩
  | cons x xs ih =>
    rw [List.forall_mem_cons] at hc
    generalize hwhole : (x :: xs) ++ s = whole at h
    cases h with
    | done => cases hwhole
    | keep y h =>
      obtain ⟨rfl, rfl⟩ := List.cons.inj hwhole
      obtain ⟨t', rfl, ht⟩ := ih h hc.2
      exact ⟨t', rfl, ht⟩
    | swap hb =>
      obtain ⟨y, ys, rfl, hy⟩ := hb.head
      obtain ⟨rfl, -⟩ := List.cons.inj hwhole
      rw [hc.1] at hy
      cases hy

/-- Letters alone are no block. -/
theorem UpToPans.eq_of_alpha (h : UpToPans rt w s t) (hs : ∀ x ∈ s, isAlphaAZ x = true) :
    t = s := by
  induction h with
  | done => rfl
  | keep x h ih => rw [ih (List.forall_mem_cons.1 hs).2]
  | swap hb =>
    obtain ⟨x, hx, hdigit⟩ := hb.digit
    have halpha := isAlphaAZ_iff.1 (hs x (List.mem_append_left _ hx))
    have hrange := isDigit09_iff.1 hdigit
    omega

variable (h : rt.Classes)

include h

theorem PanBlock.word {b : List Char} (hb : PanBlock b) : ∀ x ∈ b, rt.isWord x = true :=
  fun x hx => word_of_pan h (hb.mem x hx)

omit h in
theorem wordAfter_of_word {a : List Char} (hne : a ≠ []) (ha : ∀ x ∈ a, rt.isWord x = true) :
    wordAfter rt w a = true := by
  obtain ⟨x, hx, hlast⟩ := lastOr_mem hne none
  cases a with
  | nil => exact absurd rfl hne
  | cons y ys =>
    have hany : (lastOr none (y :: ys)).any rt.isWord = wordAfter rt false (y :: ys) :=
      any_lastOr none (y :: ys)
    rw [hlast, Option.any_some, ha x hx] at hany
    exact hany.symm

/-- After the same words both texts go on alike. -/
theorem UpToPans.head?_any (hst : UpToPans rt w s t) :
    s.head?.any rt.isWord = t.head?.any rt.isWord := by
  cases hst with
  | done => rfl
  | keep => rfl
  | swap hb hb' =>
    obtain ⟨x, xs, rfl, hx⟩ := hb.head
    obtain ⟨y, ys, rfl, hy⟩ := hb'.head
    rw [List.cons_append, List.cons_append, List.head?_cons, List.head?_cons, Option.any_some,
      Option.any_some, word_of_pan h (.inl hx), word_of_pan h (.inl hy)]

omit h in
theorem PanBlock.ne_nil {b : List Char} (hb : PanBlock b) : b ≠ [] := by
  obtain ⟨x, xs, rfl, -⟩ := hb.head
  simp

/-- A cut inside a block is inside a word. -/
theorem PanBlock.not_cut {a b d : List Char} (hb : PanBlock b) (hab : b = a ++ d) (ha : a ≠ [])
    (hd : d ≠ []) (w : Bool) :
    ¬ (wordAfter rt w a = false ∨ (d ++ s).head?.any rt.isWord = false) := by
  have haw : wordAfter rt w a = true := wordAfter_of_word ha fun x hx =>
    hb.word h x (by rw [hab]; exact List.mem_append_left _ hx)
  obtain ⟨x, xs, rfl⟩ := List.exists_cons_of_ne_nil hd
  have hx := hb.word h x (by rw [hab]; simp)
  simp [haw, hx]

/-- Where one text is cut outside of its words, the other can be cut too. -/
theorem UpToPans.split {a c : List Char} (hst : UpToPans rt w (a ++ c) t)
    (hcut : wordAfter rt w a = false ∨ c.head?.any rt.isWord = false) :
    ∃ a' c', t = a' ++ c' ∧ UpToPans rt w a a' ∧ UpToPans rt (wordAfter rt w a) c c' ∧
      wordAfter rt w a' = wordAfter rt w a := by
  generalize hwhole : a ++ c = whole at hst
  induction hst generalizing a with
  | done w =>
    obtain ⟨rfl, rfl⟩ := List.append_eq_nil_iff.1 hwhole
    exact ⟨[], [], rfl, .done w, .done w, rfl⟩
  | @keep w s t x hst ih =>
    cases a with
    | nil =>
      rw [List.nil_append] at hwhole
      subst hwhole
      exact ⟨[], x :: t, rfl, .done w, .keep x hst, rfl⟩
    | cons y ys =>
      obtain ⟨rfl, hys⟩ := List.cons.inj hwhole
      obtain ⟨a', c', rfl, ha, hc, hword⟩ := ih hcut hys
      exact ⟨y :: a', c', rfl, .keep y ha, hc, hword⟩
  | @swap b b' s t hb hb' hs ht hst ih =>
    have hbw : ∀ w, wordAfter rt w b = true := fun w => wordAfter_of_word hb.ne_nil (hb.word h)
    have hbw' : ∀ w, wordAfter rt w b' = true := fun w => wordAfter_of_word hb'.ne_nil (hb'.word h)
    by_cases ha : a = []
    · subst ha
      rw [List.nil_append] at hwhole
      subst hwhole
      exact ⟨[], b' ++ t, rfl, .done false, .swap hb hb' hs ht hst, rfl⟩
    rcases List.append_eq_append_iff.1 hwhole with ⟨d, hd, rfl⟩ | ⟨d, rfl, hd⟩
    · by_cases hd' : d = []
      · subst hd'
        rw [List.append_nil] at hd
        subst hd
        refine ⟨b', t, rfl, ?_, ?_, by rw [hbw, hbw']⟩
        · simpa using UpToPans.swap hb hb' rfl rfl (.done true)
        · rwa [hbw]
      · exact absurd hcut (hb.not_cut h hd ha hd' false)
    · rw [wordAfter_append, hbw] at hcut
      obtain ⟨a', c', rfl, ha', hc, hword⟩ := ih hcut hd.symm
      refine ⟨b' ++ a', c', (List.append_assoc ..).symm, .swap hb hb' ?_ ?_ ha', ?_, ?_⟩
      · cases d with
        | nil => rfl
        | cons x xs => rwa [hd] at hs
      · cases a' with
        | nil => rfl
        | cons x xs => exact ht
      · rwa [wordAfter_append, hbw]
      · rwa [wordAfter_append, wordAfter_append, hbw, hbw']

/-! ## A leak in one is a leak in the other -/

theorem UpToPans.domainWord (hst : UpToPans rt w s t) (hs : DomainWord s) : DomainWord t := by
  obtain ⟨e, l, rfl, ⟨hlen, he⟩, hl⟩ := hs
  have hdot : ('.' :: l).head?.any rt.isWord = false := h.not_word_of_mem (by decide)
  obtain ⟨e', r, rfl, hee, hr, -⟩ := hst.split h (.inr hdot)
  obtain ⟨l', rfl, hll⟩ := UpToPans.kept (c := ['.']) hr (List.all_iff_forall_prop.1 (by decide))
  rw [hll.eq_of_alpha hl.2]
  refine ⟨e', l, rfl, ⟨hee.length_pos hlen, hee.forall_mem (fun x hx => ?_) he⟩, hl⟩
  rcases hx with hx | hx
  · exact isDomain_of_isAlphaAZ (isAlphaAZ_of_isUpperAZ hx)
  · simp [isDomain, hx]

theorem UpToPans.continues (hst : UpToPans rt w s t) (hs : Continues rt s) :
    Continues rt t := by
  obtain ⟨u, d, z, rfl, hu, hd, hz⟩ := hs
  have hat : ('@' :: (d ++ z)).head?.any rt.isWord = false := h.not_word_of_mem (by decide)
  obtain ⟨u', r, rfl, huu, hr, -⟩ := hst.split h (.inr hat)
  obtain ⟨r', rfl, hr'⟩ := UpToPans.kept (c := ['@']) hr (List.all_iff_forall_prop.1 (by decide))
  obtain ⟨d', z', rfl, hdd, hzz, -⟩ := hr'.split h (.inr hz)
  refine ⟨u', d', z', rfl, huu.forall_mem (fun x hx => ?_) hu, hdd.domainWord h hd, ?_⟩
  · rcases hx with hx | hx
    · exact isLocal_of_isDomain (isDomain_of_isAlphaAZ (isAlphaAZ_of_isUpperAZ hx))
    · exact isLocal_of_isDigit09 hx
  · rw [← hzz.head?_any h]
    exact hz

/-- A number in one text is a number in the other. -/
theorem UpToPans.occurs {K : List Char → Prop}
    (hK : ∀ c, K c → c ≠ [] ∧ ∀ x ∈ c, rt.isDigit x = true ∨ x ∈ "+- ".toList)
    (hst : UpToPans rt false s t) (hocc : Occurs (Edged rt.isWord K) none s) :
    Occurs (Edged rt.isWord K) none t := by
  obtain ⟨a, c, y, rfl, hc⟩ := hocc
  obtain ⟨hne, hdigits⟩ := hK c hc.2.1
  have hcut : wordAfter rt false a = false ∨ (c ++ y).head?.any rt.isWord = false := by
    have hleft := hc.1
    rw [firstOr_head?_append, Edge, any_lastOr, Option.any_none] at hleft
    cases hw : wordAfter rt false a with
    | false => exact .inl rfl
    | true =>
      rw [hw] at hleft
      exact .inr (by simpa using hleft.symm)
  obtain ⟨a', r, rfl, -, hr, hword⟩ := hst.split h hcut
  obtain ⟨y', rfl, hy⟩ := hr.kept (c := c) fun x hx => by
    rw [Bool.eq_false_iff]
    exact fun hx' => h.not_in_number (.inl (isAlphaAZ_of_isUpperAZ hx')) (hdigits x hx)
  refine ⟨a', c, y', rfl, (edged_congr ?_ (hy.head?_any h)).1 hc⟩
  rw [any_lastOr, any_lastOr, Option.any_none, hword]

theorem UpToPans.search_eq_false {r : Regex} {K : List Char → Prop}
    (hr : ∀ text, r.search? rt.isWord text = true ↔ Occurs (Edged rt.isWord K) none text)
    (hK : ∀ c, K c → c ≠ [] ∧ ∀ x ∈ c, rt.isDigit x = true ∨ x ∈ "+- ".toList)
    (hst : UpToPans rt false s t) (hs : r.search? rt.isWord s = false) :
    r.search? rt.isWord t = false := by
  rw [← Bool.not_eq_true, hr] at hs ⊢
  exact fun hocc => hs (hst.symm.occurs h hK hocc)

theorem UpToPans.leaks (hst : UpToPans rt false s t) (hs : Leaks rt s) : Leaks rt t := by
  obtain ⟨x, n, d, y, rfl, hleak⟩ := hs
  have hat : rt.isWord '@' = false := h.not_word_of_mem (by decide)
  have hx : wordAfter rt false x = false := by
    have hbefore := hleak.before
    rwa [any_lastOr] at hbefore
  obtain ⟨x', r, rfl, -, hr, hword⟩ := hst.split h (.inl hx)
  have hdigits : ∀ c ∈ n ++ ['@'], isUpperAZ c = false := by
    intro c hc
    rw [Bool.eq_false_iff]
    intro hupper
    rcases List.mem_append.1 hc with hc | hc
    · exact h.not_in_number (.inl (isAlphaAZ_of_isUpperAZ hupper))
        (.inl (hleak.number.mem h c hc))
    · obtain rfl := List.mem_singleton.1 hc
      revert hupper
      decide
  have hassoc : ∀ z, n ++ '@' :: z = (n ++ ['@']) ++ z := fun z => by simp
  rw [hassoc] at hr
  obtain ⟨r', rfl, hr'⟩ := hr.kept hdigits
  rw [wordAfter_append, wordAfter, wordAfter, hat] at hr'
  obtain ⟨d', y', rfl, hdd, hyy, -⟩ := hr'.split h (.inr hleak.after)
  have hphone : ∀ c, PhoneWord rt c → c ≠ [] ∧ ∀ x ∈ c, rt.isDigit x = true ∨ x ∈ "+- ".toList :=
    fun c hc => ⟨(hc.apart h).1.1, hc.mem h⟩
  have hcard : ∀ c, CardWord rt c → c ≠ [] ∧ ∀ x ∈ c, rt.isDigit x = true ∨ x ∈ "+- ".toList :=
    fun c hc => ⟨(hc.apart h).1, hc.mem⟩
  refine ⟨x', n, d', y', by simp, ⟨?_, hleak.number, hleak.foreign,
    hdd.domainWord h hleak.domain, ?_⟩, ?_, ?_, ?_⟩
  · rw [any_lastOr, Option.any_none, hword, hx]
  · rw [← hyy.head?_any h]
    exact hleak.after
  · exact hdd.search_eq_false h (fun _ => phoneRe_search_iff) hphone hleak.no_phone
  · exact hdd.search_eq_false h (fun _ => cardRe_search_iff) hcard hleak.no_card
  · exact fun hcont => hleak.ends_here (hyy.symm.continues h hcont)

/-- The PAN pass changes nothing else. -/
theorem upToPans_of_rewrites {prev : Option Char}
    (hR : Rewrites rt.isWord PanWord "PANXXXX9999".toList prev s t) :
    UpToPans rt (prev.any rt.isWord) s t := by
  induction hR with
  | done prev => exact .done _
  | @keep prev x xs out hquiet hR ih => exact .keep x ih
  | @replace prev c rest out hne hc hR ih =>
    have hb := hc.2.1.panBlock
    obtain ⟨x, xs, rfl, hx⟩ := hb.head
    have hbefore := (edge_left_iff (word_of_pan h (.inl hx))).1 hc.1
    obtain ⟨z, hz, hlast⟩ := lastOr_mem hne prev
    have hzword := hb.word h z hz
    have hafter := hc.2.2
    rw [hlast] at hafter ih
    rw [hbefore]
    refine .swap hb panBlock_mask ((edge_right_iff hzword).1 hafter) ?_ (by simpa [hzword] using ih)
    rw [← ih.head?_any h]
    exact (edge_right_iff hzword).1 hafter

theorem leaks_panPass_iff : Leaks rt (panPass rt t) ↔ Leaks rt t := by
  have hst : UpToPans rt false t (panPass rt t) := upToPans_of_rewrites h (pan_rewrites rt t)
  exact ⟨fun hs => hst.symm.leaks h hs, fun hs => hst.leaks h hs⟩

end UpToPans

/-! ## Redaction as a whole -/

/-- Numbers whose digits are ASCII do not leak. -/
theorem not_leaks_of_ascii_digits {rt : PyRuntime} (h : rt.Classes) {t : List Char}
    (ht : ∀ c ∈ t, rt.isDigit c = true → isDigit09 c = true) : ¬ Leaks rt t := by
  rintro ⟨x, n, d, y, rfl, hleak⟩
  obtain ⟨c, hc, hforeign⟩ := hleak.foreign
  have hascii := ht c (by simp [hc]) (hleak.number.mem h c hc)
  rw [hforeign] at hascii
  cases hascii

/-- Redacted text has none of the four patterns, and redacting it again changes
nothing, exactly if the text does not leak. -/
theorem maskText_complete_iff (rt : PyRuntime) (h : rt.Classes) (text : String) :
    ((∀ r ∈ [panRe, emailRe, phoneRe rt, cardRe rt],
        r.search? rt.isWord (maskText rt text).toList = false) ∧
      maskText rt (maskText rt text) = maskText rt text) ↔ ¬ Leaks rt text.toList := by
  rw [← leaks_panPass_iff h, ← email_iff_leaks h, ← toList_maskText, ← emailRe_search_iff,
    Bool.not_eq_true]
  constructor
  · rintro ⟨hnone, -⟩
    exact hnone emailRe (by simp)
  · intro hemail
    have hpan : panRe.search? rt.isWord (maskText rt text).toList = false := by
      rw [← Bool.not_eq_true, panRe_search_iff, toList_maskText]
      exact masked_no_pan h
    have hphone : (phoneRe rt).search? rt.isWord (maskText rt text).toList = false := by
      rw [← Bool.not_eq_true, phoneRe_search_iff, toList_maskText]
      exact masked_no_phone h
    have hcard : (cardRe rt).search? rt.isWord (maskText rt text).toList = false := by
      rw [← Bool.not_eq_true, cardRe_search_iff, toList_maskText]
      exact cardPass_quiet h
    refine ⟨?_, maskText_of_not_search hpan hemail hphone hcard⟩
    simpa using ⟨hpan, hemail, hphone, hcard⟩

/-- The interpreter on ASCII text and Arabic-Indic digits. -/
def arabicDigits : PyRuntime :=
  { PyRuntime.ascii with
    isDigit := fun c => isDigit09 c || inRange '٠' '٩' c
    isWord := fun c => isAlphaAZ c || isDigit09 c || c == '_' || inRange '٠' '٩' c }

theorem arabicDigits_classes : arabicDigits.Classes := by
  have hascii : ∀ c : Char, c.toNat < 128 → inRange '٠' '٩' c = false := by
    intro c hc
    rw [Bool.eq_false_iff]
    intro hrange
    have hlow : 1632 ≤ c.toNat := (inRange_iff.1 hrange).1
    omega
  refine ⟨fun c hc => ?_, fun c hc => ?_, fun c hc => ?_⟩
  · show (isDigit09 c || inRange '٠' '٩' c) = _
    rw [hascii c hc, Bool.or_false]
  · show (isAlphaAZ c || isDigit09 c || c == '_' || inRange '٠' '٩' c) = _
    rw [hascii c hc, Bool.or_false]
  · have hdigit : (isDigit09 c || inRange '٠' '٩' c) = true := hc
    show (isAlphaAZ c || isDigit09 c || c == '_' || inRange '٠' '٩' c) = true
    rw [Bool.or_eq_true] at hdigit
    rcases hdigit with hdigit | hdigit <;> simp [hdigit]

theorem maskText_complete_ascii :
    (∀ r ∈ [panRe, emailRe, phoneRe arabicDigits, cardRe arabicDigits],
      r.search? arabicDigits.isWord
        (maskText arabicDigits "Call 9876543210 or a@b.co").toList = false) ∧
    maskText arabicDigits (maskText arabicDigits "Call 9876543210 or a@b.co") =
      maskText arabicDigits "Call 9876543210 or a@b.co" :=
  (maskText_complete_iff arabicDigits arabicDigits_classes "Call 9876543210 or a@b.co").2
    (not_leaks_of_ascii_digits arabicDigits_classes (List.all_iff_forall_prop.1 (by decide)))

/-- `6٣٣٣٣٣٣٣٣٣@b.co` becomes `******XXXX@b.co`, in which the second redaction finds
an address. -/
theorem maskText_leaks_arabic :
    arabicDigits.Classes ∧
      emailRe.search? arabicDigits.isWord
        (maskText arabicDigits "6٣٣٣٣٣٣٣٣٣@b.co").toList = true ∧
      maskText arabicDigits (maskText arabicDigits "6٣٣٣٣٣٣٣٣٣@b.co") ≠
        maskText arabicDigits "6٣٣٣٣٣٣٣٣٣@b.co" :=
  ⟨arabicDigits_classes, by decide +kernel, by decide +kernel⟩

end AgentPlatform
