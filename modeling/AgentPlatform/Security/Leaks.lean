import AgentPlatform.Lib.Delimited
import AgentPlatform.Security.MaskedText

/-!
# What redaction leaks

The mask of a phone number ends in letters.  Where the number is followed by an at
sign and a domain these letters make an address, which the address detector, that
has been run already, would have masked.  This happens to a number with a digit
outside ASCII: `\d` takes it for a digit, and no address has it in its local part.
-/

namespace AgentPlatform

open Regex

/-! ## The leak -/

section Leak

variable (rt : PyRuntime)

/-- A phone number, with the country code if it is written in one word with it. -/
def Number (n : List Char) : Prop :=
  ∃ core, Subscriber rt core ∧ (n = core ∨ n = "91".toList ++ core)

/-- This text takes up what comes before it as the local part of an address. -/
def Continues (y : List Char) : Prop :=
  ∃ u d z, y = u ++ '@' :: (d ++ z) ∧ (∀ c ∈ u, isLocal c = true) ∧ DomainWord d ∧
    z.head?.any rt.isWord = false

/-- A text `x n@d y` in which the number `n` cannot be read as the local part of an
address. -/
structure NumberAt (x n d y : List Char) : Prop where
  before : (lastOr none x).any rt.isWord = false
  number : Number rt n
  foreign : ∃ c ∈ n, isDigit09 c = false
  domain : DomainWord d
  after : y.head?.any rt.isWord = false

/-- Such a text whose domain all passes leave alone. -/
structure Leak (x n d y : List Char) : Prop extends NumberAt rt x n d y where
  no_phone : (phoneRe rt).search? rt.isWord d = false
  no_card : (cardRe rt).search? rt.isWord d = false
  ends_here : ¬ Continues rt y

/-- Redaction of this text makes an address. -/
def Leaks (text : List Char) : Prop :=
  ∃ x n d y, text = x ++ (n ++ '@' :: (d ++ y)) ∧ Leak rt x n d y

end Leak

section Directions

variable {rt : PyRuntime} (h : rt.Classes) {t x n d y : List Char}

theorem Number.phoneWord (hn : Number rt n) : PhoneWord rt n := by
  obtain ⟨core, hcore, rfl | rfl⟩ := hn
  · exact ⟨[], n, rfl, by decide, hcore⟩
  · exact ⟨"91".toList, core, rfl, by decide, hcore⟩

theorem Number.head (hn : Number rt n) : ∃ x xs, n = x :: xs ∧ isDigit09 x = true := by
  obtain ⟨core, ⟨c, ds, rfl, hc, -⟩, rfl | rfl⟩ := hn
  · refine ⟨c, ds, rfl, ?_⟩
    rw [inRange_iff] at hc
    exact isDigit09_iff.2 ⟨Nat.le_trans (by decide) hc.1, hc.2⟩
  · exact ⟨'9', '1' :: c :: ds, rfl, by decide⟩

include h

theorem Number.mem (hn : Number rt n) : ∀ x ∈ n, rt.isDigit x = true := by
  obtain ⟨core, hcore, rfl | rfl⟩ := hn
  · exact hcore.mem h
  · have hcode : ∀ x ∈ "91".toList, isDigit09 x = true := List.all_iff_forall_prop.1 (by decide)
    exact List.forall_mem_append.2 ⟨fun x hx => h.digit_of_digit09 (hcode x hx), hcore.mem h⟩

/-- The last word of a phone number is a number. -/
theorem PhoneWord.number {s : List Char} {prev : Option Char} (hs : PhoneWord rt s)
    (hleft : Edge rt.isWord prev s.head?) :
    ∃ p n, s = p ++ n ∧ Number rt n ∧ (lastOr prev p).any rt.isWord = false := by
  obtain ⟨code, core, rfl, hcode, hcore⟩ := hs
  have hnumber : Number rt core := ⟨core, hcore, .inl rfl⟩
  have hcoded : Number rt ("91".toList ++ core) := ⟨core, hcore, .inr rfl⟩
  have hpunct : ∀ c ∈ "+- ".toList, rt.isWord c = false := fun c hc =>
    h.not_word_of_mem (List.mem_append_left "*@.".toList hc)
  have hword : ∀ {c}, isDigit09 c = true → rt.isWord c = true := fun hc =>
    h.word_of_digit _ (h.digit_of_digit09 hc)
  simp only [countryCodes, List.mem_cons, List.not_mem_nil, or_false] at hcode
  rcases hcode with rfl | rfl | rfl | rfl | rfl | rfl | rfl
  · obtain ⟨x, xs, rfl, hx⟩ := hnumber.head
    exact ⟨[], x :: xs, rfl, hnumber, (edge_left_iff (hword hx)).1 hleft⟩
  · exact ⟨[], _, rfl, hcoded, (edge_left_iff (hword rfl)).1 hleft⟩
  · exact ⟨"91-".toList, core, rfl, hnumber, hpunct '-' (by decide)⟩
  · exact ⟨"91 ".toList, core, rfl, hnumber, hpunct ' ' (by decide)⟩
  · exact ⟨['+'], _, rfl, hcoded, hpunct '+' (by decide)⟩
  · exact ⟨"+91-".toList, core, rfl, hnumber, hpunct '-' (by decide)⟩
  · exact ⟨"+91 ".toList, core, rfl, hnumber, hpunct ' ' (by decide)⟩

/-! ## An address comes from a leak -/

/-- After a domain there is an edge where no word character follows. -/
theorem DomainWord.edge_iff (hd : DomainWord d) {prev next : Option Char} :
    Edge rt.isWord (lastOr prev d) next ↔ next.any rt.isWord = false := by
  obtain ⟨c, -, hlast, hc⟩ := hd.last prev
  rw [hlast]
  exact edge_right_iff (h.word_of_alpha hc)

/-- Before a number there is an edge where no word character precedes. -/
theorem Number.edge_iff (hn : Number rt n) {prev : Option Char} {c : List Char} :
    Edge rt.isWord prev (n ++ c).head? ↔ prev.any rt.isWord = false := by
  obtain ⟨x, xs, rfl, hx⟩ := hn.head
  exact edge_left_iff (h.word_of_digit x (h.digit_of_digit09 hx))

theorem edge_after_domain (hd : DomainWord d) {prev next : Option Char} (u : List Char) :
    Edge rt.isWord (lastOr prev (u ++ '@' :: d)) next ↔ next.any rt.isWord = false := by
  rw [lastOr_append, lastOr_cons]
  exact hd.edge_iff h

/-- An address stands where its local part begins at an edge and its domain is not
continued. -/
theorem edged_email (hd : DomainWord d) {u : List Char} {prev next : Option Char}
    (hu : 1 ≤ u.length ∧ ∀ c ∈ u, isLocal c = true) (hleft : Edge rt.isWord prev u.head?)
    (hnext : next.any rt.isWord = false) :
    Edged rt.isWord EmailWord prev (u ++ '@' :: d) next := by
  have hne : u ≠ [] := List.length_pos_iff.1 hu.1
  refine (edged_iff (by simp)).2 ⟨?_, ⟨u, d, rfl, hu, hd⟩, (edge_after_domain h hd u).2 hnext⟩
  rwa [List.head?_append_of_ne_nil u hne]

/-- An address that the phone pass makes is the mask of a number before a domain. -/
theorem phonePass_email (hquiet : ¬ Occurs (Edged rt.isWord EmailWord) none t)
    {a c z : List Char} (hout : phonePass rt t = a ++ (c ++ z)) (hc : EmailWord c)
    (hleft : Edge rt.isWord (lastOr none a) c.head?)
    (hright : Edge rt.isWord (lastOr none c) z.head?) :
    ∃ x n d y, c = "XXXX@".toList ++ d ∧ t = x ++ (n ++ '@' :: (d ++ y)) ∧
      NumberAt rt x n d y := by
  have hne : c ≠ [] := hc.apart.1.1
  have hstar : '*' ∉ c := fun hstar => absurd (hc.mem '*' hstar) (by decide)
  rcases phonePass_trace hout hne hstar hleft hright with ⟨a', z', rfl, hl, hr⟩ |
    ⟨a', s, rest, out, rfl, hX, hs, hrest⟩
  · exact absurd ⟨a', c, z', rfl, (edged_iff hne).2 ⟨hl, hc, hr⟩⟩ hquiet
  obtain ⟨v, d, rfl, ⟨-, hv⟩, hd⟩ := hc
  have hX' : v ++ '@' :: (d ++ z) = "XXXX".toList ++ out := by rw [← hX]; simp
  obtain ⟨v', rfl, rfl⟩ := Delimited.append_cons_eq_append (by decide) hX'
  rw [List.forall_mem_append] at hv
  have hz : z.head?.any rt.isWord = false := (edge_after_domain h hd _).1 hright
  -- What follows the mask has been kept.
  rw [← List.cons_append, ← List.append_assoc] at hrest
  obtain ⟨y, rfl, hy⟩ := hrest.stretch_back (by simp) (by simp)
    (by simp at hstar ⊢; exact hstar) ((edge_after_domain h hd v').2 hz)
  have hafter : y.head?.any rt.isWord = false := (edge_after_domain h hd v').1 hy
  cases v' with
  | cons w ws =>
    -- An address with the rest of the local part was there before.
    have hedged : Edged rt.isWord EmailWord (lastOr none (a' ++ s)) ((w :: ws) ++ '@' :: d)
        y.head? := by
      refine edged_email h hd ⟨by simp, hv.2⟩ ?_ hafter
      rw [lastOr_append]
      exact hs.2.2
    exact absurd ⟨a' ++ s, _, y, by simp, hedged⟩ hquiet
  | nil =>
    have hne' : s ≠ [] := (hs.2.1.apart h).1.1
    obtain ⟨p, n, rfl, hn, hbefore⟩ := hs.2.1.number h ((edged_iff hne').1 hs).1
    rw [← lastOr_append] at hbefore
    refine ⟨a' ++ p, n, d, y, rfl, by simp, hbefore, hn, ?_, hd, hafter⟩
    -- A number in ASCII would have been a local part.
    by_contra hall
    push Not at hall
    have hlocal : ∀ c ∈ n, isLocal c = true := fun c hc =>
      isLocal_of_isDigit09 (by simpa using hall c hc)
    obtain ⟨x, xs, rfl, -⟩ := hn.head
    have hedged := edged_email h hd ⟨by simp, hlocal⟩
      ((hn.edge_iff h (c := [])).2 hbefore) hafter
    exact hquiet ⟨a' ++ p, _, y, by simp, hedged⟩

/-- The number and the domain are apart from the mask of an address. -/
theorem NumberAt.apart (hat : NumberAt rt x n d y) :
    Apart "***@***".toList (n ++ '@' :: d) := by
  obtain ⟨c, cs, hcs, hc⟩ := hat.number.head
  refine (apart_of_local (by rw [hcs]; rfl) (isLocal_of_isDigit09 hc) ?_).1
  intro hmem
  rw [List.mem_append, List.mem_cons] at hmem
  rcases hmem with hmem | hmem | hmem
  · exact h.not_in_number (.inr (by decide)) (.inl (hat.number.mem h '*' hmem))
  · revert hmem
    decide
  · exact absurd (hat.domain.mem '*' hmem) (by decide)

/-- The number and the domain stood in the text before the address pass, and there
the domain was not the local part of an address. -/
theorem emailPass_back (hout : emailPass rt t = x ++ (n ++ '@' :: (d ++ y)))
    (hat : NumberAt rt x n d y) :
    ∃ x' y', t = x' ++ (n ++ '@' :: (d ++ y')) ∧ NumberAt rt x' n d y' ∧
      ¬ Continues rt y' := by
  have hR : Rewrites rt.isWord EmailWord "***@***".toList none t
      (x ++ ((n ++ '@' :: d) ++ y)) := by
    have hR := email_rewrites rt t
    rw [← emailPass, hout] at hR
    simpa using hR
  have hend : ∀ {next : Option Char}, Edge rt.isWord (lastOr none (n ++ '@' :: d)) next ↔
      next.any rt.isWord = false := edge_after_domain h hat.domain n
  obtain ⟨x', y', rfl, hl, hr, hquiet⟩ := hR.stands_back (by simp) (hat.apart h)
    ((hat.number.edge_iff h).2 hat.before) (hend.2 hat.after)
  refine ⟨x', y', by simp, ⟨(hat.number.edge_iff h).1 hl, hat.number, hat.foreign, hat.domain,
    hend.1 hr⟩, ?_⟩
  -- An address would start at the first word of the domain.
  rintro ⟨u, w, z, rfl, hu, hw, hz⟩
  obtain ⟨e, he, -, halpha⟩ := hat.domain.last none
  have hat' : (some '@').any rt.isWord = false := h.not_word_of_mem (by decide)
  obtain ⟨d₁, b, d₂, hd, hb, hbefore⟩ :=
    exists_first_word hat' ⟨e, he, h.word_of_alpha halpha⟩
  have hlocal : ∀ c ∈ b :: d₂, isLocal c = true := fun c hc =>
    isLocal_of_isDomain (hat.domain.mem c (by rw [hd]; exact List.mem_append_right _ hc))
  refine hquiet (n ++ '@' :: d₁) (b :: d₂) (by rw [hd]; simp) (by simp)
    ((b :: d₂ ++ u) ++ '@' :: w) z (by simp) ?_
  refine edged_email h hw ⟨by simp, List.forall_mem_append.2 ⟨hlocal, hu⟩⟩ ?_ hz
  rw [lastOr_append, lastOr_cons]
  exact (edge_left_iff hb).2 hbefore

/-- A domain after the letters of a mask has no occurrence that the text has not. -/
theorem DomainWord.free (hd : DomainWord d) {K : List Char → Prop} {b z : List Char}
    (hnone : ¬ Occurs (Edged rt.isWord K) none (b ++ (("XXXX@".toList ++ d) ++ z)))
    (hright : Edge rt.isWord (lastOr none ("XXXX@".toList ++ d)) z.head?) :
    ¬ Occurs (Edged rt.isWord K) none d := by
  intro hocc
  have hat : (lastOr none (b ++ "XXXX@".toList)).any rt.isWord = false := by
    rw [lastOr_append]
    exact h.not_word_of_mem (by decide)
  have hz : z.head?.any rt.isWord = false := (edge_after_domain h hd "XXXX".toList).1 hright
  apply hnone
  rw [← List.append_assoc, ← List.append_assoc, List.append_assoc _ d]
  exact hocc.within hat hz

/-- An address in the redacted text comes from a leak. -/
theorem leaks_of_email (hocc : Occurs (Edged rt.isWord EmailWord) none
    (cardPass rt (phonePass rt (emailPass rt t)))) : Leaks rt t := by
  obtain ⟨a, c, z, hout, hc⟩ := hocc
  have hemail := hc.2.1
  have hne := hemail.apart.1.1
  obtain ⟨hleft, -, hright⟩ := (edged_iff hne).1 hc
  have hR : Rewrites rt.isWord (CardWord rt) "*****".toList none
      (phonePass rt (emailPass rt t)) (a ++ (c ++ z)) := hout ▸ card_rewrites rt _
  obtain ⟨a', z', hphone, hl, hr, -⟩ := hR.stands_back (by simp) hemail.apart.2 hleft hright
  obtain ⟨x, n, d, y, rfl, hmasked, hat⟩ :=
    phonePass_email h emailPass_quiet hphone hemail hl hr
  obtain ⟨x', y', rfl, hat', hends⟩ := emailPass_back h hmasked hat
  -- The domain stands in what the last two passes leave.
  refine ⟨x', n, d, y', rfl, hat', ?_, ?_, hends⟩
  · rw [← Bool.not_eq_true, phoneRe_search_iff]
    exact hat.domain.free h (by rw [← hphone]; exact phonePass_quiet h) hr
  · rw [← Bool.not_eq_true, cardRe_search_iff]
    exact hat.domain.free h (by rw [← hout]; exact cardPass_quiet h) hright

/-! ## A leak makes an address -/

/-- No address has such a number in it. -/
theorem NumberAt.not_email (hat : NumberAt rt x n d y) {s : List Char} (hs : EmailWord s) :
    ∀ v w, s ≠ v ++ (n ++ w) := by
  rintro v w rfl
  obtain ⟨c, hc, hforeign⟩ := hat.foreign
  have hdigit := hs.digit h (List.mem_append_right v (List.mem_append_left w hc))
    (hat.number.mem h c hc)
  rw [hforeign] at hdigit
  cases hdigit

theorem NumberAt.words (hat : NumberAt rt x n d y) : ∀ c ∈ n, rt.isWord c = true :=
  fun c hc => h.word_of_digit c (hat.number.mem h c hc)

/-- In a leak no address starts at the number or later in the domain. -/
theorem Leak.no_email (hleak : Leak rt x n d y) {c₁ c₂ s rest : List Char} {prev : Option Char}
    (hc : n ++ '@' :: d = c₁ ++ c₂) (hc₂ : c₂ ≠ []) (hs : c₂ ++ y = s ++ rest) :
    ¬ Edged rt.isWord EmailWord (lastOr prev c₁) s rest.head? := by
  intro hedged
  have hemail := hedged.2.1
  obtain ⟨hleft, -, hright⟩ := (edged_iff hemail.apart.1.1).1 hedged
  have hhead : s.head? = c₂.head? := by
    rw [← List.head?_append_of_ne_nil s hemail.apart.1.1, ← hs, List.head?_append_of_ne_nil c₂ hc₂]
  have hat : s.head? ≠ some '@' := by
    obtain ⟨z, zs, rfl, hz⟩ := hemail.head
    rintro hz'
    obtain rfl : z = '@' := by simpa using hz'
    revert hz
    decide
  rcases List.append_eq_append_iff.1 hc with ⟨b, rfl, hb⟩ | ⟨b, hn, rfl⟩
  · cases b with
    | nil =>
      -- It would start with the at sign.
      obtain rfl : '@' :: d = c₂ := hb
      exact hat hhead
    | cons a d₁ =>
      -- It would start in the domain and go on in what follows.
      obtain ⟨rfl, hd⟩ := List.cons.inj hb
      have hno : '@' ∉ c₂ := fun hmem =>
        absurd (hleak.domain.mem '@' (by rw [hd]; exact List.mem_append_right _ hmem)) (by decide)
      obtain ⟨u, w, rfl, ⟨-, hu⟩, hw⟩ := hemail
      rw [List.append_assoc, List.cons_append] at hs
      obtain ⟨u', rfl, rfl⟩ := Delimited.append_cons_eq_append hno hs.symm
      refine hleak.ends_here ⟨u', w, rest, rfl, (List.forall_mem_append.1 hu).2, hw, ?_⟩
      exact (edge_after_domain h hw _).1 hright
  · by_cases hb : b = []
    · subst hb
      exact hat hhead
    by_cases hc₁ : c₁ = []
    · -- It would start at the number and have it in it.
      subst hc₁
      rw [List.nil_append] at hn
      subst hn
      rw [List.append_assoc] at hs
      obtain ⟨w, hw, -⟩ := covers_of_edge (hleak.words h) hemail.apart.1.1 hs hright
      exact hleak.not_email h hemail [] w hw
    · -- It would start inside the number.
      rw [hhead, List.head?_append_of_ne_nil b hb] at hleft
      exact not_edge_inside (hleak.words h) hn hc₁ hb prev hleft

/-- A leak is not touched by the address pass. -/
theorem Leak.passed_over (hleak : Leak rt x n d y) :
    ∃ x' y', emailPass rt (x ++ (n ++ '@' :: (d ++ y))) = x' ++ (n ++ '@' :: (d ++ y')) ∧
      NumberAt rt x' n d y' := by
  have hR := email_rewrites rt (x ++ (n ++ '@' :: (d ++ y)))
  rw [← emailPass] at hR
  rcases hR.split_text (by simp) with ⟨x', c', hout, hc, hside⟩ |
    ⟨b, s₁, s₂, rest, a', out', -, hs, -, hs₂, hedged, -⟩
  · rw [← List.cons_append, ← List.append_assoc] at hc
    rcases hc.walk_text with ⟨y', rfl, hy, -⟩ | ⟨c₁, c₂, s, rest, out', hcc, hc₂, hs, -, hedged, -⟩
    · refine ⟨x', y', by rw [hout]; simp, ?_, hleak.number, hleak.foreign, hleak.domain, ?_⟩
      · rcases hside with hside | hside
        · rw [hside]
          exact hleak.before
        · rw [hside]
          exact h.not_word_of_mem (by decide)
      · exact after_kept h rfl hleak.after hy
    · exact absurd hedged (hleak.no_email h hcc hc₂ hs)
  · -- An address across the start of the number would have the number in it.
    have hright := hedged.2.2
    rw [lastOr_append] at hright
    obtain ⟨w, rfl, -⟩ := covers_of_edge (hleak.words h) hs₂ hs hright
    exact absurd rfl (hleak.not_email h hedged.2.1 s₁ w)

/-- What starts before the end of the number, and is a phone number, ends with it. -/
theorem NumberAt.ends_number (hat : NumberAt rt x n d y) {s s₂ rest z : List Char}
    {prev : Option Char} (hs₂ : s₂ ≠ []) (hs : n ++ '@' :: z = s₂ ++ rest)
    (hedged : Edged rt.isWord (PhoneWord rt) prev (s ++ s₂) rest.head?) :
    s₂ = n ∧ '@' :: z = rest := by
  have hright := hedged.2.2
  rw [lastOr_append] at hright
  obtain ⟨w, rfl, hw⟩ := covers_of_edge (hat.words h) hs₂ hs hright
  cases w with
  | nil => exact ⟨by simp, hw⟩
  | cons a ws =>
    obtain ⟨rfl, -⟩ := List.cons.inj hw
    exact absurd (hedged.2.1.mem h '@' (by simp)) (h.not_in_number (.inr (by decide)))

/-- The number is a phone number where it stands. -/
theorem NumberAt.edged (hat : NumberAt rt x n d y) {z : List Char} :
    Edged rt.isWord (PhoneWord rt) (lastOr none x) n ('@' :: z).head? := by
  have hne : n ≠ [] := (hat.number.phoneWord.apart h).1.1
  refine (edged_iff hne).2 ⟨?_, hat.number.phoneWord, ?_⟩
  · have hleft := (hat.number.edge_iff h (c := [])).2 hat.before
    rwa [List.append_nil] at hleft
  · obtain ⟨c, hc, hlast⟩ := lastOr_mem hne none
    rw [hlast, List.head?_cons]
    exact (edge_right_iff (hat.words h c hc)).2 (h.not_word_of_mem (by decide))

/-- The phone pass finds the number. -/
theorem NumberAt.masked (hat : NumberAt rt x n d y) :
    ∃ o out, phonePass rt (x ++ (n ++ '@' :: (d ++ y))) = o ++ ("******XXXX".toList ++ out) ∧
      ∃ prev, Rewrites rt.isWord (PhoneWord rt) "******XXXX".toList prev ('@' :: (d ++ y)) out := by
  have hne : n ≠ [] := (hat.number.phoneWord.apart h).1.1
  have hR := phone_rewrites rt (x ++ (n ++ '@' :: (d ++ y)))
  rw [← phonePass] at hR
  rcases hR.split_text (by simp) with ⟨o, c', hout, hc, -⟩ |
    ⟨b, s₁, s₂, rest, o, out, -, hs, -, hs₂, hedged, hout, hrest⟩
  · rcases hc.walk_text with ⟨y', -, -, hquiet⟩ |
      ⟨c₁, c₂, s, rest, out, hcc, hc₂, hs, hne', hedged, rfl, hrest⟩
    · -- It does not pass over the number.
      exact absurd (hat.edged h) (hquiet [] n rfl hne n ('@' :: (d ++ y)) rfl)
    · by_cases hc₁ : c₁ = []
      · subst hc₁
        rw [List.nil_append] at hcc
        subst hcc
        obtain ⟨rfl, rfl⟩ := hat.ends_number h (s := []) hne' hs hedged
        exact ⟨o, out, hout, _, hrest⟩
      · have hleft := hedged.1
        rw [firstOr_head?_append, ← hs, List.head?_append_of_ne_nil c₂ hc₂] at hleft
        exact absurd hleft (not_edge_inside (hat.words h) hcc hc₁ hc₂ _)
  · obtain ⟨rfl, rfl⟩ := hat.ends_number h hs₂ hs hedged
    exact ⟨o, out, hout, _, hrest⟩

/-- A domain in which there is no number is kept by a pass over numbers. -/
theorem DomainWord.kept (hd : DomainWord d) {K : List Char → Prop} {repl out : List Char}
    {prev : Option Char} (hK : ∀ s, K s → ∀ c ∈ s, rt.isDigit c = true ∨ c ∈ "+- ".toList)
    (hfree : ¬ Occurs (Edged rt.isWord K) none d) (hprev : prev.any rt.isWord = false)
    (hR : Rewrites rt.isWord K repl prev (d ++ y) out) :
    ∃ y', out = d ++ y' ∧ Rewrites rt.isWord K repl (lastOr prev d) y y' := by
  rcases hR.walk_text with ⟨y', hout, hy, -⟩ |
    ⟨c₁, c₂, s, rest, out', rfl, hc₂, hs, -, hedged, -⟩
  · exact ⟨y', hout, hy⟩
  exfalso
  -- A number does not reach the letter at the end of the domain.
  have hlast : ∀ w, s ≠ c₂ ++ w := by
    rintro w rfl
    obtain ⟨z, -, hz, halpha⟩ := hd.last none
    obtain ⟨z', hz', hlast⟩ := lastOr_mem hc₂ (lastOr none c₁)
    rw [lastOr_append, hlast] at hz
    obtain rfl : z' = z := Option.some.inj hz
    exact h.not_in_number (.inl halpha) (hK _ hedged.2.1 z' (List.mem_append_left w hz'))
  rcases List.append_eq_append_iff.1 hs with ⟨w, hw, -⟩ | ⟨b, rfl, rfl⟩
  · exact hlast w hw
  · cases b with
    | nil => exact hlast [] (by simp)
    | cons b bs =>
      refine hfree ⟨c₁, s, b :: bs, rfl, ?_⟩
      exact (edged_congr (lastOr_any_congr (by rw [hprev]; rfl) c₁) rfl).1 hedged

/-- No number starts with one of the characters that a masked number and its at sign
leave of an address. -/
theorem head_not_mem_of_number {K : List Char → Prop}
    (hK : ∀ s, K s → ∀ c ∈ s, rt.isDigit c = true ∨ c ∈ "+- ".toList) :
    ∀ s, K s → ∀ c ∈ s.head?, c ∉ "XXXX@".toList := by
  intro s hs c hc hmem
  have hmask : ∀ c ∈ "XXXX@".toList, isAlphaAZ c = true ∨ c ∈ "*@".toList :=
    List.all_iff_forall_prop.1 (by decide)
  exact h.not_in_number (hmask c hmem) (hK s hs c (List.mem_of_mem_head? hc))

/-- From the letters of the mask on the card pass keeps the domain, and there is an
address. -/
theorem cardPass_email (hd : DomainWord d) (hcard : (cardRe rt).search? rt.isWord d = false)
    (hy : y.head?.any rt.isWord = false) (o : List Char) :
    Occurs (Edged rt.isWord EmailWord) none
      (cardPass rt (o ++ ("******XXXX".toList ++ '@' :: (d ++ y)))) := by
  have hatsign : (some '@').any rt.isWord = false := h.not_word_of_mem (by decide)
  have htext : o ++ ("******XXXX".toList ++ '@' :: (d ++ y)) =
      (o ++ "******".toList) ++ ("XXXX@".toList ++ (d ++ y)) := by simp
  have hR := card_rewrites rt ((o ++ "******".toList) ++ ("XXXX@".toList ++ (d ++ y)))
  rw [← cardPass] at hR
  rw [htext]
  rcases hR.split_text (by simp) with ⟨a', c', hout, hc, hside⟩ |
    ⟨b, s₁, s₂, rest, a', out', hb, -, hs₁, -, hedged, -⟩
  · obtain ⟨out', rfl, hrest⟩ := hc.keeps (head_not_mem_of_number h fun _ => CardWord.mem)
    obtain ⟨y', rfl, hlast⟩ := hd.kept h (fun _ hs => hs.mem)
      (by rw [← cardRe_search_iff, hcard]; simp) hatsign hrest
    have hstar : lastOr none a' = some '*' := by
      rcases hside with hside | hside
      · rw [hside, lastOr_append]
        rfl
      · rw [hside]
        rfl
    have hedged : Edged rt.isWord EmailWord (lastOr none a') ("XXXX".toList ++ '@' :: d)
        y'.head? := by
      refine edged_email h hd ⟨by decide, List.all_iff_forall_prop.1 (by decide)⟩ ?_
        (after_kept h rfl hy hlast)
      rw [hstar]
      exact (edge_left_iff (h.word_of_alpha rfl)).2 (h.not_word_of_mem (by decide))
    rw [hout]
    exact ⟨a', _, y', by simp, hedged⟩
  · -- A card number would have a star in it.
    exfalso
    obtain ⟨z, hz, hlast⟩ := lastOr_mem hs₁ (lastOr none b)
    have hstar : lastOr none (b ++ s₁) = some '*' := by
      rw [← hb, lastOr_append]
      rfl
    rw [lastOr_append, hlast] at hstar
    obtain rfl : z = '*' := Option.some.inj hstar
    exact h.not_in_number (.inr (by decide))
      (hedged.2.1.mem '*' (List.mem_append_left s₂ hz))

/-- A leak ends in an address. -/
theorem Leak.email (hleak : Leak rt x n d y) : Occurs (Edged rt.isWord EmailWord) none
    (cardPass rt (phonePass rt (emailPass rt (x ++ (n ++ '@' :: (d ++ y)))))) := by
  have hatsign : (some '@').any rt.isWord = false := h.not_word_of_mem (by decide)
  obtain ⟨x', y₂, hemail, hat⟩ := hleak.passed_over h
  obtain ⟨o, out, hphone, prev, hR⟩ := hat.masked h
  -- After the mask of the number the phone pass keeps the at sign and the domain.
  have hkeep : ∀ s, PhoneWord rt s → ∀ c ∈ s.head?, c ∉ ['@'] := fun s hs c hc hmem =>
    head_not_mem_of_number h (fun _ hs => hs.mem h) s hs c hc
      (List.mem_append_right "XXXX".toList hmem)
  obtain ⟨out', rfl, hd⟩ := Rewrites.keeps (c := ['@']) hkeep hR
  obtain ⟨y₃, rfl, hrest⟩ := hat.domain.kept h (fun _ hs => hs.mem h)
    (by rw [← phoneRe_search_iff, hleak.no_phone]; simp) hatsign hd
  rw [hemail, hphone]
  exact cardPass_email h hat.domain hleak.no_card (after_kept h rfl hat.after hrest) o

/-- The passes after that for PANs leave an address exactly if there is a leak. -/
theorem email_iff_leaks : Occurs (Edged rt.isWord EmailWord) none
    (cardPass rt (phonePass rt (emailPass rt t))) ↔ Leaks rt t := by
  constructor
  · exact leaks_of_email h
  · rintro ⟨x, n, d, y, rfl, hleak⟩
    exact hleak.email h

end Directions

end AgentPlatform
