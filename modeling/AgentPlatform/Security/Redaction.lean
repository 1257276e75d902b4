import AgentPlatform.Security.Pii

/-!
# What masking leaves of a payload

The walk over a payload has three ways with a value: it is replaced by a mask, it is
walked on (and its text searched), or it is kept as it is.  The third is for the
fields whose names are sensitive but have no mask, and for the items of a list that
are not dictionaries.

* `kept` — the values a walk keeps as they are, in order.
* `maskPayload_eq_iff` — **what a masked payload tells**: of two payloads that differ
  under sensitive names only, exactly the kept values.
* `redacted_maskPayload_iff` — **which texts remain**: every text of a masked payload
  is a mask or has been searched, if and only if the kept values have nothing to find.
-/

namespace AgentPlatform

/-! ## Kept values -/

/-- The sensitive names no mask is made for. -/
def unmaskedFields : List String := ["cvv2", "dob", "phone_number"]

/-- The masks a value can be replaced by. -/
def maskTexts : List String := masks.map Prod.snd ++ ["***"]

mutual

/-- The values of a payload that are kept as they are, in the order of the walk. -/
def kept (rt : PyRuntime) : List (String × Json) → List Json
  | [] => []
  | (key, value) :: fields =>
    (if unmaskedFields.contains (rt.lower key) then [value]
      else if isSensitive rt key then []
      else keptIn rt value) ++ kept rt fields

/-- The kept values in a value whose field is not sensitive. -/
def keptIn (rt : PyRuntime) : Json → List Json
  | .obj fields => kept rt fields
  | .arr items => keptItems rt items
  | _ => []

/-- The kept values among the items of a list. -/
def keptItems (rt : PyRuntime) : List Json → List Json
  | [] => []
  | .obj fields :: items => kept rt fields ++ keptItems rt items
  | item :: items => item :: keptItems rt items

end

section Fields

variable {rt : PyRuntime} {key : String}

/-- A name without a mask is a sensitive one. -/
theorem isSensitive_of_unmasked (h : unmaskedFields.contains (rt.lower key) = true) :
    isSensitive rt key = true := by
  have hmem : rt.lower key ∈ sensitiveFields := by
    have hsub : ∀ name ∈ unmaskedFields, name ∈ sensitiveFields := by decide
    exact hsub _ (by simpa using h)
  simp [isSensitive, hmem]

/-- Under a name without a mask a value is kept. -/
theorem maskField_of_unmasked (h : unmaskedFields.contains (rt.lower key) = true) (value : Json) :
    maskField rt key value = value := by
  have hname : ∀ name ∈ unmaskedFields, masks.lookup name = none ∧
      (contains name "token" || contains name "secret" || contains name "key" ||
        contains name "password") = false := by decide
  obtain ⟨hlookup, hcontains⟩ := hname _ (by simpa using h)
  simp only [maskField, hlookup, hcontains]
  rfl

/-- Under any other sensitive name it is replaced by a mask. -/
theorem maskField_of_sensitive (hsensitive : isSensitive rt key = true)
    (h : unmaskedFields.contains (rt.lower key) = false) :
    ∃ mask ∈ maskTexts, ∀ value, maskField rt key value = .str mask := by
  cases hlookup : masks.lookup (rt.lower key) with
  | some mask =>
    refine ⟨mask, ?_, fun value => by simp only [maskField, hlookup]⟩
    obtain ⟨l₁, l₂, hsplit, -⟩ := List.lookup_eq_some_iff.1 hlookup
    refine List.mem_append_left _ (List.mem_map.2 ⟨(rt.lower key, mask), ?_, rfl⟩)
    rw [hsplit]
    exact List.mem_append_right _ (List.mem_cons_self ..)
  | none =>
    refine ⟨"***", by decide, fun value => ?_⟩
    have hlist : ∀ name ∈ sensitiveFields, masks.lookup name = none → name ∉ unmaskedFields →
        (contains name "token" || contains name "secret" || contains name "key") = true := by
      decide
    have hnot : rt.lower key ∉ unmaskedFields := by simpa using h
    have hcontains : (contains (rt.lower key) "token" || contains (rt.lower key) "secret" ||
        contains (rt.lower key) "key") = true := by
      by_cases hmem : rt.lower key ∈ sensitiveFields
      · exact hlist _ hmem hlookup hnot
      · simpa [isSensitive, hmem] using hsensitive
    simp only [maskField, hlookup, hcontains, Bool.true_or, if_true]

end Fields

/-! ## Two payloads -/

mutual

/-- Payloads of the same shape that differ under sensitive names only. -/
def SameShown (rt : PyRuntime) : List (String × Json) → List (String × Json) → Prop
  | [], [] => True
  | (key, value) :: fields, (key', value') :: fields' =>
    key = key' ∧ (sensitiveFields.contains (rt.lower key) = false → SameShownIn rt value value') ∧
      SameShown rt fields fields'
  | _, _ => False

/-- Values that differ under sensitive names only. -/
def SameShownIn (rt : PyRuntime) : Json → Json → Prop
  | .obj fields, .obj fields' => SameShown rt fields fields'
  | .arr items, .arr items' => SameShownItems rt items items'
  | value, value' => value = value'

/-- Lists of values that differ under sensitive names only. -/
def SameShownItems (rt : PyRuntime) : List Json → List Json → Prop
  | [], [] => True
  | item :: items, item' :: items' => SameShownIn rt item item' ∧ SameShownItems rt items items'
  | _, _ => False

end

section Pairs

variable {rt : PyRuntime}

theorem SameShownIn.obj_left {fields : List (String × Json)} {value : Json}
    (h : SameShownIn rt (.obj fields) value) :
    ∃ fields', value = .obj fields' ∧ SameShown rt fields fields' := by
  cases value with
  | obj fields' => exact ⟨fields', rfl, by simpa [SameShownIn] using h⟩
  | null => simp [SameShownIn] at h
  | num n => simp [SameShownIn] at h
  | str s => simp [SameShownIn] at h
  | arr xs => simp [SameShownIn] at h

theorem SameShownIn.arr_left {items : List Json} {value : Json}
    (h : SameShownIn rt (.arr items) value) :
    ∃ items', value = .arr items' ∧ SameShownItems rt items items' := by
  cases value with
  | arr items' => exact ⟨items', rfl, by simpa [SameShownIn] using h⟩
  | null => simp [SameShownIn] at h
  | num n => simp [SameShownIn] at h
  | str s => simp [SameShownIn] at h
  | obj fields => simp [SameShownIn] at h

/-- A value without parts is shown as it is. -/
theorem SameShownIn.eq_of_scalar {value value' : Json} (h : SameShownIn rt value value')
    (hobj : ∀ fields, value ≠ .obj fields) (harr : ∀ items, value ≠ .arr items) :
    value' = value := by
  cases value with
  | obj fields => exact absurd rfl (hobj fields)
  | arr items => exact absurd rfl (harr items)
  | null => simpa [SameShownIn, eq_comm] using h
  | num n => simpa [SameShownIn, eq_comm] using h
  | str s => simpa [SameShownIn, eq_comm] using h

/-- Two ways of keeping and masking a part agree, or differ in a kept value. -/
structure Decides {α : Type} (kept kept' : List Json) (masked masked' : α) : Prop where
  length_eq : kept.length = kept'.length
  eq_iff : masked = masked' ↔ kept = kept'

theorem Decides.refl {α : Type} {kept : List Json} {masked : α} :
    Decides kept kept masked masked :=
  ⟨rfl, iff_of_true rfl rfl⟩

/-- Parts that decide, put together. -/
theorem Decides.cons {α : Type} {k k' l l' : List Json} {x x' : α} {xs xs' : List α}
    (h : Decides k k' x x') (hs : Decides l l' xs xs') :
    Decides (k ++ l) (k' ++ l') (x :: xs) (x' :: xs') where
  length_eq := by rw [List.length_append, List.length_append, h.length_eq, hs.length_eq]
  eq_iff := by
    rw [List.cons.injEq, h.eq_iff, hs.eq_iff]
    exact ⟨fun heq => by rw [heq.1, heq.2], fun heq => List.append_inj heq h.length_eq⟩

mutual

theorem decides_payload : ∀ {p q : List (String × Json)}, SameShown rt p q →
    Decides (kept rt p) (kept rt q) (maskPayload rt p) (maskPayload rt q)
  | [], [], _ => Decides.refl
  | (key, value) :: fields, (key', value') :: fields', h => by
    obtain ⟨rfl, hvalue, hfields⟩ := h
    refine Decides.cons ?_ (decides_payload hfields)
    by_cases hun : unmaskedFields.contains (rt.lower key) = true
    · simp only [hun, if_true, isSensitive_of_unmasked hun, maskField_of_unmasked hun]
      exact ⟨rfl, by simp⟩
    · rw [Bool.not_eq_true] at hun
      cases hsensitive : isSensitive rt key with
      | true =>
        obtain ⟨mask, -, hmask⟩ := maskField_of_sensitive hsensitive hun
        simp only [hun, if_true, hmask]
        exact Decides.refl
      | false =>
        have hshown : sensitiveFields.contains (rt.lower key) = false := by
          simp only [isSensitive, Bool.or_eq_false_iff] at hsensitive
          exact hsensitive.1.1.1
        obtain ⟨hlength, hiff⟩ := decides_value (hvalue hshown)
        simp only [hun, Bool.false_eq_true, if_false]
        exact ⟨hlength, by simp [hiff]⟩
  | [], _ :: _, h => by simp [SameShown] at h
  | _ :: _, [], h => by simp [SameShown] at h

theorem decides_value : ∀ {v v' : Json}, SameShownIn rt v v' →
    Decides (keptIn rt v) (keptIn rt v') (maskValue rt v) (maskValue rt v')
  | .obj fields, v', h => by
    obtain ⟨fields', rfl, hfields⟩ := h.obj_left
    obtain ⟨hlength, hiff⟩ := decides_payload hfields
    exact ⟨hlength, by simpa [maskValue, keptIn] using hiff⟩
  | .arr items, v', h => by
    obtain ⟨items', rfl, hitems⟩ := h.arr_left
    obtain ⟨hlength, hiff⟩ := decides_items hitems
    exact ⟨hlength, by simpa [maskValue, keptIn] using hiff⟩
  | .null, v', h => by
    rw [h.eq_of_scalar (by simp) (by simp)]
    exact Decides.refl
  | .num n, v', h => by
    rw [h.eq_of_scalar (by simp) (by simp)]
    exact Decides.refl
  | .str s, v', h => by
    rw [h.eq_of_scalar (by simp) (by simp)]
    exact Decides.refl

theorem decides_items : ∀ {xs ys : List Json}, SameShownItems rt xs ys →
    Decides (keptItems rt xs) (keptItems rt ys) (maskItems rt xs) (maskItems rt ys)
  | [], [], _ => Decides.refl
  | .obj fields :: items, item' :: items', h => by
    obtain ⟨hitem, hitems⟩ := h
    obtain ⟨fields', rfl, hfields⟩ := hitem.obj_left
    obtain ⟨hlength, hiff⟩ := decides_payload hfields
    exact Decides.cons ⟨hlength, by simpa using hiff⟩ (decides_items hitems)
  | .arr xs :: items, item' :: items', h => by
    obtain ⟨hitem, hitems⟩ := h
    obtain ⟨ys, rfl, -⟩ := hitem.arr_left
    have hkept : Decides [.arr xs] [.arr ys] (Json.arr xs) (Json.arr ys) := ⟨rfl, by simp⟩
    exact hkept.cons (decides_items hitems)
  | .null :: items, item' :: items', h => by
    obtain ⟨hitem, hitems⟩ := h
    rw [hitem.eq_of_scalar (by simp) (by simp)]
    exact Decides.cons (k := [.null]) Decides.refl (decides_items hitems)
  | .num n :: items, item' :: items', h => by
    obtain ⟨hitem, hitems⟩ := h
    rw [hitem.eq_of_scalar (by simp) (by simp)]
    exact Decides.cons (k := [.num n]) Decides.refl (decides_items hitems)
  | .str s :: items, item' :: items', h => by
    obtain ⟨hitem, hitems⟩ := h
    rw [hitem.eq_of_scalar (by simp) (by simp)]
    exact Decides.cons (k := [.str s]) Decides.refl (decides_items hitems)
  | [], _ :: _, h => by simp [SameShownItems] at h
  | _ :: _, [], h => by simp [SameShownItems] at h

end

end Pairs

/-- **What a masked payload tells.**  Of two payloads that differ, at any depth, under
sensitive names only, masking makes the same payload if and only if they keep the same
values. -/
theorem maskPayload_eq_iff (rt : PyRuntime) {p q : List (String × Json)}
    (h : SameShown rt p q) : maskPayload rt p = maskPayload rt q ↔ kept rt p = kept rt q :=
  (decides_payload h).eq_iff

/-- Two payloads that differ in a tax identifier, and keep the same date of birth. -/
theorem maskPayload_eq_iff_of_pan :
    maskPayload .ascii [("pan", .str "ABCDE1234F"), ("dob", .str "1990-01-01")] =
        maskPayload .ascii [("pan", .str "GHIJK5678L"), ("dob", .str "1990-01-01")] ↔
      kept .ascii [("pan", .str "ABCDE1234F"), ("dob", .str "1990-01-01")] =
        kept .ascii [("pan", .str "GHIJK5678L"), ("dob", .str "1990-01-01")] :=
  maskPayload_eq_iff .ascii
    ⟨rfl, fun h => absurd h (by decide +kernel), rfl, fun _ => rfl, trivial⟩

/-- A date of birth is kept under its name, and a tax identifier in a list of lists. -/
theorem masked_payload_tells :
    (SameShown .ascii [("dob", .str "1990-01-01")] [("dob", .str "1984-05-23")] ∧
      maskPayload .ascii [("dob", .str "1990-01-01")] ≠
        maskPayload .ascii [("dob", .str "1984-05-23")]) ∧
    SameShown .ascii [("rows", .arr [.arr [.obj [("pan", .str "ABCDE1234F")]]])]
        [("rows", .arr [.arr [.obj [("pan", .str "GHIJK5678L")]]])] ∧
      maskPayload .ascii [("rows", .arr [.arr [.obj [("pan", .str "ABCDE1234F")]]])] ≠
        maskPayload .ascii [("rows", .arr [.arr [.obj [("pan", .str "GHIJK5678L")]]])] := by
  have hdob : PyRuntime.ascii.lower "dob" = "dob" := by decide +kernel
  have hrows : PyRuntime.ascii.lower "rows" = "rows" := by decide +kernel
  have hshown : isSensitive .ascii "rows" = false := by decide +kernel
  have hsame : SameShown .ascii [("dob", .str "1990-01-01")] [("dob", .str "1984-05-23")] :=
    ⟨rfl, fun h => absurd h (by decide +kernel), trivial⟩
  have hsame' : SameShown .ascii [("rows", .arr [.arr [.obj [("pan", .str "ABCDE1234F")]]])]
      [("rows", .arr [.arr [.obj [("pan", .str "GHIJK5678L")]]])] :=
    ⟨rfl, fun _ => ⟨⟨⟨rfl, fun h => absurd h (by decide +kernel), trivial⟩, trivial⟩, trivial⟩,
      trivial⟩
  refine ⟨⟨hsame, fun h => ?_⟩, hsame', fun h => ?_⟩
  · have hkept := (decides_payload hsame).eq_iff.1 h
    simp [kept, hdob, unmaskedFields] at hkept
  · have hkept := (decides_payload hsame').eq_iff.1 h
    simp [kept, keptIn, keptItems, hrows, hshown, unmaskedFields] at hkept

/-! ## Texts -/

/-- The parts of a value, in order: the values of a dictionary, the items of a list. -/
def Json.children : Json → List Json
  | .obj fields => fields.map Prod.snd
  | .arr items => items
  | _ => []

/-- The value at a position: a path of numbers of parts. -/
def Json.at? : List ℕ → Json → Option Json
  | [], v => some v
  | i :: path, v =>
    match v.children[i]? with
    | none => none
    | some child => Json.at? path child

/-- Every text of the second value is a mask, or the searched text of the first value at
the same position. -/
def Redacted (rt : PyRuntime) (v masked : Json) : Prop :=
  ∀ path text, masked.at? path = some (.str text) →
    text ∈ maskTexts ∨ ∃ raw, v.at? path = some (.str raw) ∧ text = maskText rt raw

/-- Every text of the value is a mask, or has nothing to find in it. -/
def Plain (rt : PyRuntime) (v : Json) : Prop :=
  ∀ path text, v.at? path = some (.str text) → text ∈ maskTexts ∨ maskText rt text = text

section Texts

variable {rt : PyRuntime}

@[simp] theorem Json.at?_nil (v : Json) : v.at? [] = some v := rfl

theorem Json.at?_cons {v child : Json} {i : ℕ} (h : v.children[i]? = some child)
    (path : List ℕ) : v.at? (i :: path) = child.at? path := by
  rw [Json.at?, h]

theorem Json.at?_cons_of_none {v : Json} {i : ℕ} (h : v.children[i]? = none) (path : List ℕ) :
    v.at? (i :: path) = none := by
  rw [Json.at?, h]

/-- A value without parts that is no text has no texts. -/
theorem redacted_of_scalar {v masked : Json} (hchildren : masked.children = [])
    (hstr : ∀ text, masked = .str text → text ∈ maskTexts ∨
      ∃ raw, v = .str raw ∧ text = maskText rt raw) : Redacted rt v masked := by
  intro path text h
  cases path with
  | nil =>
    obtain rfl := Option.some.inj h
    simpa using hstr text rfl
  | cons i path =>
    rw [Json.at?_cons_of_none (by simp [hchildren])] at h
    cases h

/-- A mask is redacted, whatever it stands for. -/
theorem redacted_mask {mask : String} (h : mask ∈ maskTexts) (v : Json) :
    Redacted rt v (.str mask) :=
  redacted_of_scalar rfl fun text htext => Or.inl (by cases htext; exact h)

/-- A value that is kept is redacted if there is nothing to find in it. -/
theorem redacted_self_iff {v : Json} : Redacted rt v v ↔ Plain rt v := by
  constructor
  · intro h path text htext
    rcases h path text htext with hmask | ⟨raw, hraw, heq⟩
    · exact Or.inl hmask
    · rw [htext] at hraw
      cases hraw
      exact Or.inr heq.symm
  · intro h path text htext
    exact (h path text htext).imp_right fun heq => ⟨text, htext, heq.symm⟩

/-- A value with parts is redacted if its parts are. -/
theorem redacted_iff_forall₂ {v masked : Json} (hstr : ∀ text, masked ≠ .str text)
    (hlength : v.children.length = masked.children.length) :
    Redacted rt v masked ↔ List.Forall₂ (Redacted rt) v.children masked.children := by
  rw [List.forall₂_iff_get]
  constructor
  · intro h
    refine ⟨hlength, fun i hi hi' path text htext => ?_⟩
    have hv : v.children[i]? = some (v.children.get ⟨i, hi⟩) := List.getElem?_eq_getElem hi
    have hm : masked.children[i]? = some (masked.children.get ⟨i, hi'⟩) :=
      List.getElem?_eq_getElem hi'
    have := h (i :: path) text (by rw [Json.at?_cons hm]; exact htext)
    rwa [Json.at?_cons hv] at this
  · rintro ⟨-, h⟩ path text htext
    cases path with
    | nil => exact absurd (Option.some.inj htext) (hstr text)
    | cons i path =>
      by_cases hi : i < masked.children.length
      · have hm : masked.children[i]? = some (masked.children.get ⟨i, hi⟩) :=
          List.getElem?_eq_getElem hi
        have hv : v.children[i]? = some (v.children.get ⟨i, hlength ▸ hi⟩) :=
          List.getElem?_eq_getElem (hlength ▸ hi)
        rw [Json.at?_cons hm] at htext
        rw [Json.at?_cons hv]
        exact h i (hlength ▸ hi) hi path text htext
      · rw [Json.at?_cons_of_none (by simpa using hi)] at htext
        cases htext

/-- Masking keeps the names, in order. -/
theorem keys_maskPayload (p : List (String × Json)) :
    (maskPayload rt p).map Prod.fst = p.map Prod.fst := by
  induction p with
  | nil => simp [maskPayload]
  | cons field fields ih => simp [maskPayload, ih]

theorem length_maskPayload (p : List (String × Json)) : (maskPayload rt p).length = p.length := by
  have hkeys : ((maskPayload rt p).map Prod.fst).length = _ :=
    congrArg List.length (keys_maskPayload p)
  simpa using hkeys

theorem length_maskItems (xs : List Json) : (maskItems rt xs).length = xs.length := by
  induction xs with
  | nil => simp [maskItems]
  | cons x xs ih => cases x <;> simp [maskItems, ih]

mutual

theorem redacted_payload : ∀ p : List (String × Json),
    List.Forall₂ (Redacted rt) (p.map Prod.snd) ((maskPayload rt p).map Prod.snd) ↔
      ∀ v ∈ kept rt p, Plain rt v
  | [] => by simp [maskPayload, kept]
  | (key, value) :: fields => by
    simp only [maskPayload, kept, List.map_cons, List.forall₂_cons, redacted_payload fields,
      List.forall_mem_append]
    refine and_congr_left' ?_
    by_cases hun : unmaskedFields.contains (rt.lower key) = true
    · simp only [hun, if_true, isSensitive_of_unmasked hun, maskField_of_unmasked hun,
        redacted_self_iff, List.forall_mem_singleton]
    · rw [Bool.not_eq_true] at hun
      cases hsensitive : isSensitive rt key with
      | true =>
        obtain ⟨mask, hmem, hmask⟩ := maskField_of_sensitive hsensitive hun
        simp only [hun, if_true, hmask]
        exact iff_of_true (redacted_mask hmem value) (by simp)
      | false =>
        simp only [hun, Bool.false_eq_true, if_false]
        exact redacted_value value

theorem redacted_value : ∀ v : Json,
    Redacted rt v (maskValue rt v) ↔ ∀ u ∈ keptIn rt v, Plain rt u
  | .obj fields => by
    rw [maskValue, keptIn, redacted_iff_forall₂ (by simp)
      (by simp [Json.children, length_maskPayload])]
    exact redacted_payload fields
  | .arr items => by
    rw [maskValue, keptIn, redacted_iff_forall₂ (by simp)
      (by simp [Json.children, length_maskItems])]
    exact redacted_items items
  | .str s => by
    refine iff_of_true (redacted_of_scalar rfl fun text htext => Or.inr ⟨s, rfl, ?_⟩) ?_
    · exact (Json.str.inj htext).symm
    · simp [keptIn]
  | .null => iff_of_true (redacted_of_scalar rfl (by simp [maskValue])) (by simp [keptIn])
  | .num n => iff_of_true (redacted_of_scalar rfl (by simp [maskValue])) (by simp [keptIn])

theorem redacted_items : ∀ xs : List Json,
    List.Forall₂ (Redacted rt) xs (maskItems rt xs) ↔ ∀ u ∈ keptItems rt xs, Plain rt u
  | [] => by simp [maskItems, keptItems]
  | .obj fields :: items => by
    rw [maskItems, keptItems, List.forall₂_cons, redacted_items items, List.forall_mem_append,
      redacted_iff_forall₂ (by simp) (by simp [Json.children, length_maskPayload])]
    exact and_congr_left' (redacted_payload fields)
  | .arr xs :: items => by
    simp [maskItems, keptItems, redacted_items items, redacted_self_iff]
  | .str s :: items => by
    simp [maskItems, keptItems, redacted_items items, redacted_self_iff]
  | .null :: items => by
    simp [maskItems, keptItems, redacted_items items, redacted_self_iff]
  | .num n :: items => by
    simp [maskItems, keptItems, redacted_items items, redacted_self_iff]

end

end Texts

/-- **Which texts remain.**  Every text of a masked payload is a mask, or the searched text
at the same position, if and only if the kept values have nothing to find in them. -/
theorem redacted_maskPayload_iff (rt : PyRuntime) (p : List (String × Json)) :
    Redacted rt (.obj p) (.obj (maskPayload rt p)) ↔ ∀ v ∈ kept rt p, Plain rt v := by
  rw [redacted_iff_forall₂ (by simp) (by simp [Json.children, length_maskPayload])]
  exact redacted_payload p

/-- A tax identifier in a list is not looked for. -/
theorem identifier_in_list_not_redacted :
    ¬ Redacted .ascii (.obj [("notes", .arr [.str "ABCDE1234F"])])
      (.obj (maskPayload .ascii [("notes", .arr [.str "ABCDE1234F"])])) := by
  intro h
  have hshown : isSensitive .ascii "notes" = false := by decide +kernel
  have hat : (Json.obj (maskPayload .ascii [("notes", .arr [.str "ABCDE1234F"])])).at? [0, 0] =
      some (.str "ABCDE1234F") := by
    simp [maskPayload, maskValue, maskItems, hshown, Json.at?, Json.children]
  rcases h [0, 0] "ABCDE1234F" hat with hmask | ⟨raw, hraw, htext⟩
  · exact absurd hmask (by decide)
  · have hid : raw = "ABCDE1234F" := by simpa [Json.at?, Json.children, eq_comm] using hraw
    rw [hid] at htext
    exact absurd htext (by decide +kernel)

end AgentPlatform
