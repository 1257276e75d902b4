import Mathlib.Data.Rat.Floor

/-!
# Python values

The values that flow through the platform: tool arguments and results, stored
records, metadata.  They are JSON-like, so one type covers them.

* `PyNum` — Python's numbers; a float is the rational it stands for.
* `Json`, `Dict` — values and dictionaries, with the truth value, the equality and
  the dictionary operations of Python.
* `PyErr` — the exceptions the platform raises or lets through.
* `PyRuntime` — the tables of the interpreter the model does not carry: case
  mapping, character classes, `repr`, byte decoding.
-/

namespace AgentPlatform

/-! ## Numbers -/

/-- A Python number.  `bool` is a subtype of `int`, and floats are exact. -/
inductive PyNum where
  | bool (b : Bool)
  | int (n : ℤ)
  | float (q : ℚ)
  deriving DecidableEq

namespace PyNum

/-- The number a Python number stands for. -/
def val : PyNum → ℚ
  | bool b => if b then 1 else 0
  | int n => n
  | float q => q

/-- Does arithmetic with this number give a float? -/
def isFloat : PyNum → Bool
  | float _ => true
  | _ => false

/-- `int(x)`: towards zero. -/
def trunc (a : PyNum) : ℤ := if 0 ≤ a.val then ⌊a.val⌋ else ⌈a.val⌉

/-- An operation that stays among the integers unless a float takes part. -/
def lift (onInt : ℤ → ℤ → ℤ) (onFloat : ℚ → ℚ → ℚ) (a b : PyNum) : PyNum :=
  if a.isFloat || b.isFloat then float (onFloat a.val b.val) else int (onInt a.trunc b.trunc)

instance : Add PyNum := ⟨lift (· + ·) (· + ·)⟩
instance : Sub PyNum := ⟨lift (· - ·) (· - ·)⟩
instance : Mul PyNum := ⟨lift (· * ·) (· * ·)⟩

/-- `a // b` for a divisor that is not zero. -/
def floorDiv (a b : PyNum) : PyNum :=
  lift (fun x y => ⌊(x / y : ℚ)⌋) (fun x y => ⌊x / y⌋) a b

/-- `min(a, b)`: the first of the two unless the second is smaller. -/
def pyMin (a b : PyNum) : PyNum := if b.val < a.val then b else a

/-- `max(a, b)`: the first of the two unless the second is larger. -/
def pyMax (a b : PyNum) : PyNum := if a.val < b.val then b else a

@[simp] theorem val_int (n : ℤ) : (int n).val = n := rfl
@[simp] theorem val_float (q : ℚ) : (float q).val = q := rfl
@[simp] theorem trunc_int (n : ℤ) : (int n).trunc = n := by simp [trunc]

end PyNum

/-- Round to the nearest integer, ties to the even one. -/
def roundHalfEven (q : ℚ) : ℤ :=
  if q - ⌊q⌋ < 1 / 2 then ⌊q⌋
  else if 1 / 2 < q - ⌊q⌋ then ⌊q⌋ + 1
  else if ⌊q⌋ % 2 = 0 then ⌊q⌋ else ⌊q⌋ + 1

/-- `f"{q:.2f}"`. -/
def fixed2 (q : ℚ) : String :=
  let hundredths := (roundHalfEven (q * 100)).natAbs
  let cents := toString (hundredths % 100)
  (if q < 0 then "-" else "") ++ toString (hundredths / 100) ++ "." ++
    (if hundredths % 100 < 10 then "0" ++ cents else cents)

/-- `round(q, 4)`. -/
def round4 (q : ℚ) : ℚ := roundHalfEven (q * 10000) / 10000

/-! ## Values and dictionaries -/

/-- A JSON-like value. -/
inductive Json where
  | null
  | num (n : PyNum)
  | str (s : String)
  | arr (xs : List Json)
  | obj (fields : List (String × Json))

instance : Inhabited Json := ⟨.null⟩

/-- A dictionary with string keys, in insertion order. -/
abbrev Dict := List (String × Json)

namespace Dict

/-- `d[k]` when the key is there. -/
def get? (d : Dict) (k : String) : Option Json := List.lookup k d

/-- `d.get(k)`. -/
def get (d : Dict) (k : String) : Json := (d.get? k).getD .null

/-- `d.get(k, default)`. -/
def getD (d : Dict) (k : String) (default : Json) : Json := (d.get? k).getD default

/-- `d[k] = v`: in place if the key is there, at the end otherwise. -/
def set : Dict → String → Json → Dict
  | [], k, v => [(k, v)]
  | (k', v') :: d, k, v => if k' = k then (k, v) :: d else (k', v') :: set d k v

/-- `{**d, **e}`. -/
def update (d e : Dict) : Dict := e.foldl (fun d p => d.set p.1 p.2) d

@[simp] theorem get?_nil (k : String) : get? [] k = none := rfl

theorem get?_cons (k' : String) (v : Json) (d : Dict) (k : String) :
    get? ((k', v) :: d) k = if k = k' then some v else get? d k := by
  by_cases h : k = k'
  · simp [get?, h]
  · have hb : (k == k') = false := beq_eq_false_iff_ne.2 h
    simp [get?, List.lookup_cons, hb, h]

@[simp] theorem get?_cons_self (k : String) (v : Json) (d : Dict) :
    get? ((k, v) :: d) k = some v := by simp [get?_cons]

theorem get?_set (d : Dict) (k' : String) (v : Json) (k : String) :
    get? (d.set k' v) k = if k = k' then some v else get? d k := by
  induction d with
  | nil => simp [set, get?_cons]
  | cons p d ih =>
    obtain ⟨k₁, v₁⟩ := p
    by_cases h : k₁ = k'
    · subst h
      by_cases hk : k = k₁ <;> simp [set, get?_cons, hk]
    · rw [set, if_neg h, get?_cons, ih, get?_cons]
      by_cases hk : k = k₁
      · subst hk; simp [h]
      · simp [hk]

/-- A key that is there is set in place. -/
theorem keys_set {d : Dict} {k : String} (v : Json) (h : k ∈ d.map Prod.fst) :
    (d.set k v).map Prod.fst = d.map Prod.fst := by
  induction d with
  | nil => simp at h
  | cons p d ih =>
    obtain ⟨k', v'⟩ := p
    by_cases hk : k' = k
    · simp [set, hk]
    · have hmem : k ∈ d.map Prod.fst := by
        simp only [List.map_cons, List.mem_cons] at h
        exact h.resolve_left fun heq => hk heq.symm
      simp [set, hk, ih hmem]

theorem get?_eq_none_iff {d : Dict} {k : String} : d.get? k = none ↔ k ∉ d.map Prod.fst := by
  rw [get?, List.lookup_eq_none_iff]
  simp only [bne_iff_ne, List.mem_map, not_exists, not_and]
  constructor
  · intro h p hp heq
    exact h p hp heq.symm
  · intro h p hp heq
    exact h p hp heq.symm

theorem mem_keys_iff {d : Dict} {k : String} : k ∈ d.map Prod.fst ↔ ∃ v, d.get? k = some v := by
  rw [← Option.ne_none_iff_exists', ne_eq, get?_eq_none_iff, not_not]

/-- Two dictionaries with the same keys in the same order, and the same values. -/
theorem ext_get? {d e : Dict} (hkeys : d.map Prod.fst = e.map Prod.fst)
    (hnd : (d.map Prod.fst).Nodup) (h : ∀ k, d.get? k = e.get? k) : d = e := by
  induction d generalizing e with
  | nil => exact (List.map_eq_nil_iff.1 hkeys.symm).symm
  | cons p d ih =>
    cases e with
    | nil => simp at hkeys
    | cons q e =>
      obtain ⟨k, v⟩ := p
      obtain ⟨k', v'⟩ := q
      simp only [List.map_cons, List.cons.injEq] at hkeys
      obtain ⟨rfl, hkeys⟩ := hkeys
      rw [List.map_cons, List.nodup_cons] at hnd
      have hv : v = v' := by simpa using h k
      have hrest : d = e := by
        apply ih hkeys hnd.2
        intro k₁
        have hk₁ := h k₁
        rw [get?_cons, get?_cons] at hk₁
        by_cases heq : k₁ = k
        · subst heq
          rw [get?_eq_none_iff.2 hnd.1, get?_eq_none_iff.2 (hkeys ▸ hnd.1)]
        · rwa [if_neg heq, if_neg heq] at hk₁
      rw [hv, hrest]

/-- A key the second dictionary does not have keeps its value. -/
theorem get?_update_of_not_mem (d e : Dict) {k : String} (h : k ∉ e.map Prod.fst) :
    get? (d.update e) k = get? d k := by
  induction e generalizing d with
  | nil => rfl
  | cons p e ih =>
    obtain ⟨k₁, v₁⟩ := p
    simp only [List.map_cons, List.mem_cons, not_or] at h
    have hstep : d.update ((k₁, v₁) :: e) = (d.set k₁ v₁).update e := rfl
    rw [hstep, ih _ h.2, get?_set, if_neg h.1]

/-- A key of the second dictionary takes its value there. -/
theorem get?_update_of_mem (d : Dict) {e : Dict} (hnd : (e.map Prod.fst).Nodup) {k : String}
    {v : Json} (h : (k, v) ∈ e) : get? (d.update e) k = some v := by
  induction e generalizing d with
  | nil => simp at h
  | cons p e ih =>
    obtain ⟨k₁, v₁⟩ := p
    simp only [List.map_cons, List.nodup_cons] at hnd
    have hstep : d.update ((k₁, v₁) :: e) = (d.set k₁ v₁).update e := rfl
    rw [hstep]
    rcases List.mem_cons.1 h with heq | hmem
    · obtain ⟨rfl, rfl⟩ := Prod.mk.inj heq
      rw [get?_update_of_not_mem _ _ hnd.1, get?_set, if_pos rfl]
    · exact ih _ hnd.2 hmem

end Dict

namespace Json

/-- `True` and `False`. -/
abbrev bool (b : Bool) : Json := num (.bool b)

/-- A whole number. -/
abbrev int (n : ℤ) : Json := num (.int n)

/-- A float. -/
abbrev float (q : ℚ) : Json := num (.float q)

/-- `None` or a string. -/
def ofOption : Option String → Json
  | none => null
  | some s => str s

/-- `bool(x)`. -/
def truthy : Json → Bool
  | null => false
  | num n => n.val ≠ 0
  | str s => s ≠ ""
  | arr xs => !xs.isEmpty
  | obj fields => !fields.isEmpty

mutual

/-- `a == b`: numbers by value, lists item by item, dictionaries key by key. -/
def pyEq : Json → Json → Bool
  | null, null => true
  | num m, num n => m.val = n.val
  | str s, str t => s = t
  | arr xs, arr ys => pyEqList xs ys
  | obj fs, obj gs => fs.length = gs.length && pyEqFields fs gs
  | _, _ => false

/-- Equality of lists. -/
def pyEqList : List Json → List Json → Bool
  | [], [] => true
  | x :: xs, y :: ys => pyEq x y && pyEqList xs ys
  | _, _ => false

/-- Every field of the first dictionary is a field of the second. -/
def pyEqFields : List (String × Json) → List (String × Json) → Bool
  | [], _ => true
  | (k, v) :: fs, gs =>
    (match List.lookup k gs with
      | none => false
      | some w => pyEq v w) && pyEqFields fs gs

end

/-- A value is equal to a string only if it is that string. -/
theorem pyEq_str_iff {v : Json} {s : String} : v.pyEq (str s) = true ↔ v = str s := by
  cases v <;> simp [pyEq]

end Json

/-- `a or b`. -/
def pyOr (a b : Json) : Json := if a.truthy then a else b

/-! ## Exceptions -/

/-- The codes of a refused tool execution. -/
inductive DenialCode where
  | toolNotFound
  | insufficientPermission
  | ownershipRequired
  | policyDenied
  | approvalRequired
  | opaDenied
  deriving DecidableEq

/-- Why a tool execution was refused. -/
structure ToolAuthorizationError where
  reason : String
  code : DenialCode
  deriving DecidableEq

/-- The exceptions a run can meet, under their Python names. -/
inductive PyErr where
  | guardrailError (message : String)
  | toolAuthorizationError (e : ToolAuthorizationError)
  | ingestionError (message : String)
  | runtimeError (message : String)
  | valueError (message : String)
  | keyError (k : String)
  | typeError
  | attributeError
  /-- What the model gateway raises when its retries are used up. -/
  | retryError
  /-- A database operation failed. -/
  | operationalError
  /-- The supersteps of a graph run are used up. -/
  | graphRecursionError
  deriving DecidableEq

/-- `type(e).__name__`. -/
def PyErr.className : PyErr → String
  | guardrailError _ => "GuardrailError"
  | toolAuthorizationError _ => "ToolAuthorizationError"
  | ingestionError _ => "IngestionError"
  | runtimeError _ => "RuntimeError"
  | valueError _ => "ValueError"
  | keyError _ => "KeyError"
  | typeError => "TypeError"
  | attributeError => "AttributeError"
  | retryError => "RetryError"
  | operationalError => "OperationalError"
  | graphRecursionError => "GraphRecursionError"

/-- A computation that goes on after another succeeds when both do. -/
theorem bind_eq_ok_iff {α β : Type} {x : Except PyErr α} {f : α → Except PyErr β} {b : β} :
    (x >>= f) = .ok b ↔ ∃ a, x = .ok a ∧ f a = .ok b := by
  cases x with
  | error e => simp [bind, Except.bind]
  | ok a => simp [bind, Except.bind]

/-- `d[k]`. -/
def Dict.getItem (d : Dict) (k : String) : Except PyErr Json :=
  match d.get? k with
  | none => .error (.keyError k)
  | some v => .ok v

theorem Dict.getItem_eq_ok_iff {d : Dict} {k : String} {v : Json} :
    d.getItem k = .ok v ↔ d.get? k = some v := by
  unfold Dict.getItem
  cases d.get? k <;> simp

/-- A value used as a number. -/
def Json.asNum : Json → Except PyErr PyNum
  | .num n => .ok n
  | _ => .error .typeError

/-- A value used as a string. -/
def Json.asStr : Json → Except PyErr String
  | .str s => .ok s
  | _ => .error .attributeError

/-- The items of a value in a `for` loop. -/
def Json.items : Json → Except PyErr (List Json)
  | .arr xs => .ok xs
  | .str s => .ok (s.toList.map fun c => .str (String.singleton c))
  | .obj fields => .ok (fields.map fun p => .str p.1)
  | _ => .error .typeError

/-! ## The interpreter -/

/-- What the model takes from the interpreter as it is: the Unicode tables behind
`str.lower`, `str.upper`, `str.strip`, `\d` and `\w`, the texts of `repr` and of
exceptions, and the decoding of bytes and of decimal numbers. -/
structure PyRuntime where
  lower : String → String
  upper : String → String
  strip : String → String
  /-- `\d`. -/
  isDigit : Char → Bool
  /-- `\w`. -/
  isWord : Char → Bool
  repr : Json → String
  /-- `str(exc)`. -/
  strExc : PyErr → String
  /-- `int(s)` of a string. -/
  parseInt : String → Option ℤ
  /-- `content.decode("utf-8", errors="replace")`. -/
  decode : List UInt8 → String
  /-- `hashlib.md5(...).digest()`. -/
  md5 : List UInt8 → List UInt8
  /-- `hashlib.sha256(...).hexdigest()`. -/
  sha256 : List UInt8 → String

namespace PyRuntime

variable (rt : PyRuntime)

/-- `str(x)`, the text of a value in an f-string. -/
def str : Json → String
  | .str s => s
  | v => rt.repr v

/-- The interpreter on ASCII text, with the texts of `repr`, of exceptions and of
digests left empty. -/
def ascii : PyRuntime where
  lower s := s.map Char.toLower
  upper s := s.map Char.toUpper
  strip s := String.ofList
    (((s.toList.dropWhile Char.isWhitespace).reverse.dropWhile Char.isWhitespace).reverse)
  isDigit := Char.isDigit
  isWord c := c.isAlphanum || c == '_'
  repr _ := ""
  strExc _ := ""
  parseInt := String.toInt?
  decode bytes := String.ofList (bytes.map fun b => Char.ofNat b.toNat)
  md5 bytes := (bytes ++ List.replicate 16 0).take 16
  sha256 _ := ""

/-- `s.lower()` keeps lower-case ASCII letters and underscores as they are. -/
def LowersAscii : Prop :=
  ∀ s : String, (∀ c ∈ s.toList, (c.isLower || c == '_') = true) → rt.lower s = s

theorem ascii_lowersAscii : LowersAscii ascii := by
  intro s hs
  have hsame : ∀ c ∈ s.toList, c.toLower = c := by
    intro c hc
    have hlower := hs c hc
    simp only [Bool.or_eq_true, beq_iff_eq] at hlower
    rcases hlower with hlower | rfl
    · have hrange : (decide ('a'.val ≤ c.val) && decide (c.val ≤ 'z'.val)) = true := hlower
      simp only [Bool.and_eq_true, decide_eq_true_eq, UInt32.le_iff_toNat_le] at hrange
      unfold Char.toLower
      rw [dif_neg]
      simp only [ge_iff_le, UInt32.le_iff_toNat_le]
      have ha : 'a'.val.toNat = 97 := rfl
      have hz : 'Z'.val.toNat = 90 := rfl
      omega
    · decide
  show s.map Char.toLower = s
  apply String.toList_injective
  rw [String.toList_map, List.map_congr_left hsame, List.map_id']

end PyRuntime

end AgentPlatform
