import Mathlib.Data.List.Infix
import AgentPlatform.Lib.Regex
import AgentPlatform.Python.Value

/-!
# PII masking

The central redaction point.  `maskPayload` walks a JSON-like payload: a value
under a sensitive key is replaced, free text is searched for identifiers, and
dictionaries are walked in turn, also inside a list.

* `maskText` — the four detectors, one after the other.
* `maskField` — the mask of a value by the name of its field.
* `maskPayload` — the walk, and `get?_maskPayload`, what it leaves under a key.
-/

namespace AgentPlatform

/-! ## The detectors -/

section Detectors

open Regex

/-- A character between two others. -/
def inRange (lo hi c : Char) : Bool := lo ≤ c && c ≤ hi

def isUpperAZ (c : Char) : Bool := inRange 'A' 'Z' c

def isAlphaAZ (c : Char) : Bool := inRange 'A' 'Z' c || inRange 'a' 'z' c

def isDigit09 (c : Char) : Bool := inRange '0' '9' c

/-- `n` characters of a class. -/
def times (n : ℕ) (p : Char → Bool) : Regex := rep true n (some n) (char p)

/-- At least `n` characters of a class. -/
def atLeast (n : ℕ) (p : Char → Bool) : Regex := rep true n none (char p)

/-- At most one match. -/
def optional (r : Regex) : Regex := rep true 0 (some 1) r

/-- Everything between two word edges. -/
def bounded (r : Regex) : Regex := seq boundary (seq r boundary)

/-- `\b[A-Z]{5}[0-9]{4}[A-Z]\b` -/
def panRe : Regex :=
  bounded (seq (times 5 isUpperAZ) (seq (times 4 isDigit09) (char isUpperAZ)))

/-- `\b(?:\d[ -]*?){13,19}\b` -/
def cardRe (rt : PyRuntime) : Regex :=
  bounded (rep true 13 (some 19)
    (seq (char rt.isDigit) (rep false 0 none (char fun c => c == ' ' || c == '-'))))

/-- `\b[A-Za-z0-9._%+-]+@[A-Za-z0-9.-]+\.[A-Za-z]{2,}\b` -/
def emailRe : Regex :=
  bounded (seq (atLeast 1 fun c => isAlphaAZ c || isDigit09 c || "._%+-".toList.contains c)
    (seq (char (· == '@'))
      (seq (atLeast 1 fun c => isAlphaAZ c || isDigit09 c || ".-".toList.contains c)
        (seq (char (· == '.')) (atLeast 2 isAlphaAZ)))))

/-- `\b(?:\+?91[- ]?)?[6-9]\d{9}\b` -/
def phoneRe (rt : PyRuntime) : Regex :=
  bounded (seq (optional (seq (optional (char (· == '+')))
      (seq (literal "91") (optional (char fun c => c == '-' || c == ' ')))))
    (seq (char (inRange '6' '9')) (times 9 rt.isDigit)))

end Detectors

/-- Redact the patterns of free text. -/
def maskText (rt : PyRuntime) (text : String) : String :=
  let masked := panRe.sub rt.isWord "PANXXXX9999".toList text.toList
  let masked := emailRe.sub rt.isWord "***@***".toList masked
  let masked := (phoneRe rt).sub rt.isWord "******XXXX".toList masked
  let masked := (cardRe rt).sub rt.isWord "*****".toList masked
  String.ofList masked

/-- Where no detector finds anything, the text is kept as it is. -/
theorem maskText_of_not_search {rt : PyRuntime} {text : String}
    (hpan : panRe.search? rt.isWord text.toList = false)
    (hemail : emailRe.search? rt.isWord text.toList = false)
    (hphone : (phoneRe rt).search? rt.isWord text.toList = false)
    (hcard : (cardRe rt).search? rt.isWord text.toList = false) : maskText rt text = text := by
  simp only [maskText, Regex.sub_of_not_search hpan, Regex.sub_of_not_search hemail,
    Regex.sub_of_not_search hphone, Regex.sub_of_not_search hcard, String.ofList_toList]

/-! ## Fields -/

/-- The names under which a value is never kept. -/
def sensitiveFields : List String :=
  ["pan", "aadhaar", "ssn", "card_number", "cvv", "cvv2", "pin", "password", "token",
    "access_token", "refresh_token", "api_key", "account_number", "iban", "dob", "email",
    "phone", "phone_number", "otp", "secret"]

/-- The masks of the fields that have one of their own. -/
def masks : List (String × String) :=
  [("pan", "PANXXXX9999"), ("aadhaar", "XXXX-XXXX-XXXX"), ("ssn", "XXX-XX-XXXX"),
    ("card_number", "************9999"), ("cvv", "***"), ("pin", "***"), ("password", "***"),
    ("account_number", "*****9999"), ("iban", "IBAN***"), ("email", "***@***"),
    ("phone", "******XXXX"), ("otp", "***")]

/-- `sub in s` -/
def contains (s sub : String) : Bool := sub.toList <:+: s.toList

/-- Mask one value by the name of its field. -/
def maskField (rt : PyRuntime) (fieldName : String) (value : Json) : Json :=
  let key := rt.lower fieldName
  match masks.lookup key with
  | some mask => .str mask
  | none =>
    if contains key "token" || contains key "secret" || contains key "key" ||
        contains key "password" then .str "***"
    else value

/-- Is this the name of a sensitive field? -/
def isSensitive (rt : PyRuntime) (fieldName : String) : Bool :=
  let key := rt.lower fieldName
  sensitiveFields.contains key || contains key "token" || contains key "secret" ||
    contains key "key"

/-! ## Payloads -/

mutual

/-- Mask the sensitive fields of a payload, at any depth. -/
def maskPayload (rt : PyRuntime) : List (String × Json) → List (String × Json)
  | [] => []
  | (key, value) :: fields =>
    (key, if isSensitive rt key then maskField rt key value else maskValue rt value) ::
      maskPayload rt fields

/-- Mask a value whose field is not sensitive. -/
def maskValue (rt : PyRuntime) : Json → Json
  | .obj fields => .obj (maskPayload rt fields)
  | .arr items => .arr (maskItems rt items)
  | .str s => .str (maskText rt s)
  | v => v

/-- Of the items of a list only the dictionaries are walked. -/
def maskItems (rt : PyRuntime) : List Json → List Json
  | [] => []
  | .obj fields :: items => .obj (maskPayload rt fields) :: maskItems rt items
  | item :: items => item :: maskItems rt items

end

/-- What the walk leaves under a key: the masked value of that key. -/
theorem get?_maskPayload (rt : PyRuntime) (d : Dict) (k : String) :
    Dict.get? (maskPayload rt d) k =
      (d.get? k).map fun v => if isSensitive rt k then maskField rt k v else maskValue rt v := by
  induction d with
  | nil => simp [maskPayload]
  | cons p d ih =>
    obtain ⟨k', v⟩ := p
    rw [maskPayload, Dict.get?_cons, Dict.get?_cons, ih]
    by_cases h : k = k'
    · subst h; simp
    · simp [h]

example : maskText .ascii "ABCDE1234F" = "PANXXXX9999" := by decide +kernel

end AgentPlatform
