import AgentPlatform.Gateway.Factory

/-!
# Tool calls from the OpenAI API

The provider posts a request and reads the body of the response into an `LLMResponse`.
In the API's format the arguments of a tool call are a text, the JSON text of an object;
the provider hands that text on where a dictionary is declared.

* `OpenAIProvider.complete` — the provider, on a body that is any JSON value.
* `ChatCompletion` — a response in the API's format, together with the tool calls it encodes.
* `complete_decodes_iff` — **when the calls survive**: only when there are none, `tool_calls`
  is not null, and the usage has no entry but counts.
* `complete_mock_iff` — what the caller sees instead: the answer of the mock.
-/

namespace AgentPlatform

/-! ## Reading a body -/

/-- What the provider raises. -/
inductive ResponseError where
  | httpStatusError
  | jsonDecodeError
  | indexError
  /-- The validation of the response model failed. -/
  | validationError
  /-- An exception of the interpreter. -/
  | raised (e : PyErr)
  deriving DecidableEq

namespace Json

/-- `v[k]`. -/
def item (v : Json) (k : String) : Except ResponseError Json :=
  match v with
  | .obj d => (Dict.getItem d k).mapError .raised
  | _ => .error (.raised .typeError)

/-- `v[0]`. -/
def first : Json → Except ResponseError Json
  | .arr (x :: _) => .ok x
  | .arr [] => .error .indexError
  | .str s =>
    match s.toList with
    | [] => .error .indexError
    | c :: _ => .ok (.str (String.singleton c))
  | .obj _ => .error (.raised (.keyError "0"))
  | _ => .error (.raised .typeError)

/-- `v.get(k, default)`. -/
def getOr (v : Json) (k : String) (default : Json) : Except ResponseError Json :=
  match v with
  | .obj d => .ok (Dict.getD d k default)
  | _ => .error (.raised .attributeError)

/-- A value where a string is declared. -/
def asStrField : Json → Option String
  | .str s => some s
  | _ => none

/-- A value where a dictionary is declared. -/
def asDictField : Json → Option Dict
  | .obj d => some d
  | _ => none

/-- A value where an integer is declared.  A float is taken for one if it is whole and less than
`2 ^ 63` either way; a string may be, by a rule of the validation that is not modelled. -/
def asIntField (intOfStr : String → Option ℤ) : Json → Option ℤ
  | .num (.float q) => if q = ⌊q⌋ ∧ -2 ^ 63 < q ∧ q < 2 ^ 63 then some ⌊q⌋ else none
  | .num n => some n.trunc
  | .str s => intOfStr s
  | _ => none

end Json

/-- `ToolCall(**fields)`. -/
def ToolCall.validate (fields : Dict) : Option ToolCall := do
  let id ← (← fields.get? "id").asStrField
  let name ← (← fields.get? "name").asStrField
  let arguments ← (← fields.get? "arguments").asDictField
  return { id, name, arguments }

/-- A dictionary where token counts are declared. -/
def Usage.validate (intOfStr : String → Option ℤ) (usage : Json) : Option Usage := do
  let fields ← usage.asDictField
  fields.mapM fun p => (p.2.asIntField intOfStr).map fun n => (p.1, n)

/-- `LLMResponse(...)`. -/
def LLMResponse.validate (intOfStr : String → Option ℤ) (text : Json) (toolCalls : List Dict)
    (model provider : String) (usage finishReason : Json) : Option LLMResponse := do
  let text ← text.asStrField
  let toolCalls ← toolCalls.mapM ToolCall.validate
  let usage ← Usage.validate intOfStr usage
  let finishReason ← finishReason.asStrField
  return { text, toolCalls, model, provider, usage, finishReason }

/-! ## The provider -/

/-- What the client gets back. -/
structure HttpResponse where
  status : ℕ
  /-- The JSON value of the body, if it is one. -/
  json : Option Json

/-- The name of a role in a payload. -/
def Role.value : Role → String
  | system => "system"
  | user => "user"
  | assistant => "assistant"
  | tool => "tool"

/-- `m.model_dump(exclude_none=True)`. -/
def ChatMessage.modelDump (m : ChatMessage) : Json :=
  .obj ([("role", .str m.role.value), ("content", .str m.content)] ++
    match m.toolCallId with
    | none => []
    | some id => [("tool_call_id", .str id)])

/-- `t.model_dump()`. -/
def ToolSpec.modelDump (t : ToolSpec) : Json :=
  .obj [("name", .str t.name), ("description", .str t.description), ("parameters", t.parameters)]

namespace OpenAIProvider

def payload (request : LLMRequest) : Json :=
  .obj ([("model", .str request.model),
      ("messages", .arr (request.messages.map ChatMessage.modelDump)),
      ("temperature", .float request.temperature),
      ("max_tokens", .int request.maxTokens)] ++
    (if request.tools.isEmpty then [] else
      [("tools", .arr (request.tools.map fun t =>
        .obj [("type", .str "function"), ("function", t.modelDump)]))]) ++
    if request.jsonMode then [("response_format", .obj [("type", .str "json_object")])] else [])

/-- The fields of one tool call, as they are read. -/
def readCall (c : Json) : Except ResponseError Dict := do
  let id ← c.item "id"
  let function ← c.item "function"
  let name ← function.item "name"
  let arguments ← function.getOr "arguments" .null
  return [("id", id), ("name", name), ("arguments", pyOr arguments (.obj []))]

/-- The list of the tool calls, as it is read. -/
def readCalls (toolCalls : Json) : Except ResponseError (List Dict) := do
  (← toolCalls.items.mapError .raised).mapM readCall

/-- A validation that fails raises. -/
def validated : Option LLMResponse → Except ResponseError LLMResponse
  | none => .error .validationError
  | some response => .ok response

/-- From the body of the response to the `LLMResponse`. -/
def readBody (intOfStr : String → Option ℤ) (model : String) (body : Json) :
    Except ResponseError LLMResponse := do
  let data ← (← body.item "choices").first
  let msg ← data.item "message"
  let content ← msg.getOr "content" .null
  let toolCalls ← readCalls (← msg.getOr "tool_calls" (.arr []))
  let usage ← body.getOr "usage" .null
  let finishReason ← data.getOr "finish_reason" (.str "stop")
  validated (LLMResponse.validate intOfStr (pyOr content (.str "")) toolCalls model "openai"
    (pyOr usage (.obj [])) finishReason)

/-- `OpenAIProvider.complete`, over the client that posts a payload. -/
def complete (intOfStr : String → Option ℤ) (post : String → Json → HttpResponse)
    (request : LLMRequest) : Except ResponseError LLMResponse :=
  let resp := post "/chat/completions" (payload request)
  if resp.status / 100 ≠ 2 then .error .httpStatusError
  else
    match resp.json with
    | none => .error .jsonDecodeError
    | some body => readBody intOfStr request.model body

end OpenAIProvider

/-! ## The API's format -/

/-- `json.loads`. -/
structure JsonText where
  loads : String → Option Json
  /-- The empty text is not JSON. -/
  loads_empty : loads "" = none

/-- The item encodes the tool call. -/
def EncodesCall (text : JsonText) (c : Json) (call : ToolCall) : Prop :=
  ∃ (d function : Dict) (arguments : String), c = .obj d ∧ d.get? "id" = some (.str call.id) ∧
    d.get? "function" = some (.obj function) ∧ function.get? "name" = some (.str call.name) ∧
    function.get? "arguments" = some (.str arguments) ∧
    text.loads arguments = some (.obj call.arguments)

/-- The field `tool_calls` encodes the tool calls. -/
inductive EncodesCalls (text : JsonText) : Option Json → List ToolCall → Prop
  | absent : EncodesCalls text none []
  | null : EncodesCalls text (some .null) []
  | list {cs : List Json} {calls : List ToolCall} (h : List.Forall₂ (EncodesCall text) cs calls) :
      EncodesCalls text (some (.arr cs)) calls

/-- A field that is absent or holds a string. -/
inductive IsText : Option Json → Prop
  | absent : IsText none
  | text (s : String) : IsText (some (.str s))

/-- An entry of the usage is a token count, or an object of details. -/
def IsUsageEntry (v : Json) : Prop := (∃ n : ℕ, v = .int n) ∨ ∃ details, v = .obj details

/-- A field that is absent or null, or holds the usage. -/
inductive IsUsage : Option Json → Prop
  | absent : IsUsage none
  | null : IsUsage (some .null)
  | entries (usage : Dict) (h : ∀ p ∈ usage, IsUsageEntry p.2) : IsUsage (some (.obj usage))

/-- A chat-completions response that encodes the tool calls: its first choice holds a
message whose content is a text or null. -/
structure ChatCompletion (text : JsonText) (calls : List ToolCall) where
  body : Dict
  choice : Dict
  message : Dict
  further : List Json
  choices_eq : body.get? "choices" = some (.arr (.obj choice :: further))
  message_eq : choice.get? "message" = some (.obj message)
  content : message.get? "content" = some .null ∨ IsText (message.get? "content")
  toolCalls : EncodesCalls text (message.get? "tool_calls") calls
  usage : IsUsage (body.get? "usage")
  finishReason : IsText (choice.get? "finish_reason")

namespace ChatCompletion

variable {text : JsonText} {calls : List ToolCall} (completion : ChatCompletion text calls)

/-- The response as the client gets it. -/
def http : HttpResponse := ⟨200, some (.obj completion.body)⟩

/-- There are no tool calls, the field for them is not null, and the usage has no entry but
counts. -/
structure Plain : Prop where
  no_calls : calls = []
  not_null : completion.message.get? "tool_calls" ≠ some .null
  counts : ∀ usage, completion.body.get? "usage" = some (.obj usage) →
    ∀ p ∈ usage, ∃ n : ℕ, p.2 = .int n

end ChatCompletion

/-! ## What is read -/

theorem Json.item_obj {d : Dict} {k : String} {v : Json} (h : d.get? k = some v) :
    (Json.obj d).item k = .ok v := by
  simp [Json.item, Dict.getItem, h, Except.mapError]

theorem Json.getOr_obj (d : Dict) (k : String) (default : Json) :
    (Json.obj d).getOr k default = .ok (d.getD k default) := rfl

/-- The fields of a tool call when its arguments are still a text. -/
def ToolCall.fields (call : ToolCall) (arguments : String) : Dict :=
  [("id", .str call.id), ("name", .str call.name), ("arguments", .str arguments)]

/-- A text where a dictionary is declared is refused. -/
theorem ToolCall.validate_fields (call : ToolCall) (arguments : String) :
    ToolCall.validate (call.fields arguments) = none := by
  simp [ToolCall.validate, ToolCall.fields, Dict.get?_cons, Json.asStrField, Json.asDictField]

namespace OpenAIProvider

variable {text : JsonText} {calls : List ToolCall}

/-- The text of the arguments is kept as it is: it is not empty, so it counts as true. -/
theorem readCall_of_encodes {c : Json} {call : ToolCall} (h : EncodesCall text c call) :
    ∃ arguments, readCall c = .ok (call.fields arguments) := by
  obtain ⟨d, function, arguments, rfl, hid, hfunction, hname, harguments, hloads⟩ := h
  have hne : arguments ≠ "" := by
    rintro rfl
    rw [text.loads_empty] at hloads
    cases hloads
  refine ⟨arguments, ?_⟩
  simp [readCall, Json.item_obj hid, Json.item_obj hfunction, Json.item_obj hname,
    Json.getOr_obj, Dict.getD, harguments, pyOr, Json.truthy, hne, ToolCall.fields, bind,
    Except.bind, pure, Except.pure]

/-- The calls are all read, and the validation refuses the first of them. -/
theorem readCalls_list {cs : List Json} (h : List.Forall₂ (EncodesCall text) cs calls) :
    ∃ raw, readCalls (.arr cs) = .ok raw ∧
      raw.mapM ToolCall.validate = if calls.isEmpty then some [] else none := by
  have hread : ∃ raw, cs.mapM readCall = .ok raw ∧
      raw.mapM ToolCall.validate = if calls.isEmpty then some [] else none := by
    induction h with
    | nil => exact ⟨[], rfl, rfl⟩
    | cons hc hrest ih =>
      obtain ⟨arguments, hcall⟩ := readCall_of_encodes hc
      obtain ⟨raw, hraw, -⟩ := ih
      exact ⟨_, by rw [List.mapM_cons, hcall, hraw]; rfl, by simp [ToolCall.validate_fields]⟩
  exact hread

variable (completion : ChatCompletion text calls) (intOfStr : String → Option ℤ)

/-- The field `tool_calls` is null, which cannot be iterated over, or its calls are read. -/
theorem readCalls_cases :
    (completion.message.get? "tool_calls" = some .null ∧
      readCalls (completion.message.getD "tool_calls" (.arr [])) =
        .error (.raised .typeError)) ∨
    (completion.message.get? "tool_calls" ≠ some .null ∧
      ∃ raw, readCalls (completion.message.getD "tool_calls" (.arr [])) = .ok raw ∧
        raw.mapM ToolCall.validate = if calls.isEmpty then some [] else none) := by
  have hcalls := completion.toolCalls
  unfold Dict.getD
  generalize completion.message.get? "tool_calls" = field at hcalls
  cases hcalls with
  | absent => exact .inr ⟨by simp, [], rfl, rfl⟩
  | null => exact .inl ⟨rfl, rfl⟩
  | list h => exact .inr ⟨by simp, readCalls_list h⟩

theorem content_text :
    ∃ s, pyOr (completion.message.getD "content" .null) (.str "") = .str s := by
  have hcontent := completion.content
  unfold Dict.getD
  generalize completion.message.get? "content" = field at hcontent
  obtain rfl | hcontent := hcontent
  · exact ⟨"", rfl⟩
  · cases hcontent with
    | absent => exact ⟨"", rfl⟩
    | text s =>
      unfold pyOr
      split
      · exact ⟨s, rfl⟩
      · exact ⟨"", rfl⟩

theorem finishReason_text :
    ∃ s, completion.choice.getD "finish_reason" (.str "stop") = .str s := by
  have hfinish := completion.finishReason
  unfold Dict.getD
  generalize completion.choice.get? "finish_reason" = field at hfinish
  cases hfinish with
  | absent => exact ⟨"stop", rfl⟩
  | text s => exact ⟨s, rfl⟩

/-! ## The usage -/

@[simp] theorem asIntField_int (n : ℤ) : (Json.int n).asIntField intOfStr = some n := by
  simp [Json.asIntField]

@[simp] theorem asIntField_obj (details : Dict) :
    (Json.obj details).asIntField intOfStr = none := rfl

theorem validate_counts {usage : Dict} (h : ∀ p ∈ usage, ∃ n : ℕ, p.2 = .int n) :
    ∃ counts, Usage.validate intOfStr (.obj usage) = some counts := by
  simp only [Usage.validate, Json.asDictField, Option.bind_eq_bind, Option.bind_some]
  induction usage with
  | nil => exact ⟨[], rfl⟩
  | cons p usage ih =>
    obtain ⟨n, hn⟩ := h p (by simp)
    obtain ⟨counts, hcounts⟩ := ih fun q hq => h q (by simp [hq])
    exact ⟨(p.1, (n : ℤ)) :: counts, by simp [List.mapM_cons, hn, hcounts]⟩

theorem validate_details {usage : Dict} {p : String × Json} (hp : p ∈ usage) {details : Dict}
    (h : p.2 = .obj details) : Usage.validate intOfStr (.obj usage) = none := by
  simp only [Usage.validate, Json.asDictField, Option.bind_eq_bind, Option.bind_some]
  induction usage with
  | nil => cases hp
  | cons q usage ih =>
    rcases List.mem_cons.1 hp with rfl | hp
    · simp [List.mapM_cons, h]
    · simp [List.mapM_cons, ih hp]

/-- The usage is accepted when all its entries are counts. -/
theorem usage_accepted_iff :
    (∃ counts, Usage.validate intOfStr
        (pyOr (completion.body.getD "usage" .null) (.obj [])) = some counts) ↔
      ∀ usage, completion.body.get? "usage" = some (.obj usage) →
        ∀ p ∈ usage, ∃ n : ℕ, p.2 = .int n := by
  have husage := completion.usage
  unfold Dict.getD
  generalize completion.body.get? "usage" = field at husage
  cases husage with
  | absent => simpa using ⟨[], rfl⟩
  | null => simpa using ⟨[], rfl⟩
  | entries usage h =>
    have hor : pyOr (.obj usage) (.obj []) = .obj usage := by
      cases usage <;> rfl
    simp only [Option.getD_some, hor, Option.some.injEq, Json.obj.injEq, forall_eq']
    constructor
    · rintro ⟨counts, hcounts⟩ p hp
      obtain hn | ⟨details, hdetails⟩ := h p hp
      · exact hn
      · rw [validate_details intOfStr hp hdetails] at hcounts
        cases hcounts
    · exact validate_counts intOfStr

/-! ## The round trip -/

theorem validate_texts (text finishReason : String) (raw : List Dict) (model : String)
    (usage : Json) : LLMResponse.validate intOfStr (.str text) raw model "openai" usage
      (.str finishReason) =
        (raw.mapM ToolCall.validate).bind fun toolCalls =>
          (Usage.validate intOfStr usage).map fun usage =>
            { text, toolCalls, model, provider := "openai", usage, finishReason } := by
  cases h : raw.mapM ToolCall.validate with
  | none => simp [LLMResponse.validate, Json.asStrField, h]
  | some toolCalls =>
    cases husage : Usage.validate intOfStr usage <;>
      simp [LLMResponse.validate, Json.asStrField, h, husage]

/-- The body is read up to the tool calls, which decide whether it is read to the end. -/
theorem readBody_eq (model : String) : readBody intOfStr model (.obj completion.body) =
    (readCalls (completion.message.getD "tool_calls" (.arr []))).bind fun toolCalls =>
      validated (LLMResponse.validate intOfStr
        (pyOr (completion.message.getD "content" .null) (.str "")) toolCalls model "openai"
        (pyOr (completion.body.getD "usage" .null) (.obj []))
        (completion.choice.getD "finish_reason" (.str "stop"))) := by
  simp only [readBody, Json.item_obj completion.choices_eq, Json.first,
    Json.item_obj completion.message_eq, Json.getOr_obj, bind, Except.bind]

/-- A plain response is read. -/
theorem readBody_of_plain (model : String) (h : completion.Plain) :
    ∃ response, readBody intOfStr model (.obj completion.body) = .ok response ∧
      response.toolCalls = calls := by
  obtain ⟨s, hs⟩ := content_text completion
  obtain ⟨f, hf⟩ := finishReason_text completion
  obtain ⟨counts, hcounts⟩ := (usage_accepted_iff completion intOfStr).2 h.counts
  obtain ⟨hnull, -⟩ | ⟨-, raw, hread, hraw⟩ := readCalls_cases completion
  · exact absurd hnull h.not_null
  · rw [h.no_calls, List.isEmpty_nil, if_pos rfl] at hraw
    rw [readBody_eq, hs, hf, hread, Except.bind, validate_texts, hraw, hcounts]
    exact ⟨_, rfl, h.no_calls.symm⟩

/-- No other response is. -/
theorem plain_of_readBody {model : String} {response : LLMResponse}
    (h : readBody intOfStr model (.obj completion.body) = .ok response) : completion.Plain := by
  obtain ⟨s, hs⟩ := content_text completion
  obtain ⟨f, hf⟩ := finishReason_text completion
  rw [readBody_eq, hs, hf] at h
  obtain ⟨-, hread⟩ | ⟨hnull, raw, hread, hraw⟩ := readCalls_cases completion
  · rw [hread] at h
    cases h
  · rw [hread, Except.bind, validate_texts, hraw] at h
    by_cases hcalls : calls.isEmpty
    · rw [if_pos hcalls, Option.bind_some] at h
      refine ⟨List.isEmpty_iff.1 hcalls, hnull, (usage_accepted_iff completion intOfStr).1 ?_⟩
      cases husage : Usage.validate intOfStr _ with
      | none =>
        rw [husage] at h
        cases h
      | some counts => exact ⟨counts, rfl⟩
    · rw [if_neg hcalls] at h
      cases h

/-- The client gets the body that the API answers the payload with. -/
theorem complete_http (api : String → Json → ChatCompletion text calls) (request : LLMRequest) :
    complete intOfStr (fun path payload => (api path payload).http) request =
      readBody intOfStr request.model
        (.obj (api "/chat/completions" (payload request)).body) := by
  simp [complete, ChatCompletion.http]

/-- **The round trip of tool calls.**  When the API answers with an encoding of the tool
calls, the provider returns them if and only if there are none, the field for them is not
null, and the usage has no entry but counts. -/
theorem complete_decodes_iff (intOfStr : String → Option ℤ) (text : JsonText)
    (calls : List ToolCall) (api : String → Json → ChatCompletion text calls)
    (request : LLMRequest) :
    (∃ response, complete intOfStr (fun path payload => (api path payload).http) request =
        .ok response ∧ response.toolCalls = calls) ↔
      (api "/chat/completions" (payload request)).Plain := by
  rw [complete_http]
  constructor
  · rintro ⟨response, h, -⟩
    exact plain_of_readBody _ intOfStr h
  · exact readBody_of_plain _ intOfStr request.model

/-- `json.loads`, as far as one text goes. -/
def profileText : JsonText where
  loads s :=
    if s = "\x7b\"customer_id\": \"cust_1001\"\x7d" then
      some (.obj [("customer_id", .str "cust_1001")])
    else none
  loads_empty := rfl

def profileCall : ToolCall :=
  ⟨"call_1", "get_customer_profile", [("customer_id", .str "cust_1001")]⟩

/-- The model asks for the profile of a customer. -/
def profileCompletion : ChatCompletion profileText [profileCall] where
  body :=
    [("choices", .arr [.obj [("index", .int 0),
      ("message", .obj [("role", .str "assistant"), ("content", .null),
        ("tool_calls", .arr [.obj [("id", .str "call_1"), ("type", .str "function"),
          ("function", .obj [("name", .str "get_customer_profile"),
            ("arguments", .str "\x7b\"customer_id\": \"cust_1001\"\x7d")])]])]),
      ("finish_reason", .str "tool_calls")]])]
  choice := _
  message := _
  further := []
  choices_eq := rfl
  message_eq := rfl
  content := .inl rfl
  toolCalls := .list (.cons ⟨_, _, _, rfl, rfl, rfl, rfl, rfl, rfl⟩ .nil)
  usage := .absent
  finishReason := .text "tool_calls"

/-- The tool call is lost: the text of its arguments is refused. -/
theorem profile_call_refused :
    complete (fun _ => none) (fun _ _ => profileCompletion.http)
        { model := "gpt-4o", provider := "openai", messages := [⟨.user, "my profile", none⟩] } =
      .error .validationError ∧
    ¬ ∃ response, complete (fun _ => none) (fun _ _ => profileCompletion.http)
        { model := "gpt-4o", provider := "openai", messages := [⟨.user, "my profile", none⟩] } =
      .ok response ∧ response.toolCalls = [profileCall] := by
  rw [complete_http (fun _ => none) fun _ _ => profileCompletion]
  have herror : readBody (fun _ => none) "gpt-4o" (.obj profileCompletion.body) =
      .error .validationError := rfl
  refine ⟨herror, ?_⟩
  rintro ⟨response, h, -⟩
  cases herror.symm.trans h

/-! ## Behind the gateway -/

/-- The provider is `OpenAIProvider`, and its attempt of number `k` gets the response
`stream k`. -/
def Serves (p : LLMProvider) {calls : ℕ → List ToolCall}
    (stream : ∀ k, ChatCompletion text (calls k)) : Prop :=
  ∀ k request, p.up k = true ↔
    ∃ response, complete intOfStr (fun _ _ => (stream k).http) request = .ok response

/-- An attempt answers when the response to it is plain. -/
theorem Serves.up_iff {p : LLMProvider} {calls : ℕ → List ToolCall}
    {stream : ∀ k, ChatCompletion text (calls k)} (h : Serves intOfStr p stream) (k : ℕ) :
    p.up k = true ↔ (stream k).Plain := by
  have request : LLMRequest := { model := "", provider := "openai", messages := [] }
  rw [h k request, complete_http intOfStr fun _ _ => stream k]
  constructor
  · rintro ⟨response, hread⟩
    exact plain_of_readBody _ intOfStr hread
  · intro hplain
    obtain ⟨response, hread, -⟩ := readBody_of_plain _ intOfStr request.model hplain
    exact ⟨response, hread⟩

open RoutingLLMGateway in
/-- Behind a gateway whose mock answers, the caller gets the answer of the mock exactly when
none of the three responses is plain: the tool calls are lost without an error. -/
theorem complete_mock_iff {g : RoutingLLMGateway} (hcounts : g.CountsUp) {w : CallState}
    {p : LLMProvider} {calls : ℕ → List ToolCall} {stream : ∀ k, ChatCompletion text (calls k)}
    (hserves : Serves intOfStr p stream) (hget : g.get "openai" = some p)
    (hprovider : w.request.provider = "openai")
    (hmock : g.answers "mock" (w.attempts "mock") = true) :
    (∃ response, (g.complete w).1 = .ok response ∧ response.provider = "mock") ↔
      ∀ i < 3, ¬ (stream (w.attempts "openai" + i)).Plain := by
  have hup : ∀ k, g.upAt "openai" k = true ↔ (stream k).Plain := by
    intro k
    rw [upAt, hget]
    exact hserves.up_iff intOfStr k
  cases hanswers : g.answers w.request.provider (w.attempts w.request.provider) with
  | true =>
    obtain ⟨response, attempts, hanswered, hcomplete⟩ := complete_of_answers hanswers
    have hname : response.provider = "openai" := by
      rw [hanswered.provider, CallState.fillModel_provider, hprovider]
    rw [hprovider, answers_eq_true_iff] at hanswers
    obtain ⟨i, hi, hplain⟩ := hanswers
    rw [hcomplete, settle_of_answered hcounts hanswered]
    constructor
    · rintro ⟨response', heq, hmock'⟩
      cases heq
      rw [hname] at hmock'
      exact absurd hmock' (by decide)
    · intro hnone
      exact absurd ((hup _).1 hplain) (hnone i hi)
  | false =>
    have hother : spend 3 w.request.provider w.attempts "mock" = w.attempts "mock" :=
      spend_of_ne (by rw [hprovider]; decide) 3 w.attempts
    obtain ⟨response, attempts, hanswered, hcomplete⟩ :=
      complete_of_mock hanswers (by rw [hother]; exact hmock)
    rw [hprovider, answers_eq_false_iff] at hanswers
    rw [hcomplete, settle_of_answered hcounts hanswered]
    constructor
    · rintro - i hi hplain
      have hdown := hanswers i hi
      rw [(hup _).2 hplain] at hdown
      cases hdown
    · intro _
      exact ⟨response, rfl, by rw [hanswered.provider, atMock_request]⟩

end OpenAIProvider

end AgentPlatform
