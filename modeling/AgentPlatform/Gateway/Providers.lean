import AgentPlatform.Gateway.Degradation
import AgentPlatform.Gateway.OpenAi
import AgentPlatform.Security.Pii

/-!
# The other providers

Besides the OpenAI API the gateway knows a script, Ollama and the API of Anthropic.  The script
asks for a tool when the last message has one of the tool's keywords, and sums up when it is the
result of a tool.  The other two read the text of a response and its token counts, and nothing
else: the tools a model asks for there are lost.

* `MockLLMProvider.complete`, `MockLLMProvider.scripted` — the script, and what it asks for.
* `OllamaProvider.complete`, `AnthropicProvider.complete` — the two APIs, on a body that is any
  JSON value.
* `AnthropicProvider.MessageResponse` — a response in the API's format, with its blocks.
* `AnthropicProvider.complete_text` — **what is left of it**: the text of its text blocks.
* `RoutingLLMGateway.Deployed` — the gateway with the providers the code has.
* `RoutingLLMGateway.Deployed.answered` — **every tool call that comes out of it is the script's.**
-/

namespace AgentPlatform

/-- `s[:n]` -/
def firstChars (n : ℕ) (s : String) : String := String.ofList (s.toList.take n)

/-! ## The script -/

namespace MockLLMProvider

/-- `_TOOL_INTENTS`: the keywords of a tool, and the arguments it is called with. -/
def toolIntents : List (String × List String × Dict) :=
  [("get_customer_profile", ["profile", "customer", "account details", "my details", "kyc status"],
      [("customer_id", .str "cust_1001")]),
    ("get_credit_report", ["credit", "cibil", "bureau", "credit score"],
      [("customer_id", .str "cust_1001")]),
    ("check_loan_eligibility", ["loan", "eligibility", "borrow", "lakh", "emi"],
      [("customer_id", .str "cust_1001"), ("income", .int 850000), ("cibil_score", .int 742),
        ("existing_emis", .int 12000), ("requested_amount", .int 1000000),
        ("tenure_months", .int 60), ("approval_ticket_id", .str "AP-001"),
        ("_approved", .bool true)]),
    ("check_kyc_status", ["kyc", "verification", "onboard"], [("customer_id", .str "cust_1001")]),
    ("sanctions_screen", ["sanction", "aml", "screen"], [("party_name", .str "Priya Sharma")]),
    ("search_documents", ["document", "statement", "pdf", "policy", "contract", "invoice"],
      [("query", .str "terms"), ("top_k", .int 3)])]

/-- `_TOOL_INTENTS.get(name, ((), {}))` -/
def intentOf (name : String) : List String × Dict := (toolIntents.lookup name).getD ([], [])

/-- The tool call for the first offered tool that a text has a keyword of. -/
def scripted (rt : PyRuntime) (tools : List ToolSpec) (content : String) : Option ToolCall :=
  let text := rt.lower content
  (tools.find? fun tool => (intentOf tool.name).1.any fun k => contains text k).map fun tool =>
    ⟨s!"call_{tool.name}", tool.name, (intentOf tool.name).2⟩

/-- The reply to the result of a tool. -/
def summary (request : LLMRequest) (last : ChatMessage) : LLMResponse where
  text := s!"Based on the tool output: {firstChars 400 last.content}"
  model := request.model
  provider := "mock"
  usage := [("prompt_tokens", 10), ("completion_tokens", 12), ("total_tokens", 22)]

/-- The response that asks for a tool. -/
def asking (request : LLMRequest) (tc : ToolCall) : LLMResponse where
  text := ""
  toolCalls := [tc]
  model := request.model
  provider := "mock"
  usage := [("prompt_tokens", 10), ("completion_tokens", 1), ("total_tokens", 11)]
  finishReason := "tool_calls"

/-- Any other reply; `words` counts the words of a text. -/
def echo (words : String → ℕ) (request : LLMRequest) : LLMResponse :=
  let content := (request.messages.getLast?.map ChatMessage.content).getD ""
  let text := s!"[mock:{request.model}] echo: {firstChars 200 content}" ++
    (if request.jsonMode then "\nRequested JSON output." else "")
  { text, model := request.model, provider := "mock",
    usage := [("prompt_tokens", 10), ("completion_tokens", words text), ("total_tokens", 10)] }

def complete (rt : PyRuntime) (words : String → ℕ) (request : LLMRequest) : LLMResponse :=
  match request.messages.getLast? with
  | none => echo words request
  | some last =>
    if last.role = .tool then summary request last
    else
      match scripted rt request.tools last.content with
      | none => echo words request
      | some tc => asking request tc

variable {rt : PyRuntime} {words : String → ℕ} {request : LLMRequest}

theorem complete_provider (rt : PyRuntime) (words : String → ℕ) (request : LLMRequest) :
    (complete rt words request).provider = "mock" := by
  unfold complete
  split
  · rfl
  · split
    · rfl
    · split
      · rfl
      · rfl

theorem complete_tokens (rt : PyRuntime) (words : String → ℕ) (request : LLMRequest) :
    0 ≤ (complete rt words request).usage.tokens := by
  have hecho : 0 ≤ (echo words request).usage.tokens := by
    show (0 : ℤ) ≤ 10 + (words _ : ℤ)
    omega
  unfold complete
  split
  · exact hecho
  · split
    · show (0 : ℤ) ≤ 10 + 12
      decide
    · split
      · exact hecho
      · show (0 : ℤ) ≤ 10 + 1
        decide

/-- The script as a provider behind the gateway; it always answers. -/
def provider (rt : PyRuntime) (words : String → ℕ) : LLMProvider where
  name := "mock"
  up _ := true
  reply _ request := complete rt words request
  error := .runtimeError ""
  reply_provider _ request := complete_provider rt words request

/-- The script counts up. -/
theorem provider_countsUp (rt : PyRuntime) (words : String → ℕ) : (provider rt words).CountsUp :=
  fun _ request => complete_tokens rt words request

end MockLLMProvider

/-! ## Ollama -/

/-- The body of a response, if it has one that can be read. -/
def HttpResponse.read (resp : HttpResponse) (readBody : Json → Except ResponseError LLMResponse) :
    Except ResponseError LLMResponse :=
  if resp.status / 100 ≠ 2 then .error .httpStatusError
  else
    match resp.json with
    | none => .error .jsonDecodeError
    | some body => readBody body

namespace OllamaProvider

def payload (request : LLMRequest) : Json :=
  .obj ([("model", .str request.model),
      ("messages", .arr (request.messages.map ChatMessage.modelDump)),
      ("stream", .bool false),
      ("options", .obj [("temperature", .float request.temperature),
        ("num_predict", .int request.maxTokens)])] ++
    if request.tools.isEmpty then []
    else [("tools", .arr (request.tools.map ToolSpec.modelDump))])

def readBody (intOfStr : String → Option ℤ) (model : String) (body : Json) :
    Except ResponseError LLMResponse := do
  let msg ← body.getOr "message" (.obj [])
  let content ← msg.getOr "content" .null
  let count ← body.getOr "eval_count" .null
  let promptCount ← body.getOr "prompt_eval_count" (.int 0)
  let usage := if count.truthy then
      .obj [("completion_tokens", count), ("prompt_tokens", promptCount)]
    else .obj []
  let finishReason ← body.getOr "done_reason" (.str "stop")
  OpenAIProvider.validated (LLMResponse.validate intOfStr (pyOr content (.str "")) [] model "ollama"
    usage finishReason)

def complete (intOfStr : String → Option ℤ) (post : String → Json → HttpResponse)
    (request : LLMRequest) : Except ResponseError LLMResponse :=
  (post "/api/chat" (payload request)).read (readBody intOfStr request.model)

end OllamaProvider

/-! ## Anthropic -/

namespace AnthropicProvider

/-- `_ROLE_MAP` -/
def roleMap : Role → String
  | .system => "user"
  | .assistant => "assistant"
  | .user => "user"
  | .tool => "user"

def payload (request : LLMRequest) : Json :=
  let system := request.messages.filter fun m => m.role = .system
  let others := request.messages.filter fun m => m.role ≠ .system
  .obj [("model", .str request.model),
    ("system", .str (" ".intercalate (system.map ChatMessage.content))),
    ("messages", .arr (others.map fun m =>
      .obj [("role", .str (roleMap m.role)), ("content", .str m.content)])),
    ("max_tokens", .int request.maxTokens),
    ("temperature", .float request.temperature)]

/-- The texts that are joined: those of the blocks that are of the type `text`. -/
def readTexts : List Json → Except ResponseError (List Json)
  | [] => .ok []
  | b :: blocks => do
    let type ← b.getOr "type" .null
    let text ← b.getOr "text" (.str "")
    let texts ← readTexts blocks
    return if type.pyEq (.str "text") then text :: texts else texts

/-- `"".join(texts)` -/
def joinTexts (texts : List Json) : Except ResponseError String :=
  match texts.mapM Json.asStrField with
  | none => .error (.raised .typeError)
  | some texts => .ok (String.join texts)

def readBody (intOfStr : String → Option ℤ) (model : String) (body : Json) :
    Except ResponseError LLMResponse := do
  let blocks ← (← body.getOr "content" (.arr [])).items.mapError .raised
  let text ← joinTexts (← readTexts blocks)
  let usage ← body.getOr "usage" (.obj [])
  let inputTokens ← usage.getOr "input_tokens" (.int 0)
  let outputTokens ← usage.getOr "output_tokens" (.int 0)
  let finishReason ← body.getOr "stop_reason" (.str "stop")
  OpenAIProvider.validated (LLMResponse.validate intOfStr (.str text) [] model "anthropic"
    (.obj [("prompt_tokens", inputTokens), ("completion_tokens", outputTokens)]) finishReason)

def complete (intOfStr : String → Option ℤ) (post : String → Json → HttpResponse)
    (request : LLMRequest) : Except ResponseError LLMResponse :=
  (post "/v1/messages" (payload request)).read (readBody intOfStr request.model)

end AnthropicProvider

/-! ## No tool calls -/

section NoCalls

variable {intOfStr : String → Option ℤ} {response : LLMResponse}

/-- Where no tool calls are read, the response has none. -/
theorem toolCalls_of_validated {text usage finishReason : Json} {model provider : String}
    (h : OpenAIProvider.validated (LLMResponse.validate intOfStr text [] model provider usage
      finishReason) = .ok response) : response.toolCalls = [] := by
  cases hvalidate : LLMResponse.validate intOfStr text [] model provider usage finishReason with
  | none =>
    rw [hvalidate] at h
    cases h
  | some r =>
    rw [hvalidate] at h
    obtain rfl : r = response := Except.ok.inj h
    simp only [LLMResponse.validate, List.mapM_nil, Option.pure_def, Option.bind_eq_bind,
      Option.bind_some, Option.bind_eq_some_iff, Option.some.injEq] at hvalidate
    obtain ⟨text', -, usage', -, finishReason', -, rfl⟩ := hvalidate
    rfl

/-- What can be read of a body is read of it. -/
theorem HttpResponse.read_eq_ok {resp : HttpResponse}
    {readBody : Json → Except ResponseError LLMResponse} (h : resp.read readBody = .ok response) :
    ∃ body, readBody body = .ok response := by
  unfold HttpResponse.read at h
  split at h
  · cases h
  · split at h
    · cases h
    · next body _ => exact ⟨body, h⟩

theorem except_bind_ok {ε α β : Type} {x : Except ε α} {f : α → Except ε β} {b : β}
    (h : (x >>= f) = .ok b) : ∃ a, f a = .ok b := by
  cases x with
  | error e => cases h
  | ok a => exact ⟨a, h⟩

theorem OllamaProvider.complete_toolCalls {post : String → Json → HttpResponse}
    {request : LLMRequest} (h : OllamaProvider.complete intOfStr post request = .ok response) :
    response.toolCalls = [] := by
  obtain ⟨body, h⟩ := HttpResponse.read_eq_ok h
  obtain ⟨msg, h⟩ := except_bind_ok h
  obtain ⟨content, h⟩ := except_bind_ok h
  obtain ⟨count, h⟩ := except_bind_ok h
  obtain ⟨promptCount, h⟩ := except_bind_ok h
  obtain ⟨finishReason, h⟩ := except_bind_ok h
  exact toolCalls_of_validated h

theorem AnthropicProvider.complete_toolCalls {post : String → Json → HttpResponse}
    {request : LLMRequest} (h : AnthropicProvider.complete intOfStr post request = .ok response) :
    response.toolCalls = [] := by
  obtain ⟨body, h⟩ := HttpResponse.read_eq_ok h
  obtain ⟨content, h⟩ := except_bind_ok h
  obtain ⟨blocks, h⟩ := except_bind_ok h
  obtain ⟨texts, h⟩ := except_bind_ok h
  obtain ⟨text, h⟩ := except_bind_ok h
  obtain ⟨usage, h⟩ := except_bind_ok h
  obtain ⟨inputTokens, h⟩ := except_bind_ok h
  obtain ⟨outputTokens, h⟩ := except_bind_ok h
  obtain ⟨finishReason, h⟩ := except_bind_ok h
  exact toolCalls_of_validated h

end NoCalls

/-! ## What is left of a response -/

namespace AnthropicProvider

/-- A block of a message: a text, or the use of a tool. -/
inductive Block where
  | text (s : String)
  | toolUse (call : ToolCall)

/-- The text of a text block. -/
def Block.text? : Block → Option String
  | text s => some s
  | toolUse _ => none

/-- The item encodes the block. -/
inductive EncodesBlock : Json → Block → Prop
  | text (d : Dict) (s : String) (htype : d.get? "type" = some (.str "text"))
      (htext : d.get? "text" = some (.str s)) : EncodesBlock (.obj d) (.text s)
  | toolUse (d : Dict) (call : ToolCall) (htype : d.get? "type" = some (.str "tool_use"))
      (hid : d.get? "id" = some (.str call.id)) (hname : d.get? "name" = some (.str call.name))
      (hinput : d.get? "input" = some (.obj call.arguments)) :
      EncodesBlock (.obj d) (.toolUse call)

/-- A message in the API's format that encodes the blocks. -/
structure MessageResponse (blocks : List Block) where
  body : Dict
  content : List Json
  content_eq : body.get? "content" = some (.arr content)
  encodes : List.Forall₂ EncodesBlock content blocks
  usage : Dict
  usage_eq : body.get? "usage" = some (.obj usage)
  inputTokens : ℕ
  input_eq : usage.get? "input_tokens" = some (.int inputTokens)
  outputTokens : ℕ
  output_eq : usage.get? "output_tokens" = some (.int outputTokens)
  stopReason : String
  stop_eq : body.get? "stop_reason" = some (.str stopReason)

/-- The message as the client gets it. -/
def MessageResponse.http {blocks : List Block} (message : MessageResponse blocks) : HttpResponse :=
  ⟨200, some (.obj message.body)⟩

/-- Of encoded blocks the texts are read, and the uses of tools are passed over. -/
theorem readTexts_of_encodes {content : List Json} {blocks : List Block}
    (h : List.Forall₂ EncodesBlock content blocks) :
    readTexts content = .ok ((blocks.filterMap Block.text?).map .str) := by
  induction h with
  | nil => rfl
  | cons hb hrest ih =>
    cases hb with
    | text d s htype htext =>
      simp [readTexts, Json.getOr_obj, Dict.getD, htype, htext, ih, Json.pyEq, Block.text?, bind,
        Except.bind, pure, Except.pure]
    | toolUse d call htype hid hname hinput =>
      simp [readTexts, Json.getOr_obj, Dict.getD, htype, ih, Json.pyEq, Block.text?,
        List.filterMap_cons, bind, Except.bind, pure, Except.pure]

theorem joinTexts_str (texts : List String) :
    joinTexts (texts.map .str) = .ok (String.join texts) := by
  have hmap : (texts.map Json.str).mapM Json.asStrField = some texts := by
    induction texts with
    | nil => rfl
    | cons s texts ih => simp [List.mapM_cons, Json.asStrField, ih]
  rw [joinTexts, hmap]

/-- **What is left of a message**, for every list of blocks: its texts, joined, and the counts.
The uses of tools are dropped, and nothing tells of them but the reason it stopped for. -/
theorem complete_text (intOfStr : String → Option ℤ) (blocks : List Block)
    (api : String → Json → MessageResponse blocks) (request : LLMRequest) :
    complete intOfStr (fun path payload => (api path payload).http) request = .ok
      { text := String.join (blocks.filterMap Block.text?)
        model := request.model
        provider := "anthropic"
        usage := [("prompt_tokens", (api "/v1/messages" (payload request)).inputTokens),
          ("completion_tokens", (api "/v1/messages" (payload request)).outputTokens)]
        finishReason := (api "/v1/messages" (payload request)).stopReason } := by
  set message := api "/v1/messages" (payload request) with hmessage
  have hread : complete intOfStr (fun path payload => (api path payload).http) request =
      readBody intOfStr request.model (.obj message.body) := by
    simp [complete, HttpResponse.read, MessageResponse.http, hmessage]
  rw [hread]
  simp [readBody, Json.getOr_obj, Dict.getD, message.content_eq, Json.items, Except.mapError,
    readTexts_of_encodes message.encodes, joinTexts_str, message.usage_eq, message.input_eq,
    message.output_eq, message.stop_eq, LLMResponse.validate, Usage.validate, Json.asDictField,
    Json.asStrField, OpenAIProvider.validated, bind, Except.bind]

end AnthropicProvider

/-! ## Behind the gateway -/

/-- The provider is what the code makes of a stream of responses. -/
structure LLMProvider.Runs (p : LLMProvider)
    (complete : HttpResponse → LLMRequest → Except ResponseError LLMResponse)
    (stream : ℕ → HttpResponse) : Prop where
  up : ∀ k request, p.up k = true ↔ ∃ response, complete (stream k) request = .ok response
  reply : ∀ k request response, complete (stream k) request = .ok response →
    p.reply k request = response

/-- A response of the OpenAI API: an error, or a completion in the API's format. -/
def OpenAIProvider.InFormat (resp : HttpResponse) : Prop :=
  resp.status / 100 ≠ 2 ∨ ∃ (text : JsonText) (calls : List ToolCall)
    (completion : ChatCompletion text calls), resp = completion.http

namespace RoutingLLMGateway

/-- The gateway as the settings build it, with the providers the code has: Ollama and Anthropic
may answer anything, OpenAI answers in its format. -/
structure Deployed (g : RoutingLLMGateway) (rt : PyRuntime) : Prop where
  built : ∃ settings openai anthropic ollama words,
    g = buildLlmGateway settings openai anthropic ollama (MockLLMProvider.provider rt words) ∧
    openai.name = "openai" ∧ anthropic.name = "anthropic" ∧ ollama.name = "ollama" ∧
    (∃ intOfStr stream, openai.Runs (fun resp => OpenAIProvider.complete intOfStr fun _ _ => resp)
      stream ∧ ∀ k, OpenAIProvider.InFormat (stream k)) ∧
    (∃ intOfStr stream, anthropic.Runs
      (fun resp => AnthropicProvider.complete intOfStr fun _ _ => resp) stream) ∧
    ∃ intOfStr stream, ollama.Runs (fun resp => OllamaProvider.complete intOfStr fun _ _ => resp)
      stream

end RoutingLLMGateway

/-- A provider that is down, whatever it would read. -/
theorem LLMProvider.echo_runs (name : String)
    {complete : HttpResponse → LLMRequest → Except ResponseError LLMResponse}
    (hdown : ∀ request, complete ⟨500, none⟩ request = .error .httpStatusError) :
    (LLMProvider.echo name false).Runs complete fun _ => ⟨500, none⟩ where
  up k request := by simp [LLMProvider.echo, hdown]
  reply k request response h := by
    rw [hdown] at h
    cases h

/-- Nothing but the script is up. -/
def scriptedGateway : RoutingLLMGateway :=
  RoutingLLMGateway.buildLlmGateway {} (.echo "openai" false) (.echo "anthropic" false)
    (.echo "ollama" false) (MockLLMProvider.provider .ascii fun text => (text.splitOn " ").length)

theorem scriptedGateway_deployed : scriptedGateway.Deployed .ascii where
  built := ⟨{}, _, _, _, _, rfl, rfl, rfl, rfl,
    ⟨fun _ => none, _, LLMProvider.echo_runs "openai" fun _ => by
      simp [OpenAIProvider.complete], fun _ => .inl (by decide)⟩,
    ⟨fun _ => none, _, LLMProvider.echo_runs "anthropic" fun _ => by
      simp [AnthropicProvider.complete, HttpResponse.read]⟩,
    ⟨fun _ => none, _, LLMProvider.echo_runs "ollama" fun _ => by
      simp [OllamaProvider.complete, HttpResponse.read]⟩⟩

/-- The response asks for no tool, or for the scripted one of the last message, which is not the
result of a tool. -/
def LLMResponse.ScriptedFor (rt : PyRuntime) (request : LLMRequest) (response : LLMResponse) :
    Prop :=
  response.toolCalls = [] ∨ ∃ last tc, request.messages.getLast? = some last ∧
    last.role ≠ .tool ∧ MockLLMProvider.scripted rt request.tools last.content = some tc ∧
    response.toolCalls = [tc]

section Behind

variable {rt : PyRuntime}

theorem MockLLMProvider.complete_scripted (words : String → ℕ) (request : LLMRequest) :
    (MockLLMProvider.complete rt words request).ScriptedFor rt request := by
  unfold MockLLMProvider.complete
  cases hlast : request.messages.getLast? with
  | none => exact .inl rfl
  | some last =>
    dsimp only
    by_cases hrole : last.role = .tool
    · rw [if_pos hrole]
      exact .inl rfl
    · rw [if_neg hrole]
      cases hscript : MockLLMProvider.scripted rt request.tools last.content with
      | none => exact .inl rfl
      | some tc => exact .inr ⟨last, tc, hlast, hrole, hscript, rfl⟩

/-- In its format, OpenAI's tool calls never come through. -/
theorem OpenAIProvider.toolCalls_of_inFormat {intOfStr : String → Option ℤ} {resp : HttpResponse}
    {request : LLMRequest} {response : LLMResponse} (hformat : InFormat resp)
    (h : complete intOfStr (fun _ _ => resp) request = .ok response) : response.toolCalls = [] := by
  obtain hstatus | ⟨text, calls, completion, rfl⟩ := hformat
  · rw [complete, if_pos hstatus] at h
    cases h
  · rw [complete_http intOfStr fun _ _ => completion] at h
    have hplain := plain_of_readBody completion intOfStr h
    obtain ⟨response', hread, hcalls⟩ := readBody_of_plain completion intOfStr request.model hplain
    obtain rfl : response' = response := Except.ok.inj (hread.symm.trans h)
    rw [hcalls, hplain.no_calls]

/-- What a provider with the code answers is what the code returns. -/
theorem LLMProvider.Runs.toolCalls {p : LLMProvider}
    {complete : HttpResponse → LLMRequest → Except ResponseError LLMResponse}
    {stream : ℕ → HttpResponse} (hruns : p.Runs complete stream)
    (hnone : ∀ k request response, complete (stream k) request = .ok response →
      response.toolCalls = []) {k : ℕ} (hup : p.up k = true) (request : LLMRequest) :
    (p.reply k request).toolCalls = [] := by
  obtain ⟨response, hcomplete⟩ := (hruns.up k request).1 hup
  rw [hruns.reply k request response hcomplete]
  exact hnone k request response hcomplete

namespace RoutingLLMGateway

variable {g : RoutingLLMGateway}

/-- **Every answer behind the gateway is scripted.** -/
theorem Deployed.answered (hg : g.Deployed rt) {request : LLMRequest} {response : LLMResponse}
    (h : g.Answered request response) : response.ScriptedFor rt request := by
  obtain ⟨settings, openai, anthropic, ollama, words, rfl, -, -, -, hopenai, hanthropic, hollama⟩ :=
    hg.built
  obtain ⟨p, k, hget, hup, rfl⟩ := h
  have hmem := mem_of_get hget
  simp only [buildLlmGateway, List.mem_append, List.mem_cons, List.not_mem_nil, or_false] at hmem
  obtain (hopen | hanth) | rfl | rfl := hmem
  · split at hopen
    · obtain rfl := List.mem_singleton.1 hopen
      obtain ⟨intOfStr, stream, hruns, hformat⟩ := hopenai
      exact .inl (hruns.toolCalls
        (fun k _ _ hok => OpenAIProvider.toolCalls_of_inFormat (hformat k) hok) hup request)
    · exact absurd hopen List.not_mem_nil
  · split at hanth
    · obtain rfl := List.mem_singleton.1 hanth
      obtain ⟨intOfStr, stream, hruns⟩ := hanthropic
      exact .inl (hruns.toolCalls
        (fun _ _ _ hok => AnthropicProvider.complete_toolCalls hok) hup request)
    · exact absurd hanth List.not_mem_nil
  · obtain ⟨intOfStr, stream, hruns⟩ := hollama
    exact .inl (hruns.toolCalls
      (fun _ _ _ hok => OllamaProvider.complete_toolCalls hok) hup request)
  · exact MockLLMProvider.complete_scripted words request

/-- A call that returns was answered, with the messages and the tools of its request. -/
theorem complete_answered {w : CallState} {response : LLMResponse}
    (h : (g.complete w).1 = .ok response) : ∃ request, g.Answered request response ∧
      request.messages = w.request.messages ∧ request.tools = w.request.tools := by
  have hfill : (w.fillModel g.defaultModel).request.messages = w.request.messages ∧
      (w.fillModel g.defaultModel).request.tools = w.request.tools := by
    unfold CallState.fillModel CallState.setModel
    split
    · exact ⟨rfl, rfl⟩
    · exact ⟨rfl, rfl⟩
  obtain ⟨response', ⟨i, hfirst⟩ | ⟨hfail, i, hfirst⟩⟩ | ⟨hfail, hmock⟩ := comesTo_or_allFail g w
  · rw [complete_of_first hfirst] at h
    obtain ⟨rfl, -⟩ := settle_eq_ok h
    exact ⟨_, hfirst.answered, hfill⟩
  · rw [complete_of_degraded hfail.answers hfirst] at h
    obtain ⟨rfl, -⟩ := settle_eq_ok h
    exact ⟨_, hfirst.answered, by rw [atMock_request], by rw [atMock_request]⟩
  · rw [complete_of_down hfail.answers hmock.answers_mock] at h
    cases h

end RoutingLLMGateway

end Behind

end AgentPlatform
