import BankingAi.Ai.Types
import BankingAi.Json.Access

/-!
# The OpenAI-compatible provider

`complete` posts the request, again after a transient failure as long as it may, and reads the
reply. The server is what the client sees of it: the outcome of every post.
-/

namespace BankingAi.Ai

/-- What a post raises: a timeout or transport error, which is worth a retry, or another exception. -/
inductive PostError where
  | transport (typeName text : String)
  | other (e : Exn)

/-- A reply; reading its body as JSON may raise. -/
structure HttpResponse where
  statusCode : ℕ
  json : Except Exn Json

structure HttpRequest where
  url : String
  headers : List (String × String)
  json : Json
  timeout : ℚ

/-- The outcome of the `n`-th post of a call. -/
abbrev Server := HttpRequest → ℕ → Except PostError HttpResponse

def HttpResponse.isSuccess (r : HttpResponse) : Prop := 200 ≤ r.statusCode ∧ r.statusCode < 300

instance (r : HttpResponse) : Decidable r.isSuccess := inferInstanceAs (Decidable (_ ∧ _))

structure OpenAICompatibleProvider where
  name : String
  baseUrl : String
  model : String
  apiKey : Option String
  timeout : ℚ
  maxRetries : ℕ
  requiresNetwork : Bool

/-- What the first block of `complete` catches. -/
inductive CallError where
  | httpStatus (statusCode : ℕ)
  | post (e : PostError)
  | json (e : Exn)

namespace OpenAICompatibleProvider

/-- `base_url.rstrip("/")`, and at least no retry. -/
def new (name baseUrl model : String) (apiKey : Option String) (timeout : ℚ) (maxRetries : ℤ)
    (requiresNetwork : Bool) : OpenAICompatibleProvider where
  name
  baseUrl := String.ofList ((baseUrl.toList.reverse.dropWhile (· = '/')).reverse)
  model
  apiKey
  timeout
  maxRetries := maxRetries.toNat
  requiresNetwork

variable (provider : OpenAICompatibleProvider)

def isAvailable : Bool :=
  match provider.apiKey with
  | some key => if provider.requiresNetwork then key ≠ "" else true
  | none => true

def headers : List (String × String) :=
  ("Content-Type", "application/json") ::
    match provider.apiKey with
    | some key => if key = "" then [] else [("Authorization", s!"Bearer {key}")]
    | none => []

def payload (request : CompletionRequest) : Json :=
  .obj ([("model", .str provider.model),
      ("messages", .arr (request.messages.map fun m =>
        .obj [("role", .str m.role.value), ("content", .str m.content)])),
      ("max_tokens", .int request.maxTokens),
      ("temperature", .float (.finite request.temperature))] ++
    if request.jsonMode then [("response_format", .obj [("type", .str "json_object")])] else [])

def httpRequest (request : CompletionRequest) : HttpRequest where
  url := s!"{provider.baseUrl}/chat/completions"
  headers := provider.headers
  json := provider.payload request
  timeout := provider.timeout

/-- Post, and again after a transport error while retries are left; the last exception is raised. -/
def post (posts : ℕ → Except PostError HttpResponse) : ℕ → ℕ → Except PostError HttpResponse
  | n, 0 => posts n
  | n, retries + 1 =>
    match posts n with
    | .error (.transport _ _) => post posts (n + 1) retries
    | outcome => outcome

/-- `response.raise_for_status()` and `response.json()`. -/
def readBody (response : HttpResponse) : Except CallError Json :=
  if response.isSuccess then
    match response.json with
    | .ok data => .ok data
    | .error e => .error (.json e)
  else .error (.httpStatus response.statusCode)

/-- The first guarded block. -/
def fetch (server : Server) (request : CompletionRequest) : Except CallError Json :=
  match post (server (provider.httpRequest request)) 0 provider.maxRetries with
  | .ok response => readBody response
  | .error e => .error (.post e)

/-- The handlers of the first block. -/
def callFailed : CallError → Exn
  | .httpStatus status =>
    .new .llmProvider s!"{provider.name} returned HTTP {status}."
      [("provider", .str provider.name), ("status", .int status)]
  | .post (.transport typeName _) =>
    .new .llmProvider s!"{provider.name} is unreachable: {typeName}."
      [("provider", .str provider.name), ("connectivity", .bool true)]
  | .post (.other e) =>
    .new .llmProvider s!"{provider.name} call failed: {e.typeName}." [("provider", .str provider.name)]
  | .json e =>
    .new .llmProvider s!"{provider.name} call failed: {e.typeName}." [("provider", .str provider.name)]

/-- The body of the second guarded block: the text and the usage. -/
def readReply (data : Json) : Except Exn (Json × Json) := do
  let choices ← data.getKey "choices"
  let choice ← choices.getFirst
  let message ← choice.getKey "message"
  let content ← message.getKey "content"
  let usage ← data.getD "usage" (.obj [])
  pure (content.orEmpty, usage)

/-- `CompletionResult(...)`: a text that is no string fails validation. -/
def completionResult (text : Json) (promptTokens completionTokens latencyMs : ℤ) :
    Except Exn CompletionResult :=
  match text with
  | .str text =>
    .ok
      { text, provider := provider.name, model := provider.model, usedFallback := false
        fallbackReason := none, promptTokens, completionTokens, latencyMs }
  | _ => .error (.other "ValidationError" "1 validation error for CompletionResult")

/-- The end of `complete`, outside every handler. -/
def buildResult (request : CompletionRequest) (latencyMs : ℤ) (text usage : Json) :
    Except Exn CompletionResult := do
  let promptTokens ← (← usage.getD "prompt_tokens" (.int request.estimatedPromptTokens)).toInt
  let length ← text.pyLen
  let completionTokens ←
    (← usage.getD "completion_tokens" (.int (max 1 ((length / 4 : ℕ) : ℤ)))).toInt
  provider.completionResult text promptTokens completionTokens latencyMs

def complete (server : Server) (latencyMs : ℤ) (request : CompletionRequest) :
    Except Exn CompletionResult :=
  match provider.fetch server request with
  | .error e => .error (provider.callFailed e)
  | .ok data =>
    match readReply data with
    | .ok (text, usage) => provider.buildResult request latencyMs text usage
    | .error exc =>
      if exc.typeName ∈ ["KeyError", "IndexError", "TypeError"] then
        .error (.new .llmProvider s!"{provider.name} returned an unexpected response shape."
          [("provider", .str provider.name)])
      else .error exc

/-- The provider as the router sees it. -/
def toProvider (server : Server) (latencyMs : ℤ) : LLMProvider where
  name := provider.name
  model := provider.model
  isAvailable := .ok provider.isAvailable
  complete := provider.complete server latencyMs

end OpenAICompatibleProvider
end BankingAi.Ai
