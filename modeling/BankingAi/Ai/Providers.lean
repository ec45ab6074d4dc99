import BankingAi.Ai.OpenAICompatible
import BankingAi.Core.Config
import BankingAi.Json.Escape
import BankingAi.Lib.Fallible

/-!
# The providers

Groq and the local server are OpenAI-compatible providers under their own settings; the echo provider is no model
and answers from the request alone.
-/

namespace BankingAi.Ai

def groqProvider (settings : AppSettings) : OpenAICompatibleProvider :=
  .new "groq" settings.groqBaseUrl settings.groqModel
    (if settings.groqApiKey = "" then none else some settings.groqApiKey) settings.llmRequestTimeoutSeconds
    settings.llmMaxRetries true

def localGemmaProvider (settings : AppSettings) : OpenAICompatibleProvider :=
  .new "local_gemma" settings.localGemmaBaseUrl settings.localGemmaModel none settings.llmRequestTimeoutSeconds
    settings.llmMaxRetries false

namespace EchoProvider

def name : String := "echo"

def model : String := "echo-stub-1"

def lastUser (request : CompletionRequest) : String :=
  ((request.messages.reverse.find? (·.role = .user)).map ChatMessage.content).getD ""

def shortened (n : ℕ) (s : String) : String := .ofList (s.toList.take n)

/-- The text of an answer; `json.dumps` writes the two fields with its default separators. -/
def text (request : CompletionRequest) : String :=
  if request.jsonMode then
    "\x7b\"note\": \"echo provider (no live model configured)\", \"echo\": " ++
      .ofList (Json.quote (shortened 500 (lastUser request))) ++ "\x7d"
  else
    "[echo provider - no live model configured] Received " ++ toString request.messages.length ++
      " message(s). Last user message: " ++ shortened 300 (lastUser request)

def complete (latencyMs : ℤ) (request : CompletionRequest) : Except Exn CompletionResult :=
  .ok
    { text := text request, provider := name, model, usedFallback := false, fallbackReason := none
      promptTokens := request.estimatedPromptTokens
      completionTokens := max 1 (((text request).length / 4 : ℕ) : ℤ), latencyMs }

end EchoProvider

/-- A provider that the factory builds. -/
inductive Provider where
  | echo
  | openAI (provider : OpenAICompatibleProvider)

namespace Provider

def name : Provider → String
  | echo => EchoProvider.name
  | openAI provider => provider.name

/-- The provider as the router sees it, with the server behind it. -/
def toProvider (server : Server) (latencyMs : ℤ) : Provider → LLMProvider
  | echo => ⟨EchoProvider.name, EchoProvider.model, .ok true, EchoProvider.complete latencyMs⟩
  | openAI provider => provider.toProvider server latencyMs

end Provider

theorem OpenAICompatibleProvider.provider_of_complete {provider : OpenAICompatibleProvider} {server : Server}
    {latencyMs : ℤ} {request : CompletionRequest} {result : CompletionResult}
    (h : provider.complete server latencyMs request = .ok result) : result.provider = provider.name := by
  unfold complete at h
  split at h
  · cases h
  · split at h
    case h_1 text usage _ =>
      obtain ⟨_, -, h⟩ := except_bind_eq_ok.1 h
      obtain ⟨promptTokens, -, h⟩ := except_bind_eq_ok.1 h
      obtain ⟨_, -, h⟩ := except_bind_eq_ok.1 h
      obtain ⟨_, -, h⟩ := except_bind_eq_ok.1 h
      obtain ⟨completionTokens, -, h⟩ := except_bind_eq_ok.1 h
      cases text with
      | str _ =>
        cases h
        rfl
      | _ => cases h
    case h_2 => split_ifs at h

theorem Provider.provider_of_complete {p : Provider} {server : Server} {latencyMs : ℤ}
    {request : CompletionRequest} {result : CompletionResult}
    (h : (p.toProvider server latencyMs).complete request = .ok result) : result.provider = p.name := by
  cases p with
  | echo =>
    cases h
    rfl
  | openAI provider => exact OpenAICompatibleProvider.provider_of_complete h

end BankingAi.Ai
