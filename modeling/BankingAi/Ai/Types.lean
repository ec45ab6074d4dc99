import Mathlib
import BankingAi.Core.Errors

/-!
# Completion requests, results and providers

The contracts between agents, the router and providers. A provider is what it answers when it is
asked: whether it is available, and a completion; either may raise.
-/

namespace BankingAi.Ai

inductive Role where
  | system | user | assistant
deriving DecidableEq, Repr

def Role.value : Role → String
  | system => "system"
  | user => "user"
  | assistant => "assistant"

structure ChatMessage where
  role : Role
  content : String

structure CompletionRequest where
  messages : List ChatMessage
  maxTokens : ℤ
  temperature : ℚ
  jsonMode : Bool
  promptVersion : Option String
  maxTokens_mem : 1 ≤ maxTokens ∧ maxTokens ≤ 32000
  temperature_mem : 0 ≤ temperature ∧ temperature ≤ 2

theorem CompletionRequest.maxTokens_512 : (1 : ℤ) ≤ 512 ∧ (512 : ℤ) ≤ 32000 := by decide

/-- About four characters a token. -/
def CompletionRequest.estimatedPromptTokens (request : CompletionRequest) : ℤ :=
  max 1 (((request.messages.map fun m => m.content.length).sum / 4 : ℕ) : ℤ)

structure CompletionResult where
  text : String
  provider : String
  model : String
  usedFallback : Bool
  fallbackReason : Option String
  promptTokens : ℤ
  completionTokens : ℤ
  latencyMs : ℤ

structure LLMProvider where
  name : String
  model : String
  isAvailable : Except Exn Bool
  complete : CompletionRequest → Except Exn CompletionResult

namespace LLMProvider

/-- A completion that fails raises `LLMProviderError`. -/
def KeepsContract (p : LLMProvider) : Prop :=
  ∀ request e, p.complete request = .error e → e.IsApp .llmProvider

/-- An availability check that raises counts as unavailable. -/
def available (p : LLMProvider) : Bool :=
  match p.isAvailable with
  | .ok available => available
  | .error _ => false

end LLMProvider
end BankingAi.Ai
