import BankingAi.Agents.Base
import BankingAi.Ai.Router
import BankingAi.Lib.PythonStr

/-!
# The summarization agent

An agent that asks the model router for its output. Besides the result of its run, what is kept is the
call of the router it made: the reply and what the router did.
-/

namespace BankingAi

open Ai

/-- The router an agent holds, with the observer it reports to. -/
structure InjectedRouter (σ : Type) where
  router : ModelRouter
  observer : RouterObserver σ
  state : σ

/-- A call of `ModelRouter.complete`. -/
structure ModelCall where
  reply : Except Exn CompletionResult
  events : List RouterEvent

/-- The records the router offers to its observer. -/
def ModelCall.records (call : ModelCall) : List ModelCallRecord :=
  call.events.filterMap fun
    | .offer record => some record
    | _ => none

def InjectedRouter.complete {σ : Type} (r : InjectedRouter σ) (request : CompletionRequest)
    (agentRunId : Option Uuid) : ModelCall :=
  let (reply, state) := r.router.complete r.observer request agentRunId r.state
  ⟨reply, state.events⟩

/-- A run of an agent, with the call of the router it made, if any. -/
structure RoutedRun (τ : Type) where
  result : Except Exn τ
  call : Option ModelCall

def RoutedRun.map {τ υ : Type} (f : τ → υ) (run : RoutedRun τ) : RoutedRun υ := ⟨run.result.map f, run.call⟩

/-- `{result.provider}:{result.model}`. -/
def Ai.CompletionResult.modelUsed (result : CompletionResult) : String := s!"{result.provider}:{result.model}"

structure SummarizationInput where
  content : String
  maxSentences : ℤ
  maxSentences_mem : 1 ≤ maxSentences ∧ maxSentences ≤ 20

structure SummarizationOutput where
  summary : String
  modelUsed : String
  usedFallback : Bool

def SummarizationOutput.toOutput (o : SummarizationOutput) : AgentOutput where
  fields := ((Dict.empty.set "summary" (.str o.summary)).set "model_used" (.str o.modelUsed)).set
    "used_fallback" (.bool o.usedFallback)

namespace SummarizationAgent

def promptVersion : String := "summarize.v1"

/-- The template `summarize.v1`. -/
def system : String :=
  "You are a banking operations assistant. Summarize the provided content factually and concisely for an " ++
    "internal reviewer. Do not invent facts. If information is missing, say so explicitly."

def request (payload : SummarizationInput) : CompletionRequest where
  messages :=
    [⟨.system, system⟩,
      ⟨.user, s!"Summarize the following in at most {payload.maxSentences} sentences:\n\n{payload.content}"⟩]
  maxTokens := 512
  temperature := 1 / 10
  jsonMode := false
  promptVersion := some promptVersion
  maxTokens_mem := CompletionRequest.maxTokens_512
  temperature_mem := by norm_num

variable {σ : Type} (router : Option (InjectedRouter σ))

/-- The router is called without the id of the agent run. -/
def run (payload : SummarizationInput) : RoutedRun SummarizationOutput :=
  match router with
  | none =>
    ⟨.error (.new .agent "Agent 'summarization_agent' requires a model router but none was provided." []), none⟩
  | some router =>
    let call := router.complete (request payload) none
    ⟨call.reply.map fun result => ⟨Str.strip result.text, result.modelUsed, result.usedFallback⟩, some call⟩

end SummarizationAgent
end BankingAi
