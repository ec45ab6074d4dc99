import BankingAi.Ai.Cost
import BankingAi.Ai.Types
import BankingAi.Db.Workflow

/-!
# The model router

`complete` tries the providers of its chain in order until one serves the request, and offers its
observer a record of every attempt. The state of a call is the list of what it has done so far and
the observer's own state.
-/

namespace BankingAi.Ai

structure ModelCallRecord where
  provider : String
  model : String
  routingPolicy : String
  usedFallback : Bool
  fallbackReason : Option String
  promptTokens : ℤ
  completionTokens : ℤ
  latencyMs : ℤ
  success : Bool
  error : Option String
  promptVersion : Option String
  estimatedCostUsd : ℚ
  agentRunId : Option Uuid

/-- An observer with its state; it should not raise, but it may. -/
structure RouterObserver (σ : Type) where
  record : ModelCallRecord → σ → Except Exn Unit × σ

structure ModelRouter where
  providers : List LLMProvider
  policy : String
  nonempty : providers ≠ []

/-- What the router does to the outside: it asks the `index`-th provider whether it is available, or
for a completion, or it offers a record to the observer. -/
inductive RouterEvent where
  | probe (index : ℕ)
  | call (index : ℕ)
  | offer (record : ModelCallRecord)

structure RouterState (σ : Type) where
  events : List RouterEvent
  observer : σ

def RouterState.log {σ : Type} (s : RouterState σ) (e : RouterEvent) : RouterState σ :=
  { s with events := s.events ++ [e] }

/-- The record of a failed attempt. -/
def failureRecord (policy : String) (provider : LLMProvider) (request : CompletionRequest)
    (usedFallback : Bool) (error : String) (agentRunId : Option Uuid) (latencyMs : ℤ) :
    ModelCallRecord where
  provider := provider.name
  model := provider.model
  routingPolicy := policy
  usedFallback
  fallbackReason := none
  promptTokens := request.estimatedPromptTokens
  completionTokens := 0
  latencyMs
  success := false
  error := some error
  promptVersion := request.promptVersion
  estimatedCostUsd := 0
  agentRunId

/-- The record of a completion, at its estimated cost. -/
def successRecord (policy : String) (result : CompletionResult) (request : CompletionRequest)
    (agentRunId : Option Uuid) (estimatedCostUsd : ℚ) : ModelCallRecord where
  provider := result.provider
  model := result.model
  routingPolicy := policy
  usedFallback := result.usedFallback
  fallbackReason := result.fallbackReason
  promptTokens := result.promptTokens
  completionTokens := result.completionTokens
  latencyMs := result.latencyMs
  success := true
  error := none
  promptVersion := request.promptVersion
  estimatedCostUsd
  agentRunId

namespace ModelRouter

variable {σ : Type} (router : ModelRouter) (observer : RouterObserver σ)
  (request : CompletionRequest) (agentRunId : Option Uuid)

/-- Offer a record; what the observer raises is dropped. -/
def safeRecord (record : ModelCallRecord) (s : RouterState σ) : RouterState σ :=
  let s := s.log (.offer record)
  match observer.record record s.observer with
  | (.ok _, o) => { s with observer := o }
  | (.error _, o) => { s with observer := o }

def emitFailure (provider : LLMProvider) (usedFallback : Bool) (error : String) (latencyMs : ℤ) :
    RouterState σ → RouterState σ :=
  safeRecord observer
    (failureRecord router.policy provider request usedFallback error agentRunId latencyMs)

/-- The cost is estimated before the record is offered, outside the guard around the observer. -/
def emitSuccess (result : CompletionResult) (s : RouterState σ) : Except Exn Unit × RouterState σ :=
  match estimateCostUsd result.provider result.model result.promptTokens result.completionTokens with
  | .error exc => (.error exc, s)
  | .ok cost =>
    (.ok (), safeRecord observer (successRecord router.policy result request agentRunId cost) s)

/-- The loop over the providers from the `index`-th on. -/
def completeFrom : ℕ → List LLMProvider → List String → Option String → RouterState σ →
    Except Exn CompletionResult × RouterState σ
  | _, [], attempts, _, s =>
    (.error (.new .modelRouter "All configured LLM providers failed."
      [("policy", .str router.policy), ("attempts", .arr (attempts.map Json.str))]), s)
  | index, provider :: providers, attempts, previousError, s =>
    let usedFallback := decide (index > 0)
    let s := s.log (.probe index)
    if !provider.available then
      let reason := s!"{provider.name} reported unavailable"
      let s := router.emitFailure observer request agentRunId provider usedFallback reason 0 s
      completeFrom (index + 1) providers (attempts ++ [reason]) (some reason) s
    else
      let s := s.log (.call index)
      match provider.complete request with
      | .error exc =>
        if exc.IsApp .llmProvider then
          let s := router.emitFailure observer request agentRunId provider usedFallback exc.text 0 s
          completeFrom (index + 1) providers (attempts ++ [s!"{provider.name}: {exc.text}"])
            (some exc.text) s
        else (.error exc, s)
      | .ok result =>
        let result := { result with
          usedFallback
          fallbackReason := if usedFallback then previousError else none }
        match router.emitSuccess observer request agentRunId result s with
        | (.error exc, s) => (.error exc, s)
        | (.ok _, s) => (.ok result, s)

def complete (o : σ) : Except Exn CompletionResult × RouterState σ :=
  router.completeFrom observer request agentRunId 0 router.providers [] none ⟨[], o⟩

end ModelRouter
end BankingAi.Ai
