import Mathlib.Tactic.NormNum
import BankingAi.Ai.Router

/-!
# Routing

A chain splits into the providers that fail, one that serves the request and the ones behind it, or
all of its providers fail. The router's reply and everything it does follow from that split, but for
a result whose token counts are too large for the cost estimate; the observer has no part in it.
-/

namespace BankingAi.Ai

namespace LLMProvider

variable (p : LLMProvider) (request : CompletionRequest)

/-- The provider is available and completes the request. -/
def Serves (result : CompletionResult) : Prop :=
  p.available = true ∧ p.complete request = .ok result

/-- The provider is not available, or raises on the request. -/
def Fails : Prop := p.available = false ∨ ∃ e, p.complete request = .error e

/-- Why an attempt fails. -/
def reason : String :=
  if p.available then
    match p.complete request with
    | .error e => e.text
    | .ok _ => ""
  else s!"{p.name} reported unavailable"

/-- How a failed attempt is listed in the final error. -/
def attempt : String :=
  if p.available then s!"{p.name}: {p.reason request}" else p.reason request

theorem fails_or_serves : p.Fails request ∨ ∃ result, p.Serves request result := by
  cases ha : p.available with
  | false => exact .inl (.inl ha)
  | true =>
    cases hc : p.complete request with
    | error e => exact .inl (.inr ⟨e, hc⟩)
    | ok result => exact .inr ⟨result, ha, hc⟩

end LLMProvider

/-- A chain splits at the first provider that serves the request. -/
theorem split_chain (request : CompletionRequest) (chain : List LLMProvider) :
    ∃ failed rest, chain = failed ++ rest ∧ (∀ f ∈ failed, f.Fails request) ∧
      (rest = [] ∨ ∃ p later raw, rest = p :: later ∧ p.Serves request raw) := by
  induction chain with
  | nil => exact ⟨[], [], rfl, by simp, .inl rfl⟩
  | cons p chain ih =>
    rcases p.fails_or_serves request with hf | ⟨raw, hs⟩
    · obtain ⟨failed, rest, rfl, hfailed, hrest⟩ := ih
      exact ⟨p :: failed, rest, rfl, List.forall_mem_cons.2 ⟨hf, hfailed⟩, hrest⟩
    · exact ⟨[], p :: chain, rfl, by simp, .inr ⟨p, chain, raw, rfl, hs⟩⟩

section events

variable (policy : String) (request : CompletionRequest) (agentRunId : Option Uuid)

/-- What a failed attempt with the `index`-th provider does: a completion is asked for only if the
provider is available. -/
def failureEvents (p : LLMProvider) (index : ℕ) : List RouterEvent :=
  .probe index :: (if p.available then [.call index] else []) ++
    [.offer (failureRecord policy p request (decide (index > 0)) (p.reason request) agentRunId 0)]

/-- What the failed attempts with the providers from the `index`-th on do. -/
def failuresFrom (index : ℕ) (failed : List LLMProvider) : List RouterEvent :=
  (failed.zipIdx index).flatMap fun f => failureEvents policy request agentRunId f.1 f.2

/-- The result of the provider behind the failed ones. -/
def servedResult (failed : List LLMProvider) (raw : CompletionResult) : CompletionResult :=
  { raw with
    usedFallback := decide (failed ≠ [])
    fallbackReason := failed.getLast?.map (·.reason request) }

end events

variable (router : ModelRouter) (request : CompletionRequest) (agentRunId : Option Uuid)

/-- The request is served by the provider `p`, with the result `raw`, after the failed ones. -/
structure ServedBy (failed : List LLMProvider) (p : LLMProvider) (later : List LLMProvider)
    (raw : CompletionResult) (reply : Except Exn CompletionResult) (events : List RouterEvent) :
    Prop where
  chain : router.providers = failed ++ p :: later
  fails : ∀ f ∈ failed, f.Fails request
  serves : p.Serves request raw
  reply : reply = .ok (servedResult request failed raw)
  events : ∃ cost, (∀ estimate, estimateCostUsd raw.provider raw.model raw.promptTokens
      raw.completionTokens = .ok estimate → cost = estimate) ∧
    events = failuresFrom router.policy request agentRunId 0 failed ++
      [.probe failed.length, .call failed.length,
        .offer (successRecord router.policy (servedResult request failed raw) request agentRunId cost)]

/-- Every provider fails. -/
structure Exhausted (reply : Except Exn CompletionResult) (events : List RouterEvent) : Prop where
  fails : ∀ f ∈ router.providers, f.Fails request
  reply : reply = .error (.new .modelRouter "All configured LLM providers failed."
    [("policy", .str router.policy),
      ("attempts", .arr (router.providers.map fun f => .str (f.attempt request)))])
  events : events = failuresFrom router.policy request agentRunId 0 router.providers

/-- The first provider that is available and completes serves the request, or there is none. -/
def Routed (reply : Except Exn CompletionResult) (events : List RouterEvent) : Prop :=
  (∃ failed p later raw, ServedBy router request agentRunId failed p later raw reply events) ∨
    Exhausted router request agentRunId reply events

/-- The call is routed, and any other observer would see the same. -/
structure RoutesUnobserved {σ : Type} (observer : RouterObserver σ) (o : σ) : Prop where
  routed : let r := router.complete observer request agentRunId o
    Routed router request agentRunId r.1 r.2.events
  unobserved : ∀ {τ : Type} (observer' : RouterObserver τ) (o' : τ),
    let r := router.complete observer request agentRunId o
    let r' := router.complete observer' request agentRunId o'
    r'.1 = r.1 ∧ r'.2.events = r.2.events

section loop

variable {router request agentRunId} {σ : Type} {observer : RouterObserver σ} {index : ℕ}
  {p : LLMProvider} {ps : List LLMProvider} {attempts : List String} {previousError : Option String}
  {s : RouterState σ}

theorem safeRecord_events (record : ModelCallRecord) (s : RouterState σ) :
    (ModelRouter.safeRecord observer record s).events = s.events ++ [.offer record] := by
  unfold ModelRouter.safeRecord
  dsimp only
  split <;> rfl

/-- The state after a failed attempt. -/
def afterFailure (router : ModelRouter) (observer : RouterObserver σ) (request : CompletionRequest)
    (agentRunId : Option Uuid) (p : LLMProvider) (index : ℕ) (s : RouterState σ) : RouterState σ :=
  router.emitFailure observer request agentRunId p (decide (index > 0)) (p.reason request) 0
    (if p.available then (s.log (.probe index)).log (.call index) else s.log (.probe index))

theorem afterFailure_events :
    (afterFailure router observer request agentRunId p index s).events =
      s.events ++ failureEvents router.policy request agentRunId p index := by
  rw [afterFailure, ModelRouter.emitFailure, safeRecord_events, failureEvents]
  cases p.available <;> simp [RouterState.log]

theorem completeFrom_of_fails (hcontract : p.KeepsContract) (hf : p.Fails request) :
    router.completeFrom observer request agentRunId index (p :: ps) attempts previousError s =
      router.completeFrom observer request agentRunId (index + 1) ps
        (attempts ++ [p.attempt request]) (some (p.reason request))
        (afterFailure router observer request agentRunId p index s) := by
  rw [ModelRouter.completeFrom, afterFailure, LLMProvider.attempt, LLMProvider.reason]
  cases ha : p.available with
  | false => rfl
  | true =>
    obtain ⟨e, he⟩ := hf.resolve_left (by simp [ha])
    rw [he]
    dsimp only
    rw [if_pos (hcontract request e he)]
    rfl

theorem completeFrom_of_serves {raw : CompletionResult} (hs : p.Serves request raw) :
    let result := { raw with
      usedFallback := decide (index > 0)
      fallbackReason := if decide (index > 0) then previousError else none }
    router.completeFrom observer request agentRunId index (p :: ps) attempts previousError s =
      match estimateCostUsd raw.provider raw.model raw.promptTokens raw.completionTokens with
      | .error exc => (.error exc, (s.log (.probe index)).log (.call index))
      | .ok cost => (.ok result, ModelRouter.safeRecord observer
          (successRecord router.policy result request agentRunId cost)
          ((s.log (.probe index)).log (.call index))) := by
  intro result
  rw [ModelRouter.completeFrom, hs.1, hs.2]
  simp only [Bool.not_true, Bool.false_eq_true, if_false, ModelRouter.emitSuccess]
  cases estimateCostUsd raw.provider raw.model raw.promptTokens raw.completionTokens <;> rfl

theorem completeFrom_of_convert {raw : CompletionResult} (hs : p.Serves request raw)
    (hcounts : CountsConvert raw.promptTokens raw.completionTokens) :
    let result := { raw with
      usedFallback := decide (index > 0)
      fallbackReason := if decide (index > 0) then previousError else none }
    let r := router.completeFrom observer request agentRunId index (p :: ps) attempts previousError s
    ∃ cost, estimateCostUsd raw.provider raw.model raw.promptTokens raw.completionTokens = .ok cost ∧
      r.1 = .ok result ∧ r.2.events = s.events ++ [.probe index, .call index,
        .offer (successRecord router.policy result request agentRunId cost)] := by
  intro result r
  have hr : r = _ := completeFrom_of_serves hs
  rcases estimateCostUsd_eq raw.provider raw.model raw.promptTokens raw.completionTokens with
    ⟨-, hcost⟩ | ⟨hnot, -⟩
  · rw [hcost] at hr
    refine ⟨_, hcost, by rw [hr], ?_⟩
    rw [hr, safeRecord_events]
    simp [RouterState.log, result]
  · exact absurd hcounts hnot

theorem completeFrom_of_not_convert {raw : CompletionResult} (hs : p.Serves request raw)
    (hcounts : ¬ CountsConvert raw.promptTokens raw.completionTokens) :
    let r := router.completeFrom observer request agentRunId index (p :: ps) attempts previousError s
    r.1 = .error (.other "OverflowError" "int too large to convert to float") ∧
      r.2.events = s.events ++ [.probe index, .call index] := by
  intro r
  have hr : r = _ := completeFrom_of_serves hs
  rcases estimateCostUsd_eq raw.provider raw.model raw.promptTokens raw.completionTokens with
    ⟨hconvert, -⟩ | ⟨-, hcost⟩
  · exact absurd hconvert hcounts
  · rw [hcost] at hr
    refine ⟨by rw [hr], ?_⟩
    rw [hr]
    simp [RouterState.log]

theorem completeFrom_append {failed rest : List LLMProvider}
    (hcontract : ∀ f ∈ failed, f.KeepsContract) (hf : ∀ f ∈ failed, f.Fails request) :
    ∃ s', s'.events = s.events ++ failuresFrom router.policy request agentRunId index failed ∧
      router.completeFrom observer request agentRunId index (failed ++ rest) attempts previousError s =
        router.completeFrom observer request agentRunId (index + failed.length) rest
          (attempts ++ failed.map (·.attempt request))
          ((failed.getLast?.map (·.reason request)).or previousError) s' := by
  induction failed generalizing index attempts previousError s with
  | nil => exact ⟨s, by simp [failuresFrom], by simp⟩
  | cons f failed ih =>
    obtain ⟨s', hs', hrun⟩ := @ih (index + 1) (attempts ++ [f.attempt request])
      (some (f.reason request)) (afterFailure router observer request agentRunId f index s)
      (fun f h => hcontract f (List.mem_cons_of_mem _ h)) (fun f h => hf f (List.mem_cons_of_mem _ h))
    refine ⟨s', ?_, ?_⟩
    · rw [hs', afterFailure_events, failuresFrom, failuresFrom, List.zipIdx_cons, List.flatMap_cons,
        List.append_assoc]
    · rw [List.cons_append, completeFrom_of_fails (hcontract f List.mem_cons_self)
        (hf f List.mem_cons_self), hrun, List.map_cons, List.length_cons, List.append_assoc,
        List.singleton_append, Nat.add_right_comm, Nat.add_assoc]
      congr 1
      cases failed with
      | nil => rfl
      | cons g failed =>
        rw [List.getLast?_cons_cons, List.getLast?_eq_some_getLast (List.cons_ne_nil g failed)]
        rfl

theorem completeFrom_observer {τ : Type} {observer' : RouterObserver τ} {s' : RouterState τ}
    (h : s'.events = s.events) :
    let r := router.completeFrom observer request agentRunId index ps attempts previousError s
    let r' := router.completeFrom observer' request agentRunId index ps attempts previousError s'
    r'.1 = r.1 ∧ r'.2.events = r.2.events := by
  induction ps generalizing index attempts previousError s s' with
  | nil => exact ⟨rfl, h⟩
  | cons p ps ih =>
    dsimp only
    rw [ModelRouter.completeFrom, ModelRouter.completeFrom]
    cases p.available with
    | false =>
      refine ih ?_
      rw [ModelRouter.emitFailure, ModelRouter.emitFailure, safeRecord_events, safeRecord_events]
      simp [RouterState.log, h]
    | true =>
      simp only [Bool.not_true, Bool.false_eq_true, if_false]
      cases p.complete request with
      | error e =>
        dsimp only
        by_cases he : e.IsApp .llmProvider
        · rw [if_pos he, if_pos he]
          refine ih ?_
          rw [ModelRouter.emitFailure, ModelRouter.emitFailure, safeRecord_events, safeRecord_events]
          simp [RouterState.log, h]
        · rw [if_neg he, if_neg he]
          exact ⟨rfl, by simp [RouterState.log, h]⟩
      | ok result =>
        simp only [ModelRouter.emitSuccess]
        cases estimateCostUsd result.provider result.model result.promptTokens
            result.completionTokens with
        | error e => exact ⟨rfl, by simp [RouterState.log, h]⟩
        | ok cost =>
          refine ⟨rfl, ?_⟩
          dsimp only
          rw [safeRecord_events, safeRecord_events]
          simp [RouterState.log, h]

end loop

section routed

variable {router : ModelRouter} {request : CompletionRequest} {agentRunId : Option Uuid} {σ : Type}

/-- The token counts of the result that the first provider to serve the request returns, if there is
one, convert to floats. -/
def ServedCountsConvert (router : ModelRouter) (request : CompletionRequest) : Prop :=
  ∀ failed p later raw, router.providers = failed ++ p :: later → (∀ f ∈ failed, f.Fails request) →
    p.Serves request raw → CountsConvert raw.promptTokens raw.completionTokens

theorem complete_append (hcontract : ∀ p ∈ router.providers, p.KeepsContract)
    (observer : RouterObserver σ) (o : σ) {failed rest : List LLMProvider}
    (hchain : router.providers = failed ++ rest) (hfails : ∀ f ∈ failed, f.Fails request) :
    ∃ s, s.events = failuresFrom router.policy request agentRunId 0 failed ∧
      router.complete observer request agentRunId o =
        router.completeFrom observer request agentRunId failed.length rest
          (failed.map (·.attempt request)) (failed.getLast?.map (·.reason request)) s := by
  obtain ⟨s, hs, hrun⟩ := @completeFrom_append router request agentRunId σ observer 0 [] none ⟨[], o⟩
    failed rest (fun f h => hcontract f (by rw [hchain]; exact List.mem_append_left _ h)) hfails
  rw [← hchain, Nat.zero_add, List.nil_append, Option.or_none] at hrun
  rw [List.nil_append] at hs
  exact ⟨s, hs, hrun⟩

theorem routed_of_convert (hcontract : ∀ p ∈ router.providers, p.KeepsContract)
    (observer : RouterObserver σ) (o : σ) (hcounts : ServedCountsConvert router request) :
    let r := router.complete observer request agentRunId o
    Routed router request agentRunId r.1 r.2.events := by
  intro r
  obtain ⟨failed, rest, hchain, hfails, hrest⟩ := split_chain request router.providers
  obtain ⟨s, hs, hr⟩ := @complete_append router request agentRunId σ hcontract observer o failed rest
    hchain hfails
  replace hr : r = _ := hr
  rcases hrest with rfl | ⟨p, later, raw, rfl, hserves⟩
  · rw [List.append_nil] at hchain
    rw [ModelRouter.completeFrom, ← hchain] at hr
    rw [← hchain] at hs hfails
    refine .inr ⟨hfails, ?_, ?_⟩
    · rw [hr, List.map_map]
      rfl
    · rw [hr, hs]
  · obtain ⟨cost, hcost, hreply, hevents⟩ := @completeFrom_of_convert router request agentRunId σ
      observer failed.length p later (failed.map (·.attempt request))
      (failed.getLast?.map (·.reason request)) s raw hserves
      (hcounts failed p later raw hchain hfails hserves)
    have hresult : ({ raw with
        usedFallback := decide (failed.length > 0)
        fallbackReason := if decide (failed.length > 0) then failed.getLast?.map (·.reason request)
          else none } : CompletionResult) = servedResult request failed raw := by
      cases failed with
      | nil => rfl
      | cons f failed => simp [servedResult]
    rw [hresult, ← hr] at hreply
    rw [hresult, ← hr, hs] at hevents
    have hestimate : ∀ estimate, estimateCostUsd raw.provider raw.model raw.promptTokens
        raw.completionTokens = .ok estimate → cost = estimate := fun estimate h =>
      Except.ok.inj (hcost.symm.trans h)
    exact .inl ⟨failed, p, later, raw, hchain, hfails, hserves, hreply, cost, hestimate, hevents⟩

theorem convert_of_routed (hcontract : ∀ p ∈ router.providers, p.KeepsContract)
    (observer : RouterObserver σ) (o : σ)
    (hrouted : let r := router.complete observer request agentRunId o
      Routed router request agentRunId r.1 r.2.events) : ServedCountsConvert router request := by
  intro failed p later raw hchain hfails hserves
  by_contra hcounts
  obtain ⟨s, -, hr⟩ := @complete_append router request agentRunId σ hcontract observer o failed
    (p :: later) hchain hfails
  have hreply := (@completeFrom_of_not_convert router request agentRunId σ observer failed.length p
    later (failed.map (·.attempt request)) (failed.getLast?.map (·.reason request)) s raw hserves
    hcounts).1
  rw [← hr] at hreply
  rcases hrouted with ⟨_, _, _, _, hserved⟩ | hexhausted
  · cases hreply.symm.trans hserved.reply
  · cases hreply.symm.trans hexhausted.reply

end routed

/-- A chain of providers that keep their contract serves a request by its first provider that is
available and completes it, or is exhausted, whatever the observer does: exactly when the token
counts of the result convert to floats. -/
theorem complete_routed_iff (router : ModelRouter)
    (hcontract : ∀ p ∈ router.providers, p.KeepsContract) (request : CompletionRequest)
    (agentRunId : Option Uuid) {σ : Type} (observer : RouterObserver σ) (o : σ) :
    RoutesUnobserved router request agentRunId observer o ↔ ServedCountsConvert router request :=
  ⟨fun h => convert_of_routed hcontract observer o h.routed, fun h =>
    ⟨routed_of_convert hcontract observer o h, fun _ _ => completeFrom_observer rfl⟩⟩

/-- A provider whose availability check raises, one that fails, and one that answers. -/
def threeProviders : ModelRouter where
  providers :=
    [⟨"local_gemma", "gemma", .error (.other "TimeoutError" ""),
        fun _ => .error (.new .llmProvider "local_gemma is unreachable: ConnectError." [])⟩,
      ⟨"groq", "mixtral", .ok true, fun _ => .error (.new .llmProvider "groq returned HTTP 503." [])⟩,
      ⟨"echo", "echo-1", .ok true, fun _ => .ok ⟨"hello", "echo", "echo-1", false, none, 1, 1, 0⟩⟩]
  policy := "prefer_online"
  nonempty := by simp

/-- An observer that always raises. -/
def explodingObserver : RouterObserver Unit where
  record _ _ := (.error (.other "RuntimeError" "telemetry down"), ())

def helloRequest : CompletionRequest where
  messages := [⟨.user, "hello"⟩]
  maxTokens := 1024
  temperature := 1 / 5
  jsonMode := false
  promptVersion := some "v1"
  maxTokens_mem := by decide
  temperature_mem := by norm_num

theorem threeProviders_keepContract : ∀ p ∈ threeProviders.providers, p.KeepsContract := by
  intro p hp request e he
  simp only [threeProviders, List.mem_cons, List.not_mem_nil, or_false] at hp
  rcases hp with rfl | rfl | rfl <;> cases he <;> rfl

theorem complete_routed_iff_threeProviders :
    RoutesUnobserved threeProviders helloRequest none explodingObserver () ↔
      ServedCountsConvert threeProviders helloRequest :=
  complete_routed_iff threeProviders threeProviders_keepContract helloRequest none explodingObserver ()

/-- A provider that answers with a count of `10 ^ 400` prompt tokens. -/
def vastUsage : ModelRouter where
  providers := [⟨"groq", "mixtral", .ok true,
    fun _ => .ok ⟨"hello", "groq", "mixtral", false, none, 10 ^ 400, 1, 0⟩⟩]
  policy := "prefer_online"
  nonempty := List.cons_ne_nil _ _

/-- The completion is lost: the reply is neither its result nor the router's error. -/
theorem vast_usage_not_routed :
    (∀ p ∈ vastUsage.providers, p.KeepsContract) ∧
      ¬ RoutesUnobserved vastUsage helloRequest none explodingObserver () := by
  have hcontract : ∀ p ∈ vastUsage.providers, p.KeepsContract := by
    intro p hp request e he
    rw [List.mem_singleton.1 hp] at he
    cases he
  refine ⟨hcontract, fun hrouted => ?_⟩
  have hcounts := (convert_of_routed hcontract explodingObserver () hrouted.routed [] _ [] _ rfl
    (fun _ h => absurd h List.not_mem_nil) ⟨rfl, rfl⟩).1
  exact absurd hcounts (by decide +kernel)

/-- The third provider serves the request, with the reason of the second as fallback reason. -/
example : ((threeProviders.complete explodingObserver helloRequest none ()).1.toOption.map
    fun r => (r.provider, r.usedFallback, r.fallbackReason)) =
      some ("echo", true, some "groq returned HTTP 503.") := by decide +kernel

end BankingAi.Ai
