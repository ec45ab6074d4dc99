import BankingAi.Ai.Routing

/-!
# The database observer

`DbRouterObserver.record` writes a `model_calls` row for every record of the router and, for a successful
call with a cost, a `cost_tracking` row that points at it. The session is taken to persist both.
-/

namespace BankingAi

open Ai

structure ModelCallRow where
  id : Uuid
  agentRunId : Option Uuid
  provider : String
  model : String
  routingPolicy : String
  usedFallback : Bool
  fallbackReason : Option String
  promptTokens : ℤ
  completionTokens : ℤ
  latencyMs : ℤ
  success : Bool
  error : Option String
  promptVersion : Option String

structure CostTracking where
  id : Uuid
  modelCallId : Uuid
  provider : String
  model : String
  totalTokens : ℤ
  estimatedCostUsd : ℚ

/-- The two tables, and the draw of the next id. -/
structure ObservabilityDb where
  modelCalls : List ModelCallRow
  costTracking : List CostTracking
  nextUuid : ℕ

/-- The row of a record. -/
def ModelCallRow.of (record : ModelCallRecord) (id : Uuid) : ModelCallRow where
  id
  agentRunId := record.agentRunId
  provider := record.provider
  model := record.model
  routingPolicy := record.routingPolicy
  usedFallback := record.usedFallback
  fallbackReason := record.fallbackReason
  promptTokens := record.promptTokens
  completionTokens := record.completionTokens
  latencyMs := record.latencyMs
  success := record.success
  error := record.error
  promptVersion := record.promptVersion

/-- The cost of a record, for the call that was written last. -/
def CostTracking.of (record : ModelCallRecord) (modelCallId id : Uuid) : CostTracking where
  id
  modelCallId
  provider := record.provider
  model := record.model
  totalTokens := record.promptTokens + record.completionTokens
  estimatedCostUsd := record.estimatedCostUsd

namespace DbRouterObserver

/-- The tables after `record`. -/
def persist (record : ModelCallRecord) (db : ObservabilityDb) : ObservabilityDb :=
  let call := ModelCallRow.of record ⟨db.nextUuid⟩
  let db := { db with modelCalls := db.modelCalls ++ [call], nextUuid := db.nextUuid + 1 }
  if record.success = true ∧ record.estimatedCostUsd > 0 then
    { db with
      costTracking := db.costTracking ++ [CostTracking.of record call.id ⟨db.nextUuid⟩]
      nextUuid := db.nextUuid + 1 }
  else db

end DbRouterObserver

def dbRouterObserver : RouterObserver ObservabilityDb where
  record record db := (.ok (), DbRouterObserver.persist record db)

/-! ### The records behind the rows -/

/-- The records that events offer. -/
def offered (events : List RouterEvent) : List ModelCallRecord :=
  events.filterMap fun
    | .offer record => some record
    | _ => none

theorem offered_append (events events' : List RouterEvent) :
    offered (events ++ events') = offered events ++ offered events' :=
  List.filterMap_append

theorem offered_log_probe {σ : Type} (s : RouterState σ) (index : ℕ) :
    offered (s.log (.probe index)).events = offered s.events := by
  rw [RouterState.log, offered_append]
  exact List.append_nil _

theorem offered_log_call {σ : Type} (s : RouterState σ) (index : ℕ) :
    offered (s.log (.call index)).events = offered s.events := by
  rw [RouterState.log, offered_append]
  exact List.append_nil _

/-- A record that the router emits for a request: a failed attempt of a provider, or the result of one. -/
def Emitted (router : ModelRouter) (request : CompletionRequest) (agentRunId : Option Uuid)
    (record : ModelCallRecord) : Prop :=
  (∃ p ∈ router.providers, ∃ usedFallback error latencyMs,
    record = failureRecord router.policy p request usedFallback error agentRunId latencyMs) ∨
  ∃ p ∈ router.providers, ∃ raw usedFallback fallbackReason cost, p.complete request = .ok raw ∧
    estimateCostUsd raw.provider raw.model raw.promptTokens raw.completionTokens = .ok cost ∧
    record = successRecord router.policy
      { raw with usedFallback := usedFallback, fallbackReason := fallbackReason } request agentRunId cost

namespace DbRouterObserver

/-- The tables after records, in the order of their emission. -/
def persistAll (records : List ModelCallRecord) (db : ObservabilityDb) : ObservabilityDb :=
  records.foldl (fun db record => persist record db) db

theorem persistAll_append (records records' : List ModelCallRecord) (db : ObservabilityDb) :
    persistAll (records ++ records') db = persistAll records' (persistAll records db) :=
  List.foldl_append

end DbRouterObserver

namespace Ai.ModelRouter

open DbRouterObserver

variable (router : ModelRouter) (request : CompletionRequest) (agentRunId : Option Uuid)

/-- From one state to the other, the tables took the records that were offered in between. -/
def Persisted (s s' : RouterState ObservabilityDb) : Prop :=
  ∃ records, offered s'.events = offered s.events ++ records ∧
    s'.observer = persistAll records s.observer ∧ ∀ record ∈ records, Emitted router request agentRunId record

namespace Persisted

variable {router request agentRunId} {s s' s'' : RouterState ObservabilityDb}

theorem refl : Persisted router request agentRunId s s :=
  ⟨[], (List.append_nil _).symm, rfl, fun _ h => absurd h List.not_mem_nil⟩

theorem trans (h : Persisted router request agentRunId s s') (h' : Persisted router request agentRunId s' s'') :
    Persisted router request agentRunId s s'' := by
  obtain ⟨records, hoffered, hdb, hemitted⟩ := h
  obtain ⟨records', hoffered', hdb', hemitted'⟩ := h'
  refine ⟨records ++ records', by rw [hoffered', hoffered, List.append_assoc],
    by rw [hdb', hdb, persistAll_append], fun record hrecord => ?_⟩
  rcases List.mem_append.1 hrecord with hrecord | hrecord
  · exact hemitted record hrecord
  · exact hemitted' record hrecord

theorem probe (index : ℕ) : Persisted router request agentRunId s (s.log (.probe index)) :=
  ⟨[], by rw [offered_log_probe, List.append_nil], rfl, fun _ h => absurd h List.not_mem_nil⟩

theorem call (index : ℕ) : Persisted router request agentRunId s (s.log (.call index)) :=
  ⟨[], by rw [offered_log_call, List.append_nil], rfl, fun _ h => absurd h List.not_mem_nil⟩

theorem offer {record : ModelCallRecord} (h : Emitted router request agentRunId record) :
    Persisted router request agentRunId s (safeRecord dbRouterObserver record s) := by
  refine ⟨[record], ?_, rfl, fun record' hrecord => ?_⟩
  · rw [safeRecord_events, offered_append]
    rfl
  · rw [List.mem_singleton.1 hrecord]
    exact h

end Persisted

theorem completeFrom_persisted (index : ℕ) (ps : List LLMProvider) (attempts : List String)
    (previousError : Option String) (s : RouterState ObservabilityDb) (hps : ∀ p ∈ ps, p ∈ router.providers) :
    Persisted router request agentRunId s
      (router.completeFrom dbRouterObserver request agentRunId index ps attempts previousError s).2 := by
  induction ps generalizing index attempts previousError s with
  | nil => exact .refl
  | cons p ps ih =>
    have hp : p ∈ router.providers := hps p List.mem_cons_self
    have ih := fun index attempts previousError s =>
      ih index attempts previousError s fun q hq => hps q (List.mem_cons_of_mem p hq)
    have hfailure : ∀ (s' : RouterState ObservabilityDb) (usedFallback : Bool) (error : String) (latencyMs : ℤ),
        Persisted router request agentRunId s'
          (router.emitFailure dbRouterObserver request agentRunId p usedFallback error latencyMs s') :=
      fun _ usedFallback error latencyMs => .offer (.inl ⟨p, hp, usedFallback, error, latencyMs, rfl⟩)
    rw [completeFrom]
    dsimp only
    split
    · exact (Persisted.probe index).trans ((hfailure _ _ _ _).trans (ih _ _ _ _))
    · have hcall : Persisted router request agentRunId s ((s.log (.probe index)).log (.call index)) :=
        (Persisted.probe index).trans (.call index)
      split
      · split
        · exact hcall.trans ((hfailure _ _ _ _).trans (ih _ _ _ _))
        · exact hcall
      case h_2 raw hraw =>
        unfold emitSuccess
        split
        case h_1 e s' hemit => split at hemit <;> cases hemit; exact hcall
        case h_2 s' hemit =>
          split at hemit <;> cases hemit
          case h_2 cost hcost =>
            exact hcall.trans (.offer (.inr ⟨p, hp, raw, _, _, cost, hraw, hcost, rfl⟩))

/-- A call of the router leaves in the tables the records it offered. -/
theorem complete_persisted (db : ObservabilityDb) :
    let s := (router.complete dbRouterObserver request agentRunId db).2
    s.observer = persistAll (offered s.events) db ∧
      ∀ record ∈ offered s.events, Emitted router request agentRunId record := by
  obtain ⟨records, hoffered, hdb, hemitted⟩ := router.completeFrom_persisted request agentRunId 0
    router.providers [] none ⟨[], db⟩ fun _ h => h
  rw [show offered (⟨[], db⟩ : RouterState ObservabilityDb).events = [] from rfl, List.nil_append] at hoffered
  intro s
  have hs : offered s.events = records := hoffered
  rw [hs]
  exact ⟨hdb, hemitted⟩

end Ai.ModelRouter
end BankingAi
