import BankingAi.Agents.Audit
import BankingAi.Agents.Document
import BankingAi.Agents.Fraud
import BankingAi.Agents.Kyc
import BankingAi.Agents.Loan
import BankingAi.Json.Access
import BankingAi.Services.AgentExecutor
import BankingAi.Services.StartOutcome

/-!
# The adapters of the agents without a model

Each builds the typed input of its agent from the payload, or raises what the input model raises, and
runs the agent; what the agent returns is dumped by the fields of its output model. So the platform of
`Services.AgentExecutor` has an instance made of the agents themselves, and what a start leaves behind can
be told from the payload: an evidence workflow completes with the bundle of its evidence
(`audit_start`), and a document workflow parks exactly if the review asks for it (`document_start`).
-/

namespace BankingAi

namespace Json

/-- A field of type `str`. -/
def str? : Json → Option String
  | str s => some s
  | _ => none

/-- `str | None`. -/
def optionalStr? : Json → Option (Option String)
  | null => some none
  | str s => some (some s)
  | _ => none

/-- `list[str]`. -/
def strList? : Json → Option (List String)
  | arr items => items.mapM str?
  | _ => none

/-- `dict[str, str]`. -/
def strDict? : Json → Option (Dict String String)
  | obj fields => (fields.mapM fun (p : String × Json) => p.2.str?.map (p.1, ·)).map Dict.ofList
  | _ => none

end Json

/-- A field of an input model, with its default if it has one. -/
def modelField {α : Type} (read : Json → Option α) (default : Option α) (data : JsonDict) (name : String) :
    Option α :=
  match data.get? name with
  | some value => read value
  | none => default

/-! ### The output models -/

def Json.strs (items : List String) : Json := .arr (items.map .str)

def ExtractedField.toJson (field : ExtractedField) : Json :=
  .obj [("name", .str field.name), ("value", (field.value.map Json.str).getD .null), ("present", .bool field.present)]

def DocumentReview.toOutput (o : DocumentReview) : AgentOutput where
  fields :=
    .ofList [("document_id", .str o.documentId.str), ("summary", .str o.summary),
      ("extracted_fields", .arr (o.extractedFields.map ExtractedField.toJson)),
      ("missing_fields", .strs o.missingFields), ("review_notes", .strs o.reviewNotes),
      ("requires_human_review", .bool o.requiresHumanReview)]

def KycResult.toOutput (o : KycResult) : AgentOutput where
  fields :=
    .ofList [("complete", .bool o.complete), ("missing_fields", .strs o.missingFields),
      ("inconsistencies", .strs o.inconsistencies), ("risk_level", .str o.riskLevel.value),
      ("requires_human_review", .bool o.requiresHumanReview), ("rationale", .strs o.rationale)]

def FraudSignal.toJson (signal : FraudSignal) : Json :=
  .obj [("rule", .str signal.rule), ("weight", .int signal.weight), ("reason", .str signal.reason)]

def FraudResult.toOutput (o : FraudResult) : AgentOutput where
  fields :=
    .ofList [("score", .int o.score), ("risk_level", .str o.riskLevel.value),
      ("signals", .arr (o.signals.map FraudSignal.toJson)),
      ("requires_human_review", .bool o.requiresHumanReview), ("recommendation", .str o.recommendation)]

def LoanResult.toOutput (o : LoanResult) : AgentOutput where
  fields :=
    .ofList [("estimated_monthly_payment", .float (.finite o.estimatedMonthlyPayment)),
      ("dti_ratio", .float (.finite o.dtiRatio)),
      ("disposable_after_payment", .float (.finite o.disposableAfterPayment)),
      ("risk_level", .str o.riskLevel.value), ("recommendation", .str o.recommendation),
      ("requires_human_review", .bool o.requiresHumanReview), ("rationale", .strs o.rationale)]

def AuditBundle.toOutput (o : AuditBundle) : AgentOutput where
  fields :=
    .ofList [("workflow_id", .str o.workflowId), ("canonical_json", .str o.canonicalJson),
      ("sha256", .str o.sha256), ("item_count", .int o.itemCount)]

/-! ### The input models -/

/-- What the agents without a model use besides their payload. `uuid?`, `bool?` and `float?` read the value of
such a field, and `text` is `str`; amounts are finite. -/
structure DeterministicAgents where
  pydantic : Pydantic
  uuid? : Json → Option Uuid
  bool? : Json → Option Bool
  float? : Json → Option ℚ
  text : Json → String
  repr : String → String
  arithmetic : LoanArithmetic
  floatText : PyFloat → List Char
  sha256 : Posix.Bytes → String
  today : List ExecutorCall → Date
  uuid4 : List ExecutorCall → Uuid

namespace DeterministicAgents

variable (d : DeterministicAgents)

/-- The model of validated fields, or its refusal. -/
def built {α : Type} (model : String) (data : JsonDict) : Option α → Except Exn α
  | some value => .ok value
  | none => d.pydantic.invalid model data

/-- `f(**value)`. -/
def keywords (callee : String) : Json → Except Exn JsonDict
  | .obj fields => .ok (.ofList fields)
  | value => .error (.other "TypeError" s!"{callee}() argument after ** must be a mapping, not {value.pyType}")

/-- `payload.get("document_id") or payload.get("workflow_id") or str(uuid.uuid4())`. -/
def documentId (earlier : List ExecutorCall) (payload : JsonDict) : Json :=
  let given := (payload.get? "document_id").getD .null
  let workflow := (payload.get? "workflow_id").getD .null
  if given.truthy then given else if workflow.truthy then workflow else .str (d.uuid4 earlier).str

def documentInput (earlier : List ExecutorCall) (payload : JsonDict) : Except Exn DocumentAgentInput :=
  d.built "DocumentAgentInput" payload do
    let documentId ← d.uuid? (d.documentId earlier payload)
    let kind ← modelField Json.str? (some "generic") payload "kind"
    let text ← modelField Json.str? (some "") payload "text"
    let extraExpectedFields ← modelField Json.strList? (some []) payload "extra_expected_fields"
    pure { documentId, kind, text, extraExpectedFields }

def kycInput (payload : JsonDict) : Except Exn KycInput :=
  d.built "KycInput" payload do
    let profile ← modelField Json.strDict? (some .empty) payload "profile"
    let documentFields ← modelField Json.strDict? (some .empty) payload "document_fields"
    pure { profile, documentFields, today := none }

/-- The country and the channel are checked, though no rule reads them. -/
def transaction? (data : JsonDict) : Option (Transaction ℚ) := do
  let amount ← modelField d.float? none data "amount"
  let currency ← modelField Json.str? (some "USD") data "currency"
  let _country ← modelField Json.optionalStr? (some none) data "country"
  let accountAgeDays ← modelField d.pydantic.int? (some 3650) data "account_age_days"
  let isNewBeneficiary ← modelField d.bool? (some false) data "is_new_beneficiary"
  let beneficiaryCountry ← modelField Json.optionalStr? (some none) data "beneficiary_country"
  let _channel ← modelField Json.str? (some "web") data "channel"
  let hourOfDay ← modelField d.pydantic.int? (some 12) data "hour_of_day"
  let recentFailedLogins ← modelField d.pydantic.int? (some 0) data "recent_failed_logins"
  if h : Amount.ofNat 0 ≤ amount ∧ 0 ≤ accountAgeDays ∧ (0 ≤ hourOfDay ∧ hourOfDay ≤ 23) ∧ 0 ≤ recentFailedLogins then
    some
      { amount, currency, isNewBeneficiary, beneficiaryCountry
        accountAgeDays := accountAgeDays.toNat
        hourOfDay := ⟨hourOfDay.toNat, by omega⟩
        recentFailedLogins := recentFailedLogins.toNat
        amount_nonneg := h.1 }
  else none

def fraudInput (payload : JsonDict) : Except Exn (FraudInput ℚ) := do
  let data ← keywords "banking_ai.agents.fraud.Transaction"
    ((payload.get? "transaction").getD (.obj payload.entries))
  let transaction ← d.built "Transaction" data (d.transaction? data)
  d.built "FraudInput" payload do
    let average ← modelField d.float? (some 0) payload "customer_avg_amount"
    if h : Amount.ofNat 0 ≤ average then some ⟨transaction, average, h⟩ else none

def loanFields? (data : JsonDict) : Option LoanInput := do
  let monthlyIncome ← modelField d.float? none data "monthly_income"
  let monthlyDebt ← modelField d.float? (some 0) data "monthly_debt"
  let monthlyExpenses ← modelField d.float? (some 0) data "monthly_expenses"
  let loanAmount ← modelField d.float? none data "loan_amount"
  let termMonths ← modelField d.pydantic.int? none data "term_months"
  let annualInterestRate ← modelField d.float? (some 0) data "annual_interest_rate"
  if h : 0 < monthlyIncome ∧ 0 ≤ monthlyDebt ∧ 0 ≤ monthlyExpenses ∧ 0 < loanAmount ∧
      (0 < termMonths ∧ termMonths ≤ 480) ∧ 0 ≤ annualInterestRate ∧ annualInterestRate ≤ 1 then
    some
      { monthlyIncome, monthlyDebt, monthlyExpenses, loanAmount, annualInterestRate
        termMonths := termMonths.toNat
        income_pos := h.1
        debt_nonneg := h.2.1
        expenses_nonneg := h.2.2.1
        amount_pos := h.2.2.2.1
        term_mem := by omega
        rate_mem := h.2.2.2.2.2 }
  else none

def loanInput (payload : JsonDict) : Except Exn LoanInput := do
  let data ← keywords "banking_ai.agents.loan.LoanInput" ((payload.get? "loan").getD (.obj payload.entries))
  d.built "LoanInput" data (d.loanFields? data)

def auditInput (payload : JsonDict) : Except Exn AuditInput :=
  d.built "AuditInput" payload do
    let evidence ← modelField (fun | .obj fields => some (.ofList fields) | _ => none) (some .empty) payload "evidence"
    pure { workflowId := d.text ((payload.get? "workflow_id").getD (.str "")), evidence }

/-- The platform of these agents, with a router and retrieval. -/
def platform {V S σ : Type} (router : Option (List ExecutorCall → InjectedRouter σ))
    (retriever : Option (List ExecutorCall → Retriever V S)) (latencyMs : List ExecutorCall → ℕ) :
    Platform V S σ where
  pydantic := d.pydantic
  router
  retriever
  latencyMs
  documentAgent earlier payload :=
    (d.documentInput earlier payload).map fun input => (documentAgent.run input).map DocumentReview.toOutput
  kycAgent earlier payload :=
    (d.kycInput payload).map fun input => ((kycAgent d.repr (d.today earlier)).run input).map KycResult.toOutput
  fraudAgent payload := (d.fraudInput payload).map fun input => (fraudAgent.run input).map FraudResult.toOutput
  loanAgent payload :=
    (d.loanInput payload).map fun input => ((loanAgent d.arithmetic).run input).map LoanResult.toOutput
  auditAgent payload :=
    (d.auditInput payload).map fun input => ((auditAgent d.floatText d.sha256).run input).map AuditBundle.toOutput

end DeterministicAgents

/-! ### What an adapter returns -/

def AgentOutcome.map {τ υ : Type} (f : τ → υ) (outcome : AgentOutcome τ) : AgentOutcome υ :=
  { outcome with output := outcome.output.map f }

/-- The reply of an adapter is the outcome of its agent's own `execute`, with the output dumped. -/
theorem Platform.runPlain_execute {V S σ ι τ : Type} (p : Platform V S σ) (earlier : List ExecutorCall)
    (agent : BaseAgent ι τ) (hversion : agent.promptVersion = none) (input : ι) (toOutput : τ → AgentOutput) :
    (p.runPlain earlier agent.name (.ok ((agent.run input).map toOutput))).reply =
      .ok ((agent.execute input (p.latencyMs earlier)).map toOutput) := by
  unfold Platform.runPlain Platform.executed BaseAgent.execute
  cases agent.run input with
  | ok output => simp [Except.map, AgentOutcome.map, hversion]
  | error e => cases e <;> simp [Except.map, AgentOutcome.map, hversion]

@[simp] theorem DocumentReview.requiresHumanReview_toOutput (o : DocumentReview) :
    o.toOutput.requiresHumanReview = o.requiresHumanReview := rfl

@[simp] theorem SummarizationOutput.requiresHumanReview_toOutput (o : SummarizationOutput) :
    o.toOutput.requiresHumanReview = false := rfl

theorem Platform.summary_unflagged {V S σ : Type} (p : Platform V S σ) (earlier : List ExecutorCall)
    (payload : JsonDict) {o : AgentOutput}
    (h : (stepOutcome "summarization_agent" (p.runSummarizationAgent earlier payload).reply).output = some o) :
    o.requiresHumanReview = false := by
  unfold runSummarizationAgent at h
  cases hinput : p.summarizationInput payload with
  | error e =>
    rw [hinput] at h
    cases h
  | ok input =>
    rw [hinput] at h
    unfold executed BaseAgent.execute RoutedRun.map at h
    cases hresult : (SummarizationAgent.run (p.router.map (· earlier)) input).result with
    | error e =>
      simp only [hresult, Except.map, stepOutcome] at h
      cases h
    | ok summary =>
      simp only [hresult, Except.map, stepOutcome, Option.some.injEq] at h
      rw [← h, SummarizationOutput.requiresHumanReview_toOutput]

/-! ### Starts -/

namespace DeterministicAgents

variable {V S σ : Type} (d : DeterministicAgents) (router : Option (List ExecutorCall → InjectedRouter σ))
  (retriever : Option (List ExecutorCall → Retriever V S)) (latencyMs : List ExecutorCall → ℕ)
  {inputPayload : JsonDict} (createdBy : Option Uuid) (requestId : Option String) {db : Database} {n : ℕ}
  {calls : List ExecutorCall}

theorem auditInput_set {fields : List (String × Json)} (h : inputPayload.get? "evidence" = some (.obj fields))
    (workflowId : String) :
    d.auditInput (inputPayload.set "workflow_id" (.str workflowId)) = .ok ⟨d.text (.str workflowId), .ofList fields⟩ := by
  have hevidence : (inputPayload.set "workflow_id" (.str workflowId)).get? "evidence" = some (.obj fields) := by
    rw [Dict.get?_set, if_neg (by decide), h]
  unfold auditInput modelField
  rw [hevidence, Dict.get?_set_self]
  rfl

/-- An evidence workflow over evidence that is an object completes with its bundle. -/
theorem audit_start (hdb : db.DrawnBefore n) {fields : List (String × Json)}
    (hevidence : inputPayload.get? "evidence" = some (.obj fields)) :
    let input : AuditInput := ⟨d.text (.str (Uuid.mk n).str), .ofList fields⟩
    ∃ view db' world',
      SessionM.transact .empty ((d.platform router retriever latencyMs).service.start .auditEvidence inputPayload
        createdBy requestId) .none db ⟨n, calls⟩ = (.ok view, db', world') ∧
      view.workflow.status = .completed ∧
      view.workflow.result = some (Dict.empty.set "audit_agent"
        (AuditAgent.run d.floatText d.sha256 input).toOutput.modelDump) := by
  intro input
  set svc := (d.platform router retriever latencyMs).service
  set payload := inputPayload.set "workflow_id" (.str (Uuid.mk n).str)
  obtain ⟨n', -, -, hrun⟩ := transact_start svc .auditEvidence inputPayload createdBy requestId calls
    ((d.platform router retriever latencyMs).service_plan _) hdb
  have hstep : svc.executor.runStep calls "audit_agent" payload =
      .ok ⟨"audit_agent", .succeeded, some (AuditAgent.run d.floatText d.sha256 input).toOutput, none,
        latencyMs calls, none, none⟩ := by
    show (Platform.runPlain _ calls "audit_agent" ((d.auditInput payload).map _)).reply = _
    rw [d.auditInput_set hevidence]
    exact Platform.runPlain_execute _ calls (auditAgent d.floatText d.sha256) rfl input AuditBundle.toOutput
  have hes : startSteps svc (planOf .auditEvidence) inputPayload n calls =
      [⟨⟨"audit_agent", "Assemble an immutable evidence bundle."⟩,
        ⟨"audit_agent", .succeeded, some (AuditAgent.run d.floatText d.sha256 input).toOutput, none,
          latencyMs calls, none, none⟩⟩] := by
    show executedSteps svc.executor payload calls [_] = _
    rw [executedSteps_cons, hstep]
    rfl
  refine ⟨_, _, _, hrun, ?_, ?_⟩
  · show startStatus _ _ = _
    rw [hes]
    rfl
  · show some _ = _
    rw [hes]
    rfl

/-- A document workflow whose document can be read fails with its summary, or else parks for a human exactly if
the review asks for one. The review is kept either way. -/
theorem document_start (hdb : db.DrawnBefore n) {input : DocumentAgentInput}
    (hinput : d.documentInput calls (inputPayload.set "workflow_id" (.str (Uuid.mk n).str)) = .ok input) :
    let p : Platform V S σ := d.platform router retriever latencyMs
    let payload := inputPayload.set "workflow_id" (.str (Uuid.mk n).str)
    let review := DocumentAgent.run input
    let summary := stepOutcome "summarization_agent"
      (p.runSummarizationAgent (calls ++ [⟨"document_agent", payload⟩]) payload).reply
    ∃ view db' world',
      SessionM.transact .empty (p.service.start .documentIntelligence inputPayload createdBy requestId) .none db
        ⟨n, calls⟩ = (.ok view, db', world') ∧
      view.workflow.status =
        (if summary.status = .failed then .failed else gatedStatus review.requiresHumanReview) ∧
      ∃ results, view.workflow.result = some results ∧
        results.get? "document_agent" = some review.toOutput.modelDump := by
  intro p payload review summary
  obtain ⟨n', -, -, hrun⟩ := transact_start p.service .documentIntelligence inputPayload createdBy requestId calls
    (p.service_plan _) hdb
  let reviewed : Executed := ⟨⟨"document_agent", "Extract and validate document fields."⟩,
    ⟨"document_agent", .succeeded, some review.toOutput, none, latencyMs calls, none, none⟩⟩
  let summarized : Executed := ⟨⟨"summarization_agent", "Summarize the document for a reviewer."⟩, summary⟩
  have hstep : p.service.executor.runStep calls "document_agent" payload = .ok reviewed.outcome := by
    show (Platform.runPlain _ calls "document_agent" ((d.documentInput calls payload).map _)).reply = _
    rw [hinput]
    exact Platform.runPlain_execute p calls documentAgent rfl input DocumentReview.toOutput
  have hes : startSteps p.service (planOf .documentIntelligence) inputPayload n calls = [reviewed, summarized] := by
    show executedSteps p.service.executor payload calls [_, _] = _
    rw [executedSteps_cons, hstep]
    show reviewed :: executedSteps _ payload (calls ++ [⟨"document_agent", payload⟩]) [_] = _
    rw [executedSteps_cons]
    exact congrArg (reviewed :: ·) (ite_self [summarized])
  have hflag : summarized.flagged = false := by
    cases ho : summary.output with
    | none => rw [Executed.flagged, ho]; rfl
    | some o => rw [Executed.flagged, ho, Option.any_some, p.summary_unflagged _ _ ho]
  refine ⟨_, _, _, hrun, ?_, _, rfl, ?_⟩
  · show startStatus _ _ = _
    rw [hes]
    have hany : [reviewed, summarized].any Executed.failed = decide (summary.status = .failed) := Bool.or_false _
    have hneeds : needsApproval (planOf .documentIntelligence) [reviewed, summarized] =
        review.requiresHumanReview := by
      show (false || (review.toOutput.requiresHumanReview || (summarized.flagged || false))) = _
      rw [hflag]
      simp
    unfold startStatus
    rw [hany, hneeds]
    simp
  · rw [show startSteps p.service _ inputPayload n calls = _ from hes, get?_foldl_addResult]
    rfl

end DeterministicAgents
end BankingAi
