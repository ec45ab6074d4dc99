import BankingAi.Agents.Compliance
import BankingAi.Services.WorkflowService

/-!
# The agent executor

The adapters `_run_<agent>` build the typed input of an agent from the payload of a workflow and run
it. The agents without a model are given by what they do, so that a model of the service need not fix
them; `Services.AgentAdapters` builds theirs. The two that may call the router, and retrieval, are here.
-/

namespace BankingAi

/-- The checks of the input models: the value of an `int` field, and the text of a refusal. -/
structure Pydantic where
  int? : Json → Option ℤ
  refusal : String → JsonDict → String

def Pydantic.invalid {α : Type} (pydantic : Pydantic) (model : String) (payload : JsonDict) : Except Exn α :=
  .error (.other "ValidationError" (pydantic.refusal model payload))

/-- `payload.get(first, payload.get(second, default))`. -/
def getEither (payload : JsonDict) (first second : String) (default : Json) : Json :=
  (payload.get? first).getD ((payload.get? second).getD default)

/-- The shared resources of the executor, which the calls made so far may have changed, and the
agents without a model: whether their input is built, and what their run then returns. An id may be drawn
for a document, and the check of a customer reads the date. -/
structure Platform (V S σ : Type) where
  pydantic : Pydantic
  router : Option (List ExecutorCall → InjectedRouter σ)
  retriever : Option (List ExecutorCall → Retriever V S)
  documentAgent : List ExecutorCall → JsonDict → Except Exn (Except Exn AgentOutput)
  kycAgent : List ExecutorCall → JsonDict → Except Exn (Except Exn AgentOutput)
  fraudAgent : JsonDict → Except Exn (Except Exn AgentOutput)
  loanAgent : JsonDict → Except Exn (Except Exn AgentOutput)
  auditAgent : JsonDict → Except Exn (Except Exn AgentOutput)
  latencyMs : List ExecutorCall → ℕ

/-- A step: the reply of its adapter, with the call of the router it made, if any. -/
structure StepRun where
  reply : Except Exn (AgentOutcome AgentOutput)
  call : Option ModelCall

namespace Platform

variable {V S σ : Type} (p : Platform V S σ) (earlier : List ExecutorCall) (payload : JsonDict)

/-- `agent.execute(...)` of an agent whose run is known. -/
def executed (name : String) (promptVersion : Option String) (run : RoutedRun AgentOutput) : StepRun where
  reply := .ok (BaseAgent.execute ⟨name, promptVersion, fun _ : Unit => run.result⟩ () (p.latencyMs earlier))
  call := run.call

/-- An agent that is constructed without a router. -/
def runPlain (name : String) (built : Except Exn (Except Exn AgentOutput)) : StepRun :=
  match built with
  | .error e => ⟨.error e, none⟩
  | .ok result => p.executed earlier name none ⟨result, none⟩

def summarizationInput : Except Exn SummarizationInput :=
  match getEither payload "text" "content" (.str ""), p.pydantic.int? ((payload.get? "max_sentences").getD (.int 5)) with
  | .str content, some n =>
    if h : 1 ≤ n ∧ n ≤ 20 then .ok ⟨content, n, h⟩ else p.pydantic.invalid "SummarizationInput" payload
  | _, _ => p.pydantic.invalid "SummarizationInput" payload

def retrievalInput : Except Exn RetrievalInput :=
  match getEither payload "query" "question" (.str ""), p.pydantic.int? ((payload.get? "top_k").getD (.int 5)) with
  | .str query, some n =>
    if h : 1 ≤ n ∧ n ≤ 50 then .ok ⟨query, n, h⟩ else p.pydantic.invalid "RetrievalInput" payload
  | _, _ => p.pydantic.invalid "RetrievalInput" payload

def complianceInput : Except Exn ComplianceInput :=
  match getEither payload "question" "query" (.str ""), p.pydantic.int? ((payload.get? "top_k").getD (.int 4)) with
  | .str question, some n =>
    if h : 1 ≤ n ∧ n ≤ 20 then .ok ⟨question, n, h⟩ else p.pydantic.invalid "ComplianceInput" payload
  | _, _ => p.pydantic.invalid "ComplianceInput" payload

def runSummarizationAgent : StepRun :=
  match p.summarizationInput payload with
  | .error e => ⟨.error e, none⟩
  | .ok input =>
    p.executed earlier "summarization_agent" (some SummarizationAgent.promptVersion)
      ((SummarizationAgent.run (p.router.map (· earlier)) input).map SummarizationOutput.toOutput)

def requireRetrieval : Except Exn (Retriever V S) :=
  match p.retriever with
  | some retriever => .ok (retriever earlier)
  | none => .error (.new .agent "Retrieval agents require an embedder and a vector store." [])

def runRetrievalAgent : StepRun :=
  match p.requireRetrieval earlier with
  | .error e => ⟨.error e, none⟩
  | .ok retriever =>
    match p.retrievalInput payload with
    | .error e => ⟨.error e, none⟩
    | .ok input =>
      p.executed earlier "retrieval_agent" none
        ⟨(RetrievalAgent.run retriever input).map RetrievalOutput.toOutput, none⟩

def runComplianceAgent : StepRun :=
  match p.requireRetrieval earlier with
  | .error e => ⟨.error e, none⟩
  | .ok retriever =>
    match p.complianceInput payload with
    | .error e => ⟨.error e, none⟩
    | .ok input =>
      p.executed earlier "compliance_agent" (some ComplianceAgent.promptVersion)
        ((ComplianceAgent.run retriever (p.router.map (· earlier)) input).map ComplianceOutput.toOutput)

/-- `getattr(self, f"_run_{agent_name}", None)`. -/
def builder : String → Option (List ExecutorCall → JsonDict → StepRun)
  | "document_agent" => some fun earlier payload => p.runPlain earlier "document_agent" (p.documentAgent earlier payload)
  | "kyc_agent" => some fun earlier payload => p.runPlain earlier "kyc_agent" (p.kycAgent earlier payload)
  | "fraud_agent" => some fun earlier payload => p.runPlain earlier "fraud_agent" (p.fraudAgent payload)
  | "loan_agent" => some fun earlier payload => p.runPlain earlier "loan_agent" (p.loanAgent payload)
  | "summarization_agent" => some p.runSummarizationAgent
  | "retrieval_agent" => some p.runRetrievalAgent
  | "compliance_agent" => some p.runComplianceAgent
  | "audit_agent" => some fun earlier payload => p.runPlain earlier "audit_agent" (p.auditAgent payload)
  | _ => none

def executor : AgentExecutor where
  builder agentName := (p.builder agentName).map fun run earlier payload => (run earlier payload).reply

/-- The call of the router behind a call of the executor. -/
def modelCall (call : ExecutorCall) : Option ModelCall :=
  (p.builder call.agentName).bind fun run => (run earlier call.payload).call

/-- The service as the endpoints build it. -/
def service : WorkflowService where
  executor := p.executor
  audit := true
  orchestrator payload := orchestratorAgent.execute payload 0

theorem service_plan (payload : OrchestratorInput) :
    (p.service.orchestrator payload).output = some (planOf payload.workflowType) :=
  orchestratorAgent_output payload 0

end Platform
end BankingAi
