import BankingAi.Agents.Base
import BankingAi.Core.Rbac

/-!
# The orchestrator

A static plan for each workflow type: the agents to run, whether a human must approve, and the
permission the reviewer must hold.
-/

namespace BankingAi

structure PlanStep where
  agent : String
  description : String
deriving DecidableEq, Repr

structure WorkflowPlan where
  workflowType : WorkflowType
  steps : List PlanStep
  requiresHumanApproval : Bool
  approvalPermission : Option String
  rationale : String

structure OrchestratorInput where
  workflowType : WorkflowType
  inputPayload : JsonDict

structure PlanSpec where
  steps : List PlanStep
  requiresHumanApproval : Bool
  approvalPermission : Option String

def plans : WorkflowType → PlanSpec
  | .documentIntelligence =>
    { steps := [⟨"document_agent", "Extract and validate document fields."⟩,
        ⟨"summarization_agent", "Summarize the document for a reviewer."⟩]
      requiresHumanApproval := false
      approvalPermission := none }
  | .kyc =>
    { steps := [⟨"document_agent", "Extract identity document fields."⟩,
        ⟨"kyc_agent", "Run completeness, consistency and risk checks."⟩]
      requiresHumanApproval := true
      approvalPermission := some Permission.kycReview.value }
  | .fraudReview =>
    { steps := [⟨"fraud_agent", "Score transaction risk with explainable signals."⟩]
      requiresHumanApproval := true
      approvalPermission := some Permission.fraudReview.value }
  | .compliance =>
    { steps := [⟨"retrieval_agent", "Retrieve relevant policy excerpts."⟩,
        ⟨"compliance_agent", "Compose a grounded, cited answer."⟩]
      requiresHumanApproval := false
      approvalPermission := none }
  | .auditEvidence =>
    { steps := [⟨"audit_agent", "Assemble an immutable evidence bundle."⟩]
      requiresHumanApproval := false
      approvalPermission := none }
  | .loan =>
    { steps := [⟨"document_agent", "Validate submitted loan documents."⟩,
        ⟨"loan_agent", "Compute affordability and a recommendation."⟩]
      requiresHumanApproval := true
      approvalPermission := some Permission.loanProcess.value }

def planOf (workflowType : WorkflowType) : WorkflowPlan :=
  let spec := plans workflowType
  { workflowType
    steps := spec.steps
    requiresHumanApproval := spec.requiresHumanApproval
    approvalPermission := spec.approvalPermission
    rationale :=
      if spec.requiresHumanApproval then
        "High-risk workflow: routed through a human approval gate."
      else "Low-risk workflow: fully automated with full audit logging." }

def orchestratorAgent : BaseAgent OrchestratorInput WorkflowPlan where
  name := "orchestrator_agent"
  promptVersion := none
  run payload := .ok (planOf payload.workflowType)

/-- The orchestrator has a plan for every workflow type. -/
theorem orchestratorAgent_output (payload : OrchestratorInput) (latencyMs : ℕ) :
    (orchestratorAgent.execute payload latencyMs).output = some (planOf payload.workflowType) := by
  rw [BaseAgent.execute_of_ok rfl]

end BankingAi
