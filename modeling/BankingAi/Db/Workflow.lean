import Mathlib
import BankingAi.Core.Uuid
import BankingAi.Json
import BankingAi.Lib.Table

/-!
# Workflow tables

The rows of `workflows`, `agent_runs`, `approvals` and `audit_logs`, with the columns the services
read or write. Enumerations are stored by value. Timestamps are left out.
-/

namespace BankingAi

inductive WorkflowType where
  | documentIntelligence | kyc | fraudReview | compliance | auditEvidence | loan
deriving DecidableEq, Repr

inductive WorkflowStatus where
  | pending | running | awaitingApproval | approved | rejected | escalated | completed | failed
  | cancelled
deriving DecidableEq, Repr

def WorkflowStatus.value : WorkflowStatus → String
  | pending => "pending"
  | running => "running"
  | awaitingApproval => "awaiting_approval"
  | approved => "approved"
  | rejected => "rejected"
  | escalated => "escalated"
  | completed => "completed"
  | failed => "failed"
  | cancelled => "cancelled"

inductive RiskLevel where
  | low | medium | high | critical
deriving DecidableEq, Repr

namespace RiskLevel

def value : RiskLevel → String
  | low => "low"
  | medium => "medium"
  | high => "high"
  | critical => "critical"

/-- The position in `_RISK_ORDER`. -/
def index : RiskLevel → ℕ
  | low => 0
  | medium => 1
  | high => 2
  | critical => 3

instance : LinearOrder RiskLevel :=
  LinearOrder.lift' index fun a b h => by cases a <;> cases b <;> first | rfl | cases h

end RiskLevel

inductive ApprovalKind where
  | approval | rejection | escalation | manualReview
deriving DecidableEq, Repr

inductive ApprovalDecision where
  | pending | approved | rejected | escalated
deriving DecidableEq, Repr

def ApprovalDecision.value : ApprovalDecision → String
  | pending => "pending"
  | approved => "approved"
  | rejected => "rejected"
  | escalated => "escalated"

inductive AgentRunStatus where
  | started | succeeded | failed
deriving DecidableEq, Repr

/-- A JSON object column. -/
abbrev JsonDict := Dict String Json

structure Workflow where
  id : Uuid
  workflowType : WorkflowType
  status : WorkflowStatus
  inputPayload : JsonDict
  result : Option JsonDict
  error : Option String
  requiresHumanApproval : Bool
  createdBy : Option Uuid

structure AgentRun where
  id : Uuid
  workflowId : Uuid
  agentName : String
  status : AgentRunStatus
  input : JsonDict
  output : Option Json
  error : Option String
  latencyMs : Option ℕ
  promptVersion : Option String
  modelUsed : Option String

structure Approval where
  id : Uuid
  workflowId : Uuid
  kind : ApprovalKind
  decision : ApprovalDecision
  requiredPermission : String
  summary : Option String
  decidedBy : Option Uuid
  decisionReason : Option String
deriving DecidableEq

structure AuditLog where
  id : Uuid
  actorId : Option Uuid
  actorEmail : Option String
  action : String
  resourceType : String
  resourceId : Option String
  outcome : String
  requestId : Option String
  context : JsonDict

/-- The tables, rows in order of insertion. -/
structure Database where
  workflows : List Workflow
  agentRuns : List AgentRun
  approvals : List Approval
  auditLogs : List AuditLog

namespace Database

def empty : Database := ⟨[], [], [], []⟩

variable (db : Database)

def workflow? (id : Uuid) : Option Workflow := Table.lookup Workflow.id id db.workflows

def agentRunsOf (id : Uuid) : List AgentRun := db.agentRuns.filter (·.workflowId = id)

def approvalsOf (id : Uuid) : List Approval := db.approvals.filter (·.workflowId = id)

/-- The audit entries recorded for a workflow. -/
def auditOf (id : Uuid) : List AuditLog :=
  db.auditLogs.filter fun e => e.resourceType = "workflow" ∧ e.resourceId = some id.str

/-- `UPDATE workflows ... WHERE id = ...`. -/
def setWorkflow (id : Uuid) (f : Workflow → Workflow) : Database :=
  { db with workflows := Table.update Workflow.id id f db.workflows }

def setAgentRun (id : Uuid) (f : AgentRun → AgentRun) : Database :=
  { db with agentRuns := Table.update AgentRun.id id f db.agentRuns }

def setApproval (id : Uuid) (f : Approval → Approval) : Database :=
  { db with approvals := Table.update Approval.id id f db.approvals }

def addWorkflow (w : Workflow) : Database := { db with workflows := db.workflows ++ [w] }

def addAgentRun (r : AgentRun) : Database := { db with agentRuns := db.agentRuns ++ [r] }

def addApproval (a : Approval) : Database := { db with approvals := db.approvals ++ [a] }

def addAuditLog (e : AuditLog) : Database := { db with auditLogs := db.auditLogs ++ [e] }

variable {db}

theorem workflow?_setWorkflow {id id' : Uuid} {f : Workflow → Workflow}
    (hf : ∀ w, (f w).id = w.id) :
    (db.setWorkflow id f).workflow? id' =
      if id' = id then (db.workflow? id).map f else db.workflow? id' :=
  Table.lookup_update hf

theorem approvalsOf_setApproval {id id' : Uuid} {f : Approval → Approval}
    (hf : ∀ a, (f a).workflowId = a.workflowId) :
    (db.setApproval id f).approvalsOf id' = Table.update Approval.id id f (db.approvalsOf id') :=
  Table.filter_update fun a _ => by rw [hf]

theorem ids_setWorkflow {id : Uuid} {f : Workflow → Workflow} (hf : ∀ w, (f w).id = w.id) :
    (db.setWorkflow id f).workflows.map Workflow.id = db.workflows.map Workflow.id :=
  Table.map_update fun w _ => hf w

theorem ids_setApproval {id : Uuid} {f : Approval → Approval} (hf : ∀ a, (f a).id = a.id) :
    (db.setApproval id f).approvals.map Approval.id = db.approvals.map Approval.id :=
  Table.map_update fun a _ => hf a

theorem approvalsOf_addApproval {a : Approval} {id : Uuid} :
    (db.addApproval a).approvalsOf id =
      db.approvalsOf id ++ if a.workflowId = id then [a] else [] := by
  simp only [approvalsOf, addApproval, List.filter_append, List.filter_singleton, Bool.cond_decide]

end Database
end BankingAi
