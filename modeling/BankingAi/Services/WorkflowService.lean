import BankingAi.Agents.Orchestrator
import BankingAi.Services.AuditService

/-!
# The workflow service

`start` creates a workflow, runs the steps of its plan and parks, completes or fails it; `decide` is
the guarded transition behind `approve`, `reject` and `escalate`. Assigning to the attributes of a
loaded row is an update of the row by primary key: `decideWrites` computes the columns that a
decision changes on the rows as they were loaded, and `DecideWrites.apply` sends them.
-/

namespace BankingAi

/-- The states from which a human decision is valid (`_DECIDABLE`). -/
def decidable : List WorkflowStatus := [.awaitingApproval, .escalated]

/-- The adapters `_run_<agent>`; an adapter may see the earlier calls of the process. -/
structure AgentExecutor where
  builder : String → Option (List ExecutorCall → JsonDict → Except Exn (AgentOutcome AgentOutput))

namespace AgentExecutor

def runStep (ex : AgentExecutor) (earlier : List ExecutorCall) (agentName : String)
    (payload : JsonDict) : Except Exn (AgentOutcome AgentOutput) :=
  match ex.builder agentName with
  | none => .error (.new .agent s!"No executor mapping for agent '{agentName}'." [])
  | some run => run earlier payload

end AgentExecutor

/-- A workflow object with its loaded collections. -/
structure WorkflowView where
  workflow : Workflow
  agentRuns : List AgentRun
  approvals : List Approval

/-- The arguments of a decision. -/
structure DecideArgs where
  target : WorkflowStatus
  decision : ApprovalDecision
  kind : ApprovalKind
  decidedBy : Uuid
  reason : Option String
  requestId : Option String

/-- The changed columns of an approval. -/
structure ApprovalChanges where
  decision : Option ApprovalDecision
  kind : Option ApprovalKind
  decidedBy : Option (Option Uuid)
  decisionReason : Option (Option String)
deriving DecidableEq

inductive ApprovalWrite where
  | update (id : Uuid) (changes : ApprovalChanges)
  | insert (row : Uuid → Approval)

structure DecideWrites where
  status : Option WorkflowStatus
  approval : ApprovalWrite

/-- What a flush sends for a column: nothing if the value is the loaded one. -/
def changed {α : Type} [DecidableEq α] (old new : α) : Option α := if old = new then none else some new

def ApprovalChanges.apply (c : ApprovalChanges) (a : Approval) : Approval :=
  { a with
    decision := c.decision.getD a.decision
    kind := c.kind.getD a.kind
    decidedBy := c.decidedBy.getD a.decidedBy
    decisionReason := c.decisionReason.getD a.decisionReason }

/-- `fresh` is the primary key of an inserted row. -/
def ApprovalWrite.apply (write : ApprovalWrite) (fresh : Uuid) (db : Database) : Database :=
  match write with
  | .update id changes => db.setApproval id changes.apply
  | .insert row => db.addApproval (row fresh)

def writeStatus (workflowId : Uuid) (status : Option WorkflowStatus) (db : Database) : Database :=
  match status with
  | none => db
  | some status => db.setWorkflow workflowId ({ · with status })

def DecideWrites.apply (writes : DecideWrites) (workflowId fresh : Uuid) (db : Database) : Database :=
  writes.approval.apply fresh (writeStatus workflowId writes.status db)

/-- The status a decision leaves: an approval completes the workflow. -/
def DecideArgs.finalStatus (args : DecideArgs) : WorkflowStatus :=
  if args.target = .approved then .completed else args.target

/-- The columns that assigning a decision to a loaded row changes. -/
def approvalChanges (pending : Approval) (args : DecideArgs) : ApprovalChanges where
  decision := changed pending.decision args.decision
  kind := changed pending.kind args.kind
  decidedBy := changed pending.decidedBy (some args.decidedBy)
  decisionReason := changed pending.decisionReason args.reason

/-- The row a decision is recorded in when none is pending. -/
def newApproval (workflowId : Uuid) (args : DecideArgs) (id : Uuid) : Approval :=
  { id, workflowId, kind := args.kind, decision := args.decision
    requiredPermission := "workflow:approve", summary := none, decidedBy := some args.decidedBy
    decisionReason := args.reason }

/-- The decision of `_decide` on the workflow and approvals as loaded: it goes to the pending
approval, or to a new one if none is pending. -/
def decideWrites (view : WorkflowView) (args : DecideArgs) : DecideWrites where
  status := changed view.workflow.status args.finalStatus
  approval :=
    match view.approvals.find? (·.decision = .pending) with
    | some pending => .update pending.id (approvalChanges pending args)
    | none => .insert (newApproval view.workflow.id args)

/-- `context={"reason": reason or ""}`. -/
def reasonContext (reason : Option String) : JsonDict :=
  Dict.empty.set "reason" (.str (reason.getD ""))

structure WorkflowService where
  executor : AgentExecutor
  /-- whether an audit service is attached -/
  audit : Bool
  orchestrator : OrchestratorInput → AgentOutcome WorkflowPlan

/-- `plan.approval_permission or "workflow:approve"`. -/
def WorkflowPlan.requiredPermission (plan : WorkflowPlan) : String :=
  match plan.approvalPermission with
  | some permission => if permission = "" then "workflow:approve" else permission
  | none => "workflow:approve"

/-- How the loop over the steps ends: with its accumulators, or with a `return`. -/
inductive LoopExit where
  | fellThrough (agentFlaggedReview : Bool) (results : JsonDict)
  | returned (view : WorkflowView)

/-- The outcome of a step; an exception of the executor is a failed one. -/
def stepOutcome (agentName : String) :
    Except Exn (AgentOutcome AgentOutput) → AgentOutcome AgentOutput
  | .ok outcome => outcome
  | .error exc =>
    { agentName
      status := .failed
      output := none
      error := some s!"{exc.typeName}: {exc.text}"
      latencyMs := 0
      modelUsed := none
      promptVersion := none }

/-- The columns of an agent run after its step. -/
def AgentRun.finish (outcome : AgentOutcome AgentOutput) (run : AgentRun) : AgentRun :=
  { run with
    status := if outcome.status = .succeeded then .succeeded else .failed
    output := outcome.output.map AgentOutput.modelDump
    error := outcome.error
    latencyMs := some outcome.latencyMs
    promptVersion := outcome.promptVersion
    modelUsed := outcome.modelUsed }

def addResult (agentName : String) (output : Option AgentOutput) (results : JsonDict) : JsonDict :=
  match output with
  | some o => results.set agentName o.modelDump
  | none => results

namespace WorkflowService

variable (svc : WorkflowService)

/-- Load a workflow with its collections. A collection that the session has loaded before is not
loaded again: its members are the rows loaded then, with their current columns. -/
def reload (workflowId : Uuid) : WorkflowSession WorkflowView := do
  .roundTrip
  let s ← .get
  match s.db.workflow? workflowId with
  | none => .raise (.new .notFound s!"Workflow {workflowId.str} not found." [])
  | some workflow =>
    match s.memory.get? workflowId with
    | some loaded =>
      pure
        { workflow
          agentRuns := loaded.agentRuns.filterMap (Table.lookup AgentRun.id · s.db.agentRuns)
          approvals := loaded.approvals.filterMap (Table.lookup Approval.id · s.db.approvals) }
    | none =>
      let agentRuns := s.db.agentRunsOf workflowId
      let approvals := s.db.approvalsOf workflowId
      .modifyMemory (·.set workflowId ⟨agentRuns.map AgentRun.id, approvals.map Approval.id⟩)
      pure { workflow, agentRuns, approvals }

def get (workflowId : Uuid) : WorkflowSession WorkflowView := reload workflowId

def maybeAudit (action : String) (workflowId : Uuid) (actorId : Option Uuid)
    (requestId : Option String) (context : JsonDict) : WorkflowSession Unit := do
  if svc.audit then
    let _ ← AuditService.record action "workflow" "success" actorId none (some workflowId.str)
      requestId context
    pure ()
  else pure ()

def runStep (agentName : String) (payload : JsonDict) :
    WorkflowSession (Except Exn (AgentOutcome AgentOutput)) :=
  .effect fun w =>
    (svc.executor.runStep w.calls agentName payload, { w with calls := w.calls ++ [⟨agentName, payload⟩] })

/-- The early `return` of the loop, after a failed step. -/
def fail (workflowId : Uuid) (createdBy : Option Uuid) (requestId : Option String) (step : PlanStep)
    (outcome : AgentOutcome AgentOutput) (results : JsonDict) : WorkflowSession WorkflowView := do
  .modifyDb (·.setWorkflow workflowId
    ({ · with status := .failed, error := outcome.error, result := some results }))
  flush
  svc.maybeAudit "workflow.failed" workflowId createdBy requestId
    (Dict.empty.set "agent" (.str step.agent))
  reload workflowId

/-- The loop of `start` over the planned steps. -/
def runSteps (workflowId : Uuid) (createdBy : Option Uuid) (requestId : Option String)
    (stepPayload : JsonDict) : List PlanStep → Bool → JsonDict → WorkflowSession LoopExit
  | [], agentFlaggedReview, results => pure (.fellThrough agentFlaggedReview results)
  | step :: steps, agentFlaggedReview, results => do
    let runId ← uuid4
    .modifyDb (·.addAgentRun
      { id := runId, workflowId, agentName := step.agent, status := .started, input := stepPayload
        output := none, error := none, latencyMs := none, promptVersion := none, modelUsed := none })
    flush
    let reply ← svc.runStep step.agent stepPayload
    let outcome := stepOutcome step.agent reply
    .modifyDb (·.setAgentRun runId (AgentRun.finish outcome))
    flush
    let results := addResult step.agent outcome.output results
    let agentFlaggedReview := agentFlaggedReview || outcome.output.any AgentOutput.requiresHumanReview
    if outcome.status = .failed then
      let view ← svc.fail workflowId createdBy requestId step outcome results
      pure (.returned view)
    else
      runSteps workflowId createdBy requestId stepPayload steps agentFlaggedReview results

/-- The status a workflow is left in, with its approval if it needs one. -/
def gate (plan : WorkflowPlan) (workflowId : Uuid) (needsApproval : Bool) : WorkflowSession Unit := do
  if needsApproval then
    let id ← uuid4
    .modifyDb (·.setWorkflow workflowId ({ · with status := .awaitingApproval }))
    .modifyDb (·.addApproval
      { id, workflowId, kind := .approval, decision := .pending
        requiredPermission := plan.requiredPermission
        summary := some plan.rationale, decidedBy := none, decisionReason := none })
  else
    .modifyDb (·.setWorkflow workflowId ({ · with status := .completed }))

/-- The end of `start`, after the loop. -/
def conclude (plan : WorkflowPlan) (workflowId : Uuid) (createdBy : Option Uuid)
    (requestId : Option String) (agentFlaggedReview : Bool) (results : JsonDict) :
    WorkflowSession WorkflowView := do
  .modifyDb (·.setWorkflow workflowId ({ · with result := some results }))
  let needsApproval := plan.requiresHumanApproval || agentFlaggedReview
  gate plan workflowId needsApproval
  flush
  svc.maybeAudit (if needsApproval then "workflow.awaiting_approval" else "workflow.completed")
    workflowId createdBy requestId (Dict.empty.set "requires_approval" (.bool needsApproval))
  reload workflowId

/-- Payloads are JSON objects, so `_jsonable` leaves the payload of a step as it is. -/
def start (workflowType : WorkflowType) (inputPayload : JsonDict) (createdBy : Option Uuid)
    (requestId : Option String) : WorkflowSession WorkflowView := do
  match (svc.orchestrator ⟨workflowType, inputPayload⟩).output with
  | none => .raise (.other "AssertionError" "")
  | some plan =>
    let workflowId ← uuid4
    .modifyDb (·.addWorkflow
      { id := workflowId, workflowType, status := .running, inputPayload, result := none
        error := none, requiresHumanApproval := plan.requiresHumanApproval, createdBy })
    flush
    let stepPayload := inputPayload.set "workflow_id" (.str workflowId.str)
    match ← svc.runSteps workflowId createdBy requestId stepPayload plan.steps false .empty with
    | .returned view => pure view
    | .fellThrough agentFlaggedReview results =>
      svc.conclude plan workflowId createdBy requestId agentFlaggedReview results

def decide (workflowId : Uuid) (args : DecideArgs) : WorkflowSession WorkflowView := do
  let view ← get workflowId
  let current := view.workflow.status
  if current ∉ decidable then
    .raise (.new .workflowState
      s!"Workflow {workflowId.str} is '{current.value}', not awaiting a decision."
      [("current_status", .str current.value)])
  else
    let fresh ← uuid4
    .modifyDb ((decideWrites view args).apply workflowId fresh)
    flush
    svc.maybeAudit s!"workflow.{args.decision.value}" workflowId (some args.decidedBy) args.requestId
      (reasonContext args.reason)
    reload workflowId

end WorkflowService

def DecideArgs.approve (decidedBy : Uuid) (reason requestId : Option String) : DecideArgs :=
  ⟨.approved, .approved, .approval, decidedBy, reason, requestId⟩

def DecideArgs.reject (decidedBy : Uuid) (reason requestId : Option String) : DecideArgs :=
  ⟨.rejected, .rejected, .rejection, decidedBy, reason, requestId⟩

def DecideArgs.escalate (decidedBy : Uuid) (reason requestId : Option String) : DecideArgs :=
  ⟨.escalated, .escalated, .escalation, decidedBy, reason, requestId⟩

namespace WorkflowService

variable (svc : WorkflowService)

def approve (workflowId decidedBy : Uuid) (reason requestId : Option String) :
    WorkflowSession WorkflowView :=
  svc.decide workflowId (.approve decidedBy reason requestId)

def reject (workflowId decidedBy : Uuid) (reason requestId : Option String) :
    WorkflowSession WorkflowView :=
  svc.decide workflowId (.reject decidedBy reason requestId)

def escalate (workflowId decidedBy : Uuid) (reason requestId : Option String) :
    WorkflowSession WorkflowView :=
  svc.decide workflowId (.escalate decidedBy reason requestId)

end WorkflowService
end BankingAi
