import BankingAi.Services.WorkflowService

/-!
# What `start` does

`executedSteps` lists the steps that are executed with their outcomes: the plan up to and including
the first step that fails. The loop of `start` runs exactly these (`runSteps_run`), and the rows that
`start` leaves are functions of the list (`start_run`).
-/

namespace BankingAi

/-- A step that was executed. -/
structure Executed where
  step : PlanStep
  outcome : AgentOutcome AgentOutput

namespace Executed

def failed (e : Executed) : Bool := e.outcome.status = .failed

def call (payload : JsonDict) (e : Executed) : ExecutorCall := ⟨e.step.agent, payload⟩

def flagged (e : Executed) : Bool := e.outcome.output.any AgentOutput.requiresHumanReview

def addResult (results : JsonDict) (e : Executed) : JsonDict :=
  BankingAi.addResult e.step.agent e.outcome.output results

/-- The agent run of an executed step. -/
def run (workflowId : Uuid) (payload : JsonDict) (id : Uuid) (e : Executed) : AgentRun :=
  AgentRun.finish e.outcome
    { id, workflowId, agentName := e.step.agent, status := .started, input := payload, output := none
      error := none, latencyMs := none, promptVersion := none, modelUsed := none }

end Executed

/-- The steps executed after the calls made so far. -/
def executedSteps (ex : AgentExecutor) (payload : JsonDict) :
    List ExecutorCall → List PlanStep → List Executed
  | _, [] => []
  | calls, step :: steps =>
    let e : Executed := ⟨step, stepOutcome step.agent (ex.runStep calls step.agent payload)⟩
    if e.failed then [e] else e :: executedSteps ex payload (calls ++ [e.call payload]) steps

/-- The agent runs of the executed steps, with the ids drawn from `n` on. -/
def agentRunRows (workflowId : Uuid) (payload : JsonDict) : ℕ → List Executed → List AgentRun
  | _, [] => []
  | n, e :: es => e.run workflowId payload ⟨n⟩ :: agentRunRows workflowId payload (n + 1) es

/-- Every id in the tables was drawn before `n`. -/
structure Database.DrawnBefore (db : Database) (n : ℕ) : Prop where
  workflows : ∀ w ∈ db.workflows, w.id.draw < n
  agentRuns : ∀ r ∈ db.agentRuns, r.id.draw < n ∧ r.workflowId.draw < n
  approvals : ∀ a ∈ db.approvals, a.id.draw < n ∧ a.workflowId.draw < n
  auditLogs : ∀ e ∈ db.auditLogs, e.id.draw < n ∧ ∃ u : Uuid, u.draw < n ∧ e.resourceId = some u.str

namespace Database
variable {db : Database} {n m : ℕ}

theorem DrawnBefore.mono (h : db.DrawnBefore n) (hnm : n ≤ m) : db.DrawnBefore m where
  workflows w hw := (h.workflows w hw).trans_le hnm
  agentRuns r hr := (h.agentRuns r hr).imp (·.trans_le hnm) (·.trans_le hnm)
  approvals a ha := (h.approvals a ha).imp (·.trans_le hnm) (·.trans_le hnm)
  auditLogs e he :=
    let ⟨hid, u, hu, h'⟩ := h.auditLogs e he
    ⟨hid.trans_le hnm, u, hu.trans_le hnm, h'⟩

theorem setAgentRun_addAgentRun {r : AgentRun} {id : Uuid} {f : AgentRun → AgentRun}
    (h : ∀ r' ∈ db.agentRuns, r'.id ≠ id) (hr : r.id = id) :
    (db.addAgentRun r).setAgentRun id f = db.addAgentRun (f r) := by
  simp only [addAgentRun, setAgentRun, Table.update_concat h hr]

theorem setWorkflow_addWorkflow {w : Workflow} {id : Uuid} {f : Workflow → Workflow}
    (h : ∀ w' ∈ db.workflows, w'.id ≠ id) (hw : w.id = id) :
    (db.addWorkflow w).setWorkflow id f = db.addWorkflow (f w) := by
  simp only [addWorkflow, setWorkflow, Table.update_concat h hw]

end Database

section steps

variable (svc : WorkflowService) (workflowId : Uuid) (createdBy : Option Uuid)
  (requestId : Option String) (payload : JsonDict)

/-- How the loop goes on after the executed steps. -/
def loopExit (agentFlaggedReview : Bool) (results : JsonDict) (es : List Executed) :
    WorkflowSession LoopExit :=
  let results := es.foldl Executed.addResult results
  match es.find? Executed.failed with
  | none => pure (.fellThrough (agentFlaggedReview || es.any Executed.flagged) results)
  | some e => do
    let view ← svc.fail workflowId createdBy requestId e.step e.outcome results
    pure (.returned view)

theorem loopExit_cons {agentFlaggedReview : Bool} {results : JsonDict} {e : Executed}
    (es : List Executed) (h : e.failed = false) :
    loopExit svc workflowId createdBy requestId agentFlaggedReview results (e :: es) =
      loopExit svc workflowId createdBy requestId (agentFlaggedReview || e.flagged)
        (e.addResult results) es := by
  simp [loopExit, h, Bool.or_assoc]

theorem loopExit_of_none {agentFlaggedReview : Bool} {results : JsonDict} {es : List Executed}
    (h : es.find? Executed.failed = none) :
    loopExit svc workflowId createdBy requestId agentFlaggedReview results es =
      pure (.fellThrough (agentFlaggedReview || es.any Executed.flagged)
        (es.foldl Executed.addResult results)) := by
  rw [loopExit, h]

theorem loopExit_of_some {agentFlaggedReview : Bool} {results : JsonDict} {es : List Executed}
    {e : Executed} (h : es.find? Executed.failed = some e) :
    loopExit svc workflowId createdBy requestId agentFlaggedReview results es =
      svc.fail workflowId createdBy requestId e.step e.outcome
        (es.foldl Executed.addResult results) >>= fun view => pure (.returned view) := by
  rw [loopExit, h]

/-- Without database failures the loop runs the executed steps, leaving a finished agent run for
each, and goes on as `loopExit` says. -/
theorem runSteps_run (steps : List PlanStep) (agentFlaggedReview : Bool) (results : JsonDict)
    (db : Database) (memory : Dict Uuid Loaded) (n : ℕ) (calls : List ExecutorCall)
    (hn : ∀ r ∈ db.agentRuns, r.id.draw < n) :
    svc.runSteps workflowId createdBy requestId payload steps agentFlaggedReview results .none
        ⟨db, memory, n, calls⟩ =
      let es := executedSteps svc.executor payload calls steps
      loopExit svc workflowId createdBy requestId agentFlaggedReview results es .none
        ⟨{ db with agentRuns := db.agentRuns ++ agentRunRows workflowId payload n es }, memory,
          n + es.length, calls ++ es.map (Executed.call payload)⟩ := by
  induction steps generalizing agentFlaggedReview results db n calls with
  | nil => simp [WorkflowService.runSteps, executedSteps, loopExit, agentRunRows]
  | cons step steps ih =>
    have hne : ∀ r ∈ db.agentRuns, r.id ≠ ⟨n⟩ := fun r hr h => by
      have := hn r hr; rw [h] at this; exact lt_irrefl _ this
    -- one turn of the loop: the run is inserted, and finished after the call
    simp only [WorkflowService.runSteps, uuid4, flush, WorkflowService.runStep, SessionM.bind_run,
      SessionM.effect_run, SessionM.modifyDb_run, SessionM.roundTrip_run_none]
    rw [Database.setAgentRun_addAgentRun hne rfl]
    set e : Executed := ⟨step, stepOutcome step.agent (svc.executor.runStep calls step.agent payload)⟩
    have hsteps : executedSteps svc.executor payload calls (step :: steps) =
        if e.failed then [e]
        else e :: executedSteps svc.executor payload (calls ++ [e.call payload]) steps := rfl
    by_cases hf : e.failed
    · have hs : e.outcome.status = .failed := by simpa [Executed.failed] using hf
      rw [hsteps, if_pos hf]
      simp only [loopExit, List.find?_cons, hf, List.foldl_cons, List.foldl_nil]
      exact congrFun (congrFun (if_pos hs) _) _
    · have hs : e.outcome.status ≠ .failed := by simpa [Executed.failed] using hf
      have hn' : ∀ r ∈ (db.addAgentRun (e.run workflowId payload ⟨n⟩)).agentRuns, r.id.draw < n + 1 := by
        intro r hr
        rcases List.mem_append.1 hr with hr | hr
        · exact (hn r hr).trans (Nat.lt_succ_self n)
        · rw [List.mem_singleton.1 hr]; exact Nat.lt_succ_self n
      rw [hsteps, if_neg hf, loopExit_cons _ _ _ _ _ (by simpa using hf)]
      refine (congrFun (congrFun (if_neg hs) _) _).trans ((ih _ _ _ _ _ hn').trans ?_)
      simp only [Database.addAgentRun, List.append_assoc, List.length_cons, List.map_cons,
        List.cons_append, List.nil_append, agentRunRows, Nat.add_assoc, Nat.add_comm 1]
      rfl

end steps

/-! ### Audit entries and reloads -/

/-- The entry `_maybe_audit` records. -/
def auditEntry (action : String) (workflowId : Uuid) (actorId : Option Uuid)
    (requestId : Option String) (context : JsonDict) (id : Uuid) : AuditLog :=
  { id, actorId, actorEmail := none, action, resourceType := "workflow"
    resourceId := some workflowId.str, outcome := "success", requestId
    context := AuditService.redact context }

namespace WorkflowService

variable (svc : WorkflowService) {db : Database} {memory : Dict Uuid Loaded} {world : World}

/-- The entries recorded when `entry` is: none if no audit service is attached. -/
def logged (entry : Uuid → AuditLog) (n : ℕ) : List AuditLog := if svc.audit then [entry ⟨n⟩] else []

/-- How many ids an audit entry takes. -/
def auditDraws : ℕ := if svc.audit then 1 else 0

theorem length_logged (entry : Uuid → AuditLog) (n : ℕ) : (svc.logged entry n).length = svc.auditDraws := by
  unfold logged auditDraws
  cases svc.audit <;> rfl

theorem maybeAudit_run (action : String) (workflowId : Uuid) (actorId : Option Uuid)
    (requestId : Option String) (context : JsonDict) (n : ℕ) (calls : List ExecutorCall) :
    let logs := svc.logged (auditEntry action workflowId actorId requestId context) n
    svc.maybeAudit action workflowId actorId requestId context .none ⟨db, memory, n, calls⟩ =
      (.ok (), .none, ⟨{ db with auditLogs := db.auditLogs ++ logs }, memory, n + logs.length, calls⟩) := by
  unfold maybeAudit logged
  cases svc.audit with
  | false => simp
  | true => rfl

theorem reload_run {workflowId : Uuid} {w : Workflow} (hw : db.workflow? workflowId = some w)
    (hm : memory.get? workflowId = none) :
    reload workflowId .none ⟨db, memory, world⟩ =
      (.ok ⟨w, db.agentRunsOf workflowId, db.approvalsOf workflowId⟩, .none,
        ⟨db, memory.set workflowId ⟨(db.agentRunsOf workflowId).map AgentRun.id,
          (db.approvalsOf workflowId).map Approval.id⟩, world⟩) := by
  simp only [reload, SessionM.bind_run, SessionM.roundTrip_run_none, SessionM.get_run, hw, hm]
  rfl

end WorkflowService

/-! ### The rows of a start -/

section rows

variable (plan : WorkflowPlan) (es : List Executed)

def needsApproval : Bool := plan.requiresHumanApproval || es.any Executed.flagged

/-- The status `gate` sets. -/
def gatedStatus (needsApproval : Bool) : WorkflowStatus :=
  if needsApproval then .awaitingApproval else .completed

def startStatus : WorkflowStatus :=
  if es.any Executed.failed then .failed else gatedStatus (needsApproval plan es)

/-- The workflow row that `start` inserts. -/
def runningRow (workflowType : WorkflowType) (inputPayload : JsonDict) (createdBy : Option Uuid)
    (id : Uuid) : Workflow :=
  { id, workflowType, status := .running, inputPayload, result := none, error := none
    requiresHumanApproval := plan.requiresHumanApproval, createdBy }

/-- The row as `start` leaves it. -/
def settledRow (w : Workflow) : Workflow :=
  { w with
    status := startStatus plan es
    result := some (es.foldl Executed.addResult .empty)
    error := (es.find? Executed.failed).bind (·.outcome.error) }

def pendingApproval (workflowId id : Uuid) : Approval :=
  { id, workflowId, kind := .approval, decision := .pending
    requiredPermission := plan.requiredPermission
    summary := some plan.rationale, decidedBy := none, decisionReason := none }

/-- The approvals `gate` opens. -/
def gatedApprovals (workflowId id : Uuid) (needsApproval : Bool) : List Approval :=
  if needsApproval then [pendingApproval plan workflowId id] else []

def startApprovals (workflowId id : Uuid) : List Approval :=
  gatedApprovals plan workflowId id (!es.any Executed.failed && needsApproval plan es)

def startEntry (workflowId : Uuid) (createdBy : Option Uuid) (requestId : Option String) :
    Uuid → AuditLog :=
  match es.find? Executed.failed with
  | some e =>
    auditEntry "workflow.failed" workflowId createdBy requestId
      (Dict.empty.set "agent" (.str e.step.agent))
  | none =>
    auditEntry (if needsApproval plan es then "workflow.awaiting_approval" else "workflow.completed")
      workflowId createdBy requestId
      (Dict.empty.set "requires_approval" (.bool (needsApproval plan es)))

/-- The tables with the workflow `w` settled, its approval and its audit entry. -/
def settledDb (svc : WorkflowService) (w : Workflow) (createdBy : Option Uuid)
    (requestId : Option String) (n : ℕ) (db : Database) : Database :=
  let approvals := startApprovals plan es w.id ⟨n⟩
  { db with
    workflows := db.workflows ++ [settledRow plan es w]
    approvals := db.approvals ++ approvals
    auditLogs := db.auditLogs ++
      svc.logged (startEntry plan es w.id createdBy requestId) (n + approvals.length) }

/-- The tables after a start that draws its ids from `n` on. -/
def startDb (svc : WorkflowService) (workflowType : WorkflowType) (inputPayload : JsonDict)
    (createdBy : Option Uuid) (requestId : Option String) (n : ℕ) (db : Database) : Database :=
  settledDb plan es svc (runningRow plan workflowType inputPayload createdBy ⟨n⟩) createdBy requestId
    (n + 1 + es.length)
    { db with
      agentRuns := db.agentRuns ++
        agentRunRows ⟨n⟩ (inputPayload.set "workflow_id" (.str (Uuid.mk n).str)) (n + 1) es }

end rows

/-- The steps that a start executes. -/
def startSteps (svc : WorkflowService) (plan : WorkflowPlan) (inputPayload : JsonDict) (n : ℕ)
    (calls : List ExecutorCall) : List Executed :=
  executedSteps svc.executor (inputPayload.set "workflow_id" (.str (Uuid.mk n).str)) calls plan.steps

section outcome
variable {plan : WorkflowPlan} {es : List Executed} (workflowId id : Uuid)

theorem any_failed_of_find? {e : Executed} (h : es.find? Executed.failed = some e) :
    es.any Executed.failed = true :=
  List.any_eq_true.2 ⟨e, List.mem_of_find?_eq_some h, List.find?_some h⟩

theorem any_failed_of_find?_none (h : es.find? Executed.failed = none) :
    es.any Executed.failed = false := by
  simpa [List.find?_eq_none] using h

theorem startStatus_of_failed (h : es.any Executed.failed = true) : startStatus plan es = .failed := by
  rw [startStatus, if_pos h]

theorem startStatus_of_not_failed (h : es.any Executed.failed = false) :
    startStatus plan es = gatedStatus (needsApproval plan es) := by
  rw [startStatus, h]; rfl

theorem startApprovals_of_failed (h : es.any Executed.failed = true) :
    startApprovals plan es workflowId id = [] := by
  rw [startApprovals, h]; rfl

theorem startApprovals_of_not_failed (h : es.any Executed.failed = false) :
    startApprovals plan es workflowId id =
      gatedApprovals plan workflowId id (needsApproval plan es) := by
  rw [startApprovals, h]; rfl

end outcome

/-! ### Ids of the rows of a start -/

theorem mem_agentRunRows {workflowId : Uuid} {payload : JsonDict} {r : AgentRun} {n : ℕ}
    {es : List Executed} (h : r ∈ agentRunRows workflowId payload n es) :
    r.id.draw < n + es.length ∧ r.workflowId = workflowId := by
  induction es generalizing n with
  | nil => simp [agentRunRows] at h
  | cons e es ih =>
    rcases List.mem_cons.1 h with rfl | h
    · exact ⟨by show n < n + (es.length + 1); omega, rfl⟩
    · obtain ⟨h1, h2⟩ := ih h
      exact ⟨by rw [List.length_cons]; omega, h2⟩

theorem mem_startApprovals {plan : WorkflowPlan} {es : List Executed} {workflowId id : Uuid}
    {a : Approval} (h : a ∈ startApprovals plan es workflowId id) :
    a = pendingApproval plan workflowId id := by
  unfold startApprovals gatedApprovals at h
  split at h
  · exact List.mem_singleton.1 h
  · simp at h

theorem WorkflowService.mem_logged {svc : WorkflowService} {entry : Uuid → AuditLog} {n : ℕ}
    {e : AuditLog} (h : e ∈ svc.logged entry n) : e = entry ⟨n⟩ := by
  unfold logged at h
  split at h
  · exact List.mem_singleton.1 h
  · simp at h

theorem startEntry_resource (plan : WorkflowPlan) (es : List Executed) (workflowId : Uuid)
    (createdBy : Option Uuid) (requestId : Option String) (id : Uuid) :
    (startEntry plan es workflowId createdBy requestId id).resourceType = "workflow" ∧
      (startEntry plan es workflowId createdBy requestId id).resourceId = some workflowId.str := by
  unfold startEntry
  cases es.find? Executed.failed <;> exact ⟨rfl, rfl⟩

theorem startEntry_id (plan : WorkflowPlan) (es : List Executed) (workflowId : Uuid) (createdBy : Option Uuid)
    (requestId : Option String) (id : Uuid) : (startEntry plan es workflowId createdBy requestId id).id = id := by
  unfold startEntry
  cases es.find? Executed.failed <;> rfl

theorem startDb_drawnBefore {db : Database} {n m : ℕ} (hdb : db.DrawnBefore n) (plan : WorkflowPlan)
    (es : List Executed) (svc : WorkflowService) (workflowType : WorkflowType)
    (inputPayload : JsonDict) (createdBy : Option Uuid) (requestId : Option String)
    (hm : n + 1 + es.length + (startApprovals plan es ⟨n⟩ ⟨n + 1 + es.length⟩).length +
      svc.auditDraws ≤ m) :
    (startDb plan es svc workflowType inputPayload createdBy requestId n db).DrawnBefore m where
  workflows w hw := by
    rcases List.mem_append.1 hw with hw | hw
    · have := hdb.workflows w hw; omega
    · rw [List.mem_singleton.1 hw]; show n < m; omega
  agentRuns r hr := by
    rcases List.mem_append.1 hr with hr | hr
    · have := hdb.agentRuns r hr; omega
    · obtain ⟨h1, h2⟩ := mem_agentRunRows hr
      rw [h2]
      exact ⟨by omega, by show n < m; omega⟩
  approvals a ha := by
    rcases List.mem_append.1 ha with ha | ha
    · have := hdb.approvals a ha; omega
    · have hlen := List.length_pos_of_mem ha
      rw [mem_startApprovals ha]
      change 0 < (startApprovals plan es ⟨n⟩ _).length at hlen
      exact ⟨by show n + 1 + es.length < m; omega, by show n < m; omega⟩
  auditLogs e he := by
    rcases List.mem_append.1 he with he | he
    · obtain ⟨hid, u, hu, h⟩ := hdb.auditLogs e he
      exact ⟨by omega, u, by omega, h⟩
    · have hlen := List.length_pos_of_mem he
      rw [WorkflowService.length_logged] at hlen
      rw [WorkflowService.mem_logged he, startEntry_id]
      exact ⟨by show n + 1 + es.length + (startApprovals plan es ⟨n⟩ ⟨n + 1 + es.length⟩).length < m; omega,
        ⟨n⟩, by show n < m; omega, (startEntry_resource ..).2⟩

/-! ### The run of a start -/

section start

variable (svc : WorkflowService) {plan : WorkflowPlan} (workflowType : WorkflowType)
  (inputPayload : JsonDict) (createdBy : Option Uuid) (requestId : Option String) {db : Database}
  {memory : Dict Uuid Loaded} {n : ℕ} {calls : List ExecutorCall}

/-- A transaction whose workflow row is the last one ends with a flush, an audit entry and a
reload. -/
theorem settle_run {workflowId : Uuid} {w : Workflow} (action : String) (actorId : Option Uuid)
    (context : JsonDict) (hw : db.workflow? workflowId = some w)
    (hm : memory.get? workflowId = none) (m : ℕ) (calls : List ExecutorCall) :
    let logs := svc.logged (auditEntry action workflowId actorId requestId context) m
    let db' := { db with auditLogs := db.auditLogs ++ logs }
    ∃ memory',
      (flush >>= fun _ => svc.maybeAudit action workflowId actorId requestId context >>= fun _ =>
        WorkflowService.reload workflowId) .none ⟨db, memory, m, calls⟩ =
      (.ok ⟨w, db'.agentRunsOf workflowId, db'.approvalsOf workflowId⟩, .none,
        ⟨db', memory', m + logs.length, calls⟩) := by
  intro logs db'
  exact ⟨_, (SessionM.bind_of_ok (SessionM.roundTrip_run_none _)).trans
    ((SessionM.bind_of_ok (svc.maybeAudit_run ..)).trans (WorkflowService.reload_run hw hm))⟩

/-- The state in which the transaction of a settled workflow ends. -/
def SettlesTo (plan : WorkflowPlan) (es : List Executed) (w : Workflow) (m : ℕ) (db : Database)
    (calls : List ExecutorCall)
    (reply : Except Exn WorkflowView × Faults Exn × Session Database (Dict Uuid Loaded) World) : Prop :=
  let approvals := startApprovals plan es w.id ⟨m⟩
  let logs := svc.logged (startEntry plan es w.id createdBy requestId) (m + approvals.length)
  let db' := settledDb plan es svc w createdBy requestId m db
  ∃ memory',
    reply = (.ok ⟨settledRow plan es w, db'.agentRunsOf w.id, db'.approvalsOf w.id⟩, .none,
      ⟨db', memory', m + approvals.length + logs.length, calls⟩)

theorem settledRow_lookup {w : Workflow} {es : List Executed}
    (hw : ∀ w' ∈ db.workflows, w'.id ≠ w.id) (approvals : List Approval) :
    ({ db with
      workflows := db.workflows ++ [settledRow plan es w]
      approvals := db.approvals ++ approvals } : Database).workflow? w.id =
      some (settledRow plan es w) := by
  rw [Database.workflow?, Table.lookup_append hw]
  simp [Table.lookup, settledRow]

variable (plan) in
theorem fail_run {w : Workflow} {es : List Executed} {e : Executed}
    (hes : es.find? Executed.failed = some e) (hw : ∀ w' ∈ db.workflows, w'.id ≠ w.id)
    (hm : memory.get? w.id = none) (m : ℕ) :
    SettlesTo svc createdBy requestId plan es w m db calls
      (svc.fail w.id createdBy requestId e.step e.outcome (es.foldl Executed.addResult .empty) .none
        ⟨db.addWorkflow w, memory, m, calls⟩) := by
  have hfailed := any_failed_of_find? hes
  have hrow : settledRow plan es w =
      { w with
        status := .failed, error := e.outcome.error
        result := some (es.foldl Executed.addResult .empty) } := by
    rw [settledRow, startStatus_of_failed hfailed, hes, Option.bind_some]
  obtain ⟨memory', h⟩ := settle_run svc requestId "workflow.failed" createdBy
    (Dict.empty.set "agent" (.str e.step.agent))
    (settledRow_lookup hw (startApprovals plan es w.id ⟨m⟩)) hm
    (m + (startApprovals plan es w.id ⟨m⟩).length) calls
  unfold SettlesTo settledDb
  rw [startEntry, hes]
  refine ⟨memory', Eq.trans ?_ h⟩
  rw [WorkflowService.fail, SessionM.bind_of_ok (SessionM.modifyDb_run ..)]
  dsimp only
  rw [Database.setWorkflow_addWorkflow hw rfl, hrow, startApprovals_of_failed _ _ hfailed,
    List.append_nil]
  rfl

theorem gate_run {w : Workflow} (hw : ∀ w' ∈ db.workflows, w'.id ≠ w.id) (needsApproval : Bool)
    (m : ℕ) :
    let approvals := gatedApprovals plan w.id ⟨m⟩ needsApproval
    WorkflowService.gate plan w.id needsApproval .none ⟨db.addWorkflow w, memory, m, calls⟩ =
      (.ok (), .none,
        ⟨{ db with
            workflows := db.workflows ++ [{ w with status := gatedStatus needsApproval }]
            approvals := db.approvals ++ approvals }, memory, m + approvals.length, calls⟩) := by
  intro approvals
  cases needsApproval with
  | true =>
    simp only [WorkflowService.gate, if_true, uuid4, SessionM.bind_run, SessionM.effect_run,
      SessionM.modifyDb_run]
    rw [Database.setWorkflow_addWorkflow hw rfl]
    rfl
  | false =>
    simp only [WorkflowService.gate, Bool.false_eq_true, if_false, SessionM.modifyDb_run]
    rw [Database.setWorkflow_addWorkflow hw rfl]
    simp [approvals, gatedApprovals, gatedStatus, Database.addWorkflow]

variable (plan) in
theorem conclude_run {w : Workflow} {es : List Executed} (hes : es.find? Executed.failed = none)
    (herror : w.error = none) (hw : ∀ w' ∈ db.workflows, w'.id ≠ w.id)
    (hm : memory.get? w.id = none) (m : ℕ) :
    SettlesTo svc createdBy requestId plan es w m db calls
      (svc.conclude plan w.id createdBy requestId (es.any Executed.flagged)
        (es.foldl Executed.addResult .empty) .none ⟨db.addWorkflow w, memory, m, calls⟩) := by
  have hfailed := any_failed_of_find?_none hes
  have hrow : settledRow plan es w =
      { w with
        status := gatedStatus (needsApproval plan es)
        result := some (es.foldl Executed.addResult .empty) } := by
    rw [settledRow, startStatus_of_not_failed hfailed, hes, Option.bind_none, ← herror]
  obtain ⟨memory', h⟩ := settle_run svc requestId
    (if needsApproval plan es then "workflow.awaiting_approval" else "workflow.completed") createdBy
    (Dict.empty.set "requires_approval" (.bool (needsApproval plan es)))
    (settledRow_lookup hw (startApprovals plan es w.id ⟨m⟩)) hm
    (m + (startApprovals plan es w.id ⟨m⟩).length) calls
  unfold SettlesTo settledDb
  rw [startEntry, hes]
  refine ⟨memory', Eq.trans ?_ h⟩
  rw [WorkflowService.conclude, SessionM.bind_of_ok (SessionM.modifyDb_run ..)]
  dsimp only
  rw [Database.setWorkflow_addWorkflow hw rfl, hrow, startApprovals_of_not_failed _ _ hfailed]
  exact SessionM.bind_of_ok (gate_run
    (w := { w with result := some (es.foldl Executed.addResult .empty) }) hw _ m)

/-- What `start` does with the way its loop ended. -/
def afterLoop (plan : WorkflowPlan) (workflowId : Uuid) :
    LoopExit → WorkflowSession WorkflowView
  | .returned view => pure view
  | .fellThrough agentFlaggedReview results =>
    svc.conclude plan workflowId createdBy requestId agentFlaggedReview results

theorem start_of_runSteps {exit : LoopExit} {s : Session Database (Dict Uuid Loaded) World}
    (hplan : (svc.orchestrator ⟨workflowType, inputPayload⟩).output = some plan)
    (hloop : svc.runSteps ⟨n⟩ createdBy requestId
      (inputPayload.set "workflow_id" (.str (Uuid.mk n).str)) plan.steps false .empty .none
      ⟨db.addWorkflow (runningRow plan workflowType inputPayload createdBy ⟨n⟩), memory, n + 1, calls⟩ =
      (.ok exit, .none, s)) :
    svc.start workflowType inputPayload createdBy requestId .none ⟨db, memory, n, calls⟩ =
      afterLoop svc createdBy requestId plan ⟨n⟩ exit .none s := by
  unfold WorkflowService.start
  rw [hplan]
  exact (SessionM.bind_of_ok rfl).trans <| (SessionM.bind_of_ok rfl).trans <|
    (SessionM.bind_of_ok rfl).trans <| (SessionM.bind_of_ok hloop).trans <| by cases exit <;> rfl

/-- Without database failures a start appends its rows and returns the workflow as committed. -/
theorem start_run (memory : Dict Uuid Loaded) (calls : List ExecutorCall)
    (hplan : (svc.orchestrator ⟨workflowType, inputPayload⟩).output = some plan)
    (hdb : db.DrawnBefore n) (hm : memory.get? ⟨n⟩ = none) :
    let es := startSteps svc plan inputPayload n calls
    let payload := inputPayload.set "workflow_id" (.str (Uuid.mk n).str)
    SettlesTo svc createdBy requestId plan es
      (runningRow plan workflowType inputPayload createdBy ⟨n⟩) (n + 1 + es.length)
      { db with agentRuns := db.agentRuns ++ agentRunRows ⟨n⟩ payload (n + 1) es }
      (calls ++ es.map (Executed.call payload))
      (svc.start workflowType inputPayload createdBy requestId .none ⟨db, memory, n, calls⟩) := by
  intro es payload
  let db₁ : Database :=
    { db with agentRuns := db.agentRuns ++ agentRunRows ⟨n⟩ payload (n + 1) es }
  have hw : ∀ w ∈ db₁.workflows, w.id ≠ ⟨n⟩ := fun w hw h => by
    have := hdb.workflows w hw
    rw [h] at this
    exact lt_irrefl _ this
  have hruns : ∀ r ∈ db.agentRuns, r.id.draw < n + 1 := fun r hr =>
    (hdb.agentRuns r hr).1.trans (Nat.lt_succ_self n)
  have hloop := runSteps_run svc ⟨n⟩ createdBy requestId payload plan.steps false .empty
    (db.addWorkflow (runningRow plan workflowType inputPayload createdBy ⟨n⟩)) memory (n + 1) calls
    hruns
  change svc.runSteps _ _ _ _ _ _ _ _ _ = loopExit svc _ _ _ _ _ es _ _ at hloop
  match hfind : es.find? Executed.failed with
  | some e =>
    rw [loopExit_of_some _ _ _ _ hfind] at hloop
    obtain ⟨memory', h⟩ := fail_run svc plan createdBy requestId
      (w := runningRow plan workflowType inputPayload createdBy ⟨n⟩) hfind hw hm (n + 1 + es.length)
    refine ⟨memory', ?_⟩
    exact start_of_runSteps svc workflowType inputPayload createdBy requestId hplan
      (hloop.trans (SessionM.bind_of_ok h))
  | none =>
    rw [loopExit_of_none _ _ _ _ hfind] at hloop
    rw [start_of_runSteps svc workflowType inputPayload createdBy requestId hplan hloop]
    exact conclude_run svc plan createdBy requestId hfind rfl hw hm (n + 1 + es.length)

end start

end BankingAi
