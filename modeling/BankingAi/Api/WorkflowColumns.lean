import BankingAi.Api.Workflows
import BankingAi.Db.Columns
import BankingAi.Lib.Constraint

/-!
# The rows of the workflow service fit their columns

Every text the workflow service writes is a constant of the program, an outcome of an agent or the
request id. So runs that differ in the request id alone agree but for the audit log, and the tables
of one fit if its request id does.
-/

namespace BankingAi

open SessionM

/-- The second session is the first with another audit log; the tables of the first fit. -/
def SameButAudit (s s' : Session Database (Dict Uuid Loaded) World) : Prop :=
  s.db.Fits ∧ ∃ logs, s' = { s with db := { s.db with auditLogs := logs } }

/-- An outcome of an agent that fits the columns of its run. -/
structure AgentOutcome.Fits (outcome : AgentOutcome AgentOutput) : Prop where
  promptVersion : Varchar 64 outcome.promptVersion
  modelUsed : Varchar 128 outcome.modelUsed

/-- A service whose plans and agents give texts that fit. -/
structure WorkflowService.Fits (svc : WorkflowService) : Prop where
  plan : ∀ payload plan, (svc.orchestrator payload).output = some plan →
    (∀ step ∈ plan.steps, step.agent.length ≤ 64) ∧ plan.requiredPermission.length ≤ 64
  outcome : ∀ earlier agentName payload outcome,
    svc.executor.runStep earlier agentName payload = .ok outcome → outcome.Fits

theorem stepOutcome_fits (agentName : String) {reply : Except Exn (AgentOutcome AgentOutput)}
    (h : ∀ outcome, reply = .ok outcome → outcome.Fits) : (stepOutcome agentName reply).Fits := by
  cases reply with
  | ok outcome => exact h outcome rfl
  | error exc => exact ⟨varchar_none, varchar_none⟩

theorem AgentRun.Fits.finish {r : AgentRun} (h : r.Fits) {outcome : AgentOutcome AgentOutput}
    (ho : outcome.Fits) : (AgentRun.finish outcome r).Fits :=
  { h with
    status := AgentRunStatus.varchar _
    promptVersion := ho.promptVersion
    modelUsed := ho.modelUsed }

section agree

variable {svc : WorkflowService} {requestId other : Option String}

theorem agree_uuid4 : Agree SameButAudit uuid4 uuid4 := by
  rintro F s _ ⟨hfits, logs, rfl⟩
  exact ⟨rfl, rfl, hfits, logs, rfl⟩

theorem agree_modifyDb {f : Database → Database} (hf : ∀ db : Database, db.Fits → (f db).Fits)
    (hlogs : ∀ db logs, ∃ logs', f { db with auditLogs := logs } = { f db with auditLogs := logs' }) :
    Agree SameButAudit (.modifyDb f : WorkflowSession Unit) (.modifyDb f) := by
  rintro F s _ ⟨hfits, logs, rfl⟩
  obtain ⟨logs', heq⟩ := hlogs s.db logs
  refine ⟨rfl, rfl, hf _ hfits, logs', ?_⟩
  rw [modifyDb_run, modifyDb_run]
  dsimp only
  rw [heq]

/-- The entries of the two may differ, if the first one fits. -/
theorem agree_record {α : Type} (a : α) {action resourceType outcome : String} {actorId : Option Uuid}
    {actorEmail resourceId : Option String} {context : JsonDict}
    (hentry : ∀ id, AuditLog.Fits ⟨id, actorId, actorEmail, action, resourceType, resourceId, outcome,
      requestId, AuditService.redact context⟩) :
    Agree SameButAudit
      (AuditService.record action resourceType outcome actorId actorEmail resourceId requestId context >>=
        fun _ => pure a)
      (AuditService.record action resourceType outcome actorId actorEmail resourceId other context >>=
        fun _ => pure a) := by
  unfold AuditService.record
  simp only [bind_assoc]
  refine agree_uuid4.bind fun id => ?_
  refine Agree.bind ?_ fun _ => Agree.roundTrip.bind fun _ => .pure a
  rintro F s _ ⟨hfits, logs, rfl⟩
  exact ⟨rfl, rfl, hfits.addAuditLog (hentry id), _, rfl⟩

variable (svc) in
theorem agree_maybeAudit {action : String} (haction : action.length ≤ 128) (hid : Varchar 64 requestId)
    (workflowId : Uuid) (actorId : Option Uuid) (context : JsonDict) :
    Agree SameButAudit (svc.maybeAudit action workflowId actorId requestId context)
      (svc.maybeAudit action workflowId actorId other context) := by
  unfold WorkflowService.maybeAudit
  split
  case isFalse => exact .pure ()
  case isTrue =>
    refine agree_record () fun id => ?_
    exact
      { actorEmail := varchar_none
        action := varchar_some.2 haction
        resourceType := varchar_some.2 (show "workflow".length ≤ 64 by decide)
        resourceId := fun t ht => by
          obtain rfl := Option.some.inj ht
          rw [idLength_str]
          omega
        outcome := varchar_some.2 (show "success".length ≤ 32 by decide)
        requestId := hid }

theorem agree_reload (workflowId : Uuid) :
    Agree SameButAudit (WorkflowService.reload workflowId) (WorkflowService.reload workflowId) := by
  refine Agree.roundTrip.bind fun _ => Agree.get_bind ?_ fun s => ?_
  · rintro s _ ⟨-, logs, rfl⟩
    rfl
  · split
    · exact .raise _
    · split
      · exact .pure _
      · refine Agree.bind ?_ fun _ => .pure _
        rintro F s _ ⟨hfits, logs, rfl⟩
        exact ⟨rfl, rfl, hfits, logs, rfl⟩

theorem agree_setWorkflow (id : Uuid) (f : Workflow → Workflow) :
    Agree SameButAudit (.modifyDb (·.setWorkflow id f) : WorkflowSession Unit) (.modifyDb (·.setWorkflow id f)) :=
  agree_modifyDb (fun _ h => h.setWorkflow id f) fun _ logs => ⟨logs, rfl⟩

theorem agree_fail (hid : Varchar 64 requestId) (workflowId : Uuid) (createdBy : Option Uuid) (step : PlanStep)
    (outcome : AgentOutcome AgentOutput) (results : JsonDict) :
    Agree SameButAudit (svc.fail workflowId createdBy requestId step outcome results)
      (svc.fail workflowId createdBy other step outcome results) :=
  have haction : "workflow.failed".length ≤ 128 := by decide
  (agree_setWorkflow _ _).bind fun _ => Agree.roundTrip.bind fun _ =>
    (agree_maybeAudit svc haction hid _ _ _).bind fun _ => agree_reload _

theorem agree_runSteps (hsvc : svc.Fits) (hid : Varchar 64 requestId) (workflowId : Uuid)
    (createdBy : Option Uuid) (stepPayload : JsonDict) {steps : List PlanStep}
    (hsteps : ∀ step ∈ steps, step.agent.length ≤ 64) (agentFlaggedReview : Bool) (results : JsonDict) :
    Agree SameButAudit
      (svc.runSteps workflowId createdBy requestId stepPayload steps agentFlaggedReview results)
      (svc.runSteps workflowId createdBy other stepPayload steps agentFlaggedReview results) := by
  induction steps generalizing agentFlaggedReview results with
  | nil => exact .pure _
  | cons step steps ih =>
    obtain ⟨hstep, hsteps⟩ := List.forall_mem_cons.1 hsteps
    refine agree_uuid4.bind fun runId => ?_
    have hrow : ∀ row : AgentRun, row.agentName = step.agent → row.status = .started →
        row.promptVersion = none → row.modelUsed = none → row.Fits := by
      rintro row hname hstatus hprompt hmodel
      exact ⟨by rw [hname]; exact varchar_some.2 hstep, AgentRunStatus.varchar _, by rw [hprompt]; exact varchar_none,
        by rw [hmodel]; exact varchar_none⟩
    refine Agree.bind (agree_modifyDb (fun db h => h.addAgentRun (hrow _ rfl rfl rfl rfl)) fun _ logs => ⟨logs, rfl⟩)
      fun _ => Agree.roundTrip.bind fun _ => ?_
    refine Agree.effect_bind ?_ fun w => ?_
    · rintro s _ ⟨hfits, logs, rfl⟩
      exact ⟨rfl, hfits, logs, rfl⟩
    -- what the executor replies fits the columns of the run
    have hreply := stepOutcome_fits step.agent (hsvc.outcome w.calls step.agent stepPayload)
    refine Agree.bind (agree_modifyDb (fun db h => h.setAgentRun runId fun r hr => hr.finish hreply)
      fun _ logs => ⟨logs, rfl⟩) fun _ => Agree.roundTrip.bind fun _ => ?_
    dsimp only
    split
    · exact (agree_fail hid _ _ _ _ _).bind fun _ => .pure _
    · exact ih hsteps _ _

theorem agree_conclude {plan : WorkflowPlan} (hplan : plan.requiredPermission.length ≤ 64)
    (hid : Varchar 64 requestId) (workflowId : Uuid) (createdBy : Option Uuid) (agentFlaggedReview : Bool)
    (results : JsonDict) :
    Agree SameButAudit (svc.conclude plan workflowId createdBy requestId agentFlaggedReview results)
      (svc.conclude plan workflowId createdBy other agentFlaggedReview results) := by
  have hgate : ∀ needsApproval, Agree SameButAudit (WorkflowService.gate plan workflowId needsApproval)
      (WorkflowService.gate plan workflowId needsApproval) := by
    intro needsApproval
    unfold WorkflowService.gate
    split
    case isTrue =>
      refine agree_uuid4.bind fun id => (agree_setWorkflow _ _).bind fun _ => ?_
      exact agree_modifyDb (fun db h => h.addApproval (Approval.fits_iff.2 hplan)) fun _ logs => ⟨logs, rfl⟩
    case isFalse => exact agree_setWorkflow _ _
  refine (agree_setWorkflow _ _).bind fun _ => (hgate _).bind fun _ => Agree.roundTrip.bind fun _ =>
    (agree_maybeAudit svc ?_ hid _ _ _).bind fun _ => agree_reload _
  split <;> decide

theorem agree_start (hsvc : svc.Fits) (hid : Varchar 64 requestId) (workflowType : WorkflowType)
    (inputPayload : JsonDict) (createdBy : Option Uuid) :
    Agree SameButAudit (svc.start workflowType inputPayload createdBy requestId)
      (svc.start workflowType inputPayload createdBy other) := by
  unfold WorkflowService.start
  cases hplan : (svc.orchestrator ⟨workflowType, inputPayload⟩).output with
  | none => exact .raise _
  | some plan =>
    obtain ⟨hsteps, hpermission⟩ := hsvc.plan _ plan hplan
    refine agree_uuid4.bind fun workflowId => ?_
    refine Agree.bind (agree_modifyDb (fun db h => h.addWorkflow _) fun _ logs => ⟨logs, rfl⟩) fun _ => ?_
    refine Agree.roundTrip.bind fun _ => (agree_runSteps hsvc hid _ _ _ hsteps _ _).bind fun exit => ?_
    cases exit with
    | returned view => exact .pure _
    | fellThrough agentFlaggedReview results => exact agree_conclude hpermission hid _ _ _ _

theorem agree_decideWrites (view : WorkflowView) (args : DecideArgs) (workflowId fresh : Uuid) :
    Agree SameButAudit (.modifyDb ((decideWrites view args).apply workflowId fresh) : WorkflowSession Unit)
      (.modifyDb ((decideWrites view args).apply workflowId fresh)) := by
  have hstatus : ∀ (db : Database) status, db.Fits → (writeStatus workflowId status db).Fits := by
    intro db status h
    cases status with
    | none => exact h
    | some status => exact h.setWorkflow workflowId _
  refine agree_modifyDb (fun db h => ?_) fun db logs => ?_
  · unfold DecideWrites.apply ApprovalWrite.apply
    split
    case h_1 id changes _ =>
      exact (hstatus db _ h).setApproval id fun a ha =>
        Approval.fits_iff.2 (show a.requiredPermission.length ≤ 64 from Approval.fits_iff.1 ha)
    case h_2 row hrow =>
      refine (hstatus db _ h).addApproval (Approval.fits_iff.2 ?_)
      unfold decideWrites at hrow
      dsimp only at hrow
      split at hrow
      case h_1 => cases hrow
      case h_2 =>
        cases hrow
        show "workflow:approve".length ≤ 64
        decide
  · unfold DecideWrites.apply ApprovalWrite.apply writeStatus
    split <;> split <;> exact ⟨logs, rfl⟩

theorem agree_decide (hid : Varchar 64 requestId) (workflowId : Uuid) (args : DecideArgs) :
    Agree SameButAudit (svc.decide workflowId { args with requestId })
      (svc.decide workflowId { args with requestId := other }) := by
  have haction : ∀ decision : ApprovalDecision, (s!"workflow.{decision.value}").length ≤ 128 := by
    intro decision
    cases decision <;> decide
  refine (agree_reload workflowId).bind fun view => ?_
  dsimp only
  split
  · exact .raise _
  · exact agree_uuid4.bind fun fresh => (agree_decideWrites view { args with requestId } workflowId fresh).bind
      fun _ => Agree.roundTrip.bind fun _ => (agree_maybeAudit svc (haction _) hid _ _ _).bind fun _ => agree_reload _

theorem agree_op (hsvc : svc.Fits) (hid : Varchar 64 requestId) (user : Uuid) (call : WorkflowCall) :
    Agree SameButAudit ((call.op user requestId).body svc) ((call.op user other).body svc) := by
  cases call with
  | start payload => exact agree_start hsvc hid _ _ _
  | decide verdict workflowId payload =>
    have hdecide : ∀ args : DecideArgs, Agree SameButAudit (svc.decide workflowId { args with requestId })
        (svc.decide workflowId { args with requestId := other }) := agree_decide hid workflowId
    cases verdict with
    | approve => exact hdecide (.approve user payload.reason none)
    | reject => exact hdecide (.reject user payload.reason none)
    | escalate => exact hdecide (.escalate user payload.reason none)

theorem agree_handle (hsvc : svc.Fits) (hid : Varchar 64 requestId) (claims : Claims) (call : WorkflowCall) :
    Agree SameButAudit (WorkflowRequest.handle svc ⟨claims, call, requestId⟩)
      (WorkflowRequest.handle svc ⟨claims, call, other⟩) := by
  rw [WorkflowRequest.handle_eq, WorkflowRequest.handle_eq]
  exact (Agree.ofExcept _).bind fun _ => (Agree.ofExcept _).bind fun user => agree_op hsvc hid user call

end agree

/-! ### What succeeds is recorded under its request id -/

/-- A computation that returns has left an audit entry with the request id. -/
def Logged {α : Type} (requestId : Option String) (m : WorkflowSession α) : Prop :=
  ∀ ⦃F s a F' s'⦄, m F s = (.ok a, F', s') → ∃ entry ∈ s'.db.auditLogs, entry.requestId = requestId

section logged

variable {svc : WorkflowService} {requestId : Option String}

theorem Logged.bind_right {α β : Type} {m : WorkflowSession α} {f : α → WorkflowSession β}
    (hf : ∀ a, Logged requestId (f a)) : Logged requestId (m >>= f) := by
  intro F s b F' s' h
  obtain ⟨a, F₁, s₁, -, h2⟩ := SessionM.bind_eq_ok h
  exact hf a h2

theorem Logged.raise {α : Type} (e : Exn) : Logged requestId (.raise e : WorkflowSession α) := by
  intro F s a F' s' h
  cases h

theorem Logged.bind_left {α β : Type} {m : WorkflowSession α} {f : α → WorkflowSession β}
    (hm : Logged requestId m) (hf : ∀ a, Leaves (fun s => s.db) (f a)) : Logged requestId (m >>= f) := by
  intro F s b F' s' h
  obtain ⟨a, F₁, s₁, h1, h2⟩ := SessionM.bind_eq_ok h
  have hleaves := hf a F₁ s₁
  rw [h2] at hleaves
  change s'.db = s₁.db at hleaves
  rw [hleaves]
  exact hm h1

theorem logged_maybeAudit (haudit : svc.audit = true) (action : String) (workflowId : Uuid)
    (actorId : Option Uuid) (context : JsonDict) :
    Logged requestId (svc.maybeAudit action workflowId actorId requestId context) := by
  unfold WorkflowService.maybeAudit AuditService.record
  rw [if_pos haudit]
  simp only [bind_assoc]
  refine Logged.bind_right fun id => ?_
  refine Logged.bind_left ?_ fun _ => Leaves.roundTrip.bind fun _ => .pure _
  intro F s a F' s' h
  cases h
  exact ⟨_, List.mem_append_right _ (List.mem_singleton_self _), rfl⟩

theorem logged_audited (haudit : svc.audit = true) (action : String) (workflowId : Uuid)
    (actorId : Option Uuid) (context : JsonDict) :
    Logged requestId (svc.maybeAudit action workflowId actorId requestId context >>= fun _ =>
      WorkflowService.reload workflowId) :=
  (logged_maybeAudit haudit action workflowId actorId context).bind_left fun _ =>
    WorkflowService.reload_leaves (fun _ _ => rfl) workflowId

theorem logged_fail (haudit : svc.audit = true) (workflowId : Uuid) (createdBy : Option Uuid) (step : PlanStep)
    (outcome : AgentOutcome AgentOutput) (results : JsonDict) :
    Logged requestId (svc.fail workflowId createdBy requestId step outcome results) :=
  .bind_right fun _ => .bind_right fun _ => logged_audited haudit _ _ _ _

theorem logged_conclude (haudit : svc.audit = true) (plan : WorkflowPlan) (workflowId : Uuid)
    (createdBy : Option Uuid) (agentFlaggedReview : Bool) (results : JsonDict) :
    Logged requestId (svc.conclude plan workflowId createdBy requestId agentFlaggedReview results) :=
  .bind_right fun _ => .bind_right fun _ => .bind_right fun _ => logged_audited haudit _ _ _ _

/-- A loop that returns early has recorded the failure. -/
theorem logged_runSteps (haudit : svc.audit = true) {workflowId : Uuid} {createdBy : Option Uuid}
    {stepPayload : JsonDict} {steps : List PlanStep} {agentFlaggedReview : Bool} {results : JsonDict}
    {F F' : Faults Exn} {s s' : Session Database (Dict Uuid Loaded) World} {view : WorkflowView}
    (h : svc.runSteps workflowId createdBy requestId stepPayload steps agentFlaggedReview results F s =
      (.ok (.returned view), F', s')) : ∃ entry ∈ s'.db.auditLogs, entry.requestId = requestId := by
  induction steps generalizing agentFlaggedReview results F s with
  | nil => cases h
  | cons step steps ih =>
    obtain ⟨_, _, _, -, h⟩ := SessionM.bind_eq_ok h
    obtain ⟨_, _, _, -, h⟩ := SessionM.bind_eq_ok h
    obtain ⟨_, _, _, -, h⟩ := SessionM.bind_eq_ok h
    obtain ⟨reply, _, _, -, h⟩ := SessionM.bind_eq_ok h
    obtain ⟨_, _, _, -, h⟩ := SessionM.bind_eq_ok h
    obtain ⟨_, _, _, -, h⟩ := SessionM.bind_eq_ok h
    dsimp only at h
    split at h
    case isTrue =>
      obtain ⟨view', F₁, s₁, hfail, hpure⟩ := SessionM.bind_eq_ok h
      cases hpure
      exact logged_fail haudit _ _ _ _ _ hfail
    case isFalse => exact ih h

theorem logged_start (haudit : svc.audit = true) (workflowType : WorkflowType) (inputPayload : JsonDict)
    (createdBy : Option Uuid) : Logged requestId (svc.start workflowType inputPayload createdBy requestId) := by
  unfold WorkflowService.start
  split
  · exact .raise _
  · refine .bind_right fun _ => .bind_right fun _ => .bind_right fun _ => ?_
    intro F s view F' s' h
    obtain ⟨exit, F₁, s₁, hloop, h⟩ := SessionM.bind_eq_ok h
    cases exit with
    | returned view' =>
      cases h
      exact logged_runSteps haudit hloop
    | fellThrough agentFlaggedReview results =>
      exact logged_conclude haudit _ _ _ _ _ h

theorem logged_decide (haudit : svc.audit = true) (workflowId : Uuid) (args : DecideArgs) :
    Logged args.requestId (svc.decide workflowId args) := by
  refine .bind_right fun view => ?_
  dsimp only
  split
  · exact .raise _
  · exact .bind_right fun _ => .bind_right fun _ => .bind_right fun _ => logged_audited haudit _ _ _ _

theorem logged_handle (haudit : svc.audit = true) (req : WorkflowRequest) :
    Logged req.requestId (req.handle svc) := by
  rw [WorkflowRequest.handle_eq]
  refine .bind_right fun _ => .bind_right fun user => ?_
  obtain ⟨claims, call, requestId⟩ := req
  cases call with
  | start payload => exact logged_start haudit _ _ _
  | decide verdict workflowId payload => cases verdict <;> exact logged_decide haudit workflowId _

end logged
end BankingAi
