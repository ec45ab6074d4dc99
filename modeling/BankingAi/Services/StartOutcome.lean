import BankingAi.Services.StartSpec

/-!
# The outcome of a start

For any plan and any behaviour of the executor, `start` calls the executor along a prefix of the
plan that ends with the first failure, leaves one finished agent run for each call, and decides
between failure, approval and completion from the outcomes.
-/

namespace BankingAi

section executed

variable {ex : AgentExecutor} {payload : JsonDict} {calls : List ExecutorCall} {steps : List PlanStep}

theorem executedSteps_cons (step : PlanStep) :
    executedSteps ex payload calls (step :: steps) =
      let e : Executed := ⟨step, stepOutcome step.agent (ex.runStep calls step.agent payload)⟩
      if e.failed then [e] else e :: executedSteps ex payload (calls ++ [e.call payload]) steps := rfl

theorem executedSteps_prefix : (executedSteps ex payload calls steps).map Executed.step <+: steps := by
  induction steps generalizing calls with
  | nil => exact List.prefix_rfl
  | cons step steps ih =>
    simp only [executedSteps_cons]
    split
    · exact ⟨steps, rfl⟩
    · exact List.cons_prefix_cons.2 ⟨rfl, ih⟩

/-- Each outcome is the executor's answer after the calls before it. -/
theorem executedSteps_outcome {before after : List Executed} {e : Executed}
    (h : executedSteps ex payload calls steps = before ++ e :: after) :
    e.outcome = stepOutcome e.step.agent
      (ex.runStep (calls ++ before.map (Executed.call payload)) e.step.agent payload) := by
  induction steps generalizing calls before with
  | nil => simp [executedSteps] at h
  | cons step steps ih =>
    simp only [executedSteps_cons] at h
    cases before with
    | nil =>
      have he : e = ⟨step, stepOutcome step.agent (ex.runStep calls step.agent payload)⟩ := by
        split at h <;> exact (List.cons.inj h).1.symm
      rw [he, List.map_nil, List.append_nil]
    | cons e₀ before =>
      split at h
      case isTrue => simp at h
      case isFalse =>
        obtain ⟨rfl, hrest⟩ := List.cons.inj h
        rw [ih hrest, List.append_assoc]
        rfl

theorem executedSteps_dropLast : ∀ e ∈ (executedSteps ex payload calls steps).dropLast, e.failed = false := by
  induction steps generalizing calls with
  | nil => simp [executedSteps]
  | cons step steps ih =>
    simp only [executedSteps_cons]
    split
    case isTrue => simp
    case isFalse h =>
      intro e he
      generalize hrest : executedSteps ex payload _ steps = rest at he
      cases rest with
      | nil => simp at he
      | cons e' rest =>
        rw [List.dropLast_cons_cons] at he
        rcases List.mem_cons.1 he with rfl | he
        · simpa using h
        · exact ih e (hrest ▸ he)

theorem executedSteps_complete (h : ∀ e ∈ executedSteps ex payload calls steps, e.failed = false) :
    (executedSteps ex payload calls steps).map Executed.step = steps := by
  induction steps generalizing calls with
  | nil => rfl
  | cons step steps ih =>
    simp only [executedSteps_cons] at h ⊢
    split at h
    case isTrue hf => exact absurd (h _ List.mem_cons_self) (by simp [hf])
    case isFalse hf =>
      rw [if_neg hf, List.map_cons, ih fun e he => h e (List.mem_cons_of_mem _ he)]

end executed

/-- The dump of the last output an agent produced. -/
def lastOutput (es : List Executed) (agent : String) : Option Json :=
  es.reverse.findSome? fun e =>
    if e.step.agent = agent then e.outcome.output.map AgentOutput.modelDump else none

theorem get?_addResult (results : JsonDict) (e : Executed) (agent : String) :
    (e.addResult results).get? agent =
      (if e.step.agent = agent then e.outcome.output.map AgentOutput.modelDump else none).or
        (results.get? agent) := by
  unfold Executed.addResult addResult
  cases e.outcome.output with
  | none => simp
  | some o =>
    rw [Dict.get?_set]
    by_cases h : e.step.agent = agent
    · simp [h]
    · simp [h, Ne.symm h]

/-- The results hold the last output of each agent and nothing else. -/
theorem get?_foldl_addResult (es : List Executed) (results : JsonDict) (agent : String) :
    (es.foldl Executed.addResult results).get? agent = (lastOutput es agent).or (results.get? agent) := by
  induction es generalizing results with
  | nil => rfl
  | cons e es ih =>
    rw [List.foldl_cons, ih, get?_addResult, lastOutput, lastOutput, List.reverse_cons,
      List.findSome?_append, Option.or_assoc]
    simp

/-- The run records the outcome of its step. -/
structure AgentRun.Records (r : AgentRun) (payload : JsonDict) (e : Executed) : Prop where
  agentName : r.agentName = e.step.agent
  input : r.input = payload
  status : r.status = if e.outcome.status = .succeeded then .succeeded else .failed
  output : r.output = e.outcome.output.map AgentOutput.modelDump
  error : r.error = e.outcome.error

theorem agentRunRows_records (workflowId : Uuid) (payload : JsonDict) (n : ℕ) (es : List Executed) :
    List.Forall₂ (AgentRun.Records · payload ·) (agentRunRows workflowId payload n es) es := by
  induction es generalizing n with
  | nil => exact .nil
  | cons e es ih => exact .cons ⟨rfl, rfl, rfl, rfl, rfl⟩ (ih (n + 1))

section start

variable (svc : WorkflowService) {plan : WorkflowPlan} (workflowType : WorkflowType)
  (inputPayload : JsonDict) (createdBy : Option Uuid) (requestId : Option String) {db : Database}
  {n : ℕ} (calls : List ExecutorCall)

theorem agentRunsOf_startDb (hdb : db.DrawnBefore n) (es : List Executed) :
    (startDb plan es svc workflowType inputPayload createdBy requestId n db).agentRunsOf ⟨n⟩ =
      agentRunRows ⟨n⟩ (inputPayload.set "workflow_id" (.str (Uuid.mk n).str)) (n + 1) es := by
  -- no earlier run belongs to the new workflow
  have hold : db.agentRuns.filter (·.workflowId = ⟨n⟩) = [] := by
    refine List.filter_eq_nil_iff.2 fun r hr h => ?_
    have := (hdb.agentRuns r hr).2
    rw [of_decide_eq_true h] at this
    exact lt_irrefl _ this
  have hnew : (agentRunRows ⟨n⟩ (inputPayload.set "workflow_id" (.str (Uuid.mk n).str)) (n + 1)
      es).filter (·.workflowId = ⟨n⟩) = _ :=
    List.filter_eq_self.2 fun r hr => decide_eq_true (mem_agentRunRows hr).2
  rw [Database.agentRunsOf, startDb, settledDb, List.filter_append, hold, hnew, List.nil_append]

theorem workflow?_startDb (hdb : db.DrawnBefore n) (es : List Executed) :
    (startDb plan es svc workflowType inputPayload createdBy requestId n db).workflow? ⟨n⟩ =
      some (settledRow plan es (runningRow plan workflowType inputPayload createdBy ⟨n⟩)) :=
  settledRow_lookup (w := runningRow plan workflowType inputPayload createdBy ⟨n⟩)
    (fun w hw h => lt_irrefl n (by have := hdb.workflows w hw; rwa [h] at this))
    (startApprovals plan es ⟨n⟩ ⟨n + 1 + es.length⟩)

theorem transact_start (hplan : (svc.orchestrator ⟨workflowType, inputPayload⟩).output = some plan)
    (hdb : db.DrawnBefore n) :
    let payload := inputPayload.set "workflow_id" (.str (Uuid.mk n).str)
    let es := startSteps svc plan inputPayload n calls
    let db' := startDb plan es svc workflowType inputPayload createdBy requestId n db
    ∃ n', n < n' ∧ db'.DrawnBefore n' ∧
      SessionM.transact .empty (svc.start workflowType inputPayload createdBy requestId) .none db
          ⟨n, calls⟩ =
        (.ok ⟨settledRow plan es (runningRow plan workflowType inputPayload createdBy ⟨n⟩),
            db'.agentRunsOf ⟨n⟩, db'.approvalsOf ⟨n⟩⟩,
          db', ⟨n', calls ++ es.map (Executed.call payload)⟩) := by
  intro payload es db'
  obtain ⟨memory', h⟩ := start_run svc workflowType inputPayload createdBy requestId .empty calls hplan
    hdb rfl
  refine ⟨_, ?_, ?_, SessionM.transact_of_ok h⟩
  · omega
  · exact startDb_drawnBefore hdb _ _ _ _ _ _ _ (by rw [WorkflowService.length_logged]; exact le_rfl)

end start

/-- What a start leaves: `es` are the executed steps, `w` the committed workflow row. -/
structure StartCorrect (svc : WorkflowService) (plan : WorkflowPlan) (payload : JsonDict)
    (calls calls' : List ExecutorCall) (es : List Executed) (runs : List AgentRun) (w : Workflow) :
    Prop where
  /-- the executor is called once for each executed step, with the same payload -/
  called : calls' = calls ++ es.map fun e => ⟨e.step.agent, payload⟩
  steps : es.map Executed.step <+: plan.steps
  outcomes : ∀ before e after, es = before ++ e :: after → e.outcome = stepOutcome e.step.agent
    (svc.executor.runStep (calls ++ before.map fun e => ⟨e.step.agent, payload⟩) e.step.agent payload)
  /-- only the last executed step may have failed, and the plan stops short for nothing else -/
  stops : ∀ e ∈ es.dropLast, e.outcome.status = .succeeded
  complete : (∀ e ∈ es, e.outcome.status = .succeeded) → es.map Executed.step = plan.steps
  records : List.Forall₂ (AgentRun.Records · payload ·) runs es
  finished : ∀ r ∈ runs, r.status ≠ .started
  succeeded : ∀ r ∈ runs.dropLast, r.status = .succeeded
  failed_iff : w.status = .failed ↔ ∃ e ∈ es, e.outcome.status = .failed
  error : ∀ e ∈ es, e.outcome.status = .failed → w.error = e.outcome.error
  awaiting_iff : w.status ≠ .failed → (w.status = .awaitingApproval ↔
    plan.requiresHumanApproval = true ∨ ∃ e ∈ es, ∃ o, e.outcome.output = some o ∧ o.requiresHumanReview)
  completed_of : w.status ≠ .failed → w.status ≠ .awaitingApproval → w.status = .completed
  result : ∃ results, w.result = some results ∧ ∀ agent, results.get? agent = lastOutput es agent

theorem Executed.failed_eq_false {e : Executed} : e.failed = false ↔ e.outcome.status = .succeeded := by
  unfold failed
  cases e.outcome.status <;> simp

theorem Executed.failed_eq_true {e : Executed} : e.failed = true ↔ e.outcome.status = .failed := by
  simp [failed]

theorem needsApproval_iff {plan : WorkflowPlan} {es : List Executed} :
    needsApproval plan es = true ↔ plan.requiresHumanApproval = true ∨
      ∃ e ∈ es, ∃ o, e.outcome.output = some o ∧ o.requiresHumanReview := by
  simp [needsApproval, Executed.flagged, Option.any_eq_true]

theorem find?_failed_of_mem {es : List Executed} (hes : ∀ e ∈ es.dropLast, e.failed = false)
    {e : Executed} (he : e ∈ es) (hf : e.failed = true) : es.find? Executed.failed = some e := by
  induction es with
  | nil => simp at he
  | cons e' es ih =>
    cases es with
    | nil =>
      obtain rfl := List.mem_singleton.1 he
      simp [hf]
    | cons e'' es =>
      rw [List.dropLast_cons_cons] at hes
      have h' : e'.failed = false := hes e' List.mem_cons_self
      rcases List.mem_cons.1 he with rfl | he
      · rw [h'] at hf; cases hf
      · rw [List.find?_cons_of_neg (by simp [h'])]
        exact ih (fun x hx => hes x (List.mem_cons_of_mem _ hx)) he

theorem startStatus_eq_failed {plan : WorkflowPlan} {es : List Executed} :
    startStatus plan es = .failed ↔ ∃ e ∈ es, e.failed = true := by
  unfold startStatus gatedStatus
  split
  case isTrue h => exact iff_of_true rfl (List.any_eq_true.1 h)
  case isFalse h =>
    refine iff_of_false ?_ fun h' => h (List.any_eq_true.2 h')
    split <;> simp

theorem gatedStatus_eq_awaiting {b : Bool} : gatedStatus b = .awaitingApproval ↔ b = true := by
  cases b <;> simp [gatedStatus]

theorem startStatus_of_ne_failed {plan : WorkflowPlan} {es : List Executed}
    (h : startStatus plan es ≠ .failed) :
    startStatus plan es = gatedStatus (needsApproval plan es) := by
  refine startStatus_of_not_failed ?_
  rw [Bool.eq_false_iff]
  exact fun h' => h (startStatus_of_failed h')

theorem AgentRun.Records.succeeded {r : AgentRun} {payload : JsonDict} {e : Executed}
    (h : r.Records payload e) (he : e.failed = false) : r.status = .succeeded := by
  rw [h.status, if_pos (Executed.failed_eq_false.1 he)]

theorem AgentRun.Records.finished {r : AgentRun} {payload : JsonDict} {e : Executed}
    (h : r.Records payload e) : r.status ≠ .started := by
  rw [h.status]
  split <;> simp

/-- `start` runs the plan up to the first failure and leaves the runs, the status, the error and the
result that the outcomes call for. -/
theorem start_correct (svc : WorkflowService) {plan : WorkflowPlan} (workflowType : WorkflowType)
    (inputPayload : JsonDict) (createdBy : Option Uuid) (requestId : Option String) {db : Database}
    {n : ℕ} (calls : List ExecutorCall)
    (hplan : (svc.orchestrator ⟨workflowType, inputPayload⟩).output = some plan)
    (hdb : db.DrawnBefore n) :
    ∃ view db' world', ∃ es : List Executed,
      SessionM.transact .empty (svc.start workflowType inputPayload createdBy requestId) .none db
        ⟨n, calls⟩ = (.ok view, db', world') ∧
      db'.workflow? ⟨n⟩ = some view.workflow ∧
      StartCorrect svc plan (inputPayload.set "workflow_id" (.str (Uuid.mk n).str)) calls world'.calls es
        (db'.agentRunsOf ⟨n⟩) view.workflow := by
  obtain ⟨n', -, -, hrun⟩ := transact_start svc workflowType inputPayload createdBy requestId calls
    hplan hdb
  refine ⟨_, _, _, startSteps svc plan inputPayload n calls, hrun, workflow?_startDb svc workflowType
    inputPayload createdBy requestId hdb _, ?_⟩
  rw [agentRunsOf_startDb _ _ _ _ _ hdb]
  set es := startSteps svc plan inputPayload n calls
  have hlast : ∀ e ∈ es.dropLast, e.failed = false := executedSteps_dropLast
  have hrecords := agentRunRows_records ⟨n⟩ (inputPayload.set "workflow_id" (.str (Uuid.mk n).str))
    (n + 1) es
  exact
    { called := rfl
      steps := executedSteps_prefix
      outcomes := fun before e after h => executedSteps_outcome h
      stops := fun e he => Executed.failed_eq_false.1 (hlast e he)
      complete := fun h => executedSteps_complete fun e he => Executed.failed_eq_false.2 (h e he)
      records := hrecords
      finished := fun r hr => let ⟨_, _, h⟩ := Table.exists_of_forall₂ hrecords hr; h.finished
      succeeded := fun r hr => by
        rw [List.dropLast_eq_take, hrecords.length_eq] at hr
        obtain ⟨e, he, h⟩ := Table.exists_of_forall₂ (List.forall₂_take _ hrecords) hr
        exact h.succeeded (hlast e (by rwa [List.dropLast_eq_take]))
      failed_iff := by simp only [← Executed.failed_eq_true]; exact startStatus_eq_failed
      error := fun e he hf => by
        show (es.find? Executed.failed).bind (·.outcome.error) = _
        rw [find?_failed_of_mem hlast he (Executed.failed_eq_true.2 hf), Option.bind_some]
      awaiting_iff := fun h => by
        rw [← needsApproval_iff]
        show startStatus plan es = _ ↔ _
        rw [startStatus_of_ne_failed h]
        exact gatedStatus_eq_awaiting
      completed_of := fun h => by
        show startStatus plan es ≠ _ → startStatus plan es = _
        rw [startStatus_of_ne_failed h]
        cases needsApproval plan es <;> simp [gatedStatus]
      result := ⟨_, rfl, fun agent => by
        rw [get?_foldl_addResult, Dict.get?_empty, Option.or_none]⟩ }

/-- Agents that succeed without an output. -/
def silentExecutor : AgentExecutor where
  builder agentName := some fun _ _ =>
    .ok
      { agentName, status := .succeeded, output := none, error := none, latencyMs := 0
        modelUsed := none, promptVersion := none }

/-- The platform's orchestrator over silent agents, with an audit service. -/
def silentService : WorkflowService where
  executor := silentExecutor
  audit := true
  orchestrator := (orchestratorAgent.execute · 0)

theorem silentService_plan (payload : OrchestratorInput) :
    (silentService.orchestrator payload).output = some (planOf payload.workflowType) :=
  orchestratorAgent_output payload 0

theorem Database.drawnBefore_empty (n : ℕ) : Database.empty.DrawnBefore n where
  workflows _ hw := absurd hw List.not_mem_nil
  agentRuns _ hr := absurd hr List.not_mem_nil
  approvals _ ha := absurd ha List.not_mem_nil
  auditLogs _ he := absurd he List.not_mem_nil

theorem start_correct_kyc :
    ∃ view db' world', ∃ es : List Executed,
      SessionM.transact .empty (silentService.start .kyc .empty none none) .none .empty ⟨0, []⟩ =
        (.ok view, db', world') ∧
      db'.workflow? ⟨0⟩ = some view.workflow ∧
      StartCorrect silentService (planOf .kyc) (Dict.empty.set "workflow_id" (.str (Uuid.mk 0).str)) []
        world'.calls es (db'.agentRunsOf ⟨0⟩) view.workflow :=
  start_correct silentService .kyc .empty none none [] (silentService_plan ⟨.kyc, .empty⟩)
    (Database.drawnBefore_empty 0)

end BankingAi
