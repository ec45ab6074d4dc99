import BankingAi.Services.StartOutcome
import BankingAi.Worker.Workflows

/-!
# The two runners of a workflow

The in-process runner stops after the first failed step and gates on the plan or on a flag of an
agent; the Temporal runner runs every step and reports the plan alone. Both are run against the same
outcomes of the steps, and what each shows is compared: the agents it ran, and whether a human has
to approve.
-/

namespace BankingAi.Worker

/-- An executor whose agents give the listed outcomes in turn, after `earlier` calls. -/
def scripted (earlier : ℕ) (outcome : ℕ → AgentOutcome AgentOutput) : AgentExecutor where
  builder _ := some fun calls _ => .ok (outcome (calls.length - earlier))

/-- The agents that ran, and whether a human has to approve. -/
structure Shown where
  agents : List String
  approval : Bool
deriving DecidableEq

/-- What a start through `WorkflowService` shows. -/
def inProcess (audit : Bool) (outcome : ℕ → AgentOutcome AgentOutput) (workflowType : WorkflowType)
    (payload : JsonDict) (createdBy : Option Uuid) (requestId : Option String) (db : Database) (world : World) :
    Option Shown :=
  let svc : WorkflowService :=
    ⟨scripted world.calls.length outcome, audit, (orchestratorAgent.execute · 0)⟩
  match SessionM.transact .empty (svc.start workflowType payload createdBy requestId) .none db world with
  | (.ok view, _, world') =>
    some ⟨(world'.calls.drop world.calls.length).map ExecutorCall.agentName,
      view.workflow.status = .awaitingApproval⟩
  | (.error _, _, _) => none

/-- What `BankingWorkflow.run` shows. -/
def temporal (outcome : ℕ → AgentOutcome AgentOutput) (latencyMs : ℕ) (workflowType : WorkflowType)
    (payload : JsonDict) : Option Shown :=
  match run (scripted 0 outcome) [] latencyMs workflowType payload with
  | .ok (calls, report) => some ⟨calls.map ExecutorCall.agentName, report.requiresHumanApproval⟩
  | .error _ => none

section scripted
variable {earlier : ℕ} {outcome : ℕ → AgentOutcome AgentOutput} {payload : JsonDict} {steps : List PlanStep}

/-- The steps with their outcomes, if all were run. -/
def planned (outcome : ℕ → AgentOutcome AgentOutput) : ℕ → List PlanStep → List Executed
  | _, [] => []
  | i, step :: steps => ⟨step, outcome i⟩ :: planned outcome (i + 1) steps

/-- The executed steps up to the first failure. -/
def upToFailure : List Executed → List Executed
  | [] => []
  | e :: es => if e.failed then [e] else e :: upToFailure es

theorem planned_step (i : ℕ) : (planned outcome i steps).map Executed.step = steps := by
  induction steps generalizing i with
  | nil => rfl
  | cons step steps ih => rw [planned, List.map_cons, ih]

theorem executedSteps_scripted {calls : List ExecutorCall} {i : ℕ} (h : calls.length = earlier + i) :
    executedSteps (scripted earlier outcome) payload calls steps = upToFailure (planned outcome i steps) := by
  induction steps generalizing calls i with
  | nil => rfl
  | cons step steps ih =>
    have houtcome : stepOutcome step.agent ((scripted earlier outcome).runStep calls step.agent payload) =
        outcome i := by
      show outcome (calls.length - earlier) = outcome i
      rw [h, Nat.add_sub_cancel_left]
    have hnext := @ih (calls ++ [⟨step.agent, payload⟩]) (i + 1) (by simp [h]; omega)
    rw [executedSteps_cons, planned, upToFailure]
    simp only [houtcome]
    rw [← hnext]
    rfl

theorem runActivities_scripted {calls : List ExecutorCall} {results : JsonDict} :
    ∃ results', runActivities (scripted earlier outcome) payload steps calls results =
      .ok (calls ++ steps.map fun step => ⟨step.agent, payload⟩, results') := by
  induction steps generalizing calls results with
  | nil => exact ⟨results, by simp [runActivities]⟩
  | cons step steps ih =>
    obtain ⟨results', h⟩ := @ih (calls ++ [⟨step.agent, payload⟩])
      (results.set step.agent (outcome (calls.length - earlier)).modelDump)
    refine ⟨results', ?_⟩
    rw [runActivities]
    show runActivities _ _ _ _ _ = _
    rw [h, List.append_assoc]
    rfl

theorem upToFailure_isPrefix (es : List Executed) : upToFailure es <+: es := by
  induction es with
  | nil => exact List.prefix_rfl
  | cons e es ih =>
    rw [upToFailure]
    split
    · exact ⟨es, rfl⟩
    · exact List.cons_prefix_cons.2 ⟨rfl, ih⟩

/-- All steps are run exactly when none but the last fails. -/
theorem upToFailure_eq_iff (es : List Executed) :
    upToFailure es = es ↔ ∀ e ∈ es.dropLast, e.failed = false := by
  induction es with
  | nil => simp [upToFailure]
  | cons e es ih =>
    rw [upToFailure]
    cases es with
    | nil => simp [upToFailure]
    | cons e' es =>
      rw [List.dropLast_cons_cons]
      split
      case isTrue h => simp [h]
      case isFalse h => simp [h, ih]

end scripted

/-- No step but the last fails; behind a gated plan the last does not either, and behind an ungated
one it fails or no agent asks for a review. -/
structure Aligned (plan : WorkflowPlan) (outcome : ℕ → AgentOutcome AgentOutput) : Prop where
  stops : ∀ i, i + 1 < plan.steps.length → (outcome i).status = .succeeded
  gated : plan.requiresHumanApproval = true → ∀ i < plan.steps.length, (outcome i).status = .succeeded
  ungated : plan.requiresHumanApproval = false →
    (∃ i < plan.steps.length, (outcome i).status = .failed) ∨
      ∀ i < plan.steps.length, ∀ o, (outcome i).output = some o → o.requiresHumanReview = false

section shown
variable {outcome : ℕ → AgentOutcome AgentOutput} {payload : JsonDict}

theorem planned_dropLast (i : ℕ) (steps : List PlanStep) :
    (planned outcome i steps).dropLast = planned outcome i steps.dropLast := by
  induction steps generalizing i with
  | nil => rfl
  | cons step steps ih =>
    cases steps with
    | nil => rfl
    | cons step' steps =>
      have h := ih (i + 1)
      rw [planned, List.dropLast_cons_cons, planned]
      rw [planned] at h
      rw [List.dropLast_cons_cons, h]
      rfl

theorem forall_planned {P : AgentOutcome AgentOutput → Prop} (k : ℕ) (steps : List PlanStep) :
    (∀ e ∈ planned outcome k steps, P e.outcome) ↔ ∀ i < steps.length, P (outcome (k + i)) := by
  induction steps generalizing k with
  | nil => simp [planned]
  | cons step steps ih =>
    rw [planned, List.forall_mem_cons, ih, List.length_cons]
    constructor
    · rintro ⟨hfirst, hrest⟩ i hi
      cases i with
      | zero => exact hfirst
      | succ i =>
        have := hrest i (by omega)
        rwa [Nat.add_right_comm] at this
    · intro h
      refine ⟨h 0 (by omega), fun i hi => ?_⟩
      have := h (i + 1) (by omega)
      rwa [← Nat.add_assoc, Nat.add_right_comm] at this

theorem inProcess_eq (audit : Bool) (workflowType : WorkflowType) (createdBy : Option Uuid)
    (requestId : Option String) {db : Database} {n : ℕ} (calls : List ExecutorCall) (hdb : db.DrawnBefore n) :
    let es := upToFailure (planned outcome 0 (planOf workflowType).steps)
    inProcess audit outcome workflowType payload createdBy requestId db ⟨n, calls⟩ =
      some ⟨es.map (·.step.agent), startStatus (planOf workflowType) es = .awaitingApproval⟩ := by
  intro es
  have hplan : (orchestratorAgent.execute ⟨workflowType, payload⟩ 0).output = some (planOf workflowType) :=
    orchestratorAgent_output _ 0
  obtain ⟨n', -, -, hrun⟩ := transact_start
    ⟨scripted calls.length outcome, audit, (orchestratorAgent.execute · 0)⟩ workflowType payload createdBy
    requestId calls hplan hdb
  have hes : startSteps ⟨scripted calls.length outcome, audit, (orchestratorAgent.execute · 0)⟩
      (planOf workflowType) payload n calls = es := executedSteps_scripted rfl
  rw [hes] at hrun
  unfold inProcess
  dsimp only
  rw [hrun]
  simp only [List.drop_left, List.map_map, settledRow]
  rfl

theorem temporal_eq (latencyMs : ℕ) (workflowType : WorkflowType) :
    temporal outcome latencyMs workflowType payload =
      some ⟨(planOf workflowType).steps.map PlanStep.agent, (planOf workflowType).requiresHumanApproval⟩ := by
  obtain ⟨results, h⟩ := @runActivities_scripted 0 outcome payload (planOf workflowType).steps [] .empty
  unfold temporal run
  rw [orchestratorAgent_output]
  dsimp only
  rw [h]
  simp [Except.map]

end shown

/-- Both runners finish and show the same. -/
def RunnersAgree (audit : Bool) (outcome : ℕ → AgentOutcome AgentOutput) (latencyMs : ℕ)
    (workflowType : WorkflowType) (payload : JsonDict) (createdBy : Option Uuid) (requestId : Option String)
    (db : Database) (world : World) : Prop :=
  ∃ shown, inProcess audit outcome workflowType payload createdBy requestId db world = some shown ∧
    temporal outcome latencyMs workflowType payload = some shown

section agree
variable {outcome : ℕ → AgentOutcome AgentOutput} {plan : WorkflowPlan}

/-- The in-process runner runs all agents of the plan exactly when it runs all steps. -/
theorem agents_eq_iff {es : List Executed} (hes : es.map Executed.step = plan.steps) :
    (upToFailure es).map (·.step.agent) = plan.steps.map PlanStep.agent ↔ upToFailure es = es := by
  constructor
  · intro h
    refine (upToFailure_isPrefix es).eq_of_length ?_
    have hlen := congrArg List.length h
    rw [← hes] at hlen
    simpa using hlen
  · intro h
    rw [h, ← hes, List.map_map]
    rfl

theorem startStatus_awaiting_iff {es : List Executed} :
    startStatus plan es = .awaitingApproval ↔
      (∀ e ∈ es, e.failed = false) ∧ (plan.requiresHumanApproval = true ∨ ∃ e ∈ es, e.flagged = true) := by
  by_cases hf : ∀ e ∈ es, e.failed = false
  · have hne : startStatus plan es ≠ .failed := by
      rw [ne_eq, startStatus_eq_failed]
      rintro ⟨e, he, h⟩
      rw [hf e he] at h
      cases h
    rw [startStatus_of_ne_failed hne, gatedStatus_eq_awaiting, needsApproval, Bool.or_eq_true, List.any_eq_true]
    exact (and_iff_right hf).symm
  · have hfailed : startStatus plan es = .failed := by
      rw [startStatus_eq_failed]
      push Not at hf
      obtain ⟨e, he, h⟩ := hf
      exact ⟨e, he, by simpa using h⟩
    rw [hfailed]
    exact iff_of_false (by simp) fun h => hf h.1

theorem flagged_eq_false_iff {e : Executed} :
    e.flagged = false ↔ ∀ o, e.outcome.output = some o → o.requiresHumanReview = false := by
  unfold Executed.flagged
  cases e.outcome.output <;> simp

theorem aligned_iff :
    let es := planned outcome 0 plan.steps
    (upToFailure es = es ∧ (startStatus plan es = .awaitingApproval ↔ plan.requiresHumanApproval = true)) ↔
      Aligned plan outcome := by
  intro es
  have hstops : upToFailure es = es ↔ ∀ i, i + 1 < plan.steps.length → (outcome i).status = .succeeded := by
    rw [upToFailure_eq_iff, planned_dropLast]
    simp only [Executed.failed_eq_false]
    rw [forall_planned (P := (·.status = .succeeded))]
    simp only [List.length_dropLast, Nat.zero_add, Nat.lt_sub_iff_add_lt]
  have hsucceeded : (∀ e ∈ es, e.failed = false) ↔ ∀ i < plan.steps.length, (outcome i).status = .succeeded := by
    simp only [Executed.failed_eq_false]
    rw [forall_planned (P := (·.status = .succeeded))]
    simp only [Nat.zero_add]
  have hquiet : (∀ e ∈ es, e.flagged = false) ↔
      ∀ i < plan.steps.length, ∀ o, (outcome i).output = some o → o.requiresHumanReview = false := by
    simp only [flagged_eq_false_iff]
    rw [forall_planned (P := fun o => ∀ x, o.output = some x → x.requiresHumanReview = false)]
    simp only [Nat.zero_add]
  have hfailed : (¬ ∀ e ∈ es, e.failed = false) ↔ ∃ i < plan.steps.length, (outcome i).status = .failed := by
    rw [hsucceeded]
    push Not
    refine exists_congr fun i => and_congr_right fun _ => ?_
    cases (outcome i).status <;> simp
  have hloud : (¬ ∃ e ∈ es, e.flagged = true) ↔ ∀ e ∈ es, e.flagged = false := by
    push Not
    simp
  rw [startStatus_awaiting_iff, hstops]
  cases hgate : plan.requiresHumanApproval with
  | true =>
    simp only [true_or, and_true, iff_true]
    rw [hsucceeded]
    constructor
    · rintro ⟨hs, hall⟩
      exact ⟨hs, fun _ => hall, fun h => absurd (hgate.symm.trans h) (by simp)⟩
    · intro h
      exact ⟨h.stops, h.gated hgate⟩
  | false =>
    simp only [Bool.false_eq_true, false_or, iff_false, not_and_or]
    rw [hfailed, hloud, hquiet]
    constructor
    · rintro ⟨hs, hor⟩
      exact ⟨hs, fun h => absurd (hgate.symm.trans h) (by simp), fun _ => hor⟩
    · intro h
      exact ⟨h.stops, h.ungated hgate⟩

end agree

/-- The two runners agree exactly on aligned outcomes. -/
theorem runners_agree_iff (audit : Bool) (outcome : ℕ → AgentOutcome AgentOutput) (latencyMs : ℕ)
    (workflowType : WorkflowType) (payload : JsonDict) (createdBy : Option Uuid) (requestId : Option String)
    {db : Database} {n : ℕ} (calls : List ExecutorCall) (hdb : db.DrawnBefore n) :
    RunnersAgree audit outcome latencyMs workflowType payload createdBy requestId db ⟨n, calls⟩ ↔
      Aligned (planOf workflowType) outcome := by
  have haligned := @aligned_iff outcome (planOf workflowType)
  have hsteps := @planned_step outcome (planOf workflowType).steps 0
  dsimp only at haligned
  rw [← haligned, RunnersAgree, inProcess_eq audit workflowType createdBy requestId calls hdb, temporal_eq]
  simp only [Option.some.injEq, exists_eq_left', Shown.mk.injEq]
  rw [eq_comm, agents_eq_iff hsteps]
  refine and_congr_right fun hall => ?_
  rw [hall, Bool.eq_iff_iff, decide_eq_true_iff]
  exact Iff.comm

/-- Every step succeeds, with the given `requires_human_review` in its output. -/
def successful (review : Bool) (_ : ℕ) : AgentOutcome AgentOutput where
  agentName := "agent"
  status := .succeeded
  output := some ⟨Dict.empty.set "requires_human_review" (.bool review)⟩
  error := none
  latencyMs := 0
  modelUsed := none
  promptVersion := none

theorem runners_agree_iff_loan :
    RunnersAgree true (successful true) 0 .loan .empty none none .empty ⟨0, []⟩ := by
  refine (runners_agree_iff true (successful true) 0 .loan .empty none none [] (Database.drawnBefore_empty 0)).2 ?_
  exact ⟨fun _ _ => rfl, fun _ _ _ => rfl, fun h => by cases h⟩

/-- A document that an agent wants reviewed waits for approval in one runner only. -/
theorem runners_disagree :
    inProcess true (successful true) .documentIntelligence .empty none none .empty ⟨0, []⟩ =
      some ⟨["document_agent", "summarization_agent"], true⟩ ∧
    temporal (successful true) 0 .documentIntelligence .empty =
      some ⟨["document_agent", "summarization_agent"], false⟩ := by
  constructor
  · exact (inProcess_eq true .documentIntelligence none none [] (Database.drawnBefore_empty 0)).trans
      (congrArg some (by decide +kernel))
  · exact (temporal_eq 0 .documentIntelligence).trans rfl

end BankingAi.Worker
