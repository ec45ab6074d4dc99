import BankingAi.Lib.Machine
import BankingAi.Review.Case
import BankingAi.Services.DecideSpec
import BankingAi.Services.StartOutcome

/-!
# Runs of the workflow service

Operations are executed one after another, each in a transaction of its own that may fail at any
round trip to the database. In every committed state the rows of each workflow represent a case
under review (`Represents`), and an operation that commits either opens a new case or is the step
`Case.decide` on one.
-/

namespace BankingAi

open Review

inductive WorkflowOp where
  | start (workflowType : WorkflowType) (inputPayload : JsonDict) (createdBy : Option Uuid)
      (requestId : Option String)
  | decide (verdict : Verdict) (workflowId decidedBy : Uuid) (reason requestId : Option String)

def WorkflowOp.body (svc : WorkflowService) : WorkflowOp → WorkflowSession WorkflowView
  | start workflowType inputPayload createdBy requestId =>
    svc.start workflowType inputPayload createdBy requestId
  | decide .approve workflowId decidedBy reason requestId =>
    svc.approve workflowId decidedBy reason requestId
  | decide .reject workflowId decidedBy reason requestId =>
    svc.reject workflowId decidedBy reason requestId
  | decide .escalate workflowId decidedBy reason requestId =>
    svc.escalate workflowId decidedBy reason requestId

/-- The committed tables and the world. -/
structure Committed where
  db : Database
  world : World

def Committed.empty : Committed := ⟨.empty, 0, []⟩

/-- One step is one operation in its own transaction, as `session_dep` gives it. -/
def workflowMachine (svc : WorkflowService) :
    Machine Committed (WorkflowOp × Faults Exn) (Except Exn WorkflowView) where
  step s i :=
    let r := SessionM.transact .empty (i.1.body svc) i.2 s.db s.world
    (r.1, ⟨r.2.1, r.2.2⟩)

/-! ### Cases and rows -/

/-- The status column of a state. -/
def Review.CaseState.status : CaseState → WorkflowStatus
  | .failed => .failed
  | .awaiting => .awaitingApproval
  | .escalated => .escalated
  | .completed => .completed
  | .rejected => .rejected

/-- The decision column of a verdict. -/
def Review.Verdict.decision : Verdict → ApprovalDecision
  | .approve => .approved
  | .reject => .rejected
  | .escalate => .escalated

/-- The action an event is recorded with. -/
def Review.Event.action : Event → String
  | .failed => "workflow.failed"
  | .completed => "workflow.completed"
  | .opened => "workflow.awaiting_approval"
  | .decided verdict => s!"workflow.{verdict.decision.value}"

/-- What approval rows and audit entries both say of a decision. -/
structure DecisionRecord where
  decision : ApprovalDecision
  actor : Option Uuid
  reason : Option Json

def Review.Decision.record (d : Decision Uuid) : DecisionRecord :=
  ⟨d.verdict.decision, some d.reviewer, some (.str (d.reason.getD ""))⟩

/-- The decision in a decided approval; a missing reason counts as the empty string. -/
def Approval.record? (a : Approval) : Option DecisionRecord :=
  if a.decision = .pending then none
  else some ⟨a.decision, a.decidedBy, some (.str (a.decisionReason.getD ""))⟩

/-- The decision in an audit entry. -/
def AuditLog.record? (e : AuditLog) : Option DecisionRecord :=
  if e.action = "workflow.approved" then some ⟨.approved, e.actorId, e.context.get? "reason"⟩
  else if e.action = "workflow.rejected" then some ⟨.rejected, e.actorId, e.context.get? "reason"⟩
  else if e.action = "workflow.escalated" then some ⟨.escalated, e.actorId, e.context.get? "reason"⟩
  else none

/-- The row of a decision. -/
structure Approval.Shows (a : Approval) (d : Decision Uuid) : Prop where
  decision : a.decision = d.verdict.decision
  decidedBy : a.decidedBy = some d.reviewer
  reason : a.decisionReason = d.reason

/-- The row is for a workflow whose plan needs no approval, and no agent asked for a review. -/
structure NeedsNoReview (svc : WorkflowService) (db : Database) (w : Workflow) : Prop where
  plan : ∃ plan, (svc.orchestrator ⟨w.workflowType, w.inputPayload⟩).output = some plan ∧
    plan.requiresHumanApproval = false
  column : w.requiresHumanApproval = false
  outputs : ∀ r ∈ db.agentRunsOf w.id, ∀ o ∈ r.output, o.flagsReview = false

/-- An approval that `start` opened demands what the plan of its workflow demands. -/
def Opened (svc : WorkflowService) (w : Workflow) (a : Approval) : Prop :=
  ∃ plan, (svc.orchestrator ⟨w.workflowType, w.inputPayload⟩).output = some plan ∧
    a.requiredPermission = plan.requiredPermission

/-- The rows of the workflow `w` are those of the case `c`. -/
structure Represents (svc : WorkflowService) (db : Database) (w : Workflow) (c : Case Uuid) : Prop where
  status : w.status = c.state.status
  pending : c.state = .awaiting →
    ∃ a, db.approvalsOf w.id = [a] ∧ a.decision = .pending ∧ a.decidedBy = none
  decided : c.state ≠ .awaiting → List.Forall₂ Approval.Shows (db.approvalsOf w.id) c.decisions
  opened : ∀ a ∈ (db.approvalsOf w.id).head?, Opened svc w a
  automatic : c = .automatic → NeedsNoReview svc db w
  actions : svc.audit = true → (db.auditOf w.id).map AuditLog.action = c.word.map Event.action
  records : svc.audit = true →
    (db.auditOf w.id).filterMap AuditLog.record? = c.decisions.map Decision.record

/-- What every committed state satisfies. -/
structure Consistent (svc : WorkflowService) (s : Committed) : Prop where
  drawn : s.db.DrawnBefore s.world.nextUuid
  workflowIds : (s.db.workflows.map Workflow.id).Nodup
  approvalIds : (s.db.approvals.map Approval.id).Nodup
  owned : ∀ a ∈ s.db.approvals, (s.db.workflow? a.workflowId).isSome
  represents : ∀ id w, s.db.workflow? id = some w → ∃ c, Represents svc s.db w c

theorem Represents.frame {svc : WorkflowService} {db db' : Database} {w : Workflow} {c : Case Uuid}
    (h : Represents svc db w c) (hruns : db'.agentRunsOf w.id = db.agentRunsOf w.id)
    (happrovals : db'.approvalsOf w.id = db.approvalsOf w.id)
    (haudit : db'.auditOf w.id = db.auditOf w.id) : Represents svc db' w c where
  status := h.status
  pending := by rw [happrovals]; exact h.pending
  decided := by rw [happrovals]; exact h.decided
  opened := by rw [happrovals]; exact h.opened
  automatic hc := let h' := h.automatic hc; ⟨h'.plan, h'.column, by rw [hruns]; exact h'.outputs⟩
  actions := by rw [haudit]; exact h.actions
  records := by rw [haudit]; exact h.records

/-! ### Starts -/

section start

variable {svc : WorkflowService} {plan : WorkflowPlan} {workflowType : WorkflowType}
  {inputPayload : JsonDict} {createdBy : Option Uuid} {requestId : Option String} {db : Database}
  {n : ℕ} {es : List Executed} {id : Uuid}

theorem Database.DrawnBefore.approvalsOf_eq_nil (h : db.DrawnBefore n) : db.approvalsOf ⟨n⟩ = [] :=
  List.filter_eq_nil_iff.2 fun a ha h' => by
    have := (h.approvals a ha).2
    rw [of_decide_eq_true h'] at this
    exact lt_irrefl _ this

theorem Database.DrawnBefore.auditOf_eq_nil (h : db.DrawnBefore n) : db.auditOf ⟨n⟩ = [] :=
  List.filter_eq_nil_iff.2 fun e he h' => by
    obtain ⟨-, u, hu, hr⟩ := h.auditLogs e he
    have h' := (of_decide_eq_true h').2
    rw [hr] at h'
    rw [Uuid.str_injective (Option.some.inj h')] at hu
    exact lt_irrefl _ hu

theorem auditOf_append_logged {entry : Uuid → AuditLog} {logs : List AuditLog} {k : Uuid}
    (hentry : ∀ i, (entry i).resourceType = "workflow" ∧ (entry i).resourceId = some k.str) (m : ℕ) :
    ({ db with auditLogs := logs ++ svc.logged entry m } : Database).auditOf id =
      ({ db with auditLogs := logs } : Database).auditOf id ++
        if id = k then svc.logged entry m else [] := by
  unfold Database.auditOf
  rw [List.filter_append]
  congr 1
  split
  case isTrue h =>
    refine List.filter_eq_self.2 fun e he => decide_eq_true ?_
    rw [WorkflowService.mem_logged he, h]
    exact hentry _
  case isFalse h =>
    refine List.filter_eq_nil_iff.2 fun e he h' => h ?_
    have h' := (of_decide_eq_true h').2
    rw [WorkflowService.mem_logged he, (hentry _).2] at h'
    exact (Uuid.str_injective (Option.some.inj h')).symm

theorem approvalsOf_startDb :
    (startDb plan es svc workflowType inputPayload createdBy requestId n db).approvalsOf id =
      db.approvalsOf id ++ if id = ⟨n⟩ then startApprovals plan es ⟨n⟩ ⟨n + 1 + es.length⟩ else [] := by
  unfold Database.approvalsOf
  show List.filter _ (db.approvals ++ startApprovals plan es ⟨n⟩ _) = _
  rw [List.filter_append]
  congr 1
  split
  case isTrue h =>
    refine List.filter_eq_self.2 fun a ha => decide_eq_true ?_
    rw [mem_startApprovals ha, h]
    rfl
  case isFalse h =>
    refine List.filter_eq_nil_iff.2 fun a ha h' => h ?_
    rw [← of_decide_eq_true h', mem_startApprovals ha]
    rfl

theorem auditOf_startDb :
    (startDb plan es svc workflowType inputPayload createdBy requestId n db).auditOf id =
      db.auditOf id ++ if id = ⟨n⟩ then
        svc.logged (startEntry plan es ⟨n⟩ createdBy requestId)
          (n + 1 + es.length + (startApprovals plan es ⟨n⟩ ⟨n + 1 + es.length⟩).length) else [] :=
  auditOf_append_logged (fun i => startEntry_resource plan es ⟨n⟩ createdBy requestId i) _

theorem agentRunsOf_startDb_of_ne (h : id ≠ ⟨n⟩) :
    (startDb plan es svc workflowType inputPayload createdBy requestId n db).agentRunsOf id =
      db.agentRunsOf id := by
  unfold Database.agentRunsOf
  show List.filter _ (db.agentRuns ++ agentRunRows ⟨n⟩ _ (n + 1) es) = _
  rw [List.filter_append]
  refine (congrArg _ (List.filter_eq_nil_iff.2 fun r hr h' => h ?_)).trans (List.append_nil _)
  rw [← of_decide_eq_true h', (mem_agentRunRows hr).2]

theorem workflow?_startDb_of_ne (h : id ≠ ⟨n⟩) :
    (startDb plan es svc workflowType inputPayload createdBy requestId n db).workflow? id =
      db.workflow? id := by
  unfold Database.workflow? Table.lookup
  show List.find? _ (db.workflows ++ [settledRow plan es _]) = _
  have : (settledRow plan es (runningRow plan workflowType inputPayload createdBy ⟨n⟩)).id ≠ id :=
    Ne.symm h
  rw [List.find?_append, List.find?_cons_of_neg (by simpa using this), List.find?_nil, Option.or_none]

end start

/-- The case a start opens. -/
def startCase (plan : WorkflowPlan) (es : List Executed) : Case Uuid :=
  if es.any Executed.failed then .failed
  else if needsApproval plan es then .review [] (by simp)
  else .automatic

section startCase

variable {svc : WorkflowService} {plan : WorkflowPlan} {es : List Executed}

theorem startStatus_eq : startStatus plan es = (startCase plan es).state.status := by
  unfold startStatus startCase gatedStatus
  split
  · rfl
  · split <;> rfl

theorem startCase_word (workflowId : Uuid) (createdBy : Option Uuid) (requestId : Option String)
    (id : Uuid) :
    (startCase plan es).word.map Event.action =
      [(startEntry plan es workflowId createdBy requestId id).action] := by
  unfold startCase startEntry
  cases h : es.find? Executed.failed with
  | some e => rw [if_pos (any_failed_of_find? h)]; rfl
  | none =>
    rw [any_failed_of_find?_none h]
    cases needsApproval plan es <;> rfl

theorem startCase_decisions : (startCase plan es).decisions = [] := by
  unfold startCase
  split
  · rfl
  · split <;> rfl

theorem startEntry_record? (workflowId : Uuid) (createdBy : Option Uuid) (requestId : Option String)
    (id : Uuid) : (startEntry plan es workflowId createdBy requestId id).record? = none := by
  unfold startEntry
  cases es.find? Executed.failed with
  | some e => rfl
  | none => cases needsApproval plan es <;> rfl

theorem startApprovals_eq (workflowId id : Uuid) :
    startApprovals plan es workflowId id =
      if (startCase plan es).state = .awaiting then [pendingApproval plan workflowId id] else [] := by
  unfold startApprovals startCase gatedApprovals
  cases es.any Executed.failed <;> cases needsApproval plan es <;> rfl

theorem startCase_eq_automatic (h : startCase plan es = .automatic) :
    plan.requiresHumanApproval = false ∧ ∀ e ∈ es, e.flagged = false := by
  have hneeds : needsApproval plan es = false := by
    unfold startCase at h
    split at h
    · cases h
    · split at h
      · cases h
      · simpa using ‹¬needsApproval plan es = true›
  rw [needsApproval, Bool.or_eq_false_iff, List.any_eq_false] at hneeds
  exact ⟨hneeds.1, fun e he => by simpa using hneeds.2 e he⟩

/-- The rows that a start appends represent the case it opens. -/
theorem start_represents {workflowType : WorkflowType} {inputPayload : JsonDict}
    {createdBy : Option Uuid} {requestId : Option String} {db : Database} {n : ℕ}
    (hplan : (svc.orchestrator ⟨workflowType, inputPayload⟩).output = some plan)
    (hdb : db.DrawnBefore n) :
    Represents svc (startDb plan es svc workflowType inputPayload createdBy requestId n db)
      (settledRow plan es (runningRow plan workflowType inputPayload createdBy ⟨n⟩))
      (startCase plan es) := by
  have happrovals : (startDb plan es svc workflowType inputPayload createdBy requestId n db).approvalsOf
      ⟨n⟩ = startApprovals plan es ⟨n⟩ ⟨n + 1 + es.length⟩ := by
    rw [approvalsOf_startDb, hdb.approvalsOf_eq_nil, if_pos rfl, List.nil_append]
  have haudit : svc.audit = true → ∃ m,
      (startDb plan es svc workflowType inputPayload createdBy requestId n db).auditOf ⟨n⟩ =
        [startEntry plan es ⟨n⟩ createdBy requestId m] := fun h => by
    rw [auditOf_startDb, hdb.auditOf_eq_nil, if_pos rfl, List.nil_append, WorkflowService.logged, if_pos h]
    exact ⟨_, rfl⟩
  exact
    { status := startStatus_eq
      pending := fun h => ⟨_, by
        rw [show (settledRow plan es _).id = ⟨n⟩ from rfl, happrovals, startApprovals_eq, if_pos h],
        rfl, rfl⟩
      decided := fun h => by
        rw [show (settledRow plan es _).id = ⟨n⟩ from rfl, happrovals, startApprovals_eq, if_neg h,
          startCase_decisions]
        exact .nil
      opened := fun a ha => by
        rw [show (settledRow plan es _).id = ⟨n⟩ from rfl, happrovals] at ha
        rw [mem_startApprovals (List.mem_of_head? ha)]
        exact ⟨plan, hplan, rfl⟩
      automatic := fun h =>
        { plan := ⟨plan, hplan, (startCase_eq_automatic h).1⟩
          column := (startCase_eq_automatic h).1
          outputs := fun r hr o ho => by
            rw [show (settledRow plan es _).id = ⟨n⟩ from rfl, agentRunsOf_startDb _ _ _ _ _ hdb] at hr
            obtain ⟨e, he, hrec⟩ := Table.exists_of_forall₂ (agentRunRows_records ..) hr
            rw [hrec.output] at ho
            obtain ⟨out, hout, rfl⟩ := Option.map_eq_some_iff.1 ho
            have := (startCase_eq_automatic h).2 e he
            rw [Executed.flagged, hout] at this
            exact this }
      actions := fun h => by
        obtain ⟨m, hm⟩ := haudit h
        rw [show (settledRow plan es _).id = ⟨n⟩ from rfl, hm, startCase_word ⟨n⟩ createdBy requestId m]
        rfl
      records := fun h => by
        obtain ⟨m, hm⟩ := haudit h
        rw [show (settledRow plan es _).id = ⟨n⟩ from rfl, hm, List.filterMap_cons, startEntry_record?,
          startCase_decisions]
        rfl }

end startCase

/-! ### Decisions -/

def DecideArgs.ofVerdict (verdict : Verdict) (decidedBy : Uuid) (reason requestId : Option String) :
    DecideArgs :=
  match verdict with
  | .approve => .approve decidedBy reason requestId
  | .reject => .reject decidedBy reason requestId
  | .escalate => .escalate decidedBy reason requestId

section decide

variable (svc : WorkflowService) (verdict : Verdict) (decidedBy : Uuid)
  (reason requestId : Option String)

theorem body_decide (workflowId : Uuid) :
    (WorkflowOp.decide verdict workflowId decidedBy reason requestId).body svc =
      svc.decide workflowId (.ofVerdict verdict decidedBy reason requestId) := by
  cases verdict <;> rfl

theorem ofVerdict_finalStatus :
    (DecideArgs.ofVerdict verdict decidedBy reason requestId).finalStatus = verdict.state.status := by
  cases verdict <;> rfl

theorem ofVerdict_shows (a : Approval) :
    (a.decided (.ofVerdict verdict decidedBy reason requestId)).Shows ⟨verdict, decidedBy, reason⟩ := by
  cases verdict <;> exact ⟨rfl, rfl, rfl⟩

theorem newApproval_shows (workflowId id : Uuid) :
    (newApproval workflowId (.ofVerdict verdict decidedBy reason requestId) id).Shows
      ⟨verdict, decidedBy, reason⟩ := by
  cases verdict <;> exact ⟨rfl, rfl, rfl⟩

theorem decideEntry_action (workflowId id : Uuid) :
    (decideEntry workflowId (.ofVerdict verdict decidedBy reason requestId) id).action =
      (Event.decided verdict).action := by
  cases verdict <;> rfl

theorem redact_reasonContext :
    (AuditService.redact (reasonContext reason)).get? "reason" = some (.str (reason.getD "")) := by
  have : AuditService.lowerKey "reason" ∉ AuditService.sensitiveKeys := by decide
  rw [AuditService.redact, Dict.get?_mapValues, reasonContext, Dict.get?_set_self, Option.map_some,
    if_neg this]

theorem decideEntry_record? (workflowId id : Uuid) :
    (decideEntry workflowId (.ofVerdict verdict decidedBy reason requestId) id).record? =
      some (Decision.record ⟨verdict, decidedBy, reason⟩) := by
  have hreason := redact_reasonContext reason
  cases verdict <;> exact congrArg (fun r => some (DecisionRecord.mk _ _ r)) hreason

end decide

theorem status_decidable {c : Case Uuid} : c.state.status ∈ decidable ↔ c.Open := by
  rw [Case.open_iff]
  cases c.state <;> simp [CaseState.status, decidable]

theorem Approval.Shows.ne_pending {a : Approval} {d : Decision Uuid} (h : a.Shows d) :
    a.decision ≠ .pending := by
  rw [h.decision]
  cases d.verdict <;> simp [Verdict.decision]

section decided

variable {svc : WorkflowService} {db : Database} {w : Workflow} {args : DecideArgs} {n : ℕ} {id : Uuid}

theorem approvalsOf_decideDb (hids : (db.approvals.map Approval.id).Nodup) :
    (decideDb svc w args n db).approvalsOf id =
      if id = w.id then decidedApprovals w.id args ⟨n⟩ (db.approvalsOf w.id) else db.approvalsOf id :=
  approvalsOf_apply hids rfl rfl id

theorem agentRunsOf_decideDb : (decideDb svc w args n db).agentRunsOf id = db.agentRunsOf id :=
  congrArg (List.filter _) agentRuns_apply

theorem auditOf_decideDb :
    (decideDb svc w args n db).auditOf id =
      db.auditOf id ++ if id = w.id then svc.logged (decideEntry w.id args) (n + 1) else [] := by
  unfold decideDb commitDecision
  rw [auditOf_append_logged fun i => ⟨rfl, rfl⟩]
  unfold Database.auditOf
  rw [auditLogs_apply]

theorem Represents.exists_head? {c : Case Uuid} (h : Represents svc db w c) (hopen : c.Open) :
    ∃ a, (db.approvalsOf w.id).head? = some a := by
  rcases Case.open_iff.1 hopen with hs | hs
  · obtain ⟨a, ha, -⟩ := h.pending hs
    exact ⟨a, by rw [ha]; rfl⟩
  · obtain ⟨ds, d, heq, -⟩ := Case.decisions_eq_concat (v := .escalate) hs (by rintro rfl; cases hs)
    have hlen := (h.decided (by rw [hs]; simp)).length_eq
    rw [heq, List.length_append, List.length_singleton] at hlen
    cases hrows : db.approvalsOf w.id with
    | nil => rw [hrows, List.length_nil] at hlen; omega
    | cons a rows => exact ⟨a, rfl⟩

theorem Represents.head?_decidedApprovals {c : Case Uuid} (h : Represents svc db w c) (hopen : c.Open)
    {a : Approval} (ha : a ∈ (decidedApprovals w.id args ⟨n⟩ (db.approvalsOf w.id)).head?) :
    ∃ b ∈ (db.approvalsOf w.id).head?, a.requiredPermission = b.requiredPermission := by
  rcases Case.open_iff.1 hopen with hs | hs
  · obtain ⟨b, hb, hp, -⟩ := h.pending hs
    rw [hb, decidedApprovals_pending hp] at ha
    obtain rfl := Option.some.inj ha
    exact ⟨b, by rw [hb]; rfl, rfl⟩
  · rw [decidedApprovals_of_none fun a ha => by
      obtain ⟨d, -, hd⟩ := Table.exists_of_forall₂ (h.decided (by rw [hs]; simp)) ha
      exact hd.ne_pending] at ha
    obtain ⟨b, hb⟩ := h.exists_head? hopen
    rw [List.head?_append, hb, Option.some_or] at ha
    exact ⟨b, hb, by rw [Option.some.inj ha]⟩

/-- A decision on an open case is the step of the case. -/
theorem decide_represents {c : Case Uuid} (h : Represents svc db w c)
    (hids : (db.approvals.map Approval.id).Nodup) (hopen : c.Open) (verdict : Verdict)
    (decidedBy : Uuid) (reason requestId : Option String) :
    let args := DecideArgs.ofVerdict verdict decidedBy reason requestId
    Represents svc (decideDb svc w args n db) { w with status := args.finalStatus }
      (c.decide hopen ⟨verdict, decidedBy, reason⟩) := by
  intro args
  have hstate := Case.state_decide hopen (⟨verdict, decidedBy, reason⟩ : Decision Uuid)
  have hne : (c.decide hopen ⟨verdict, decidedBy, reason⟩).state ≠ .awaiting := by
    rw [hstate]
    cases verdict <;> simp [Verdict.state]
  have haudit : svc.audit = true → (decideDb svc w args n db).auditOf w.id =
      db.auditOf w.id ++ [decideEntry w.id args ⟨n + 1⟩] := fun ha => by
    rw [auditOf_decideDb, if_pos rfl, WorkflowService.logged, if_pos ha]
  exact
    { status := by rw [hstate]; exact ofVerdict_finalStatus ..
      pending := fun h' => absurd h' hne
      decided := fun _ => by
        rw [show ({ w with status := args.finalStatus } : Workflow).id = w.id from rfl,
          approvalsOf_decideDb hids, if_pos rfl, Case.decisions_decide]
        by_cases hc : c.state = .awaiting
        -- the pending row is decided
        · obtain ⟨a, ha, hp, -⟩ := h.pending hc
          rw [ha, decidedApprovals_pending hp, Case.decisions_of_awaiting hc]
          exact .cons (ofVerdict_shows ..) .nil
        -- every row is decided, so a row is added
        · have hrows := h.decided hc
          rw [decidedApprovals_of_none fun a ha => by
            obtain ⟨d, -, hd⟩ := Table.exists_of_forall₂ hrows ha
            exact hd.ne_pending]
          exact List.rel_append hrows (.cons (newApproval_shows ..) .nil)
      opened := fun a ha => by
        rw [show ({ w with status := args.finalStatus } : Workflow).id = w.id from rfl,
          approvalsOf_decideDb hids, if_pos rfl] at ha
        obtain ⟨b, hb, heq⟩ := h.head?_decidedApprovals hopen ha
        obtain ⟨plan, hplan, hperm⟩ := h.opened b hb
        exact ⟨plan, hplan, heq.trans hperm⟩
      automatic := fun h' => by
        cases c with
        | review ds legal => cases h'
        | failed => exact hopen.elim
        | automatic => exact hopen.elim
      actions := fun ha => by
        rw [show ({ w with status := args.finalStatus } : Workflow).id = w.id from rfl, haudit ha,
          List.map_append, h.actions ha, Case.word_decide, List.map_append]
        exact congrArg (_ ++ [·]) (decideEntry_action ..)
      records := fun ha => by
        rw [show ({ w with status := args.finalStatus } : Workflow).id = w.id from rfl, haudit ha,
          List.filterMap_append, h.records ha, Case.decisions_decide, List.map_append,
          List.filterMap_cons, decideEntry_record?]
        rfl }

end decided

theorem decideDb_drawnBefore {svc : WorkflowService} {db : Database} {w : Workflow}
    (args : DecideArgs) {n m : ℕ} (hdb : db.DrawnBefore n) (hw : db.workflow? w.id = some w)
    (hm : n + 1 + svc.auditDraws ≤ m) : (decideDb svc w args n db).DrawnBefore m where
  workflows w' hw' := by
    have hids : (decideDb svc w args n db).workflows.map Workflow.id = db.workflows.map Workflow.id := by
      unfold decideDb commitDecision
      dsimp only
      rw [workflows_apply, ids_writeStatus]
    have hmem := List.mem_map_of_mem (f := Workflow.id) hw'
    rw [hids] at hmem
    obtain ⟨w₀, hw₀, heq⟩ := List.mem_map.1 hmem
    rw [← heq]
    exact (hdb.workflows w₀ hw₀).trans (by omega)
  agentRuns r hr := by
    have hr : r ∈ ((decideWrites _ args).apply w.id ⟨n⟩ db).agentRuns := hr
    rw [agentRuns_apply] at hr
    have := hdb.agentRuns r hr
    omega
  approvals a ha := by
    have hwid := hdb.workflows w (Table.lookup_eq_some hw).1
    rcases mem_approvals_apply ha with ⟨h, -⟩ | ⟨p, -, b, hb, -, rfl⟩ | ⟨-, rfl⟩
    · have := hdb.approvals a h
      omega
    · have := hdb.approvals b hb
      exact ⟨this.1.trans (by omega), this.2.trans (by omega)⟩
    · exact ⟨by show n < m; omega, hwid.trans (by omega)⟩
  auditLogs e he := by
    have hwid := hdb.workflows w (Table.lookup_eq_some hw).1
    rcases List.mem_append.1 he with he | he
    · rw [auditLogs_apply] at he
      obtain ⟨hid, u, hu, h⟩ := hdb.auditLogs e he
      exact ⟨by omega, u, by omega, h⟩
    · have hlen := List.length_pos_of_mem he
      rw [WorkflowService.length_logged] at hlen
      rw [WorkflowService.mem_logged he]
      exact ⟨by show n + 1 < m; omega, w.id, hwid.trans (by omega), rfl⟩

/-! ### Every operation keeps the committed state consistent -/

theorem body_rule {P : ∀ ⦃α : Type⦄, WorkflowSession α → Prop} (rule : SessionM.Rule P)
    (huuid : P uuid4) (svc : WorkflowService) (hcall : ∀ name payload, P (svc.runStep name payload))
    (op : WorkflowOp) : P (op.body svc) := by
  cases op with
  | start => exact WorkflowService.start_rule rule huuid svc hcall ..
  | decide =>
    rw [body_decide]
    exact WorkflowService.decide_rule rule huuid svc ..

theorem body_robust (svc : WorkflowService) (op : WorkflowOp) : SessionM.Robust (op.body svc) :=
  body_rule SessionM.robust_rule (.effect _) svc (fun _ _ => .effect _) op

theorem body_later (svc : WorkflowService) (op : WorkflowOp) :
    SessionM.Keeps World.Later (op.body svc) :=
  body_rule SessionM.keeps_rule uuid4_later svc (runStep_later svc) op

section step

variable {svc : WorkflowService}

theorem transact_start_ok {workflowType : WorkflowType} {inputPayload : JsonDict}
    {createdBy : Option Uuid} {requestId : Option String} {F : Faults Exn} {db : Database} {n : ℕ}
    {calls : List ExecutorCall} {view : WorkflowView} (hdb : db.DrawnBefore n)
    (h : (SessionM.transact .empty (svc.start workflowType inputPayload createdBy requestId) F db
      ⟨n, calls⟩).1 = .ok view) :
    ∃ plan n' calls', (svc.orchestrator ⟨workflowType, inputPayload⟩).output = some plan ∧
      (startDb plan (startSteps svc plan inputPayload n calls) svc workflowType inputPayload createdBy
        requestId n db).DrawnBefore n' ∧
      (SessionM.transact .empty (svc.start workflowType inputPayload createdBy requestId) F db
        ⟨n, calls⟩).2 =
        (startDb plan (startSteps svc plan inputPayload n calls) svc workflowType inputPayload
          createdBy requestId n db, ⟨n', calls'⟩) := by
  obtain ⟨s, hrun, heq⟩ := SessionM.transact_ok
    (body_robust svc (.start workflowType inputPayload createdBy requestId)) h
  cases hplan : (svc.orchestrator ⟨workflowType, inputPayload⟩).output with
  | none =>
    have herr : svc.start workflowType inputPayload createdBy requestId =
        .raise (.other "AssertionError" "") := by
      rw [WorkflowService.start, hplan]
    have hrun : svc.start workflowType inputPayload createdBy requestId .none _ = _ := hrun
    rw [herr] at hrun
    cases hrun
  | some plan =>
    obtain ⟨n', -, hdrawn, hok⟩ := transact_start svc workflowType inputPayload createdBy requestId calls
      hplan hdb
    have hsame := (SessionM.transact_of_ok hrun).symm.trans hok
    exact ⟨plan, n', _, rfl, hdrawn, heq.trans (congrArg Prod.snd hsame)⟩

theorem consistent_start {s : Committed} (h : Consistent svc s) {plan : WorkflowPlan}
    {workflowType : WorkflowType} {inputPayload : JsonDict} {createdBy : Option Uuid}
    {requestId : Option String} {es : List Executed} {n' : ℕ} {calls' : List ExecutorCall}
    (hplan : (svc.orchestrator ⟨workflowType, inputPayload⟩).output = some plan)
    (hdrawn : (startDb plan es svc workflowType inputPayload createdBy requestId s.world.nextUuid
      s.db).DrawnBefore n') :
    Consistent svc
      ⟨startDb plan es svc workflowType inputPayload createdBy requestId s.world.nextUuid s.db,
        n', calls'⟩ where
  drawn := hdrawn
  workflowIds := by
    show ((s.db.workflows ++ [settledRow plan es _]).map Workflow.id).Nodup
    rw [List.map_append]
    refine List.nodup_append.2 ⟨h.workflowIds, List.nodup_singleton _, fun a ha b hb => ?_⟩
    obtain ⟨w, hw, rfl⟩ := List.mem_map.1 ha
    rw [List.mem_singleton.1 hb]
    exact fun h' => lt_irrefl s.world.nextUuid (by have := h.drawn.workflows w hw; rwa [h'] at this)
  approvalIds := by
    show ((s.db.approvals ++ startApprovals plan es ⟨s.world.nextUuid⟩ _).map Approval.id).Nodup
    rw [List.map_append]
    refine List.nodup_append.2 ⟨h.approvalIds, ?_, fun a ha b hb => ?_⟩
    · rw [startApprovals_eq]
      split <;> simp
    · obtain ⟨x, hx, rfl⟩ := List.mem_map.1 ha
      obtain ⟨y, hy, rfl⟩ := List.mem_map.1 hb
      rw [mem_startApprovals hy]
      intro h'
      have := (h.drawn.approvals x hx).1
      rw [h'] at this
      change s.world.nextUuid + 1 + es.length < s.world.nextUuid at this
      omega
  owned a ha := by
    by_cases hid : a.workflowId = ⟨s.world.nextUuid⟩
    · rw [hid, workflow?_startDb _ _ _ _ _ h.drawn]
      rfl
    · rw [workflow?_startDb_of_ne hid]
      rcases List.mem_append.1 ha with ha | ha
      · exact h.owned a ha
      · exact absurd (by rw [mem_startApprovals ha]; rfl) hid
  represents id w hw := by
    by_cases hid : id = ⟨s.world.nextUuid⟩
    · rw [hid, workflow?_startDb _ _ _ _ _ h.drawn] at hw
      exact ⟨_, Option.some.inj hw ▸ start_represents hplan h.drawn⟩
    · rw [workflow?_startDb_of_ne hid] at hw
      obtain ⟨c, hc⟩ := h.represents id w hw
      obtain rfl := (Table.lookup_eq_some hw).2
      exact ⟨c, hc.frame (agentRunsOf_startDb_of_ne hid)
        (by rw [approvalsOf_startDb, if_neg hid, List.append_nil])
        (by rw [auditOf_startDb, if_neg hid, List.append_nil])⟩

theorem consistent_decide {s : Committed} (h : Consistent svc s) {w : Workflow} {n' : ℕ}
    {calls' : List ExecutorCall} (hw : s.db.workflow? w.id = some w) (hst : w.status ∈ decidable)
    (hn : s.world.nextUuid + 1 + svc.auditDraws ≤ n') (verdict : Verdict) (decidedBy : Uuid)
    (reason requestId : Option String) :
    Consistent svc
      ⟨decideDb svc w (.ofVerdict verdict decidedBy reason requestId) s.world.nextUuid s.db, n',
        calls'⟩ where
  drawn := decideDb_drawnBefore _ h.drawn hw hn
  workflowIds := by
    show (List.map Workflow.id (DecideWrites.apply _ w.id ⟨s.world.nextUuid⟩ s.db).workflows).Nodup
    rw [workflows_apply, ids_writeStatus]
    exact h.workflowIds
  approvalIds := by
    rcases ids_approvals_apply s.db ⟨w, s.db.agentRunsOf w.id, s.db.approvalsOf w.id⟩
      (.ofVerdict verdict decidedBy reason requestId) w.id ⟨s.world.nextUuid⟩ with heq | heq
    · exact heq ▸ h.approvalIds
    · refine heq ▸ List.nodup_append.2 ⟨h.approvalIds, List.nodup_singleton _, fun a ha b hb => ?_⟩
      obtain ⟨x, hx, rfl⟩ := List.mem_map.1 ha
      rw [List.mem_singleton.1 hb]
      intro h'
      have := (h.drawn.approvals x hx).1
      rw [h'] at this
      exact lt_irrefl _ this
  owned a ha := by
    have hsome : ∀ id, (s.db.workflow? id).isSome → ((decideDb svc w
        (.ofVerdict verdict decidedBy reason requestId) s.world.nextUuid s.db).workflow? id).isSome := by
      intro id hid
      rw [workflow?_decideDb _ _ _ hw]
      split
      · rfl
      · exact hid
    rcases mem_approvals_apply ha with ⟨ha, -⟩ | ⟨p, -, b, hb, -, rfl⟩ | ⟨-, rfl⟩
    · exact hsome _ (h.owned a ha)
    · exact hsome _ (h.owned b hb)
    · exact hsome w.id (by rw [hw]; rfl)
  represents id w' hw' := by
    have hw' : (decideDb ..).workflow? id = some w' := hw'
    rw [workflow?_decideDb _ _ _ hw] at hw'
    by_cases hid : id = w.id
    · rw [if_pos hid] at hw'
      obtain ⟨c, hc⟩ := h.represents w.id w hw
      have hopen : c.Open := status_decidable.1 (hc.status ▸ hst)
      rw [← Option.some.inj hw']
      exact ⟨_, decide_represents hc h.approvalIds hopen verdict decidedBy reason requestId⟩
    · rw [if_neg hid] at hw'
      obtain ⟨c, hc⟩ := h.represents id w' hw'
      obtain rfl := (Table.lookup_eq_some hw').2
      exact ⟨c, hc.frame agentRunsOf_decideDb (by rw [approvalsOf_decideDb h.approvalIds, if_neg hid])
        (by rw [auditOf_decideDb, if_neg hid, List.append_nil])⟩

theorem consistent_empty : Consistent svc .empty where
  drawn := Database.drawnBefore_empty 0
  workflowIds := List.nodup_nil
  approvalIds := List.nodup_nil
  owned a ha := absurd ha List.not_mem_nil
  represents id w hw := by cases hw

theorem step_error {s : Committed} {i : WorkflowOp × Faults Exn} {e : Exn}
    (h : ((workflowMachine svc).step s i).1 = .error e) : ((workflowMachine svc).next s i).db = s.db :=
  SessionM.transact_error h

theorem consistent_next {s : Committed} (h : Consistent svc s) (i : WorkflowOp × Faults Exn) :
    Consistent svc ((workflowMachine svc).next s i) := by
  obtain ⟨op, F⟩ := i
  cases hr : ((workflowMachine svc).step s (op, F)).1 with
  | error e =>
    have hdb := step_error hr
    have hlater : s.world.nextUuid ≤ ((workflowMachine svc).next s (op, F)).world.nextUuid :=
      SessionM.transact_keeps (body_later svc op)
    exact
      { drawn := hdb ▸ h.drawn.mono hlater
        workflowIds := hdb ▸ h.workflowIds
        approvalIds := hdb ▸ h.approvalIds
        owned := hdb ▸ h.owned
        represents := hdb ▸ h.represents }
  | ok view =>
    cases op with
    | start workflowType inputPayload createdBy requestId =>
      obtain ⟨plan, n', calls', hplan, hdrawn, heq⟩ := transact_start_ok h.drawn hr
      have hnext : (workflowMachine svc).next s (.start workflowType inputPayload createdBy requestId, F) =
          ⟨_, n', calls'⟩ := congrArg (fun p : Database × World => Committed.mk p.1 p.2) heq
      rw [hnext]
      exact consistent_start h hplan hdrawn
    | decide verdict workflowId decidedBy reason requestId =>
      obtain ⟨w, n', hw, rfl, hst, hn, -, heq⟩ := transact_decide_ok svc _ _ _
        (by rw [← body_decide]; exact hr)
      rw [← body_decide] at heq
      have hnext : (workflowMachine svc).next s (.decide verdict w.id decidedBy reason requestId, F) =
          ⟨_, n', _⟩ := congrArg (fun p : Database × World => Committed.mk p.1 p.2) heq
      rw [hnext]
      exact consistent_decide h hw hst hn verdict decidedBy reason requestId

variable (svc) in
theorem consistent_run (is : List (WorkflowOp × Faults Exn)) :
    Consistent svc ((workflowMachine svc).run .empty is) :=
  Machine.run_invariant (I := Consistent svc) (fun _ i h => consistent_next h i) consistent_empty is

end step

end BankingAi
