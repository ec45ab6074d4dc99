import BankingAi.Services.StartSpec

/-!
# What `decide` does

On a workflow that is not awaiting a decision `decide` raises. Otherwise the writes of
`decideWrites` reach the tables, with an audit entry (`decide_run`). Both `start` and `decide` are
robust: what they return under database failures is what they return without.
-/

namespace BankingAi

/-! ### Properties of all computations -/

section rule

open SessionM (Rule)

variable {P : ∀ ⦃α : Type⦄, WorkflowSession α → Prop} (rule : Rule P) (huuid : P uuid4)
  (svc : WorkflowService)

include rule huuid

theorem record_rule (action resourceType outcome : String) (actorId : Option Uuid)
    (actorEmail resourceId requestId : Option String) (context : JsonDict) :
    P (AuditService.record action resourceType outcome actorId actorEmail resourceId requestId
      context) :=
  rule.bind huuid fun _ => rule.bind (rule.modifyDb _) fun _ => rule.bind rule.roundTrip fun _ =>
    rule.pure _

namespace WorkflowService

theorem maybeAudit_rule (action : String) (workflowId : Uuid) (actorId : Option Uuid)
    (requestId : Option String) (context : JsonDict) :
    P (svc.maybeAudit action workflowId actorId requestId context) := by
  unfold maybeAudit
  split
  · exact rule.bind (record_rule rule huuid ..) fun _ => rule.pure _
  · exact rule.pure _

omit huuid in
theorem reload_rule (workflowId : Uuid) : P (reload workflowId) := by
  refine rule.bind rule.roundTrip fun _ => rule.bind rule.get fun s => ?_
  split
  · exact rule.raise _
  · split
    · exact rule.pure _
    · exact rule.bind (rule.modifyMemory _) fun _ => rule.pure _

omit rule huuid in
theorem reload_leaves {ν : Type} {π : Session Database (Dict Uuid Loaded) World → ν}
    (hπ : ∀ s memory, π { s with memory } = π s) (workflowId : Uuid) :
    SessionM.Leaves π (reload workflowId) := by
  refine SessionM.Leaves.roundTrip.bind fun _ => SessionM.Leaves.get.bind fun s => ?_
  split
  · exact .raise _
  · split
    · exact .pure _
    · exact (SessionM.Leaves.modifyMemory fun s => hπ s _).bind fun _ => .pure _

theorem fail_rule (workflowId : Uuid) (createdBy : Option Uuid) (requestId : Option String)
    (step : PlanStep) (outcome : AgentOutcome AgentOutput) (results : JsonDict) :
    P (svc.fail workflowId createdBy requestId step outcome results) :=
  rule.bind (rule.modifyDb _) fun _ => rule.bind rule.roundTrip fun _ =>
    rule.bind (maybeAudit_rule rule huuid svc ..) fun _ => reload_rule rule _

theorem runSteps_rule (hcall : ∀ name payload, P (svc.runStep name payload)) (workflowId : Uuid)
    (createdBy : Option Uuid) (requestId : Option String) (stepPayload : JsonDict)
    (steps : List PlanStep) (agentFlaggedReview : Bool) (results : JsonDict) :
    P (svc.runSteps workflowId createdBy requestId stepPayload steps agentFlaggedReview results) := by
  induction steps generalizing agentFlaggedReview results with
  | nil => exact rule.pure _
  | cons step steps ih =>
    refine rule.bind huuid fun _ => rule.bind (rule.modifyDb _) fun _ =>
      rule.bind rule.roundTrip fun _ => rule.bind (hcall _ _) fun _ =>
      rule.bind (rule.modifyDb _) fun _ => rule.bind rule.roundTrip fun _ => ?_
    dsimp only
    split
    · exact rule.bind (fail_rule rule huuid svc ..) fun _ => rule.pure _
    · exact ih _ _

theorem gate_rule (plan : WorkflowPlan) (workflowId : Uuid) (needsApproval : Bool) :
    P (gate plan workflowId needsApproval) := by
  unfold gate
  split
  · exact rule.bind huuid fun _ => rule.bind (rule.modifyDb _) fun _ => rule.modifyDb _
  · exact rule.modifyDb _

theorem conclude_rule (plan : WorkflowPlan) (workflowId : Uuid) (createdBy : Option Uuid)
    (requestId : Option String) (agentFlaggedReview : Bool) (results : JsonDict) :
    P (svc.conclude plan workflowId createdBy requestId agentFlaggedReview results) :=
  rule.bind (rule.modifyDb _) fun _ => rule.bind (gate_rule rule huuid ..) fun _ =>
    rule.bind rule.roundTrip fun _ => rule.bind (maybeAudit_rule rule huuid svc ..) fun _ =>
    reload_rule rule _

theorem start_rule (hcall : ∀ name payload, P (svc.runStep name payload))
    (workflowType : WorkflowType) (inputPayload : JsonDict) (createdBy : Option Uuid)
    (requestId : Option String) : P (svc.start workflowType inputPayload createdBy requestId) := by
  unfold start
  split
  · exact rule.raise _
  · refine rule.bind huuid fun _ => rule.bind (rule.modifyDb _) fun _ =>
      rule.bind rule.roundTrip fun _ => rule.bind (runSteps_rule rule huuid svc hcall ..) fun exit => ?_
    cases exit with
    | returned view => exact rule.pure _
    | fellThrough => exact conclude_rule rule huuid svc ..

theorem decide_rule (workflowId : Uuid) (args : DecideArgs) : P (svc.decide workflowId args) := by
  refine rule.bind (reload_rule rule _) fun view => ?_
  dsimp only
  split
  · exact rule.raise _
  · exact rule.bind huuid fun _ => rule.bind (rule.modifyDb _) fun _ =>
      rule.bind rule.roundTrip fun _ => rule.bind (maybeAudit_rule rule huuid svc ..) fun _ =>
      reload_rule rule _

end WorkflowService
end rule

/-- The ids drawn only go up. -/
def World.Later (w w' : World) : Prop := w.nextUuid ≤ w'.nextUuid

instance : Std.Refl World.Later := ⟨fun _ => le_rfl⟩

instance : IsTrans World World.Later := ⟨fun _ _ _ h h' => le_trans (α := ℕ) h h'⟩

theorem uuid4_later : SessionM.Keeps World.Later uuid4 := .effect fun _ => Nat.le_succ _

theorem runStep_later (svc : WorkflowService) (agentName : String) (payload : JsonDict) :
    SessionM.Keeps World.Later (svc.runStep agentName payload) := .effect fun _ => le_rfl

/-! ### The rows of a decision -/

/-- Writing the changed columns of a row has the effect of assigning all of them. -/
theorem changed_getD {α : Type} [DecidableEq α] (old new : α) : (changed old new).getD old = new := by
  unfold changed
  split
  · exact ‹old = new›
  · rfl

/-- A row after a decision is written to it. -/
def Approval.decided (args : DecideArgs) (a : Approval) : Approval :=
  { a with
    decision := args.decision, kind := args.kind, decidedBy := some args.decidedBy
    decisionReason := args.reason }

/-- The approvals of a workflow after a decision. -/
def decidedApprovals (workflowId : Uuid) (args : DecideArgs) (id : Uuid) (rows : List Approval) :
    List Approval :=
  match rows.find? (·.decision = .pending) with
  | some p => Table.update Approval.id p.id (Approval.decided args) rows
  | none => rows ++ [newApproval workflowId args id]

theorem decidedApprovals_pending {workflowId id : Uuid} {args : DecideArgs} {a : Approval}
    (h : a.decision = .pending) :
    decidedApprovals workflowId args id [a] = [a.decided args] := by
  simp [decidedApprovals, h, Table.update]

theorem decidedApprovals_of_none {workflowId id : Uuid} {args : DecideArgs} {rows : List Approval}
    (h : ∀ a ∈ rows, a.decision ≠ .pending) :
    decidedApprovals workflowId args id rows = rows ++ [newApproval workflowId args id] := by
  rw [decidedApprovals, List.find?_eq_none.2 fun a ha => by simpa using h a ha]

section writes

variable {db : Database} {view : WorkflowView} {args : DecideArgs} {workflowId fresh : Uuid}

@[simp] theorem approvals_writeStatus {status : Option WorkflowStatus} :
    (writeStatus workflowId status db).approvals = db.approvals := by
  cases status <;> rfl

@[simp] theorem agentRuns_apply {writes : DecideWrites} :
    (writes.apply workflowId fresh db).agentRuns = db.agentRuns := by
  obtain ⟨status, write⟩ := writes
  cases status <;> cases write <;> rfl

@[simp] theorem auditLogs_apply {writes : DecideWrites} :
    (writes.apply workflowId fresh db).auditLogs = db.auditLogs := by
  obtain ⟨status, write⟩ := writes
  cases status <;> cases write <;> rfl

@[simp] theorem workflows_apply {writes : DecideWrites} :
    (writes.apply workflowId fresh db).workflows = (writeStatus workflowId writes.status db).workflows := by
  obtain ⟨status, write⟩ := writes
  cases write <;> rfl

theorem workflow?_writeStatus {w : Workflow} (hw : db.workflow? workflowId = some w)
    (status : WorkflowStatus) (id : Uuid) :
    (writeStatus workflowId (changed w.status status) db).workflow? id =
      if id = workflowId then some { w with status } else db.workflow? id := by
  unfold changed
  split
  case isTrue h =>
    subst h
    split
    case isTrue h => rw [h]; exact hw
    case isFalse => rfl
  case isFalse =>
    rw [writeStatus, Database.workflow?_setWorkflow, hw, Option.map_some]
    exact fun _ => rfl

theorem ids_writeStatus {status : Option WorkflowStatus} :
    (writeStatus workflowId status db).workflows.map Workflow.id = db.workflows.map Workflow.id := by
  cases status with
  | none => rfl
  | some status => exact Database.ids_setWorkflow fun _ => rfl

theorem ApprovalChanges.id_apply (c : ApprovalChanges) (a : Approval) : (c.apply a).id = a.id := rfl

theorem ApprovalChanges.workflowId_apply (c : ApprovalChanges) (a : Approval) :
    (c.apply a).workflowId = a.workflowId := rfl

theorem approvalChanges_apply (p : Approval) : (approvalChanges p args).apply p = p.decided args := by
  simp only [approvalChanges, ApprovalChanges.apply, changed_getD, Approval.decided]

theorem approvalsOf_apply (hids : (db.approvals.map Approval.id).Nodup)
    (hview : view.approvals = db.approvalsOf workflowId) (hw : view.workflow.id = workflowId) (id : Uuid) :
    ((decideWrites view args).apply workflowId fresh db).approvalsOf id =
      if id = workflowId then decidedApprovals workflowId args fresh (db.approvalsOf workflowId)
      else db.approvalsOf id := by
  unfold decidedApprovals DecideWrites.apply decideWrites
  rw [hview]
  cases hp : (db.approvalsOf workflowId).find? (·.decision = .pending) with
  | none =>
    refine Database.approvalsOf_addApproval.trans ?_
    dsimp only
    rw [hw, Database.approvalsOf, approvals_writeStatus,
      show (newApproval workflowId args fresh).workflowId = workflowId from rfl]
    by_cases h : id = workflowId
    · rw [if_pos h.symm, if_pos h, h]; rfl
    · rw [if_neg (Ne.symm h), if_neg h, List.append_nil]; rfl
  | some p =>
    have hmem := List.mem_filter.1 (List.mem_of_find?_eq_some hp)
    have hwid : p.workflowId = workflowId := of_decide_eq_true hmem.2
    have huniq : ∀ a ∈ db.approvals, a.id = p.id → a = p := fun a ha h =>
      List.inj_on_of_nodup_map hids ha hmem.1 h
    dsimp only [ApprovalWrite.apply]
    rw [Database.approvalsOf_setApproval (ApprovalChanges.workflowId_apply _), Database.approvalsOf,
      approvals_writeStatus]
    by_cases h : id = workflowId
    · rw [if_pos h, h]
      exact Table.update_congr fun a ha hid => by
        rw [huniq a (List.mem_filter.1 ha).1 hid, approvalChanges_apply]
    · rw [if_neg h]
      refine Table.update_eq_self fun a ha hid => h ?_
      rw [← of_decide_eq_true (List.mem_filter.1 ha).2, huniq a (List.mem_filter.1 ha).1 hid, hwid]

variable (db view args workflowId fresh) in
theorem ids_approvals_apply :
    let db' := (decideWrites view args).apply workflowId fresh db
    db'.approvals.map Approval.id = db.approvals.map Approval.id ∨
      db'.approvals.map Approval.id = db.approvals.map Approval.id ++ [fresh] := by
  unfold DecideWrites.apply decideWrites
  cases view.approvals.find? (·.decision = .pending) with
  | some p =>
    refine .inl ((Database.ids_setApproval (ApprovalChanges.id_apply _)).trans ?_)
    rw [approvals_writeStatus]
  | none =>
    right
    show (((writeStatus ..).approvals ++ [_]).map Approval.id) = _
    rw [approvals_writeStatus, List.map_append]
    rfl

theorem mem_approvals_apply {a : Approval}
    (h : a ∈ ((decideWrites view args).apply workflowId fresh db).approvals) :
    (a ∈ db.approvals ∧ ∀ p, view.approvals.find? (·.decision = .pending) = some p → a.id ≠ p.id) ∨
    (∃ p, view.approvals.find? (·.decision = .pending) = some p ∧
      ∃ b ∈ db.approvals, b.id = p.id ∧ a = (approvalChanges p args).apply b) ∨
    (view.approvals.find? (·.decision = .pending) = none ∧
      a = newApproval view.workflow.id args fresh) := by
  unfold DecideWrites.apply decideWrites at h
  cases hp : view.approvals.find? (·.decision = .pending) with
  | some p =>
    rw [hp] at h
    have h : a ∈ Table.update Approval.id _ _ (writeStatus ..).approvals := h
    rw [approvals_writeStatus] at h
    rcases Table.mem_update.1 h with ⟨ha, hne⟩ | ⟨b, hb, hid, rfl⟩
    · exact .inl ⟨ha, fun q hq => Option.some.inj hq ▸ hne⟩
    · exact .inr (.inl ⟨p, rfl, b, hb, hid, rfl⟩)
  | none =>
    rw [hp] at h
    have h : a ∈ (writeStatus ..).approvals ++ [_] := h
    rw [approvals_writeStatus] at h
    rcases List.mem_append.1 h with h | h
    · exact .inl ⟨h, nofun⟩
    · exact .inr (.inr ⟨rfl, List.mem_singleton.1 h⟩)

end writes

/-! ### The run of a decision -/

def decideEntry (workflowId : Uuid) (args : DecideArgs) : Uuid → AuditLog :=
  auditEntry s!"workflow.{args.decision.value}" workflowId (some args.decidedBy) args.requestId
    (reasonContext args.reason)

/-- The tables after the writes of a decision on the rows `view`, with its audit entry; the ids are
drawn from `n` on. -/
def commitDecision (svc : WorkflowService) (workflowId : Uuid) (view : WorkflowView)
    (args : DecideArgs) (n : ℕ) (db : Database) : Database :=
  let db' := (decideWrites view args).apply workflowId ⟨n⟩ db
  { db' with auditLogs := db'.auditLogs ++ svc.logged (decideEntry workflowId args) (n + 1) }

/-- The tables after a decision on the workflow `w` as it stands. -/
def decideDb (svc : WorkflowService) (w : Workflow) (args : DecideArgs) (n : ℕ) (db : Database) :
    Database :=
  commitDecision svc w.id ⟨w, db.agentRunsOf w.id, db.approvalsOf w.id⟩ args n db

section run

variable (svc : WorkflowService) {db : Database} {w : Workflow} (args : DecideArgs) (n : ℕ)
  (calls : List ExecutorCall)

theorem workflow?_decideDb (hw : db.workflow? w.id = some w) (id : Uuid) :
    (decideDb svc w args n db).workflow? id =
      if id = w.id then some { w with status := args.finalStatus } else db.workflow? id := by
  rw [← workflow?_writeStatus hw]
  unfold Database.workflow? decideDb commitDecision
  dsimp only
  rw [workflows_apply]
  rfl

/-- A reload shows the members that the session has loaded, with their current columns. -/
theorem reload_loaded {id : Uuid} {memory : Dict Uuid Loaded} {loaded : Loaded}
    (hw : db.workflow? id = some w) (hm : memory.get? id = some loaded) (world : World) :
    WorkflowService.reload id .none ⟨db, memory, world⟩ =
      (.ok ⟨w, loaded.agentRuns.filterMap (Table.lookup AgentRun.id · db.agentRuns),
        loaded.approvals.filterMap (Table.lookup Approval.id · db.approvals)⟩, .none,
        ⟨db, memory, world⟩) := by
  simp only [WorkflowService.reload, SessionM.bind_run, SessionM.roundTrip_run_none,
    SessionM.get_run, hw, hm]
  rfl

/-- What `decide` returns: the members that were loaded before the decision, as they are after it. -/
def decideView (svc : WorkflowService) (w : Workflow) (args : DecideArgs) (n : ℕ) (db : Database) :
    WorkflowView :=
  let db' := decideDb svc w args n db
  { workflow := { w with status := args.finalStatus }
    agentRuns := ((db.agentRunsOf w.id).map AgentRun.id).filterMap
      (Table.lookup AgentRun.id · db'.agentRuns)
    approvals := ((db.approvalsOf w.id).map Approval.id).filterMap
      (Table.lookup Approval.id · db'.approvals) }

theorem decide_run (hw : db.workflow? w.id = some w) (hst : w.status ∈ decidable) :
    ∃ memory' n', n + 1 + svc.auditDraws ≤ n' ∧
      svc.decide w.id args .none ⟨db, .empty, n, calls⟩ =
        (.ok (decideView svc w args n db), .none, ⟨decideDb svc w args n db, memory', n', calls⟩) := by
  have hload : WorkflowService.get w.id .none ⟨db, .empty, n, calls⟩ = _ :=
    WorkflowService.reload_run hw rfl
  have hw' : (decideDb svc w args n db).workflow? w.id = some { w with status := args.finalStatus } := by
    rw [workflow?_decideDb svc args n hw, if_pos rfl]
  let n' := n + 1 + (svc.logged (decideEntry w.id args) (n + 1)).length
  let loaded : Loaded := ⟨(db.agentRunsOf w.id).map AgentRun.id, (db.approvalsOf w.id).map Approval.id⟩
  have hview := reload_loaded hw' (Dict.get?_set_self .empty w.id loaded) ⟨n', calls⟩
  refine ⟨Dict.empty.set w.id loaded, n', (by rw [← svc.length_logged]), (SessionM.bind_of_ok hload).trans ?_⟩
  dsimp only
  rw [if_neg (not_not.2 hst)]
  exact (SessionM.bind_of_ok rfl).trans <| (SessionM.bind_of_ok rfl).trans <|
    (SessionM.bind_of_ok rfl).trans <| (SessionM.bind_of_ok (svc.maybeAudit_run ..)).trans hview

theorem decide_of_not_found {id : Uuid} (hw : db.workflow? id = none) :
    (svc.decide id args .none ⟨db, .empty, n, calls⟩).1 =
      .error (.new .notFound s!"Workflow {id.str} not found." []) := by
  have hload : WorkflowService.get id .none ⟨db, .empty, n, calls⟩ =
      (.error (.new .notFound s!"Workflow {id.str} not found." []), .none, ⟨db, .empty, n, calls⟩) := by
    simp only [WorkflowService.get, WorkflowService.reload, SessionM.bind_run,
      SessionM.roundTrip_run_none, SessionM.get_run, hw, SessionM.raise_run]
  exact congrArg Prod.fst (SessionM.bind_of_error hload)

theorem decide_of_not_decidable (hw : db.workflow? w.id = some w) (hst : w.status ∉ decidable) :
    (svc.decide w.id args .none ⟨db, .empty, n, calls⟩).1 =
      .error (.new .workflowState
        s!"Workflow {w.id.str} is '{w.status.value}', not awaiting a decision."
        [("current_status", .str w.status.value)]) := by
  have hload : WorkflowService.get w.id .none ⟨db, .empty, n, calls⟩ = _ :=
    WorkflowService.reload_run hw rfl
  refine (congrArg Prod.fst (SessionM.bind_of_ok hload)).trans ?_
  dsimp only
  rw [if_pos hst]
  rfl

/-- A decision that returns was made on a workflow awaiting one. -/
theorem transact_decide_ok {F : Faults Exn} {id : Uuid} {view : WorkflowView}
    (h : (SessionM.transact .empty (svc.decide id args) F db ⟨n, calls⟩).1 = .ok view) :
    ∃ w n', db.workflow? id = some w ∧ w.id = id ∧ w.status ∈ decidable ∧ n + 1 + svc.auditDraws ≤ n' ∧
      view = decideView svc w args n db ∧
      (SessionM.transact .empty (svc.decide id args) F db ⟨n, calls⟩).2 =
        (decideDb svc w args n db, ⟨n', calls⟩) := by
  obtain ⟨s, hrun, heq⟩ := SessionM.transact_ok
    (WorkflowService.decide_rule SessionM.robust_rule (.effect _) svc id args) h
  cases hw : db.workflow? id with
  | none =>
    have herr := decide_of_not_found svc args n calls hw
    rw [hrun] at herr
    cases herr
  | some w =>
    obtain rfl : w.id = id := (Table.lookup_eq_some hw).2
    by_cases hst : w.status ∈ decidable
    · obtain ⟨memory', n', hn, hok⟩ := decide_run svc args n calls hw hst
      rw [hok] at hrun
      cases hrun
      exact ⟨w, n', rfl, rfl, hst, hn, rfl, heq⟩
    · have herr := decide_of_not_decidable svc args n calls hw hst
      rw [hrun] at herr
      cases herr

end run
end BankingAi
