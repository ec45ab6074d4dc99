import BankingAi.Api.Workflows

/-!
# Who approves

The plan of a gated workflow names the permission its reviewer must hold, and `start` records it on
the approval it opens; the endpoint checks `workflow:approve` only. So a completion is by a
qualified approver exactly when the roles of whoever approves happen to carry both permissions.
-/

namespace BankingAi

open Review

/-- The platform's service: the orchestrator's plans, with an audit service. The measured latency of
the planning is not read. -/
def platformService (executor : AgentExecutor) : WorkflowService where
  executor
  audit := true
  orchestrator := (orchestratorAgent.execute · 0)

abbrev ApiTransition := Transition Committed (WorkflowRequest × Faults Exn) (Except Exn WorkflowView)

/-- The workflow `w` becomes completed through `POST /approve`. -/
structure ApiTransition.Approves (t : ApiTransition) (w : Workflow) : Prop where
  request : ∃ payload, t.input.1.call = .decide .approve w.id payload
  before : t.pre.db.workflow? w.id = some w
  undone : w.status ≠ .completed
  after : ∃ w', t.post.db.workflow? w.id = some w' ∧ w'.status = .completed

/-- Roles that may approve `w`: they grant the endpoint's permission, the one that its plan demands
and the one that was recorded on the approval opened for it. -/
structure QualifiedFor (db : Database) (w : Workflow) (roles : List String) : Prop where
  endpoint : Permission.workflowApprove.value ∈ permissionsForRoles roles
  plan : ∀ p ∈ (planOf w.workflowType).approvalPermission, p ∈ permissionsForRoles roles
  opened : ∃ a, (db.approvalsOf w.id).head? = some a ∧
    a.requiredPermission ∈ permissionsForRoles roles

/-- Every completion through `POST /approve` is by a qualified approver. -/
def ApiTransition.ApproverQualified (t : ApiTransition) : Prop :=
  ∀ w, t.Approves w → QualifiedFor t.pre.db w t.input.1.claims.roles

/-- The roles whose holders review a type of workflow. -/
def reviewerRoles : WorkflowType → List Role
  | .kyc => [.systemAdmin]
  | .fraudReview => [.systemAdmin, .riskAnalyst]
  | .loan => [.systemAdmin, .loanOfficer]
  | .documentIntelligence | .compliance | .auditEvidence => Role.all

/-- An accepted approval of a gated workflow that awaits a decision comes from someone with one of
the reviewer roles. -/
def ApiTransition.ByReviewer (t : ApiTransition) : Prop :=
  ∀ w user reason requestId, t.input.1.op? = some (.decide .approve w.id user reason requestId) →
    t.pre.db.workflow? w.id = some w → w.status ∈ decidable →
      (planOf w.workflowType).approvalPermission ≠ none →
        ∃ r ∈ reviewerRoles w.workflowType, r.value ∈ t.input.1.claims.roles

theorem mem_rolePermissions_iff {workflowType : WorkflowType} {p : Permission}
    (hp : (planOf workflowType).approvalPermission = some p.value) (r : Role) :
    p ∈ rolePermissions r ↔ r ∈ reviewerRoles workflowType := by
  cases workflowType with
  | kyc =>
    obtain rfl := Permission.value_injective (Option.some.inj hp)
    cases r <;> decide
  | fraudReview =>
    obtain rfl := Permission.value_injective (Option.some.inj hp)
    cases r <;> decide
  | loan =>
    obtain rfl := Permission.value_injective (Option.some.inj hp)
    cases r <;> decide
  | documentIntelligence => cases hp
  | compliance => cases hp
  | auditEvidence => cases hp

theorem approvalPermission_eq {workflowType : WorkflowType} {p : String}
    (hp : (planOf workflowType).approvalPermission = some p) : ∃ q : Permission, p = q.value := by
  cases workflowType <;> cases hp <;> exact ⟨_, rfl⟩

theorem permission_iff_reviewer {workflowType : WorkflowType} {p : String} {roles : List String}
    (hp : (planOf workflowType).approvalPermission = some p) :
    p ∈ permissionsForRoles roles ↔ ∃ r ∈ reviewerRoles workflowType, r.value ∈ roles := by
  obtain ⟨q, rfl⟩ := approvalPermission_eq hp
  rw [mem_permissionsForRoles]
  constructor
  · rintro ⟨r, hr, hq⟩
    exact ⟨r, (mem_rolePermissions_iff hp r).1 hq, hr⟩
  · rintro ⟨r, hq, hr⟩
    exact ⟨r, hr, (mem_rolePermissions_iff hp r).2 hq⟩

theorem requiredPermission_planOf (workflowType : WorkflowType) :
    (planOf workflowType).requiredPermission =
      ((planOf workflowType).approvalPermission).getD Permission.workflowApprove.value := by
  cases workflowType <;> decide

section approve

variable {svc : WorkflowService} {s : Committed} {req : WorkflowRequest} {F : Faults Exn}
  {w : Workflow}

theorem WorkflowRequest.call_of_op? {user : Uuid} {reason requestId : Option String} {id : Uuid}
    {verdict : Verdict} (h : req.op? = some (.decide verdict id user reason requestId)) :
    ∃ payload, req.call = .decide verdict id payload ∧
      req.call.permission.value ∈ permissionsForRoles req.claims.roles := by
  obtain ⟨hperm, user', -, heq⟩ := WorkflowRequest.op?_eq_some h
  cases hcall : req.call with
  | start payload => rw [hcall] at heq; cases heq
  | decide verdict' id' payload =>
    rw [hcall] at heq
    cases heq
    exact ⟨payload, rfl, hcall ▸ hperm⟩

/-- A completion is an accepted approval of a workflow that awaits a decision. -/
theorem accepted_of_approves (h : ApiTransition.Approves ((apiMachine svc).fire s (req, F)) w) :
    ∃ user reason, req.op? = some (.decide .approve w.id user reason req.requestId) ∧
      w.status ∈ decidable := by
  obtain ⟨payload, hcall⟩ := h.request
  obtain ⟨w', hw', hdone⟩ := h.after
  have hbefore : s.db.workflow? w.id = some w := h.before
  have hkept : ((apiMachine svc).next s (req, F)).db ≠ s.db := by
    intro heq
    have hw' : ((apiMachine svc).next s (req, F)).db.workflow? w.id = some w' := hw'
    rw [heq, hbefore] at hw'
    exact h.undone (Option.some.inj hw' ▸ hdone)
  cases hop : req.op? with
  | none => exact absurd (by rw [api_next_of_none hop]) hkept
  | some op =>
    obtain ⟨-, user, -, rfl⟩ := WorkflowRequest.op?_eq_some hop
    rw [show req.call = .decide .approve w.id payload from hcall] at hop ⊢
    refine ⟨user, payload.reason, rfl, ?_⟩
    have hstep : (apiMachine svc).step s (req, F) = _ := api_step hop
    cases hr : ((workflowMachine svc).step s (WorkflowCall.op user req.requestId
        (.decide .approve w.id payload), F)).1 with
    | error e => exact absurd ((congrArg (·.2.db) hstep).trans (step_error hr)) hkept
    | ok view =>
      obtain ⟨w₂, -, hw₂, -, hst, -⟩ := transact_decide_ok svc _ _ _
        (by rw [← body_decide]; exact hr)
      rw [hbefore] at hw₂
      exact Option.some.inj hw₂ ▸ hst

theorem approves_of_accepted {user : Uuid} {reason requestId : Option String}
    (hop : req.op? = some (.decide .approve w.id user reason requestId))
    (hw : s.db.workflow? w.id = some w) (hst : w.status ∈ decidable) :
    ApiTransition.Approves ((apiMachine svc).fire s (req, .none)) w where
  request := (WorkflowRequest.call_of_op? hop).imp fun _ h => h.1
  before := hw
  undone h := by rw [h] at hst; simp [decidable] at hst
  after := by
    obtain ⟨memory', n', -, hrun⟩ := decide_run svc
      (DecideArgs.ofVerdict .approve user reason requestId) s.world.nextUuid s.world.calls hw hst
    have hdb : ((workflowMachine svc).next s (.decide .approve w.id user reason requestId, .none)).db =
        decideDb svc w (.ofVerdict .approve user reason requestId) s.world.nextUuid s.db := by
      unfold Machine.next workflowMachine
      dsimp only
      rw [body_decide]
      exact congrArg (·.2.1) (SessionM.transact_of_ok hrun)
    refine ⟨{ w with status := .completed }, ?_, rfl⟩
    show ((apiMachine svc).next s (req, .none)).db.workflow? w.id = _
    rw [Machine.next, api_step hop]
    exact (congrArg (·.workflow? w.id) hdb).trans (by rw [workflow?_decideDb svc _ _ hw, if_pos rfl])

end approve

section qualified

variable {executor : AgentExecutor} {s : Committed}

/-- In a committed state, roles with the endpoint's permission may approve a workflow that awaits a
decision exactly when they grant what its plan demands: that is what `start` recorded. -/
theorem qualified_iff (h : Consistent (platformService executor) s) {w : Workflow}
    {roles : List String} (hw : s.db.workflow? w.id = some w) (hst : w.status ∈ decidable)
    (hendpoint : Permission.workflowApprove.value ∈ permissionsForRoles roles) :
    QualifiedFor s.db w roles ↔
      ((planOf w.workflowType).approvalPermission ≠ none →
        ∃ r ∈ reviewerRoles w.workflowType, r.value ∈ roles) := by
  have hiff : (∀ p ∈ (planOf w.workflowType).approvalPermission, p ∈ permissionsForRoles roles) ↔
      ((planOf w.workflowType).approvalPermission ≠ none →
        ∃ r ∈ reviewerRoles w.workflowType, r.value ∈ roles) := by
    cases hp : (planOf w.workflowType).approvalPermission with
    | none => simp
    | some p => simp [permission_iff_reviewer hp]
  rw [← hiff]
  refine ⟨QualifiedFor.plan, fun hplan => ⟨hendpoint, hplan, ?_⟩⟩
  obtain ⟨c, hc⟩ := h.represents _ w hw
  obtain ⟨a, ha⟩ := hc.exists_head? (status_decidable.1 (hc.status ▸ hst))
  obtain ⟨plan, hpl, hperm⟩ := hc.opened a ha
  obtain rfl := Option.some.inj ((orchestratorAgent_output _ 0).symm.trans hpl)
  refine ⟨a, ha, ?_⟩
  rw [hperm, requiredPermission_planOf]
  cases hp : (planOf w.workflowType).approvalPermission with
  | none => exact hendpoint
  | some p => exact hplan p hp

/-- A request keeps the approvers qualified if an accepted approval comes from a reviewer; if the
database does not fail, only if. -/
theorem qualified_step (h : Consistent (platformService executor) s) (req : WorkflowRequest)
    (F : Faults Exn) :
    let t : ApiTransition := (apiMachine (platformService executor)).fire s (req, F)
    (t.ByReviewer → t.ApproverQualified) ∧ (F = .none → t.ApproverQualified → t.ByReviewer) := by
  intro t
  constructor
  · intro hby w happ
    obtain ⟨user, reason, hop, hst⟩ := accepted_of_approves happ
    obtain ⟨payload, hcall, hperm⟩ := WorkflowRequest.call_of_op? hop
    rw [hcall] at hperm
    exact (qualified_iff h happ.before hst hperm).2 (hby w user reason _ hop happ.before hst)
  · rintro rfl hq w user reason requestId hop hw hst
    obtain ⟨payload, hcall, hperm⟩ := WorkflowRequest.call_of_op? hop
    rw [hcall] at hperm
    exact (qualified_iff h hw hst hperm).1 (hq w (approves_of_accepted hop hw hst))

end qualified

/-- In a run of requests in which every accepted approval of a gated workflow comes from a reviewer
of its type, every approver held the permissions that the plan demands and that were recorded; where
the database does not fail, in no other run. -/
theorem approvers_qualified (executor : AgentExecutor) (is : List (WorkflowRequest × Faults Exn)) :
    let T : List ApiTransition := (apiMachine (platformService executor)).trace .empty is
    ((∀ t ∈ T, t.ByReviewer) → ∀ t ∈ T, t.ApproverQualified) ∧
      ((∀ i ∈ is, i.2 = .none) → (∀ t ∈ T, t.ApproverQualified) → ∀ t ∈ T, t.ByReviewer) := by
  intro T
  have hstep : ∀ t ∈ T, ∃ s req F, Consistent (platformService executor) s ∧ (req, F) ∈ is ∧
      t = (apiMachine (platformService executor)).fire s (req, F) := by
    intro t ht
    obtain ⟨js, ⟨req, F⟩, hp, rfl⟩ := Machine.mem_trace ht
    exact ⟨_, req, F, consistent_api _ js, hp.subset (by simp), rfl⟩
  constructor
  · intro hby t ht
    obtain ⟨s, req, F, hs, -, rfl⟩ := hstep t ht
    exact (qualified_step hs req F).1 (hby _ ht)
  · intro hnone hq t ht
    obtain ⟨s, req, F, hs, hi, rfl⟩ := hstep t ht
    exact (qualified_step hs req F).2 (hnone _ hi) (hq _ ht)

section requestsBy

variable {svc : WorkflowService} {user : Uuid} {roles : List Role} {calls : List WorkflowCall}

/-- Calls that one user makes, on a database that does not fail. -/
def requestsBy (user : Uuid) (roles : List Role) (calls : List WorkflowCall) :
    List (WorkflowRequest × Faults Exn) :=
  calls.map fun call => (⟨⟨user.str, none, roles.map Role.value, none⟩, call, none⟩, .none)

variable (user) in
theorem op?_requestsBy {call : WorkflowCall}
    (h : call.permission.value ∈ permissionsForRoles (roles.map Role.value)) :
    WorkflowRequest.op? ⟨⟨user.str, none, roles.map Role.value, none⟩, call, none⟩ =
      some (call.op user none) := by
  rw [WorkflowRequest.op?, if_pos h, Uuid.ofStr?_str, Option.map_some]

variable (svc user) in
theorem api_run_requestsBy (h : ∀ call ∈ calls,
    call.permission.value ∈ permissionsForRoles (roles.map Role.value)) :
    (apiMachine svc).run .empty (requestsBy user roles calls) =
      (workflowMachine svc).run .empty (calls.map fun call => (call.op user none, .none)) := by
  rw [api_run, requestsBy, List.filterMap_map]
  refine congrArg _ ((List.filterMap_congr fun call hcall => ?_).trans
    (congrFun List.filterMap_eq_map calls))
  rw [Function.comp_apply, op?_requestsBy user (h call hcall)]
  rfl

end requestsBy

/-- Start a KYC workflow, escalate it and approve it. -/
def kycCalls : List WorkflowCall :=
  [.start ⟨.kyc, .empty⟩, .decide .escalate ⟨0⟩ ⟨none, by simp⟩, .decide .approve ⟨0⟩ ⟨none, by simp⟩]

theorem kycCalls_approve {roles : List Role} (hroles : ∀ call ∈ kycCalls,
    call.permission.value ∈ permissionsForRoles (roles.map Role.value)) :
    ∃ t ∈ (apiMachine (platformService silentExecutor)).trace .empty (requestsBy ⟨100⟩ roles kycCalls),
      ∃ w, ApiTransition.Approves t w ∧ w.workflowType = .kyc ∧
        t.input.1.claims.roles = roles.map Role.value := by
  have hrun := api_run_requestsBy (platformService silentExecutor) ⟨100⟩
    fun call (h : call ∈ kycCalls.take 2) => hroles call (List.mem_of_mem_take h)
  obtain ⟨w, hw, hid, hst, htype⟩ : ∃ w, ((workflowMachine (platformService silentExecutor)).run .empty
      ((kycCalls.take 2).map fun call => (call.op ⟨100⟩ none, .none))).db.workflow? ⟨0⟩ = some w ∧
      w.id = ⟨0⟩ ∧ w.status = .escalated ∧ w.workflowType = .kyc := ⟨_, rfl, rfl, rfl, rfl⟩
  rw [← hrun, ← hid] at hw
  have hop : WorkflowRequest.op? ⟨⟨(Uuid.mk 100).str, none, roles.map Role.value, none⟩,
      .decide .approve ⟨0⟩ ⟨none, by simp⟩, none⟩ = some (.decide .approve w.id ⟨100⟩ none none) := by
    rw [hid]
    exact op?_requestsBy ⟨100⟩ (hroles _ (by simp [kycCalls]))
  refine ⟨_, List.mem_cons_of_mem _ (List.mem_cons_of_mem _ List.mem_cons_self), w,
    approves_of_accepted hop hw (by rw [hst]; decide), htype, rfl⟩

/-- Managers may start, escalate and approve, but they do not hold `kyc:review`. -/
theorem manager_not_qualified :
    ¬ ∀ t ∈ (apiMachine (platformService silentExecutor)).trace .empty
      (requestsBy ⟨100⟩ [.manager] kycCalls), ApiTransition.ApproverQualified t := by
  intro h
  obtain ⟨t, ht, w, happ, htype, hroles⟩ := kycCalls_approve (by decide : ∀ call ∈ kycCalls,
    call.permission.value ∈ permissionsForRoles ([Role.manager].map Role.value))
  have hplan := (h t ht w happ).plan Permission.kycReview.value (by rw [htype]; rfl)
  rw [hroles] at hplan
  revert hplan
  decide

/-- A system administrator is a reviewer of every type, and so qualified. -/
theorem approvers_qualified_admin :
    ∃ t ∈ (apiMachine (platformService silentExecutor)).trace .empty
      (requestsBy ⟨100⟩ [.systemAdmin] kycCalls), ∃ w, ApiTransition.Approves t w ∧
        QualifiedFor t.pre.db w t.input.1.claims.roles := by
  have hby : ∀ t ∈ (apiMachine (platformService silentExecutor)).trace .empty
      (requestsBy ⟨100⟩ [.systemAdmin] kycCalls), ApiTransition.ByReviewer t := by
    intro t ht w user reason requestId hop hw hst hgated
    obtain ⟨js, i, hp, rfl⟩ := Machine.mem_trace ht
    obtain ⟨call, -, rfl⟩ := List.mem_map.1 (hp.subset (List.mem_append_right js List.mem_cons_self))
    refine ⟨.systemAdmin, ?_, List.mem_singleton_self _⟩
    cases w.workflowType <;> decide
  obtain ⟨t, ht, w, happ, -⟩ := kycCalls_approve (by decide : ∀ call ∈ kycCalls,
    call.permission.value ∈ permissionsForRoles ([Role.systemAdmin].map Role.value))
  exact ⟨t, ht, w, happ, (approvers_qualified silentExecutor _).1 hby t ht w happ⟩

end BankingAi
