import BankingAi.Core.Security
import BankingAi.Services.WorkflowRuns

/-!
# Workflow endpoints

`POST /workflows/start` and the decision actions. An endpoint checks the permission it is declared
with and calls the service, all inside the transaction of the request. A request that passes the
checks is an operation of the workflow service, any other one changes nothing; so a run of requests
is a run of the service.
-/

namespace BankingAi

open Review

structure WorkflowStartRequest where
  workflowType : WorkflowType
  inputPayload : JsonDict

/-- A validated body of approve, reject or escalate. -/
structure ApprovalDecisionRequest where
  reason : Option String
  maxLength : ∀ r ∈ reason, r.length ≤ 2000

def requirePermissions (permissions : List String) (principal : Principal) : WorkflowSession Unit :=
  .ofExcept (principal.require permissions)

/-- `uuid.UUID(principal.user_id)`. -/
def Principal.userUuid (principal : Principal) : Except Exn Uuid :=
  match Uuid.ofStr? principal.userId with
  | some id => .ok id
  | none => .error (.other "ValueError" "badly formed hexadecimal UUID string")

section endpoints

variable (svc : WorkflowService) (principal : Principal)

def startWorkflow (payload : WorkflowStartRequest) (requestId : Option String) :
    WorkflowSession WorkflowView := do
  requirePermissions [Permission.workflowStart.value] principal
  let createdBy ← SessionM.ofExcept principal.userUuid
  svc.start payload.workflowType payload.inputPayload (some createdBy) requestId

/-- An endpoint that decides on a workflow. -/
def decisionEndpoint (permission : Permission)
    (action : Uuid → Uuid → Option String → Option String → WorkflowSession WorkflowView)
    (workflowId : Uuid) (payload : ApprovalDecisionRequest) (requestId : Option String) :
    WorkflowSession WorkflowView := do
  requirePermissions [permission.value] principal
  let decidedBy ← SessionM.ofExcept principal.userUuid
  action workflowId decidedBy payload.reason requestId

def approveWorkflow := decisionEndpoint principal .workflowApprove svc.approve

def rejectWorkflow := decisionEndpoint principal .workflowReject svc.reject

def escalateWorkflow := decisionEndpoint principal .workflowEscalate svc.escalate

end endpoints

inductive WorkflowCall where
  | start (payload : WorkflowStartRequest)
  | decide (verdict : Verdict) (workflowId : Uuid) (payload : ApprovalDecisionRequest)

/-- A request to a workflow endpoint, with the claims of its token. -/
structure WorkflowRequest where
  claims : Claims
  call : WorkflowCall
  requestId : Option String

def WorkflowRequest.handle (svc : WorkflowService) (req : WorkflowRequest) :
    WorkflowSession WorkflowView :=
  let principal := Principal.fromClaims req.claims
  match req.call with
  | .start payload => startWorkflow svc principal payload req.requestId
  | .decide .approve workflowId payload => approveWorkflow svc principal workflowId payload req.requestId
  | .decide .reject workflowId payload => rejectWorkflow svc principal workflowId payload req.requestId
  | .decide .escalate workflowId payload =>
    escalateWorkflow svc principal workflowId payload req.requestId

/-- The permission an endpoint is declared with. -/
def WorkflowCall.permission : WorkflowCall → Permission
  | .start _ => .workflowStart
  | .decide .approve .. => .workflowApprove
  | .decide .reject .. => .workflowReject
  | .decide .escalate .. => .workflowEscalate

/-- The operation of the service behind a call by a user. -/
def WorkflowCall.op (user : Uuid) (requestId : Option String) : WorkflowCall → WorkflowOp
  | .start payload => .start payload.workflowType payload.inputPayload (some user) requestId
  | .decide verdict workflowId payload => .decide verdict workflowId user payload.reason requestId

/-- The operation that a request runs if it passes the checks of its endpoint. -/
def WorkflowRequest.op? (req : WorkflowRequest) : Option WorkflowOp :=
  if req.call.permission.value ∈ permissionsForRoles req.claims.roles then
    (Uuid.ofStr? req.claims.sub).map fun user => req.call.op user req.requestId
  else none

section handle

variable {svc : WorkflowService} {req : WorkflowRequest}

theorem WorkflowRequest.handle_eq :
    req.handle svc =
      (requirePermissions [req.call.permission.value] (.fromClaims req.claims) >>= fun _ =>
        SessionM.ofExcept (Principal.fromClaims req.claims).userUuid >>= fun user =>
          (req.call.op user req.requestId).body svc) := by
  obtain ⟨claims, call, requestId⟩ := req
  cases call with
  | start payload => rfl
  | decide verdict workflowId payload => cases verdict <;> rfl

theorem WorkflowRequest.op?_eq_some {op : WorkflowOp} (h : req.op? = some op) :
    req.call.permission.value ∈ permissionsForRoles req.claims.roles ∧
      ∃ user, Uuid.ofStr? req.claims.sub = some user ∧ op = req.call.op user req.requestId := by
  unfold op? at h
  split at h
  · obtain ⟨user, hu, rfl⟩ := Option.map_eq_some_iff.1 h
    exact ⟨by assumption, user, hu, rfl⟩
  · cases h

theorem WorkflowRequest.handle_of_some {op : WorkflowOp} (h : req.op? = some op) :
    req.handle svc = op.body svc := by
  obtain ⟨hperm, user, huser, rfl⟩ := op?_eq_some h
  have hreq : (Principal.fromClaims req.claims).require [req.call.permission.value] = .ok () :=
    Principal.require_eq_ok.2 (List.forall_mem_singleton.2 hperm)
  have hid : (Principal.fromClaims req.claims).userUuid = .ok user := by
    rw [Principal.userUuid, show (Principal.fromClaims req.claims).userId = req.claims.sub from rfl, huser]
  rw [handle_eq, requirePermissions, hreq, hid]
  rfl

theorem WorkflowRequest.handle_of_none (h : req.op? = none) : ∃ e, req.handle svc = .raise e := by
  rw [handle_eq, requirePermissions]
  cases hreq : (Principal.fromClaims req.claims).require [req.call.permission.value] with
  | error e => exact ⟨e, rfl⟩
  | ok u =>
    have hperm : req.call.permission.value ∈ permissionsForRoles req.claims.roles :=
      Principal.require_eq_ok.1 hreq _ (List.mem_singleton_self _)
    rw [op?, if_pos hperm, Option.map_eq_none_iff] at h
    have hid : (Principal.fromClaims req.claims).userUuid =
        .error (.other "ValueError" "badly formed hexadecimal UUID string") := by
      rw [Principal.userUuid, show (Principal.fromClaims req.claims).userId = req.claims.sub from rfl, h]
    rw [hid]
    exact ⟨_, rfl⟩

end handle

/-! ### Runs of requests -/

/-- One step is one request, in its own transaction. -/
def apiMachine (svc : WorkflowService) :
    Machine Committed (WorkflowRequest × Faults Exn) (Except Exn WorkflowView) where
  step s i :=
    let r := SessionM.transact .empty (i.1.handle svc) i.2 s.db s.world
    (r.1, ⟨r.2.1, r.2.2⟩)

section runs

variable {svc : WorkflowService} {s : Committed} {req : WorkflowRequest} {F : Faults Exn}

theorem api_step {op : WorkflowOp} (h : req.op? = some op) :
    (apiMachine svc).step s (req, F) = (workflowMachine svc).step s (op, F) := by
  unfold apiMachine workflowMachine
  dsimp only
  rw [WorkflowRequest.handle_of_some h]

theorem api_next_of_none (h : req.op? = none) : (apiMachine svc).next s (req, F) = s := by
  obtain ⟨e, he⟩ : ∃ e, req.handle svc = .raise e := WorkflowRequest.handle_of_none h
  unfold Machine.next apiMachine
  dsimp only
  rw [he, SessionM.transact_of_error (SessionM.raise_run F _ e)]

theorem api_run (s : Committed) (is : List (WorkflowRequest × Faults Exn)) :
    (apiMachine svc).run s is =
      (workflowMachine svc).run s (is.filterMap fun i => i.1.op?.map (·, i.2)) := by
  induction is generalizing s with
  | nil => rfl
  | cons i is ih =>
    obtain ⟨req, F⟩ := i
    rw [Machine.run, ih]
    cases hop : req.op? with
    | none => rw [api_next_of_none hop, List.filterMap_cons_none (by rw [hop]; rfl)]
    | some op =>
      rw [List.filterMap_cons_some (b := (op, F)) (by rw [hop]; rfl), Machine.run, Machine.next,
        api_step hop]
      rfl

theorem consistent_api (svc : WorkflowService) (is : List (WorkflowRequest × Faults Exn)) :
    Consistent svc ((apiMachine svc).run .empty is) := by
  rw [api_run]
  exact consistent_run svc _

end runs

end BankingAi
