import Mathlib.Data.List.Basic

/-!
# Role-based access control

Roles are bundles of permissions; endpoints check permissions. A set of permissions is a list of
which only the membership is used.
-/

namespace BankingAi

inductive Role where
  | customerSupport | opsExecutive | complianceOfficer | riskAnalyst | loanOfficer | auditor
  | manager | systemAdmin
deriving DecidableEq, Repr

namespace Role

def value : Role → String
  | customerSupport => "customer_support_agent"
  | opsExecutive => "banking_operations_executive"
  | complianceOfficer => "compliance_officer"
  | riskAnalyst => "risk_analyst"
  | loanOfficer => "loan_officer"
  | auditor => "auditor"
  | manager => "manager"
  | systemAdmin => "system_admin"

def all : List Role :=
  [customerSupport, opsExecutive, complianceOfficer, riskAnalyst, loanOfficer, auditor, manager,
    systemAdmin]

theorem value_injective : Function.Injective value := by
  intro r r' h
  cases r <;> cases r' <;> first | rfl | exact absurd h (by decide)

/-- `Role(raw)`: `none` is the `ValueError` of an unknown role. -/
def ofValue? (raw : String) : Option Role := all.find? (·.value = raw)

theorem ofValue?_eq_some {raw : String} {r : Role} : ofValue? raw = some r ↔ raw = r.value := by
  constructor
  · intro h
    simpa [eq_comm] using List.find?_some h
  · rintro rfl
    cases r <;> decide

end Role

inductive Permission where
  | documentRead | documentUpload
  | workflowRead | workflowStart | workflowApprove | workflowReject | workflowEscalate
  | kycReview | fraudReview | complianceRead | loanProcess
  | auditRead
  | agentRead | agentRun | searchRead
  | adminRead | adminManage
deriving DecidableEq, Repr

namespace Permission

def value : Permission → String
  | documentRead => "document:read"
  | documentUpload => "document:upload"
  | workflowRead => "workflow:read"
  | workflowStart => "workflow:start"
  | workflowApprove => "workflow:approve"
  | workflowReject => "workflow:reject"
  | workflowEscalate => "workflow:escalate"
  | kycReview => "kyc:review"
  | fraudReview => "fraud:review"
  | complianceRead => "compliance:read"
  | loanProcess => "loan:process"
  | auditRead => "audit:read"
  | agentRead => "agent:read"
  | agentRun => "agent:run"
  | searchRead => "search:read"
  | adminRead => "admin:read"
  | adminManage => "admin:manage"

def all : List Permission :=
  [documentRead, documentUpload, workflowRead, workflowStart, workflowApprove, workflowReject,
    workflowEscalate, kycReview, fraudReview, complianceRead, loanProcess, auditRead, agentRead,
    agentRun, searchRead, adminRead, adminManage]

theorem value_injective : Function.Injective value := by
  intro p q h
  cases p <;> cases q <;> first | rfl | exact absurd h (by decide)

end Permission

open Permission

def readOnly : List Permission := [documentRead, workflowRead, agentRead, searchRead, complianceRead]

def rolePermissions : Role → List Permission
  | .systemAdmin => Permission.all
  | .manager =>
    readOnly ++ [documentUpload, workflowStart, workflowApprove, workflowReject, workflowEscalate,
      agentRun, auditRead]
  | .opsExecutive => readOnly ++ [documentUpload, workflowStart, agentRun]
  | .customerSupport =>
    [documentRead, documentUpload, workflowRead, workflowStart, searchRead, agentRun]
  | .complianceOfficer =>
    readOnly ++ [complianceRead, workflowApprove, workflowReject, workflowEscalate, auditRead,
      agentRun]
  | .riskAnalyst => readOnly ++ [Permission.fraudReview, workflowApprove, workflowReject, agentRun]
  | .loanOfficer => readOnly ++ [documentUpload, loanProcess, workflowStart, agentRun]
  | .auditor => readOnly ++ [auditRead]

/-- The permissions of the recognised roles; unknown role strings are ignored. -/
def permissionsForRoles (roles : List String) : List String :=
  roles.flatMap fun raw =>
    match Role.ofValue? raw with
    | none => []
    | some role => (rolePermissions role).map Permission.value

theorem mem_permissionsForRoles {roles : List String} {p : Permission} :
    p.value ∈ permissionsForRoles roles ↔ ∃ r : Role, r.value ∈ roles ∧ p ∈ rolePermissions r := by
  simp only [permissionsForRoles, List.mem_flatMap]
  constructor
  · rintro ⟨raw, hraw, hp⟩
    split at hp
    · simp at hp
    · rename_i r hr
      obtain ⟨q, hq, hqp⟩ := List.mem_map.1 hp
      exact ⟨r, Role.ofValue?_eq_some.1 hr ▸ hraw, Permission.value_injective hqp ▸ hq⟩
  · rintro ⟨r, hr, hp⟩
    exact ⟨r.value, hr, by rw [Role.ofValue?_eq_some.2 rfl]; exact List.mem_map_of_mem hp⟩

end BankingAi
