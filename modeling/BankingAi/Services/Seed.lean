import Mathlib.Data.List.Dedup
import BankingAi.Core.Config
import BankingAi.Lib.FindOrCreate
import BankingAi.Services.TokenService

/-!
# Seeding

`seed_rbac` finds or creates the permissions, the roles and the links between them; `seed_admin` finds or creates the
admin user on top. The rows that are added draw their ids in the order in which they are added.
-/

namespace BankingAi

/-- A row of `permissions`. -/
structure PermissionRow where
  id : Uuid
  code : String
deriving DecidableEq

/-- The identity tables with the permissions; `rolePermissions` has the pairs `(role_id, permission_id)`. -/
@[ext] structure IamTables where
  users : List User
  roles : List RoleRow
  permissions : List PermissionRow
  userRoles : List (Uuid × Uuid)
  rolePermissions : List (Uuid × Uuid)

namespace IamTables

/-- The uniqueness constraints of the schema. -/
structure Unique (t : IamTables) : Prop where
  userIds : (t.users.map User.id).Nodup
  emails : (t.users.map User.email).Nodup
  roleIds : (t.roles.map RoleRow.id).Nodup
  roleNames : (t.roles.map RoleRow.name).Nodup
  permissionIds : (t.permissions.map PermissionRow.id).Nodup
  codes : (t.permissions.map PermissionRow.code).Nodup
  userRoles : t.userRoles.Nodup
  rolePermissions : t.rolePermissions.Nodup

instance (t : IamTables) : Decidable t.Unique :=
  decidable_of_iff
    ((t.users.map User.id).Nodup ∧ (t.users.map User.email).Nodup ∧ (t.roles.map RoleRow.id).Nodup ∧
      (t.roles.map RoleRow.name).Nodup ∧ (t.permissions.map PermissionRow.id).Nodup ∧
      (t.permissions.map PermissionRow.code).Nodup ∧ t.userRoles.Nodup ∧ t.rolePermissions.Nodup)
    ⟨fun ⟨h1, h2, h3, h4, h5, h6, h7, h8⟩ => ⟨h1, h2, h3, h4, h5, h6, h7, h8⟩,
      fun h => ⟨h.1, h.2, h.3, h.4, h.5, h.6, h.7, h.8⟩⟩

/-- `role.permissions`, joined over the links. -/
def permissionsOf (t : IamTables) (row : RoleRow) : List PermissionRow :=
  t.permissions.filter fun p => t.rolePermissions.any (· = (row.id, p.id))

end IamTables

/-- The tables as a session sees them, and the next draw of `uuid4`. -/
structure IamState extends IamTables where
  nextUuid : ℕ

/-- A database that meets the constraints, none of whose ids is still to be drawn. -/
structure IamDatabase extends IamState where
  unique : toIamTables.Unique
  usersDrawn : ∀ u ∈ users, u.id.draw < nextUuid
  rolesDrawn : ∀ r ∈ roles, r.id.draw < nextUuid
  permissionsDrawn : ∀ p ∈ permissions, p.id.draw < nextUuid
  userRolesDrawn : ∀ l ∈ userRoles, l.1.draw < nextUuid ∧ l.2.draw < nextUuid
  rolePermissionsDrawn : ∀ l ∈ rolePermissions, l.1.draw < nextUuid ∧ l.2.draw < nextUuid

namespace IamState

/-- `session.flush()`. -/
def flush (s : IamState) : Except Exn IamState :=
  if s.Unique then .ok s else .error (.other "IntegrityError" "UNIQUE constraint failed")

def uuid (s : IamState) : Uuid := ⟨s.nextUuid⟩

def addPermission (s : IamState) (row : PermissionRow) : IamState :=
  { s with permissions := s.permissions ++ [row], nextUuid := s.nextUuid + 1 }

def addRole (s : IamState) (row : RoleRow) : IamState :=
  { s with roles := s.roles ++ [row], nextUuid := s.nextUuid + 1 }

/-- The links from a role to permissions that are put into its collection. -/
def link (s : IamState) (row : RoleRow) (permissions : List PermissionRow) : IamState :=
  { s with rolePermissions := s.rolePermissions ++ permissions.map fun p => (row.id, p.id) }

def addUser (s : IamState) (user : User) (role : RoleRow) : IamState :=
  { s with
    users := s.users ++ [user]
    userRoles := s.userRoles ++ [(user.id, role.id)]
    nextUuid := s.nextUuid + 1 }

end IamState

namespace Seed

/-- `d[code]`. -/
def getItem {ρ : Type} (d : Dict String ρ) (code : String) : Except Exn ρ :=
  match d.get? code with
  | some row => .ok row
  | none => .error (.other "KeyError" s!"'{code}'")

/-- The roles in the order of `ROLE_PERMISSIONS`. -/
def roleOrder : List Role :=
  [.systemAdmin, .manager, .opsExecutive, .customerSupport, .complianceOfficer, .riskAnalyst, .loanOfficer, .auditor]

/-- The order in which each set of `ROLE_PERMISSIONS` is iterated over, which may differ from process to process. -/
structure SetOrder where
  permissions : Role → List Permission
  nodup : ∀ role, (permissions role).Nodup
  mem : ∀ {role p}, p ∈ permissions role ↔ p ∈ rolePermissions role

/-- The order in which the sets are written down. -/
def SetOrder.listed : SetOrder where
  permissions role := (rolePermissions role).dedup
  nodup _ := List.nodup_dedup _
  mem := List.mem_dedup

/-- The loop over the permissions. -/
def addPermissions :
    List Permission → Dict String PermissionRow → IamState → Dict String PermissionRow × IamState
  | [], perms, s => (perms, s)
  | permission :: rest, perms, s =>
    if permission.value ∈ perms.keys then addPermissions rest perms s
    else
      let row : PermissionRow := ⟨s.uuid, permission.value⟩
      addPermissions rest (perms.set permission.value row) (s.addPermission row)

/-- One turn of the loop over the roles. -/
def addRole (perms : Dict String PermissionRow) (role : Role) (permissions : List Permission)
    (roles : Dict String RoleRow) (s : IamState) : Except Exn (Dict String RoleRow × IamState) :=
  match roles.get? role.value with
  | none => do
    let granted ← permissions.mapM fun p => getItem perms p.value
    let row : RoleRow := ⟨s.uuid, role.value⟩
    pure (roles.set role.value row, (s.addRole row).link row granted)
  | some row => do
    let current := (s.permissionsOf row).map PermissionRow.code
    let granted ← (permissions.filter (·.value ∉ current)).mapM fun p => getItem perms p.value
    pure (roles, s.link row granted)

def addRoles (order : SetOrder) (perms : Dict String PermissionRow) :
    List Role → Dict String RoleRow → IamState → Except Exn (Dict String RoleRow × IamState)
  | [], roles, s => .ok (roles, s)
  | role :: rest, roles, s => do
    let (roles, s) ← addRole perms role (order.permissions role) roles s
    addRoles order perms rest roles s

def seedRbac (order : SetOrder) (s : IamState) : Except Exn (Dict String RoleRow × IamState) := do
  let (perms, s) := addPermissions Permission.all (FindOrCreate.index PermissionRow.code s.permissions) s
  let s ← s.flush
  let (roles, s) ← addRoles order perms roleOrder (FindOrCreate.index RoleRow.name s.roles) s
  let s ← s.flush
  pure (roles, s)

def seedAdmin (ctx : CryptContext) (settings : AppSettings) (salt : ℕ) (order : SetOrder) (s : IamState) :
    Except Exn (User × IamState) := do
  let (roles, s) ← seedRbac order s
  match ← Users.scalarOneOrNone (s.users.filter (·.email = settings.seedAdminEmail)) with
  | some existing => pure (existing, s)
  | none =>
    let admin : User :=
      ⟨s.uuid, settings.seedAdminEmail, some (hashPassword ctx salt settings.seedAdminPassword), true⟩
    let role ← getItem roles Role.systemAdmin.value
    let s ← (s.addUser admin role).flush
    pure (admin, s)

end Seed
end BankingAi
