import Mathlib.Data.Set.Lattice
import BankingAi.Services.Seed

/-!
# What seeding adds

Every operation of the seed keeps the constraints and only appends rows and links (`Extends`). A database grants a code
to a role name by a link between their rows; what `seed_rbac` does to the codes, the names and the grants is to join
them with the catalogue.
-/

namespace BankingAi

/-! ### The operations keep the constraints -/

namespace IamDatabase

variable (db : IamDatabase)

theorem flush_eq : db.toIamState.flush = .ok db.toIamState := if_pos db.unique

theorem nodup_concat {ρ κ : Type} {key : ρ → κ} {t : List ρ} {r : ρ} (h : (t.map key).Nodup)
    (hr : key r ∉ t.map key) : ((t ++ [r]).map key).Nodup := by
  rw [List.map_append, List.map_singleton]
  exact h.append (List.nodup_singleton _) (List.disjoint_singleton.2 hr)

theorem ne_uuid {id : Uuid} (h : id.draw < db.nextUuid) : id ≠ db.uuid := by
  rintro rfl
  exact lt_irrefl _ h

theorem uuid_not_mem {ρ : Type} {id : ρ → Uuid} {t : List ρ} (h : ∀ r ∈ t, (id r).draw < db.nextUuid) :
    db.uuid ∉ t.map id := by
  intro hmem
  obtain ⟨r, hr, heq⟩ := List.mem_map.1 hmem
  exact db.ne_uuid (h r hr) heq

theorem forall_concat {ρ : Type} {id : ρ → Uuid} {t : List ρ} {r : ρ} (h : ∀ r ∈ t, (id r).draw < db.nextUuid)
    (hr : id r = db.uuid) : ∀ x ∈ t ++ [r], (id x).draw < db.nextUuid + 1 := by
  intro x hx
  rcases List.mem_append.1 hx with hx | hx
  · exact Nat.lt_succ_of_lt (h x hx)
  · rw [List.mem_singleton.1 hx, hr]
    exact Nat.lt_succ_self _

theorem forall_succ {ρ : Type} {id : ρ → Uuid} {t : List ρ} (h : ∀ r ∈ t, (id r).draw < db.nextUuid) :
    ∀ x ∈ t, (id x).draw < db.nextUuid + 1 :=
  fun x hx => Nat.lt_succ_of_lt (h x hx)

theorem links_succ {t : List (Uuid × Uuid)} (h : ∀ l ∈ t, l.1.draw < db.nextUuid ∧ l.2.draw < db.nextUuid) :
    ∀ l ∈ t, l.1.draw < db.nextUuid + 1 ∧ l.2.draw < db.nextUuid + 1 :=
  fun l hl => ⟨Nat.lt_succ_of_lt (h l hl).1, Nat.lt_succ_of_lt (h l hl).2⟩

def addPermission (code : String) (hcode : code ∉ db.permissions.map PermissionRow.code) : IamDatabase where
  toIamState := db.toIamState.addPermission ⟨db.uuid, code⟩
  unique :=
    { db.unique with
      permissionIds := nodup_concat db.unique.permissionIds (db.uuid_not_mem db.permissionsDrawn)
      codes := nodup_concat db.unique.codes hcode }
  usersDrawn := db.forall_succ db.usersDrawn
  rolesDrawn := db.forall_succ db.rolesDrawn
  permissionsDrawn := db.forall_concat db.permissionsDrawn rfl
  userRolesDrawn := db.links_succ db.userRolesDrawn
  rolePermissionsDrawn := db.links_succ db.rolePermissionsDrawn

def addRole (name : String) (hname : name ∉ db.roles.map RoleRow.name) : IamDatabase where
  toIamState := db.toIamState.addRole ⟨db.uuid, name⟩
  unique :=
    { db.unique with
      roleIds := nodup_concat db.unique.roleIds (db.uuid_not_mem db.rolesDrawn)
      roleNames := nodup_concat db.unique.roleNames hname }
  usersDrawn := db.forall_succ db.usersDrawn
  rolesDrawn := db.forall_concat db.rolesDrawn rfl
  permissionsDrawn := db.forall_succ db.permissionsDrawn
  userRolesDrawn := db.links_succ db.userRolesDrawn
  rolePermissionsDrawn := db.links_succ db.rolePermissionsDrawn

/-- Permissions of the table that a role has not got can be linked to it. -/
structure Linkable (row : RoleRow) (granted : List PermissionRow) : Prop where
  role : row ∈ db.roles
  subset : ∀ p ∈ granted, p ∈ db.permissions
  nodup : granted.Nodup
  missing : ∀ p ∈ granted, (row.id, p.id) ∉ db.rolePermissions

def link {row : RoleRow} {granted : List PermissionRow} (h : db.Linkable row granted) : IamDatabase where
  toIamState := db.toIamState.link row granted
  unique :=
    { db.unique with
      rolePermissions := by
        refine db.unique.rolePermissions.append (h.nodup.map_on ?_) ?_
        · intro p hp q hq heq
          exact List.inj_on_of_nodup_map db.unique.permissionIds (h.subset p hp) (h.subset q hq) (Prod.ext_iff.1 heq).2
        · intro l hl hnew
          obtain ⟨p, hp, rfl⟩ := List.mem_map.1 hnew
          exact h.missing p hp hl }
  usersDrawn := db.usersDrawn
  rolesDrawn := db.rolesDrawn
  permissionsDrawn := db.permissionsDrawn
  userRolesDrawn := db.userRolesDrawn
  rolePermissionsDrawn := by
    intro l hl
    rcases List.mem_append.1 hl with hl | hl
    · exact db.rolePermissionsDrawn l hl
    · obtain ⟨p, hp, rfl⟩ := List.mem_map.1 hl
      exact ⟨db.rolesDrawn row h.role, db.permissionsDrawn p (h.subset p hp)⟩

def addUser (user : User) (role : RoleRow) (hid : user.id = db.uuid) (hemail : user.email ∉ db.users.map User.email)
    (hrole : role ∈ db.roles) : IamDatabase where
  toIamState := db.toIamState.addUser user role
  unique :=
    { db.unique with
      userIds := nodup_concat db.unique.userIds (hid ▸ db.uuid_not_mem db.usersDrawn)
      emails := nodup_concat db.unique.emails hemail
      userRoles := by
        refine db.unique.userRoles.append (List.nodup_singleton _) (List.disjoint_singleton.2 fun hl => ?_)
        exact db.ne_uuid (db.userRolesDrawn _ hl).1 hid }
  usersDrawn := db.forall_concat db.usersDrawn hid
  rolesDrawn := db.forall_succ db.rolesDrawn
  permissionsDrawn := db.forall_succ db.permissionsDrawn
  userRolesDrawn := by
    intro l hl
    rcases List.mem_append.1 hl with hl | hl
    · exact db.links_succ db.userRolesDrawn l hl
    · rw [List.mem_singleton.1 hl, hid]
      exact ⟨Nat.lt_succ_self _, Nat.lt_succ_of_lt (db.rolesDrawn role hrole)⟩
  rolePermissionsDrawn := db.links_succ db.rolePermissionsDrawn

end IamDatabase

/-! ### Grants -/

namespace IamTables

/-- A link from the role of a name to the permission of a code. -/
def Links (t : IamTables) (name code : String) (l : Uuid × Uuid) : Prop :=
  ∃ r ∈ t.roles, r.name = name ∧ ∃ p ∈ t.permissions, p.code = code ∧ l = (r.id, p.id)

variable {t : IamTables} {name name' code code' : String} {l l' : Uuid × Uuid}

/-- The rows of a name and a code determine their link. -/
theorem Unique.link_eq (h : t.Unique) (hl : t.Links name code l) (hl' : t.Links name code l') : l = l' := by
  obtain ⟨r, hr, hname, p, hp, hcode, rfl⟩ := hl
  obtain ⟨r', hr', hname', p', hp', hcode', rfl⟩ := hl'
  rw [List.inj_on_of_nodup_map h.roleNames hr hr' (hname.trans hname'.symm),
    List.inj_on_of_nodup_map h.codes hp hp' (hcode.trans hcode'.symm)]

theorem Unique.names_eq (h : t.Unique) (hl : t.Links name code l) (hl' : t.Links name' code' l) :
    name = name' ∧ code = code' := by
  obtain ⟨r, hr, rfl, p, hp, rfl, rfl⟩ := hl
  obtain ⟨r', hr', rfl, p', hp', rfl, heq⟩ := hl'
  obtain ⟨hrole, hpermission⟩ := Prod.ext_iff.1 heq
  exact ⟨by rw [List.inj_on_of_nodup_map h.roleIds hr hr' hrole],
    by rw [List.inj_on_of_nodup_map h.permissionIds hp hp' hpermission]⟩

end IamTables

/-- Rows and links are appended, and no old link points to a new row. -/
structure Extends (t t' : IamTables) : Prop where
  users : t'.users = t.users
  userRoles : t'.userRoles = t.userRoles
  roles : t.roles <+: t'.roles
  permissions : t.permissions <+: t'.permissions
  rolePermissions : t.rolePermissions <+: t'.rolePermissions
  newRoles : ∀ r ∈ t'.roles, r ∉ t.roles → ∀ l ∈ t.rolePermissions, l.1 ≠ r.id
  newPermissions : ∀ p ∈ t'.permissions, p ∉ t.permissions → ∀ l ∈ t.rolePermissions, l.2 ≠ p.id

namespace Extends

variable {t t' t'' : IamTables} {name code : String} {l : Uuid × Uuid}

theorem refl : Extends t t :=
  ⟨rfl, rfl, List.prefix_refl _, List.prefix_refl _, List.prefix_refl _, fun _ hr hnot => absurd hr hnot,
    fun _ hp hnot => absurd hp hnot⟩

theorem trans (h : Extends t t') (h' : Extends t' t'') : Extends t t'' where
  users := h'.users.trans h.users
  userRoles := h'.userRoles.trans h.userRoles
  roles := h.roles.trans h'.roles
  permissions := h.permissions.trans h'.permissions
  rolePermissions := h.rolePermissions.trans h'.rolePermissions
  newRoles := by
    intro r hr hnot l hl
    by_cases hr' : r ∈ t'.roles
    · exact h.newRoles r hr' hnot l hl
    · exact h'.newRoles r hr hr' l (h.rolePermissions.subset hl)
  newPermissions := by
    intro p hp hnot l hl
    by_cases hp' : p ∈ t'.permissions
    · exact h.newPermissions p hp' hnot l hl
    · exact h'.newPermissions p hp hp' l (h.rolePermissions.subset hl)

theorem links (h : Extends t t') (hl : t.Links name code l) : t'.Links name code l := by
  obtain ⟨r, hr, hname, p, hp, hcode, heq⟩ := hl
  exact ⟨r, h.roles.subset hr, hname, p, h.permissions.subset hp, hcode, heq⟩

theorem links_old (h : Extends t t') (hl : t'.Links name code l) (hold : l ∈ t.rolePermissions) :
    t.Links name code l := by
  obtain ⟨r, hr, hname, p, hp, hcode, rfl⟩ := hl
  refine ⟨r, ?_, hname, p, ?_, hcode, rfl⟩
  · by_contra hnot
    exact h.newRoles r hr hnot _ hold rfl
  · by_contra hnot
    exact h.newPermissions p hp hnot _ hold rfl

end Extends

namespace IamDatabase

variable (db : IamDatabase)

theorem extends_addPermission {code : String} (h : code ∉ db.permissions.map PermissionRow.code) :
    Extends db.toIamTables (db.addPermission code h).toIamTables where
  users := rfl
  userRoles := rfl
  roles := List.prefix_refl _
  permissions := List.prefix_append _ _
  rolePermissions := List.prefix_refl _
  newRoles _ hr hnot := absurd hr hnot
  newPermissions p hp hnot l hl heq := by
    obtain rfl := List.mem_singleton.1 ((List.mem_append.1 hp).resolve_left hnot)
    exact db.ne_uuid (db.rolePermissionsDrawn l hl).2 heq

theorem extends_addRole {name : String} (h : name ∉ db.roles.map RoleRow.name) :
    Extends db.toIamTables (db.addRole name h).toIamTables where
  users := rfl
  userRoles := rfl
  roles := List.prefix_append _ _
  permissions := List.prefix_refl _
  rolePermissions := List.prefix_refl _
  newRoles r hr hnot l hl heq := by
    obtain rfl := List.mem_singleton.1 ((List.mem_append.1 hr).resolve_left hnot)
    exact db.ne_uuid (db.rolePermissionsDrawn l hl).1 heq
  newPermissions _ hp hnot := absurd hp hnot

theorem extends_link {row : RoleRow} {granted : List PermissionRow} (h : db.Linkable row granted) :
    Extends db.toIamTables (db.link h).toIamTables where
  users := rfl
  userRoles := rfl
  roles := List.prefix_refl _
  permissions := List.prefix_refl _
  rolePermissions := List.prefix_append _ _
  newRoles _ hr hnot := absurd hr hnot
  newPermissions _ hp hnot := absurd hp hnot

end IamDatabase

/-! ### The loop over the permissions -/

namespace Seed

open FindOrCreate

theorem mem_all (p : Permission) : p ∈ Permission.all := by
  cases p <;> decide

/-- The permissions that have no row get one. -/
structure Catalogued (permissions : List Permission) (db db' : IamDatabase) : Prop where
  extension : Extends db.toIamTables db'.toIamTables
  roles : db'.roles = db.roles
  rolePermissions : db'.rolePermissions = db.rolePermissions
  filled : Filled PermissionRow.code (permissions.map Permission.value) db.permissions db'.permissions

theorem index_addPermission {db : IamDatabase} {code : String} (h : code ∉ db.permissions.map PermissionRow.code) :
    index PermissionRow.code (db.addPermission code h).permissions =
      (index PermissionRow.code db.permissions).set code ⟨db.uuid, code⟩ :=
  index_concat

theorem index_addRole {db : IamDatabase} {name : String} (h : name ∉ db.roles.map RoleRow.name) :
    index RoleRow.name (db.addRole name h).roles = (index RoleRow.name db.roles).set name ⟨db.uuid, name⟩ :=
  index_concat

theorem addPermissions_eq (permissions : List Permission) (hnd : permissions.Nodup) (db : IamDatabase) :
    ∃ db' : IamDatabase, addPermissions permissions (index PermissionRow.code db.permissions) db.toIamState =
      (index PermissionRow.code db'.permissions, db'.toIamState) ∧ Catalogued permissions db db' := by
  induction permissions generalizing db with
  | nil => exact ⟨db, rfl, .refl, rfl, rfl, .nil⟩
  | cons permission rest ih =>
    obtain ⟨hnot, hrest⟩ := List.nodup_cons.1 hnd
    have hdisj : [permission.value].Disjoint (rest.map Permission.value) := by
      rw [List.singleton_disjoint, List.mem_map]
      rintro ⟨q, hq, heq⟩
      exact hnot (Permission.value_injective heq ▸ hq)
    have hkeys := mem_keys_index (k := permission.value) db.unique.codes
    rw [addPermissions]
    by_cases hcode : permission.value ∈ db.permissions.map PermissionRow.code
    · obtain ⟨db', heq, h⟩ := ih hrest db
      exact ⟨db', by rw [if_pos (hkeys.2 hcode), heq], h.extension, h.roles, h.rolePermissions,
        (Filled.found hcode).append h.filled hdisj⟩
    · obtain ⟨db', heq, h⟩ := ih hrest (db.addPermission permission.value hcode)
      have hcreated : Filled PermissionRow.code [permission.value] db.permissions
          (db.addPermission permission.value hcode).permissions := .create hcode
      refine ⟨db', ?_, (db.extends_addPermission hcode).trans h.extension, h.roles, h.rolePermissions,
        hcreated.append h.filled hdisj⟩
      rw [if_neg (hkeys.not.2 hcode), ← heq, index_addPermission]
      rfl

/-! ### The loop over the roles -/

theorem getItem_index {ρ : Type} {key : ρ → String} {rows : List ρ} (h : (rows.map key).Nodup) {code : String}
    {r : ρ} :
    getItem (index key rows) code = .ok r ↔ r ∈ rows ∧ key r = code := by
  rw [← get?_index h, getItem]
  cases (index key rows).get? code <;> simp

theorem mapM_getItem {db : IamDatabase} (hall : ∀ p : Permission, p.value ∈ db.permissions.map PermissionRow.code)
    {permissions : List Permission} (hnd : permissions.Nodup) :
    ∃ granted,
      permissions.mapM (fun p => getItem (index PermissionRow.code db.permissions) p.value) = .ok granted ∧
      granted.Nodup ∧ ∀ q, q ∈ granted ↔ q ∈ db.permissions ∧ ∃ p ∈ permissions, q.code = p.value := by
  have hget : ∀ p : Permission, ∃ q, getItem (index PermissionRow.code db.permissions) p.value = .ok q := by
    intro p
    obtain ⟨q, hq, hcode⟩ := List.mem_map.1 (hall p)
    exact ⟨q, (getItem_index db.unique.codes).2 ⟨hq, hcode⟩⟩
  obtain ⟨granted, hgranted⟩ := exists_mapM.2 fun p (_ : p ∈ permissions) => hget p
  refine ⟨granted, hgranted, ?_, fun q => ?_⟩
  · have hcodes : granted.map PermissionRow.code = permissions.map Permission.value :=
      map_of_mapM_eq_ok (fun h => ((getItem_index db.unique.codes).1 h).2) hgranted
    exact List.Nodup.of_map PermissionRow.code (hcodes ▸ hnd.map Permission.value_injective)
  · rw [mem_of_mapM_eq_ok hgranted]
    simp only [getItem_index db.unique.codes]
    constructor
    · rintro ⟨p, hp, hq, hcode⟩
      exact ⟨hq, p, hp, hcode⟩
    · rintro ⟨hq, p, hp, hcode⟩
      exact ⟨p, hp, hq, hcode⟩

/-- The roles have a row and their permissions; no other link is added. -/
structure Granted (roles : List Role) (db db' : IamDatabase) : Prop where
  extension : Extends db.toIamTables db'.toIamTables
  permissions : db'.permissions = db.permissions
  filled : Filled RoleRow.name (roles.map Role.value) db.roles db'.roles
  added : ∀ l ∈ db'.rolePermissions, l ∉ db.rolePermissions →
    ∃ role ∈ roles, ∃ p ∈ rolePermissions role, db'.Links role.value p.value l
  complete : ∀ role ∈ roles, ∀ p ∈ rolePermissions role,
    ∃ l ∈ db'.rolePermissions, db'.Links role.value p.value l

theorem Granted.cons {role : Role} {rest : List Role} {db db₁ db₂ : IamDatabase} (hnot : role ∉ rest)
    (h : Granted [role] db db₁) (h' : Granted rest db₁ db₂) : Granted (role :: rest) db db₂ where
  extension := h.extension.trans h'.extension
  permissions := h'.permissions.trans h.permissions
  filled := by
    refine h.filled.append h'.filled ?_
    rw [List.map_singleton, List.singleton_disjoint, List.mem_map]
    rintro ⟨r, hr, heq⟩
    exact hnot (Role.value_injective heq ▸ hr)
  added := by
    intro l hl hold
    by_cases hmid : l ∈ db₁.rolePermissions
    · obtain ⟨r, hr, p, hp, hlink⟩ := h.added l hmid hold
      exact ⟨r, List.mem_cons.2 (.inl (List.mem_singleton.1 hr)), p, hp, h'.extension.links hlink⟩
    · obtain ⟨r, hr, hlink⟩ := h'.added l hl hmid
      exact ⟨r, List.mem_cons_of_mem _ hr, hlink⟩
  complete := by
    intro r hr p hp
    rcases List.mem_cons.1 hr with rfl | hr
    · obtain ⟨l, hl, hlink⟩ := h.complete r List.mem_cons_self p hp
      exact ⟨l, h'.extension.rolePermissions.subset hl, h'.extension.links hlink⟩
    · exact h'.complete r hr p hp

theorem granted_link {db : IamDatabase} {role : Role} {row : RoleRow} {granted : List PermissionRow}
    (h : db.Linkable row granted) (hname : row.name = role.value)
    (hall : ∀ p : Permission, p.value ∈ db.permissions.map PermissionRow.code)
    (hgranted : ∀ q ∈ db.permissions, (row.id, q.id) ∉ db.rolePermissions →
      (q ∈ granted ↔ ∃ p ∈ rolePermissions role, q.code = p.value)) : Granted [role] db (db.link h) where
  extension := db.extends_link h
  permissions := rfl
  filled := .found (hname ▸ List.mem_map_of_mem h.role)
  added := by
    intro l hl hold
    obtain ⟨q, hq, rfl⟩ := List.mem_map.1 ((List.mem_append.1 hl).resolve_left hold)
    obtain ⟨p, hp, hcode⟩ := (hgranted q (h.subset q hq) hold).1 hq
    exact ⟨role, List.mem_singleton_self _, p, hp, row, h.role, hname, q, h.subset q hq, hcode, rfl⟩
  complete := by
    intro r hr p hp
    obtain rfl := List.mem_singleton.1 hr
    obtain ⟨q, hq, hcode⟩ := List.mem_map.1 (hall p)
    refine ⟨(row.id, q.id), ?_, row, h.role, hname, q, hq, hcode, rfl⟩
    by_cases hold : (row.id, q.id) ∈ db.rolePermissions
    · exact List.mem_append_left _ hold
    · exact List.mem_append_right _ (List.mem_map_of_mem ((hgranted q hq hold).2 ⟨p, hp, hcode⟩))

theorem mem_current {db : IamDatabase} {row : RoleRow} {q : PermissionRow} (hq : q ∈ db.permissions) :
    q.code ∈ (db.permissionsOf row).map PermissionRow.code ↔ (row.id, q.id) ∈ db.rolePermissions := by
  rw [List.mem_map]
  simp only [IamTables.permissionsOf, List.mem_filter, List.any_eq_true, decide_eq_true_eq, exists_eq_right]
  constructor
  · rintro ⟨q', ⟨hq', hlink⟩, hcode⟩
    rwa [List.inj_on_of_nodup_map db.unique.codes hq' hq hcode] at hlink
  · intro hlink
    exact ⟨q, ⟨hq, hlink⟩, rfl⟩

theorem addRole_eq (order : SetOrder) (role : Role) (db : IamDatabase)
    (hall : ∀ p : Permission, p.value ∈ db.permissions.map PermissionRow.code) :
    ∃ db' : IamDatabase, addRole (index PermissionRow.code db.permissions) role (order.permissions role)
      (index RoleRow.name db.roles) db.toIamState = .ok (index RoleRow.name db'.roles, db'.toIamState) ∧
        Granted [role] db db' := by
  unfold addRole
  cases hget : (index RoleRow.name db.roles).get? role.value with
  | none =>
    have hname : role.value ∉ db.roles.map RoleRow.name := by
      rw [← mem_keys_index db.unique.roleNames, ← Dict.exists_get?]
      simp [hget]
    obtain ⟨granted, hmap, hnd, hmem⟩ := mapM_getItem hall (order.nodup role)
    -- no link points to the new row yet
    have hlinkable : (db.addRole role.value hname).Linkable ⟨db.uuid, role.value⟩ granted :=
      ⟨List.mem_append_right _ (List.mem_singleton_self _), fun q hq => ((hmem q).1 hq).1, hnd,
        fun q _ hl => db.ne_uuid (db.rolePermissionsDrawn _ hl).1 rfl⟩
    have hstep : Granted [role] (db.addRole role.value hname) ((db.addRole role.value hname).link hlinkable) :=
      granted_link hlinkable rfl hall fun q hq _ => by
        rw [hmem]
        simp only [order.mem]
        exact ⟨fun h => h.2, fun h => ⟨hq, h⟩⟩
    have hcreated : Filled RoleRow.name [role.value] db.roles (db.addRole role.value hname).roles := .create hname
    refine ⟨(db.addRole role.value hname).link hlinkable, ?_, (db.extends_addRole hname).trans hstep.extension,
      rfl, hcreated, hstep.added, hstep.complete⟩
    refine except_bind_eq_ok.2 ⟨granted, hmap, ?_⟩
    rw [show ((db.addRole role.value hname).link hlinkable).roles = (db.addRole role.value hname).roles from rfl,
      index_addRole]
    rfl
  | some row =>
    obtain ⟨hrow, hname⟩ := (get?_index db.unique.roleNames).1 hget
    obtain ⟨granted, hmap, hnd, hmem⟩ := mapM_getItem hall
      ((order.nodup role).filter (·.value ∉ (db.permissionsOf row).map PermissionRow.code))
    have hmissing : ∀ q ∈ db.permissions, (row.id, q.id) ∉ db.rolePermissions →
        (q ∈ granted ↔ ∃ p ∈ rolePermissions role, q.code = p.value) := by
      intro q hq hold
      rw [hmem]
      simp only [List.mem_filter, order.mem, decide_eq_true_eq]
      constructor
      · rintro ⟨-, p, ⟨hp, -⟩, hcode⟩
        exact ⟨p, hp, hcode⟩
      · rintro ⟨p, hp, hcode⟩
        exact ⟨hq, p, ⟨hp, by rwa [← hcode, mem_current hq]⟩, hcode⟩
    have hlinkable : db.Linkable row granted := by
      refine ⟨hrow, fun q hq => ((hmem q).1 hq).1, hnd, fun q hq => ?_⟩
      obtain ⟨hq, p, hp, hcode⟩ := (hmem q).1 hq
      have hnot := (List.mem_filter.1 hp).2
      rwa [← hcode, decide_eq_true_eq, mem_current hq] at hnot
    refine ⟨db.link hlinkable, ?_, granted_link hlinkable hname hall hmissing⟩
    exact except_bind_eq_ok.2 ⟨granted, hmap, rfl⟩

theorem addRoles_eq (order : SetOrder) (rest : List Role) (hnd : rest.Nodup) (db : IamDatabase)
    (hall : ∀ p : Permission, p.value ∈ db.permissions.map PermissionRow.code) :
    ∃ db' : IamDatabase, addRoles order (index PermissionRow.code db.permissions) rest (index RoleRow.name db.roles)
      db.toIamState = .ok (index RoleRow.name db'.roles, db'.toIamState) ∧ Granted rest db db' := by
  induction rest generalizing db with
  | nil => exact ⟨db, rfl, .refl, rfl, .nil, fun _ hl hold => absurd hl hold, nofun⟩
  | cons role rest ih =>
    obtain ⟨hnot, hrest⟩ := List.nodup_cons.1 hnd
    obtain ⟨db₁, hfirst, hgranted⟩ := addRole_eq order role db hall
    rw [← hgranted.permissions] at hall
    obtain ⟨db₂, hloop, h⟩ := ih hrest db₁ hall
    rw [hgranted.permissions] at hloop
    exact ⟨db₂, except_bind_eq_ok.2 ⟨_, hfirst, hloop⟩, hgranted.cons hnot h⟩

end Seed
end BankingAi
