import BankingAi.Services.SeedSpec

/-!
# Seeding is a repairing closure

Seeding joins what a database grants with the catalogue, so the seeded databases are those above the catalogue, and
seeding one of them changes nothing. A run of seeds after a first one only ever adds the admin user, once, and only if
the email was free.
-/

namespace BankingAi

/-- The codes, the role names, and the codes that are granted to each name. -/
abbrev AccessModel := Set String × Set String × (String → Set String)

/-- The users with their roles. -/
def IamDatabase.iam (db : IamDatabase) : Iam where
  users := ⟨db.users, db.unique.emails⟩
  userIds := db.unique.userIds
  roles := db.roles
  userRoles := db.userRoles

def IamTables.view (t : IamTables) : AccessModel :=
  ({code | code ∈ t.permissions.map PermissionRow.code}, {name | name ∈ t.roles.map RoleRow.name},
    fun name => {code | ∃ l ∈ t.rolePermissions, t.Links name code l})

/-- The permissions, the roles and `ROLE_PERMISSIONS`. -/
def catalogue : AccessModel :=
  ({code | ∃ p : Permission, code = p.value}, {name | ∃ role : Role, name = role.value},
    fun name => {code | ∃ role : Role, name = role.value ∧ ∃ p ∈ rolePermissions role, code = p.value})

namespace Seed

open FindOrCreate

/-- What `seed_rbac` does to a database. -/
structure Seeds (db db' : IamDatabase) : Prop where
  users : db'.users = db.users
  userRoles : db'.userRoles = db.userRoles
  permissions : Filled PermissionRow.code (Permission.all.map Permission.value) db.permissions db'.permissions
  roles : Filled RoleRow.name (roleOrder.map Role.value) db.roles db'.roles
  permission : ∀ p : Permission, ∃! row, row ∈ db'.permissions ∧ row.code = p.value
  role : ∀ role : Role, ∃! row, row ∈ db'.roles ∧ row.name = role.value
  rolePermissions : db.rolePermissions <+: db'.rolePermissions
  added : ∀ l ∈ db'.rolePermissions, l ∉ db.rolePermissions →
    ∃ role : Role, ∃ p ∈ BankingAi.rolePermissions role, db'.Links role.value p.value l
  access : db'.view = db.view ⊔ catalogue

theorem mem_roleOrder (role : Role) : role ∈ roleOrder := by
  cases role <;> decide

theorem mem_map_of_all {α β : Type} {l : List α} (hall : ∀ a, a ∈ l) {f : α → β} {b : β} :
    b ∈ l.map f ↔ ∃ a, b = f a := by
  rw [List.mem_map]
  constructor
  · rintro ⟨a, -, rfl⟩
    exact ⟨a, rfl⟩
  · rintro ⟨a, rfl⟩
    exact ⟨a, hall a, rfl⟩

theorem mem_codes {code : String} :
    code ∈ Permission.all.map Permission.value ↔ ∃ p : Permission, code = p.value :=
  mem_map_of_all mem_all

theorem mem_names {name : String} : name ∈ roleOrder.map Role.value ↔ ∃ role : Role, name = role.value :=
  mem_map_of_all mem_roleOrder

section view

variable {db db₁ db₂ : IamDatabase}

theorem view_eq (h₁ : Catalogued Permission.all db db₁) (h₂ : Granted roleOrder db₁ db₂) :
    db₂.view = db.view ⊔ catalogue := by
  refine Prod.ext ?_ (Prod.ext ?_ ?_)
  · ext code
    show code ∈ db₂.permissions.map PermissionRow.code ↔ code ∈ db.permissions.map PermissionRow.code ∨ _
    rw [h₂.permissions, h₁.filled.mem_map]
    exact or_congr_right mem_codes
  · ext name
    show name ∈ db₂.roles.map RoleRow.name ↔ name ∈ db.roles.map RoleRow.name ∨ _
    rw [h₂.filled.mem_map, h₁.roles]
    exact or_congr_right mem_names
  · funext name
    ext code
    have hext : Extends db.toIamTables db₂.toIamTables := h₁.extension.trans h₂.extension
    show (∃ l ∈ db₂.rolePermissions, db₂.Links name code l) ↔
      (∃ l ∈ db.rolePermissions, db.Links name code l) ∨
      ∃ role : Role, name = role.value ∧ ∃ p ∈ rolePermissions role, code = p.value
    constructor
    · rintro ⟨l, hl, hlink⟩
      by_cases hold : l ∈ db.rolePermissions
      · exact .inl ⟨l, hold, hext.links_old hlink hold⟩
      · rw [← h₁.rolePermissions] at hold
        obtain ⟨role, -, p, hp, hadded⟩ := h₂.added l hl hold
        obtain ⟨hname, hcode⟩ := db₂.unique.names_eq hlink hadded
        exact .inr ⟨role, hname, p, hp, hcode⟩
    · rintro (⟨l, hl, hlink⟩ | ⟨role, rfl, p, hp, rfl⟩)
      · exact ⟨l, hext.rolePermissions.subset hl, hext.links hlink⟩
      · exact h₂.complete role (mem_roleOrder role) p hp

end view

theorem seedRbac_eq (order : SetOrder) (db : IamDatabase) :
    ∃ db' : IamDatabase, seedRbac order db.toIamState = .ok (index RoleRow.name db'.roles, db'.toIamState) ∧
      Seeds db db' := by
  obtain ⟨db₁, hpermissions, h₁⟩ := addPermissions_eq Permission.all (by decide) db
  have hall : ∀ p : Permission, p.value ∈ db₁.permissions.map PermissionRow.code := fun p =>
    h₁.filled.mem_map.2 (.inr (mem_codes.2 ⟨p, rfl⟩))
  obtain ⟨db₂, hroles, h₂⟩ := addRoles_eq order roleOrder (by decide) db₁ hall
  have hext : Extends db.toIamTables db₂.toIamTables := h₁.extension.trans h₂.extension
  refine ⟨db₂, ?_, hext.users, hext.userRoles, ?_, ?_, ?_, ?_, hext.rolePermissions, ?_, view_eq h₁ h₂⟩
  · unfold seedRbac
    rw [hpermissions]
    refine except_bind_eq_ok.2 ⟨_, db₁.flush_eq, except_bind_eq_ok.2 ⟨_, hroles, ?_⟩⟩
    exact except_bind_eq_ok.2 ⟨_, db₂.flush_eq, rfl⟩
  · rw [h₂.permissions]
    exact h₁.filled
  · rw [← h₁.roles]
    exact h₂.filled
  · intro p
    rw [h₂.permissions]
    exact existsUnique_of_nodup db₁.unique.codes (hall p)
  · intro role
    exact existsUnique_of_nodup db₂.unique.roleNames (h₂.filled.mem_map.2 (.inr (mem_names.2 ⟨role, rfl⟩)))
  · intro l hl hold
    rw [← h₁.rolePermissions] at hold
    obtain ⟨role, -, h⟩ := h₂.added l hl hold
    exact ⟨role, h⟩

theorem Seeds.closed {db db' : IamDatabase} (h : Seeds db db') : catalogue ≤ db'.view := by
  rw [h.access]
  exact le_sup_right

theorem Seeds.eq_of_closed {db db' : IamDatabase} (h : Seeds db db') (hclosed : catalogue ≤ db.view) :
    db'.toIamTables = db.toIamTables := by
  obtain ⟨hcodes, hnames, hgrants⟩ := hclosed
  have hpermissions : db'.permissions = db.permissions :=
    h.permissions.eq_of_subset fun code hcode => hcodes (mem_codes.1 hcode)
  have hroles : db'.roles = db.roles := h.roles.eq_of_subset fun name hname => hnames (mem_names.1 hname)
  have hlinks : db'.rolePermissions = db.rolePermissions := by
    obtain ⟨new, hnew⟩ := h.rolePermissions
    have hnd := db'.unique.rolePermissions
    rw [← hnew] at hnd
    have hnone : new = [] := by
      refine List.eq_nil_iff_forall_not_mem.2 fun l hl => ?_
      have hold : l ∉ db.rolePermissions := fun hold => (List.nodup_append.1 hnd).2.2 l hold l hl rfl
      obtain ⟨role, p, hp, hlink⟩ := h.added l (hnew ▸ List.mem_append_right _ hl) hold
      obtain ⟨l', hl', hlink'⟩ := hgrants role.value ⟨role, rfl, p, hp, rfl⟩
      have hlink'' : db'.Links role.value p.value l' := by
        unfold IamTables.Links at hlink' ⊢
        rwa [hroles, hpermissions]
      exact hold (db'.unique.link_eq hlink hlink'' ▸ hl')
    rw [← hnew, hnone, List.append_nil]
  exact IamTables.ext h.users hroles hpermissions h.userRoles hlinks

/-! ### The admin user -/

section admin

variable {ctx : CryptContext} {settings : AppSettings} {salt : ℕ} {order : SetOrder}
  {db db' final : IamDatabase} {admin : User}

/-- The admin user is the only addition, with `system_admin` as its role. -/
structure AdminCreated (ctx : CryptContext) (settings : AppSettings) (admin : User) (t : IamTables)
    (db : IamDatabase) : Prop where
  email : admin.email = settings.seedAdminEmail
  password : ∃ salt, admin.hashedPassword = some (hashPassword ctx salt settings.seedAdminPassword)
  active : admin.isActive = true
  users : db.users = t.users ++ [admin]
  userRoles : ∃ role ∈ t.roles, role.name = Role.systemAdmin.value ∧
    db.userRoles = t.userRoles ++ [(admin.id, role.id)]
  roleNames : db.iam.roleNames admin = [Role.systemAdmin.value]
  roles : db.roles = t.roles
  permissions : db.permissions = t.permissions
  rolePermissions : db.rolePermissions = t.rolePermissions

theorem iam_congr (h : final.toIamTables = db.toIamTables) : final.iam = db.iam := by
  obtain ⟨⟨t, n⟩, _, _, _, _, _, _⟩ := db
  obtain ⟨⟨t', n'⟩, _, _, _, _, _, _⟩ := final
  cases h
  rfl

theorem AdminCreated.congr {t : IamTables} (h : AdminCreated ctx settings admin t db)
    (heq : final.toIamTables = db.toIamTables) : AdminCreated ctx settings admin t final where
  email := h.email
  password := h.password
  active := h.active
  users := heq ▸ h.users
  userRoles := heq ▸ h.userRoles
  roleNames := iam_congr heq ▸ h.roleNames
  roles := heq ▸ h.roles
  permissions := heq ▸ h.permissions
  rolePermissions := heq ▸ h.rolePermissions

theorem AdminCreated.view {t : IamTables} (h : AdminCreated ctx settings admin t db) : db.view = t.view := by
  simp only [IamTables.view, IamTables.Links, h.roles, h.permissions, h.rolePermissions]

theorem adminCreated_addUser {role : RoleRow} (hid : admin.id = db.uuid)
    (hemail : admin.email ∉ db.users.map User.email) (hrole : role ∈ db.roles)
    (hname : role.name = Role.systemAdmin.value) (hsettings : admin.email = settings.seedAdminEmail)
    (hpassword : admin.hashedPassword = some (hashPassword ctx salt settings.seedAdminPassword))
    (hactive : admin.isActive = true) :
    AdminCreated ctx settings admin db.toIamTables (db.addUser admin role hid hemail hrole) where
  email := hsettings
  password := ⟨salt, hpassword⟩
  active := hactive
  users := rfl
  userRoles := ⟨role, hrole, hname, rfl⟩
  roleNames := by
    have hfresh : db.userRoles.filter (·.1 = admin.id) = [] := by
      refine List.filter_eq_nil_iff.2 fun l hl heq => ?_
      exact db.ne_uuid (db.userRolesDrawn l hl).1 ((of_decide_eq_true heq).trans hid)
    show ((db.userRoles ++ [(admin.id, role.id)]).filter (·.1 = admin.id)).filterMap _ = _
    rw [List.filter_append, hfresh]
    simp [IamDatabase.iam, IamDatabase.addUser, IamState.addUser, Table.lookup_of_mem db.unique.roleIds hrole,
      hname]
  roles := rfl
  permissions := rfl
  rolePermissions := rfl

/-- What `seed_admin` does: a user with the email is found, or the admin user is created. -/
theorem seedAdmin_eq (ctx : CryptContext) (settings : AppSettings) (salt : ℕ) (order : SetOrder)
    (db : IamDatabase) :
    ∃ user, ∃ seeded db' : IamDatabase,
      seedAdmin ctx settings salt order db.toIamState = .ok (user, db'.toIamState) ∧ Seeds db seeded ∧
      (user ∈ seeded.users ∧ user.email = settings.seedAdminEmail ∧ db' = seeded ∨
        (∀ u ∈ seeded.users, u.email ≠ settings.seedAdminEmail) ∧
          AdminCreated ctx settings user seeded.toIamTables db') := by
  obtain ⟨seeded, hseed, h⟩ := seedRbac_eq order db
  have hquery : Users.scalarOneOrNone (seeded.users.filter (·.email = settings.seedAdminEmail)) =
      .ok (Table.lookup User.email settings.seedAdminEmail seeded.users) := seeded.iam.users.getByEmail_eq _
  cases hlookup : Table.lookup User.email settings.seedAdminEmail seeded.users with
  | some user =>
    obtain ⟨huser, hemail⟩ := Table.lookup_eq_some hlookup
    rw [hlookup] at hquery
    refine ⟨user, seeded, seeded, ?_, h, .inl ⟨huser, hemail, rfl⟩⟩
    exact except_bind_eq_ok.2 ⟨_, hseed, except_bind_eq_ok.2 ⟨_, hquery, rfl⟩⟩
  | none =>
    have hfree : ∀ u ∈ seeded.users, u.email ≠ settings.seedAdminEmail := by
      intro u hu
      simpa using List.find?_eq_none.1 hlookup u hu
    obtain ⟨role, ⟨hrole, hname⟩, -⟩ := h.role .systemAdmin
    have hemail : settings.seedAdminEmail ∉ seeded.users.map User.email := by
      intro hmem
      obtain ⟨u, hu, heq⟩ := List.mem_map.1 hmem
      exact hfree u hu heq
    rw [hlookup] at hquery
    refine ⟨⟨seeded.uuid, settings.seedAdminEmail, some (hashPassword ctx salt settings.seedAdminPassword), true⟩,
      seeded, seeded.addUser _ role rfl hemail hrole, ?_, h,
      .inr ⟨hfree, adminCreated_addUser rfl hemail hrole hname rfl rfl rfl⟩⟩
    refine except_bind_eq_ok.2 ⟨_, hseed, except_bind_eq_ok.2 ⟨_, hquery, ?_⟩⟩
    exact except_bind_eq_ok.2 ⟨role, (getItem_index seeded.unique.roleNames).2 ⟨hrole, hname⟩,
      except_bind_eq_ok.2 ⟨_, (seeded.addUser _ role rfl hemail hrole).flush_eq, rfl⟩⟩

end admin

/-! ### Runs -/

/-- A later call, in a process with its own order of the sets. -/
inductive SeedCall where
  | rbac (order : SetOrder)
  | admin (order : SetOrder) (salt : ℕ)

def SeedCall.IsAdmin : SeedCall → Prop
  | rbac _ => False
  | admin _ _ => True

def SeedCall.run (ctx : CryptContext) (settings : AppSettings) : SeedCall → IamState → Except Exn IamState
  | rbac order, s => do
    let (_, s) ← seedRbac order s
    pure s
  | admin order salt, s => do
    let (_, s) ← seedAdmin ctx settings salt order s
    pure s

def runCalls (ctx : CryptContext) (settings : AppSettings) : List SeedCall → IamState → Except Exn IamState
  | [], s => .ok s
  | call :: calls, s => do
    let s ← call.run ctx settings s
    runCalls ctx settings calls s

section runs

variable (ctx : CryptContext) (settings : AppSettings) {db : IamDatabase}

/-- A call leaves a seeded database as it is, or it creates the admin user. -/
theorem run_eq (hclosed : catalogue ≤ db.view) (call : SeedCall) :
    ∃ db' : IamDatabase, call.run ctx settings db.toIamState = .ok db'.toIamState ∧
      (db'.toIamTables = db.toIamTables ∧ (call.IsAdmin → ∃ u ∈ db.users, u.email = settings.seedAdminEmail) ∨
        call.IsAdmin ∧ (∀ u ∈ db.users, u.email ≠ settings.seedAdminEmail) ∧
          ∃ admin, AdminCreated ctx settings admin db.toIamTables db') := by
  cases call with
  | rbac order =>
    obtain ⟨db', heq, h⟩ := seedRbac_eq order db
    exact ⟨db', except_bind_eq_ok.2 ⟨_, heq, rfl⟩, .inl ⟨h.eq_of_closed hclosed, False.elim⟩⟩
  | admin order salt =>
    obtain ⟨user, seeded, db', heq, h, hcases⟩ := seedAdmin_eq ctx settings salt order db
    have hsame : seeded.toIamTables = db.toIamTables := h.eq_of_closed hclosed
    refine ⟨db', except_bind_eq_ok.2 ⟨_, heq, rfl⟩, ?_⟩
    rcases hcases with ⟨huser, hemail, rfl⟩ | ⟨hfree, hcreated⟩
    · rw [h.users] at huser
      exact .inl ⟨hsame, fun _ => ⟨user, huser, hemail⟩⟩
    · rw [h.users] at hfree
      exact .inr ⟨trivial, hfree, user, hsame ▸ hcreated⟩

theorem runCalls_same (hclosed : catalogue ≤ db.view) {calls : List SeedCall}
    (h : (∃ u ∈ db.users, u.email = settings.seedAdminEmail) ∨ ∀ call ∈ calls, ¬ call.IsAdmin) :
    ∃ final : IamDatabase, runCalls ctx settings calls db.toIamState = .ok final.toIamState ∧
      final.toIamTables = db.toIamTables := by
  induction calls generalizing db with
  | nil => exact ⟨db, rfl, rfl⟩
  | cons call calls ih =>
    obtain ⟨db', hcall, hcases⟩ := run_eq ctx settings hclosed call
    have hsame : db'.toIamTables = db.toIamTables := by
      rcases hcases with ⟨hsame, -⟩ | ⟨hadmin, hfree, -⟩
      · exact hsame
      · rcases h with ⟨u, hu, hemail⟩ | hnone
        · exact absurd hemail (hfree u hu)
        · exact absurd hadmin (hnone call List.mem_cons_self)
    obtain ⟨final, hrun, hfinal⟩ := @ih db' (hsame ▸ hclosed)
      (h.imp (fun h => hsame ▸ h) fun h c hc => h c (List.mem_cons_of_mem _ hc))
    exact ⟨final, except_bind_eq_ok.2 ⟨_, hcall, hrun⟩, hfinal.trans hsame⟩

theorem runCalls_created (hclosed : catalogue ≤ db.view) {calls : List SeedCall}
    (hfree : ∀ u ∈ db.users, u.email ≠ settings.seedAdminEmail) (h : ∃ call ∈ calls, call.IsAdmin) :
    ∃ final : IamDatabase, runCalls ctx settings calls db.toIamState = .ok final.toIamState ∧
      ∃ admin, AdminCreated ctx settings admin db.toIamTables final := by
  induction calls generalizing db with
  | nil =>
    obtain ⟨call, hcall, -⟩ := h
    cases hcall
  | cons call calls ih =>
    obtain ⟨db', hcall, ⟨hsame, hfound⟩ | ⟨-, -, admin, hcreated⟩⟩ := run_eq ctx settings hclosed call
    · have hrest : ∃ c ∈ calls, c.IsAdmin := by
        obtain ⟨c, hc, hadmin⟩ := h
        rcases List.mem_cons.1 hc with rfl | hc
        · obtain ⟨u, hu, hemail⟩ := hfound hadmin
          exact absurd hemail (hfree u hu)
        · exact ⟨c, hc, hadmin⟩
      obtain ⟨final, hrun, admin, hadmin⟩ := @ih db' (hsame ▸ hclosed) (hsame ▸ hfree) hrest
      exact ⟨final, except_bind_eq_ok.2 ⟨_, hcall, hrun⟩, admin, hsame ▸ hadmin⟩
    · have hexists : ∃ u ∈ db'.users, u.email = settings.seedAdminEmail :=
        ⟨admin, by rw [hcreated.users]; exact List.mem_append_right _ (List.mem_singleton_self _), hcreated.email⟩
      obtain ⟨final, hrun, hfinal⟩ := runCalls_same ctx settings (hcreated.view ▸ hclosed) (.inl hexists)
      exact ⟨final, except_bind_eq_ok.2 ⟨_, hcall, hrun⟩, admin, hcreated.congr hfinal⟩

end runs

/-- Whatever calls follow `seed_rbac`, they change nothing, except that the first `seed_admin` creates the admin
user if no user has its email. -/
structure SettledBy (ctx : CryptContext) (settings : AppSettings) (seeded final : IamDatabase)
    (calls : List SeedCall) : Prop where
  same : (∃ u ∈ seeded.users, u.email = settings.seedAdminEmail) ∨ (∀ call ∈ calls, ¬ call.IsAdmin) →
    final.toIamTables = seeded.toIamTables
  created : (∀ u ∈ seeded.users, u.email ≠ settings.seedAdminEmail) → (∃ call ∈ calls, call.IsAdmin) →
    ∃ admin, AdminCreated ctx settings admin seeded.toIamTables final

/-- Seeding repairs every database, and is idempotent. -/
theorem seed_closes (ctx : CryptContext) (settings : AppSettings) (order : SetOrder) (db : IamDatabase) :
    ∃ roles, ∃ seeded : IamDatabase, seedRbac order db.toIamState = .ok (roles, seeded.toIamState) ∧
      Seeds db seeded ∧
      ∀ calls, ∃ final : IamDatabase, runCalls ctx settings calls seeded.toIamState = .ok final.toIamState ∧
        SettledBy ctx settings seeded final calls := by
  obtain ⟨seeded, hseed, h⟩ := seedRbac_eq order db
  refine ⟨_, seeded, hseed, h, fun calls => ?_⟩
  by_cases hsame :
      (∃ u ∈ seeded.users, u.email = settings.seedAdminEmail) ∨ ∀ call ∈ calls, ¬ call.IsAdmin
  · obtain ⟨final, hrun, hfinal⟩ := runCalls_same ctx settings h.closed hsame
    refine ⟨final, hrun, fun _ => hfinal, fun hfree ⟨call, hcall, hadmin⟩ => ?_⟩
    rcases hsame with ⟨u, hu, hemail⟩ | hnone
    · exact absurd hemail (hfree u hu)
    · exact absurd hadmin (hnone call hcall)
  · have hnot := hsame
    push Not at hnot
    obtain ⟨final, hrun, hcreated⟩ := runCalls_created ctx settings h.closed hnot.1 hnot.2
    exact ⟨final, hrun, fun h => absurd h hsame, fun _ _ => hcreated⟩

/-- An empty database, and one with a permission, a role that has it against the catalogue, and a role of another
name. -/
example : ([⟨⟨[], [], [], [], []⟩, 0⟩,
      ⟨⟨[], [⟨⟨0⟩, "auditor"⟩, ⟨⟨1⟩, "teller"⟩], [⟨⟨2⟩, "admin:manage"⟩], [], [(⟨0⟩, ⟨2⟩)]⟩, 3⟩].map fun s =>
    (seedRbac .listed s).toOption.map fun r => (r.2.permissions.length, r.2.roles.length, r.2.rolePermissions.length)) =
    [some (17, 8, 77), some (17, 9, 78)] := by decide +kernel

end Seed
end BankingAi
