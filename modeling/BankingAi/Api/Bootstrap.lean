import BankingAi.Ai.Factory
import BankingAi.Api.AuthenticatedRuns
import BankingAi.Services.SeedClosure

/-!
# The first login

A new deployment has no user but the one that `seed_admin` creates, so all administration starts there:
under an address that `EmailStr` normalises to the email of the settings, the password of the settings gets
that user a token which every permission check lets through, and no other password does. Hashes verify the
passwords they were made from and no others, as `CryptContext.Lawful` has it.
-/

namespace BankingAi

variable {cfg : AuthConfig} {db : Iam} {user : User}

/-- Under an address with this normal form, only the password gets the user in, if it is one that a login
may send; and then every permission is granted while the token lives. -/
structure AdmittedBy (cfg : AuthConfig) (db : Iam) (email password : String) (id : Uuid) : Prop where
  granted : ∀ address clock salt n, cfg.emailStr address = some email →
    1 ≤ password.length ∧ password.length ≤ 256 →
      ∃ pair, cfg.login db clock salt address password n = .ok (pair, n + 2) ∧
        ∀ now request (permissions : List Permission), extractToken request = .ok pair.accessToken →
          clock 0 ≤ now → now < clock 0 + cfg.settings.securityAccessTokenTtlSeconds →
            ∃ principal, cfg.requirePermissionsDep (permissions.map Permission.value) now request = .ok principal ∧
              principal.userId = id.str
  refused : ∀ address clock salt n other, cfg.emailStr address = some email → other ≠ password →
    ∃ e, cfg.login db clock salt address other n = .error e

theorem login_of_address {address email : String} (haddress : cfg.emailStr address = some email) (clock : ℕ → ℤ)
    (salt : ℕ) (password : String) (n : ℕ) :
    cfg.login db clock salt address password n =
      if 1 ≤ password.length ∧ password.length ≤ 256 then
        UserService.authenticate cfg.ctx db.users salt email password >>= fun user =>
          pure (UserService.issueTokens cfg.jwt cfg.settings db clock user n)
      else .error invalidBody := by
  unfold AuthConfig.login LoginRequest.validate
  rw [haddress]
  dsimp only
  split
  · rfl
  · rfl

theorem authenticate_hashed {ctx : CryptContext} (hctx : ctx.Lawful) {users : Users} (hmem : user ∈ users.rows)
    (hactive : user.isActive = true) {salt : ℕ} {plain : String}
    (hhash : user.hashedPassword = some (hashPassword ctx salt plain)) (salt' : ℕ) (password : String) :
    UserService.authenticate ctx users salt' user.email password =
      if password = plain then .ok user else .error (.new .authentication "Invalid email or password." []) := by
  have hlookup : Table.lookup User.email user.email users.rows = some user := Table.lookup_of_mem users.unique hmem
  have hverify : ∀ p, verifyPassword ctx p (hashPassword ctx salt plain) = true ↔ p = plain := by
    intro p
    rw [verifyPassword_eq_true, hashPassword, hctx.verify_hash]
    simp
  have hne : hashPassword ctx salt plain ≠ "" := by
    intro hempty
    refine hctx.verify_empty plain ?_
    rw [← hempty]
    exact verifyPassword_eq_true.1 ((hverify plain).2 rfl)
  have hstored : storedHash (some user) = some (hashPassword ctx salt plain) := by
    simp [storedHash, hhash, hne]
  rw [authenticate_of_some hlookup, hstored]
  simp only [hactive, Option.elim_some, hverify, true_and]

theorem mem_rolePermissions_systemAdmin (p : Permission) : p ∈ rolePermissions .systemAdmin := by
  cases p <;> decide

theorem admittedBy_of_systemAdmin (hctx : cfg.ctx.Lawful) (hjwt : cfg.jwt.Lawful) (hmem : user ∈ db.users.rows)
    (hactive : user.isActive = true) {salt : ℕ} {plain : String}
    (hhash : user.hashedPassword = some (hashPassword cfg.ctx salt plain))
    (hroles : Role.systemAdmin.value ∈ db.roleNames user) : AdmittedBy cfg db user.email plain user.id where
  granted address clock salt' n haddress hlength := by
    refine ⟨(UserService.issueTokens cfg.jwt cfg.settings db clock user n).1, ?_, ?_⟩
    · rw [login_of_address haddress, if_pos hlength, authenticate_hashed hctx hmem hactive hhash, if_pos rfl]
      rfl
    · intro now request permissions htoken hissued hnow
      obtain ⟨claims, hclaims, hsub, hclaimed⟩ := callerClaims_of_access hjwt htoken hissued hnow
      have hgranted : (Principal.fromClaims claims).require (permissions.map Permission.value) = .ok () := by
        refine Principal.require_eq_ok.2 (List.forall_mem_map.2 fun p _ => ?_)
        show p.value ∈ permissionsForRoles claims.roles
        rw [hclaimed]
        exact mem_permissionsForRoles.2 ⟨.systemAdmin, hroles, mem_rolePermissions_systemAdmin p⟩
      refine ⟨.fromClaims claims, ?_, hsub⟩
      rw [AuthConfig.requirePermissionsDep, AuthConfig.currentPrincipalDep_eq, hclaims]
      exact except_bind_eq_ok.2 ⟨_, rfl, except_bind_eq_ok.2 ⟨_, hgranted, rfl⟩⟩
  refused address clock salt' n other haddress hother := by
    rw [login_of_address haddress]
    split
    · rw [authenticate_hashed hctx hmem hactive hhash, if_neg hother]
      exact ⟨_, rfl⟩
    · exact ⟨_, rfl⟩

/-- Where nobody has the email of the settings yet, `seed_admin` succeeds on whatever else the tables hold,
and the user that it creates is admitted with the password of the settings. -/
theorem seeded_admin_admitted (ctx : CryptContext) (hctx : ctx.Lawful) (jwt : Jwt) (hjwt : jwt.Lawful)
    (emailStr : String → Option String) (settings : AppSettings) (salt : ℕ) (order : Seed.SetOrder) (db : IamDatabase)
    (hfree : ∀ u ∈ db.users, u.email ≠ settings.seedAdminEmail) :
    ∃ admin, ∃ db' : IamDatabase, Seed.seedAdmin ctx settings salt order db.toIamState = .ok (admin, db'.toIamState) ∧
      AdmittedBy ⟨ctx, jwt, settings.toSettings, emailStr⟩ db'.iam settings.seedAdminEmail settings.seedAdminPassword admin.id := by
  obtain ⟨admin, seeded, db', hseed, hseeds, ⟨hadmin, hemail, -⟩ | ⟨-, hcreated⟩⟩ :=
    Seed.seedAdmin_eq ctx settings salt order db
  · rw [hseeds.users] at hadmin
    exact absurd hemail (hfree admin hadmin)
  · obtain ⟨salt', hhash⟩ := hcreated.password
    have hmem : admin ∈ db'.iam.users.rows := by
      show admin ∈ db'.users
      rw [hcreated.users]
      exact List.mem_append_right _ (List.mem_singleton_self admin)
    have hroles : Role.systemAdmin.value ∈ db'.iam.roleNames admin := by
      rw [hcreated.roleNames]
      exact List.mem_singleton_self _
    refine ⟨admin, db', hseed, ?_⟩
    rw [← hcreated.email]
    exact admittedBy_of_systemAdmin hctx hjwt hmem hcreated.active hhash hroles

/-- Tables without rows. -/
def emptyIam : IamDatabase where
  toIamState := ⟨⟨[], [], [], [], []⟩, 0⟩
  unique := by decide
  usersDrawn _ h := absurd h List.not_mem_nil
  rolesDrawn _ h := absurd h List.not_mem_nil
  permissionsDrawn _ h := absurd h List.not_mem_nil
  userRolesDrawn _ h := absurd h List.not_mem_nil
  rolePermissionsDrawn _ h := absurd h List.not_mem_nil

/-- The administrator of the default settings logs in. -/
theorem seeded_admin_admitted_empty :
    let settings := Ai.production "groq" "local_gemma"
    let cfg : AuthConfig := ⟨markedHashes, numberedTokens, settings.toSettings, some⟩
    ∃ admin, ∃ db' : IamDatabase, Seed.seedAdmin markedHashes settings 1 .listed emptyIam.toIamState =
        .ok (admin, db'.toIamState) ∧
      (∃ pair, cfg.login db'.iam (fun _ => 0) 2 "admin@local.dev" "Admin123!Local" 0 = .ok (pair, 2)) ∧
        AdmittedBy cfg db'.iam settings.seedAdminEmail settings.seedAdminPassword admin.id := by
  intro settings cfg
  obtain ⟨admin, db', hseed, hadmitted⟩ := seeded_admin_admitted markedHashes markedHashes_lawful numberedTokens
    numberedTokens_lawful some (Ai.production "groq" "local_gemma") 1 .listed emptyIam
    fun _ h => absurd h List.not_mem_nil
  obtain ⟨pair, hpair, -⟩ := hadmitted.granted "admin@local.dev" (fun _ => 0) 2 0 rfl (by decide)
  exact ⟨admin, db', hseed, ⟨pair, hpair⟩, hadmitted⟩

end BankingAi
