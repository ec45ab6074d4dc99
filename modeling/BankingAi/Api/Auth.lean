import BankingAi.Lib.Machine
import BankingAi.Lib.PythonStr
import BankingAi.Services.TokenService

/-!
# Authentication endpoints and dependencies

`POST /auth/login` and `/auth/refresh` issue token pairs; every other endpoint resolves its caller
from an access token in a header or cookie and checks permissions. What `EmailStr` makes of an address is
given. A run interleaves the endpoints
with the assignment and removal of roles and the deactivation of users.
-/

namespace BankingAi

/-- The `authorization` header and the `access_token` cookie of a request. -/
structure TokenRequest where
  authorization : Option String
  accessToken : Option String

def bearerPrefix : List Char := "Bearer ".toList

def extractToken (request : TokenRequest) : Except Exn String :=
  let header := (request.authorization.getD "").toList
  if bearerPrefix <+: header then .ok (Str.strip (String.ofList (header.drop bearerPrefix.length)))
  else
    match request.accessToken with
    | none => .error (.new .authentication "Missing bearer token or session cookie." [])
    | some cookie =>
      if cookie = "" then .error (.new .authentication "Missing bearer token or session cookie." [])
      else .ok cookie

/-- A validated body of a login. -/
structure LoginRequest where
  email : String
  password : String
  password_length : 1 ≤ password.length ∧ password.length ≤ 256

/-- What FastAPI raises for a body that it does not let through. -/
def invalidBody : Exn := .other "RequestValidationError" ""

/-- `emailStr` gives the normal form of an address that it accepts. -/
def LoginRequest.validate (emailStr : String → Option String) (email password : String) : Except Exn LoginRequest :=
  match emailStr email with
  | none => .error invalidBody
  | some email =>
    if h : 1 ≤ password.length ∧ password.length ≤ 256 then .ok ⟨email, password, h⟩ else .error invalidBody

/-- The passwords, the tokens and their settings, and the addresses. -/
structure AuthConfig where
  ctx : CryptContext
  jwt : Jwt
  settings : Settings
  emailStr : String → Option String

namespace AuthConfig

variable (cfg : AuthConfig)

def currentPrincipalDep (now : ℤ) (request : TokenRequest) : Except Exn Principal := do
  let token ← extractToken request
  let claims ← decodeToken cfg.jwt cfg.settings (some .access) now token
  let claims ← Claims.ofPayload claims
  pure (Principal.fromClaims claims)

/-- `require_permissions(*permissions)`. -/
def requirePermissionsDep (permissions : List String) (now : ℤ) (request : TokenRequest) :
    Except Exn Principal := do
  let principal ← cfg.currentPrincipalDep now request
  principal.require permissions
  pure principal

def login (db : Iam) (clock : ℕ → ℤ) (salt : ℕ) (email password : String) (n : ℕ) :
    Except Exn (TokenPair × ℕ) := do
  let payload ← LoginRequest.validate cfg.emailStr email password
  let user ← UserService.authenticate cfg.ctx db.users salt payload.email payload.password
  pure (UserService.issueTokens cfg.jwt cfg.settings db clock user n)

end AuthConfig

/-- `payload.refresh_token or request.cookies.get("refresh_token") or ""`. -/
def refreshTokenOf (body cookie : Option String) : String :=
  match body with
  | some token => if token = "" then cookie.getD "" else token
  | none => cookie.getD ""

def AuthConfig.refresh (cfg : AuthConfig) (db : Iam) (clock : ℕ → ℤ) (body cookie : Option String)
    (n : ℕ) : Except Exn (TokenPair × ℕ) :=
  UserService.refresh cfg.jwt cfg.settings db clock (refreshTokenOf body cookie) n

inductive AuthOp where
  | login (salt : ℕ) (email password : String)
  | refresh (body cookie : Option String)
  | assignRole (userId roleId : Uuid)
  | removeRole (userId roleId : Uuid)
  | deactivate (userId : Uuid)

structure AuthState where
  db : Iam
  nextUuid : ℕ

/-- A request for tokens reads the tables; what it returns comes with the next draw. -/
def AuthState.reply (s : AuthState) :
    Except Exn (TokenPair × ℕ) → Except Exn (Option TokenPair) × AuthState
  | .ok (pair, nextUuid) => (.ok (some pair), { s with nextUuid })
  | .error e => (.error e, s)

/-- One step is an operation with the times it reads. -/
def authMachine (cfg : AuthConfig) :
    Machine AuthState (AuthOp × (ℕ → ℤ)) (Except Exn (Option TokenPair)) where
  step s i :=
    match i.1 with
    | .login salt email password => s.reply (cfg.login s.db i.2 salt email password s.nextUuid)
    | .refresh body cookie => s.reply (cfg.refresh s.db i.2 body cookie s.nextUuid)
    | .assignRole userId roleId => (.ok none, { s with db := s.db.assignRole userId roleId })
    | .removeRole userId roleId => (.ok none, { s with db := s.db.removeRole userId roleId })
    | .deactivate userId => (.ok none, { s with db := s.db.deactivate userId })

/-- The pair is for an active user, with the roles that the tables give the user. -/
structure IssuedFor (cfg : AuthConfig) (db : Iam) (pair : TokenPair) (user : User) : Prop where
  mem : user ∈ db.users.rows
  active : user.isActive = true
  access : ∃ claims, cfg.jwt.claims? cfg.settings.key pair.accessToken = some claims ∧
    TokenOf cfg.settings db user .access claims
  refresh : ∃ claims, cfg.jwt.claims? cfg.settings.key pair.refreshToken = some claims ∧
    TokenOf cfg.settings db user .refresh claims

section issue

variable {cfg : AuthConfig} {s : AuthState} {clock : ℕ → ℤ} {n : ℕ}

theorem issuedFor_issueTokens (hjwt : cfg.jwt.Lawful) {db : Iam} {user : User}
    (hmem : user ∈ db.users.rows) (hactive : user.isActive = true) :
    IssuedFor cfg db (UserService.issueTokens cfg.jwt cfg.settings db clock user n).1 user :=
  ⟨hmem, hactive, tokenOf_createToken hjwt, tokenOf_createToken hjwt⟩

theorem reply_eq_some {r : Except Exn (TokenPair × ℕ)} {pair : TokenPair}
    (h : (s.reply r).1 = .ok (some pair)) : ∃ n, r = .ok (pair, n) := by
  cases r with
  | error e => cases h
  | ok p => cases h; exact ⟨p.2, rfl⟩

theorem authenticate_active {ctx : CryptContext} {users : Users} {salt : ℕ} {email password : String}
    {user : User} (h : UserService.authenticate ctx users salt email password = .ok user) :
    user ∈ users.rows ∧ user.isActive = true := by
  cases hl : Table.lookup User.email email users.rows with
  | none =>
    rw [authenticate_of_none hl] at h
    cases h
  | some found =>
    rw [authenticate_of_some hl] at h
    split at h
    case isTrue hin =>
      obtain rfl := Except.ok.inj h
      exact ⟨(Table.lookup_eq_some hl).1, hin.1⟩
    case isFalse => cases h

theorem issuedFor_step (hjwt : cfg.jwt.Lawful) {i : AuthOp × (ℕ → ℤ)} {pair : TokenPair}
    (h : ((authMachine cfg).step s i).1 = .ok (some pair)) : ∃ user, IssuedFor cfg s.db pair user := by
  obtain ⟨op, clock⟩ := i
  cases op with
  | login salt email password =>
    obtain ⟨n, hr⟩ := reply_eq_some h
    obtain ⟨payload, -, hlogin⟩ := except_bind_eq_ok.1 hr
    obtain ⟨user, hauth, hpair⟩ := except_bind_eq_ok.1 hlogin
    obtain ⟨hmem, hactive⟩ := authenticate_active hauth
    refine ⟨user, ?_⟩
    rw [show pair = (UserService.issueTokens cfg.jwt cfg.settings s.db clock user s.nextUuid).1 from
      (congrArg Prod.fst (Except.ok.inj hpair)).symm]
    exact issuedFor_issueTokens hjwt hmem hactive
  | refresh body cookie =>
    obtain ⟨n, hr⟩ := reply_eq_some h
    obtain ⟨user, husable, hpair⟩ := (refresh_eq_ok hjwt).1 hr
    refine ⟨user, ?_⟩
    rw [show pair = _ from congrArg Prod.fst hpair]
    exact issuedFor_issueTokens hjwt husable.mem husable.active
  | assignRole userId roleId => cases h
  | removeRole userId roleId => cases h
  | deactivate userId => cases h

end issue

section permissions

variable {cfg : AuthConfig} {now : ℤ} {request : TokenRequest} {token : String} {claims : JsonDict}

theorem rolesOf_strs {roles : List String} (h : claims.get? "roles" = some (.arr (roles.map .str))) :
    rolesOf claims = .ok roles := by
  rw [rolesOf, h]
  refine congrArg Except.ok ?_
  rw [List.filterMap_map]
  exact List.filterMap_some

theorem currentPrincipalDep_of_token (htoken : extractToken request = .ok token) :
    cfg.currentPrincipalDep now request =
      (decodeToken cfg.jwt cfg.settings (some .access) now token >>= fun claims =>
        Claims.ofPayload claims >>= fun claims => pure (Principal.fromClaims claims)) := by
  rw [AuthConfig.currentPrincipalDep, htoken]
  rfl

/-- A valid access token passes a permission check if and only if its recognised roles grant every
permission. -/
theorem requirePermissionsDep_ok_iff (hjwt : cfg.jwt.Lawful) (htoken : extractToken request = .ok token)
    (hclaims : cfg.jwt.claims? cfg.settings.key token = some claims)
    (hvalid : ClaimsValid requiredClaims now claims)
    (hty : claims.get? "type" = some (.str TokenType.access.value)) {roles : List String}
    (hroles : claims.get? "roles" = some (.arr (roles.map .str))) (permissions : List Permission) :
    (∃ principal, cfg.requirePermissionsDep (permissions.map Permission.value) now request = .ok principal) ↔
      ∀ p ∈ permissions, ∃ r : Role, r.value ∈ roles ∧ p ∈ rolePermissions r := by
  obtain ⟨sub, hsub⟩ : ∃ sub, claims.get? "sub" = some (.str sub) := by
    obtain ⟨v, hv⟩ := Option.isSome_iff_exists.1 (hvalid.required "sub" (by decide))
    obtain ⟨sub, rfl⟩ := hvalid.subject v hv
    exact ⟨sub, hv⟩
  have hdecode := (decodeToken_eq_ok hjwt).2 ⟨hclaims, hvalid, hty⟩
  have hpayload : Claims.ofPayload claims =
      .ok ⟨sub, textClaim claims "email", roles, textClaim claims "jti"⟩ := by
    rw [Claims.ofPayload, rolesOf_strs hroles, subjectOf_eq_ok.2 hsub]
    rfl
  rw [AuthConfig.requirePermissionsDep, currentPrincipalDep_of_token htoken, hdecode]
  simp only [← mem_permissionsForRoles]
  refine Iff.trans ?_ (List.forall_mem_map (f := Permission.value) (P := (· ∈ permissionsForRoles roles)))
  refine Iff.trans ?_ (@Principal.require_eq_ok
    (.fromClaims ⟨sub, textClaim claims "email", roles, textClaim claims "jti"⟩) _)
  show (∃ principal, (Claims.ofPayload claims >>= fun claims => pure (Principal.fromClaims claims)) >>= _ =
    .ok principal) ↔ _
  rw [hpayload]
  constructor
  · rintro ⟨principal, h⟩
    obtain ⟨_, hfirst, h⟩ := except_bind_eq_ok.1 h
    cases hfirst
    obtain ⟨_, h, -⟩ := except_bind_eq_ok.1 h
    exact h
  · intro h
    exact ⟨_, except_bind_eq_ok.2 ⟨_, rfl, except_bind_eq_ok.2 ⟨_, h, rfl⟩⟩⟩

end permissions

/-- What authentication promises of a run and of every request with a token. -/
structure AuthSound (cfg : AuthConfig) (s : AuthState) (is : List (AuthOp × (ℕ → ℤ))) : Prop where
  issued : ∀ t ∈ (authMachine cfg).trace s is, ∀ pair, t.output = .ok (some pair) →
    ∃ user, IssuedFor cfg t.pre.db pair user
  refreshNotAccess : ∀ now request token claims, extractToken request = .ok token →
    cfg.jwt.claims? cfg.settings.key token = some claims →
    claims.get? "type" = some (.str TokenType.refresh.value) →
      ∃ e, cfg.currentPrincipalDep now request = .error e
  accessNotRefresh : ∀ db clock n token claims, cfg.jwt.claims? cfg.settings.key token = some claims →
    claims.get? "type" = some (.str TokenType.access.value) →
      ∃ e, UserService.refresh cfg.jwt cfg.settings db clock token n = .error e
  permissions : ∀ now request token claims (roles : List String) (permissions : List Permission),
    extractToken request = .ok token →
    cfg.jwt.claims? cfg.settings.key token = some claims → ClaimsValid requiredClaims now claims →
    claims.get? "type" = some (.str TokenType.access.value) →
    claims.get? "roles" = some (.arr (roles.map .str)) →
      ((∃ principal, cfg.requirePermissionsDep (permissions.map Permission.value) now request =
          .ok principal) ↔
        ∀ p ∈ permissions, ∃ r : Role, r.value ∈ roles ∧ p ∈ rolePermissions r)

/-- In every run tokens are issued to active users with their roles, a token of one type is never
taken for the other, and permissions are those of the recognised roles. -/
theorem auth_sound (cfg : AuthConfig) (hjwt : cfg.jwt.Lawful) (s : AuthState)
    (is : List (AuthOp × (ℕ → ℤ))) : AuthSound cfg s is where
  issued t ht pair hpair := by
    obtain ⟨js, i, -, rfl⟩ := Machine.mem_trace ht
    exact issuedFor_step hjwt hpair
  refreshNotAccess now request token claims htoken hclaims hty := by
    have hne := type_ne (by decide : TokenType.refresh ≠ .access) hty
    obtain ⟨e, he⟩ := @decodeToken_of_type_ne cfg.settings _ hjwt _ now _ _ hclaims hne
    exact ⟨e, by rw [currentPrincipalDep_of_token htoken, he]; rfl⟩
  accessNotRefresh db clock n token claims hclaims hty := by
    have hne := type_ne (by decide : TokenType.access ≠ .refresh) hty
    obtain ⟨e, he⟩ := @decodeToken_of_type_ne cfg.settings _ hjwt _ (clock 0) _ _ hclaims hne
    exact ⟨e, by rw [UserService.refresh, he]; rfl⟩
  permissions now request token claims roles permissions htoken hclaims hvalid hty hroles :=
    requirePermissionsDep_ok_iff hjwt htoken hclaims hvalid hty hroles permissions

def devAuth : AuthConfig where
  ctx := markedHashes
  jwt := numberedTokens
  settings := ⟨"Banking AI Platform", "secret", "HS256", 900, 1209600⟩
  emailStr := some

/-- A risk analyst with a password. -/
def analystIam : Iam where
  users := ⟨[⟨⟨0⟩, "analyst@bank.example", some "$secret", true⟩], by decide⟩
  userIds := by decide
  roles := [⟨⟨1⟩, "risk_analyst"⟩]
  userRoles := [(⟨0⟩, ⟨1⟩)]

theorem auth_sound_analyst :
    let op : AuthOp × (ℕ → ℤ) := (.login 0 "analyst@bank.example" "secret", fun _ => 0)
    (∃ pair, ((authMachine devAuth).step ⟨analystIam, 2⟩ op).1 = .ok (some pair)) ∧
      AuthSound devAuth ⟨analystIam, 2⟩ [op, (.deactivate ⟨0⟩, fun _ => 1), op] :=
  ⟨⟨_, rfl⟩, auth_sound devAuth numberedTokens_lawful _ _⟩

end BankingAi
