import BankingAi.Core.Token
import BankingAi.Lib.Fallible
import BankingAi.Services.UserService

/-!
# Issuing and refreshing tokens

`issueTokens` signs an access and a refresh token with the roles the user has at that moment;
`refresh` issues a new pair for an unexpired refresh token of an active user, whom it reads again.
-/

namespace BankingAi

/-- A row of the table `roles`. -/
structure RoleRow where
  id : Uuid
  name : String

/-- The identity tables; `userRoles` has the pairs `(user_id, role_id)`. -/
structure Iam where
  users : Users
  userIds : (users.rows.map User.id).Nodup
  roles : List RoleRow
  userRoles : List (Uuid × Uuid)

namespace Users

def deactivateRows (id : Uuid) (rows : List User) : List User :=
  Table.update User.id id ({ · with isActive := false }) rows

theorem map_deactivateRows {β : Type} {g : User → β} (hg : ∀ u, g { u with isActive := false } = g u)
    (id : Uuid) (rows : List User) : (deactivateRows id rows).map g = rows.map g :=
  Table.map_update fun u _ => hg u

/-- `UPDATE users SET is_active = false WHERE id = ...`. -/
def deactivate (users : Users) (id : Uuid) : Users where
  rows := deactivateRows id users.rows
  unique := by
    rw [map_deactivateRows fun _ => rfl]
    exact users.unique

end Users

namespace Iam

variable (db : Iam)

/-- `user.role_names()`. -/
def roleNames (user : User) : List String :=
  (db.userRoles.filter (·.1 = user.id)).filterMap fun p =>
    (Table.lookup RoleRow.id p.2 db.roles).map RoleRow.name

/-- `select(User).where(User.id == id)`. -/
def getById (id : Uuid) : Except Exn (Option User) :=
  Users.scalarOneOrNone (db.users.rows.filter (·.id = id))

def assignRole (userId roleId : Uuid) : Iam :=
  { db with
    userRoles :=
      if (userId, roleId) ∈ db.userRoles then db.userRoles else db.userRoles ++ [(userId, roleId)] }

def removeRole (userId roleId : Uuid) : Iam :=
  { db with userRoles := db.userRoles.filter (· ≠ (userId, roleId)) }

def deactivate (userId : Uuid) : Iam :=
  { db with
    users := db.users.deactivate userId
    userIds := by
      rw [Users.deactivate, Users.map_deactivateRows fun _ => rfl]
      exact db.userIds }

theorem getById_eq (id : Uuid) : db.getById id = .ok (Table.lookup User.id id db.users.rows) := by
  rw [getById, Table.filter_key db.userIds]
  cases Table.lookup User.id id db.users.rows <;> rfl

theorem getById_eq_some {id : Uuid} {user : User} :
    db.getById id = .ok (some user) ↔ user ∈ db.users.rows ∧ user.id = id := by
  rw [getById_eq]
  constructor
  · intro h
    exact Table.lookup_eq_some (Except.ok.inj h)
  · rintro ⟨hu, rfl⟩
    rw [Table.lookup_of_mem db.userIds hu]

end Iam

structure TokenPair where
  accessToken : String
  refreshToken : String
  tokenType : String
  expiresIn : ℤ

/-- The claims that `issue_tokens` adds. -/
def emailClaim (user : User) : JsonDict := Dict.empty.set "email" (.str user.email)

/-- `uuid.UUID(str(value))`, a `ValueError` being an authentication error. -/
def asUuid (value : String) : Except Exn Uuid :=
  match Uuid.ofStr? value with
  | some id => .ok id
  | none => .error (.new .authentication "Malformed token subject." [])

namespace UserService

variable (jwt : Jwt) (settings : Settings) (db : Iam)

/-- `clock` has the times that are read, in order; `n` is the next draw of `uuid4`, returned with the
pair. -/
def issueTokens (clock : ℕ → ℤ) (user : User) (n : ℕ) : TokenPair × ℕ :=
  let roles := db.roleNames user
  let access := (createToken jwt settings user.id.str roles .access (emailClaim user) (clock 0) ⟨n⟩).1
  let refresh :=
    (createToken jwt settings user.id.str roles .refresh (emailClaim user) (clock 1) ⟨n + 1⟩).1
  (⟨access, refresh, "bearer", settings.securityAccessTokenTtlSeconds⟩, n + 2)

def refresh (clock : ℕ → ℤ) (refreshToken : String) (n : ℕ) : Except Exn (TokenPair × ℕ) := do
  let claims ← decodeToken jwt settings (some .refresh) (clock 0) refreshToken
  let sub ← subjectOf claims
  let id ← asUuid sub
  match ← db.getById id with
  | none => .error (.new .authentication "Refresh subject is no longer valid." [])
  | some user =>
    if !user.isActive then .error (.new .authentication "Refresh subject is no longer valid." [])
    else pure (issueTokens jwt settings db (fun k => clock (k + 1)) user n)

end UserService

/-- The token is an unexpired refresh token of the active user. -/
structure UsableBy (jwt : Jwt) (settings : Settings) (db : Iam) (now : ℤ) (token : String) (user : User) :
    Prop where
  mem : user ∈ db.users.rows
  active : user.isActive = true
  signed : ∃ claims, jwt.claims? settings.key token = some claims ∧
    ClaimsValid requiredClaims now claims ∧ claims.get? "type" = some (.str TokenType.refresh.value) ∧
    ∃ sub, claims.get? "sub" = some (.str sub) ∧ Uuid.ofStr? sub = some user.id

def Usable (jwt : Jwt) (settings : Settings) (db : Iam) (now : ℤ) (token : String) : Prop :=
  ∃ user, UsableBy jwt settings db now token user

section spec

variable {jwt : Jwt} {settings : Settings} {db : Iam} {clock : ℕ → ℤ} {token : String} {n : ℕ}

theorem subjectOf_eq_ok {claims : JsonDict} {sub : String} :
    subjectOf claims = .ok sub ↔ claims.get? "sub" = some (.str sub) := by
  unfold subjectOf
  split
  case h_1 s h => simp [h]
  case h_2 h => exact iff_of_false (by simp) fun h' => h _ h'

theorem asUuid_eq_ok {value : String} {id : Uuid} :
    asUuid value = .ok id ↔ Uuid.ofStr? value = some id := by
  unfold asUuid
  cases Uuid.ofStr? value <;> simp

/-- What `refresh` returns, and when. -/
theorem refresh_eq_ok (hjwt : jwt.Lawful) {r : TokenPair × ℕ} :
    UserService.refresh jwt settings db clock token n = .ok r ↔
      ∃ user, UsableBy jwt settings db (clock 0) token user ∧
        r = UserService.issueTokens jwt settings db (fun k => clock (k + 1)) user n := by
  unfold UserService.refresh
  simp only [except_bind_eq_ok, decodeToken_eq_ok hjwt, subjectOf_eq_ok, asUuid_eq_ok]
  constructor
  · rintro ⟨claims, ⟨hclaims, hvalid, hty⟩, sub, hsub, id, hid, found, hfound, h⟩
    cases found with
    | none => cases h
    | some user =>
      obtain ⟨hmem, rfl⟩ := db.getById_eq_some.1 hfound
      dsimp only at h
      cases hactive : user.isActive with
      | false => rw [hactive] at h; cases h
      | true =>
        rw [hactive] at h
        exact ⟨user, ⟨hmem, hactive, claims, hclaims, hvalid, hty, sub, hsub, hid⟩, (Except.ok.inj h).symm⟩
  · rintro ⟨user, ⟨hmem, hactive, claims, hclaims, hvalid, hty, sub, hsub, hid⟩, rfl⟩
    refine ⟨claims, ⟨hclaims, hvalid, hty⟩, sub, hsub, user.id, hid, some user,
      db.getById_eq_some.2 ⟨hmem, rfl⟩, ?_⟩
    dsimp only
    rw [hactive]
    rfl

end spec

/-- What a token of the user says: its type and the user's roles. -/
structure TokenOf (settings : Settings) (db : Iam) (user : User) (tokenType : TokenType)
    (claims : JsonDict) : Prop where
  subject : claims.get? "sub" = some (.str user.id.str)
  roles : claims.get? "roles" = some (.arr ((db.roleNames user).map .str))
  type : claims.get? "type" = some (.str tokenType.value)
  issuer : claims.get? "iss" = some (.str settings.appName)

section issue

variable {jwt : Jwt} {settings : Settings} {db : Iam} {user : User} {tokenType : TokenType} {issued : ℤ}
  {jti : Uuid}

theorem emailClaim_plain : PlainClaims (emailClaim user) := by
  intro k v h
  rw [emailClaim, Dict.get?_set] at h
  split at h
  · exact Option.some.inj h ▸ .str _
  · cases h

theorem get?_emailClaim {k : String} (h : k ≠ "email") : (emailClaim user).get? k = none := by
  rw [emailClaim, Dict.get?_set, if_neg h]
  rfl

theorem tokenOf_createToken (hjwt : jwt.Lawful) :
    ∃ claims, jwt.claims? settings.key (createToken jwt settings user.id.str (db.roleNames user) tokenType
        (emailClaim user) issued jti).1 = some claims ∧ TokenOf settings db user tokenType claims := by
  refine ⟨_, hjwt.claims?_encode _ _ (tokenPayload_plain emailClaim_plain), ?_⟩
  constructor
  all_goals
    rw [get?_tokenPayload (get?_emailClaim (by decide))]
    unfold basePayload
    rw [Dict.get?_ofList (by simp)]
    simp

theorem get?_issuedPayload {roles : List String} {jti k : String} {v : Json} (hk : k ≠ "email")
    (h : (basePayload settings user.id.str roles tokenType issued jti).get? k = some v) :
    (tokenPayload settings user.id.str roles tokenType (emailClaim user) issued jti).get? k = some v :=
  (get?_tokenPayload (get?_emailClaim hk)).trans h

theorem claimsValid_issuedPayload {roles : List String} {jti : String} {now exp : ℤ} (hissued : issued ≤ now)
    (hexp : (basePayload settings user.id.str roles tokenType issued jti).get? "exp" = some (.int exp))
    (hnow : now < exp) :
    ClaimsValid requiredClaims now
      (tokenPayload settings user.id.str roles tokenType (emailClaim user) issued jti) := by
  set payload := tokenPayload settings user.id.str roles tokenType (emailClaim user) issued jti
  have hsub : payload.get? "sub" = some (.str user.id.str) := get?_issuedPayload (by decide) rfl
  have hjti : payload.get? "jti" = some (.str jti) := get?_issuedPayload (by decide) rfl
  have haud : payload.get? "aud" = none := (get?_tokenPayload (get?_emailClaim (by decide))).trans rfl
  have hiat : payload.get? "iat" = some (.int issued) := get?_issuedPayload (by decide) rfl
  have hnbf : payload.get? "nbf" = some (.int issued) := get?_issuedPayload (by decide) rfl
  have hexp : payload.get? "exp" = some (.int exp) := get?_issuedPayload (by decide) hexp
  exact
    { required := fun k hk => by
        simp only [requiredClaims, List.mem_cons, List.not_mem_nil, or_false] at hk
        rcases hk with rfl | rfl | rfl
        · rw [hexp]; rfl
        · rw [hiat]; rfl
        · rw [hsub]; rfl
      subject := fun v hv => ⟨_, Option.some.inj (hv.symm.trans hsub)⟩
      tokenId := fun v hv => ⟨_, Option.some.inj (hv.symm.trans hjti)⟩
      audience := fun v hv => by cases hv.symm.trans haud
      issuedAt := fun v hv => ⟨issued, Option.some.inj (hv.symm.trans hiat) ▸ rfl, hissued⟩
      notBefore := fun v hv => ⟨issued, Option.some.inj (hv.symm.trans hnbf) ▸ rfl, hissued⟩
      unexpired := ⟨_, hexp, _, rfl, hnow⟩ }

/-- An issued refresh token can be used until it expires, or its user is deactivated. -/
theorem usableBy_createToken (hjwt : jwt.Lawful) (hmem : user ∈ db.users.rows)
    (hactive : user.isActive = true) {roles : List String} {now : ℤ} (hissued : issued ≤ now)
    (hnow : now < issued + settings.securityRefreshTokenTtlSeconds) :
    UsableBy jwt settings db now
      (createToken jwt settings user.id.str roles .refresh (emailClaim user) issued jti).1 user := by
  exact ⟨hmem, hactive, _, hjwt.claims?_encode _ _ (tokenPayload_plain emailClaim_plain),
    claimsValid_issuedPayload hissued rfl hnow, get?_issuedPayload (by decide) rfl, user.id.str,
    get?_issuedPayload (by decide) rfl, Uuid.ofStr?_str _⟩

end issue
end BankingAi
