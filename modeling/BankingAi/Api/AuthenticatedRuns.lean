import BankingAi.Api.ExceptionHandlers
import BankingAi.Api.RefreshReplay

/-!
# Requests behind authentication

The whole API: logins and refreshes, administration of the users, and requests that bring a token, one
after another. The
claims of a request are those of its token, wherever the users are by then. So a run does to the records
what the requests with the claims of their tokens do, and whatever a request did goes back, through
refreshes, to a login of its user.
-/

namespace BankingAi

open Posix Review

variable {V S T σ : Type}

/-- What a request asks for, whoever its caller. -/
inductive CallBody where
  | workflow (call : WorkflowCall)
  | upload (filename contentType : Option String) (data : Bytes) (kind : String)

def CallBody.operation (claims : Claims) : CallBody → Operation
  | workflow call => .workflow claims call
  | upload filename contentType data kind => .upload claims filename contentType data kind

/-- A request as it comes in; `now` is when its token is checked. -/
structure ApiCall where
  token : TokenRequest
  now : ℤ
  body : CallBody
  header : Option String
  hex : String
  hexLength : hex.length = 32

def ApiCall.request (call : ApiCall) (claims : Claims) : HttpRequest where
  operation := call.body.operation claims
  header := call.header
  hex := call.hex
  hexLength := call.hexLength

namespace AuthConfig

variable (cfg : AuthConfig)

/-- The claims behind `current_principal_dep`. -/
def callerClaims (now : ℤ) (request : TokenRequest) : Except Exn Claims := do
  let token ← extractToken request
  let payload ← decodeToken cfg.jwt cfg.settings (some .access) now token
  Claims.ofPayload payload

theorem currentPrincipalDep_eq (now : ℤ) (request : TokenRequest) :
    cfg.currentPrincipalDep now request = (cfg.callerClaims now request).map Principal.fromClaims := by
  show _ = Principal.fromClaims <$> cfg.callerClaims now request
  simp only [currentPrincipalDep, callerClaims, map_eq_pure_bind, bind_assoc]

end AuthConfig

/-! ### The system -/

structure SystemState (V : Type) where
  auth : AuthState
  library : LibraryState V

inductive SystemInput where
  | auth (op : AuthOp) (clock : ℕ → ℤ)
  | call (call : ApiCall) (faults : Faults Exn)

abbrev SystemOutput := Except Exn (Option TokenPair ⊕ (WorkflowView ⊕ Document))

/-- One step is an operation of authentication, or a request: who its token does not authenticate is
turned away, any other one is served with the claims of the token. -/
def systemMachine (cfg : AuthConfig) (p : Platform V S σ) (svc : DocumentService V S) :
    Machine (SystemState V) SystemInput SystemOutput where
  step s i :=
    match i with
    | .auth op clock =>
      let r := (authMachine cfg).step s.auth (op, clock)
      (r.1.map .inl, { s with auth := r.2 })
    | .call call faults =>
      match cfg.callerClaims call.now call.token with
      | .error e => (.error e, s)
      | .ok claims =>
        let r := (requestMachine p svc).step s.library (call.request claims, faults)
        (r.1.map .inr, { s with library := r.2 })

section step

variable {cfg : AuthConfig} {p : Platform V S σ} {svc : DocumentService V S} {s : SystemState V} {call : ApiCall}
  {F : Faults Exn}

theorem step_of_refused {e : Exn} (h : cfg.callerClaims call.now call.token = .error e) :
    (systemMachine cfg p svc).step s (.call call F) = (.error e, s) := by
  unfold systemMachine
  dsimp only
  rw [h]

theorem step_of_claims {claims : Claims} (h : cfg.callerClaims call.now call.token = .ok claims) :
    (systemMachine cfg p svc).step s (.call call F) =
      let r := (requestMachine p svc).step s.library (call.request claims, F)
      (r.1.map .inr, { s with library := r.2 }) := by
  unfold systemMachine
  dsimp only
  rw [h]

end step

/-- The requests of a run that their tokens authenticate, with the claims of these. -/
def SystemInput.served? (cfg : AuthConfig) : SystemInput → Option (HttpRequest × Faults Exn)
  | .auth .. => none
  | .call c faults =>
    match cfg.callerClaims c.now c.token with
    | .error _ => none
    | .ok claims => some (c.request claims, faults)

section runs

variable (cfg : AuthConfig) (p : Platform V S σ) (svc : DocumentService V S) (s : SystemState V)

theorem library_run (is : List SystemInput) :
    ((systemMachine cfg p svc).run s is).library =
      (requestMachine p svc).run s.library (is.filterMap (SystemInput.served? cfg)) := by
  induction is generalizing s with
  | nil => rfl
  | cons i is ih =>
    rw [Machine.run, ih]
    cases i with
    | auth op clock =>
      have hserved : SystemInput.served? cfg (.auth op clock) = none := rfl
      rw [List.filterMap_cons_none hserved]
      rfl
    | call call faults =>
      cases hclaims : cfg.callerClaims call.now call.token with
      | error e =>
        have hserved : SystemInput.served? cfg (.call call faults) = none := by
          rw [SystemInput.served?, hclaims]
        rw [List.filterMap_cons_none hserved, Machine.next, step_of_refused hclaims]
      | ok claims =>
        have hserved : SystemInput.served? cfg (.call call faults) = some (call.request claims, faults) := by
          rw [SystemInput.served?, hclaims]
        rw [List.filterMap_cons_some hserved, Machine.next, step_of_claims hclaims, Machine.run]
        rfl

theorem auth_next_call (call : ApiCall) (F : Faults Exn) :
    ((systemMachine cfg p svc).next s (.call call F)).auth = s.auth := by
  unfold Machine.next
  cases hclaims : cfg.callerClaims call.now call.token with
  | error e => rw [step_of_refused hclaims]
  | ok claims => rw [step_of_claims hclaims]

end runs

/-! ### Sessions -/

abbrev SystemTransition (V : Type) := Transition (SystemState V) SystemInput SystemOutput

/-- The time that counts for a step: when the access token of a login or refresh is made, or that of a
request is checked. -/
def SystemInput.time : SystemInput → ℤ
  | .auth (.refresh ..) clock => clock 1
  | .auth _ clock => clock 0
  | .call c _ => c.now

/-- The token that a step presents. -/
def SystemInput.presented? : SystemInput → Option String
  | .auth (.refresh body cookie) _ => some (refreshTokenOf body cookie)
  | .auth .. => none
  | .call c _ => (extractToken c.token).toOption

/-- Both are signed with the key and say the same: a signature can be spelled in several ways. -/
def AuthConfig.SameClaims (cfg : AuthConfig) (token token' : String) : Prop :=
  ∃ payload, cfg.jwt.claims? cfg.settings.key token = some payload ∧
    cfg.jwt.claims? cfg.settings.key token' = some payload

/-- Nobody else has the key: what a presented token says that is signed with it, one says that was issued
before. -/
def Unforged (cfg : AuthConfig) (ts : List (SystemTransition V)) : Prop :=
  ∀ earlier t, earlier ++ [t] <+: ts → ∀ token ∈ t.input.presented?,
    (cfg.jwt.claims? cfg.settings.key token).isSome →
      ∃ t' ∈ earlier, ∃ pair, t'.output = .ok (.inl (some pair)) ∧
        (cfg.SameClaims token pair.accessToken ∨ cfg.SameClaims token pair.refreshToken)

/-- The step issues the pair to an active user, with the roles that the user has. -/
structure Issues (cfg : AuthConfig) (t : SystemTransition V) (user : User) (pair : TokenPair) : Prop where
  output : t.output = .ok (.inl (some pair))
  mem : user ∈ t.pre.auth.db.users.rows
  active : user.isActive = true
  made : ∃ clock n, clock 0 = t.input.time ∧
    pair = (UserService.issueTokens cfg.jwt cfg.settings t.pre.auth.db clock user n).1

/-- Among what happened, `t` issued the pair in a session of the user that a login began which
`authenticate` accepted, and refreshes went on with. -/
inductive InSession (cfg : AuthConfig) : List (SystemTransition V) → Uuid → SystemTransition V → TokenPair → Prop
  | login {ts : List (SystemTransition V)} {t : SystemTransition V} {salt : ℕ} {email password : String}
      {payload : LoginRequest} {clock : ℕ → ℤ} {user : User} {pair : TokenPair}
      (hin : t.input = .auth (.login salt email password) clock)
      (hbody : LoginRequest.validate cfg.emailStr email password = .ok payload)
      (hauth : UserService.authenticate cfg.ctx t.pre.auth.db.users salt payload.email payload.password = .ok user)
      (hissues : Issues cfg t user pair) : InSession cfg (ts ++ [t]) user.id t pair
  | refresh {ts : List (SystemTransition V)} {t₀ t : SystemTransition V} {body cookie : Option String}
      {clock : ℕ → ℤ} {user : User} {pair₀ pair : TokenPair} (h : InSession cfg ts user.id t₀ pair₀)
      (hin : t.input = .auth (.refresh body cookie) clock)
      (htoken : cfg.SameClaims (refreshTokenOf body cookie) pair₀.refreshToken)
      (hissues : Issues cfg t user pair) : InSession cfg (ts ++ [t]) user.id t pair
  | later {ts : List (SystemTransition V)} {t : SystemTransition V} {id : Uuid} {pair : TokenPair}
      (h : InSession cfg ts id t pair) (t' : SystemTransition V) : InSession cfg (ts ++ [t']) id t pair

section tokens

variable {cfg : AuthConfig} {user : User} {roles : List String} {issued : ℤ}

theorem callerClaims_eq_ok (hjwt : cfg.jwt.Lawful) {now : ℤ} {request : TokenRequest} {claims : Claims} :
    cfg.callerClaims now request = .ok claims ↔
      ∃ token payload, extractToken request = .ok token ∧ cfg.jwt.claims? cfg.settings.key token = some payload ∧
        ClaimsValid requiredClaims now payload ∧ payload.get? "type" = some (.str TokenType.access.value) ∧
          Claims.ofPayload payload = .ok claims := by
  simp only [AuthConfig.callerClaims, except_bind_eq_ok, decodeToken_eq_ok hjwt]
  constructor
  · rintro ⟨token, htoken, payload, ⟨hclaims, hvalid, hty⟩, hpayload⟩
    exact ⟨token, payload, htoken, hclaims, hvalid, hty, hpayload⟩
  · rintro ⟨token, payload, htoken, hclaims, hvalid, hty, hpayload⟩
    exact ⟨token, htoken, payload, ⟨hclaims, hvalid, hty⟩, hpayload⟩

theorem callerClaims_of_access (hjwt : cfg.jwt.Lawful) {now : ℤ} {request : TokenRequest} {drawn : Uuid}
    (htoken : extractToken request =
      .ok (createToken cfg.jwt cfg.settings user.id.str roles .access (emailClaim user) issued drawn).1)
    (hissued : issued ≤ now) (hnow : now < issued + cfg.settings.securityAccessTokenTtlSeconds) :
    ∃ claims, cfg.callerClaims now request = .ok claims ∧ claims.sub = user.id.str ∧ claims.roles = roles := by
  let payload := tokenPayload cfg.settings user.id.str roles .access (emailClaim user) issued drawn.hex
  have hsub : payload.get? "sub" = some (.str user.id.str) := get?_issuedPayload (by decide) rfl
  have hvalid : ClaimsValid requiredClaims now payload := claimsValid_issuedPayload hissued rfl hnow
  have hpayload : Claims.ofPayload payload =
      .ok ⟨user.id.str, textClaim payload "email", roles, textClaim payload "jti"⟩ := by
    rw [Claims.ofPayload, rolesOf_strs (get?_issuedPayload (by decide) rfl), subjectOf_eq_ok.2 hsub]
    rfl
  have hsigned : cfg.jwt.claims? cfg.settings.key _ = some payload :=
    hjwt.claims?_encode _ _ (tokenPayload_plain emailClaim_plain)
  exact ⟨_, (callerClaims_eq_ok hjwt).2 ⟨_, payload, htoken, hsigned, hvalid, get?_issuedPayload (by decide) rfl,
    hpayload⟩, rfl, rfl⟩

variable {t : SystemTransition V} {pair : TokenPair}

theorem Issues.signed (hjwt : cfg.jwt.Lawful) (h : Issues cfg t user pair) :
    (∃ jti, cfg.jwt.claims? cfg.settings.key pair.accessToken = some (tokenPayload cfg.settings user.id.str
      (t.pre.auth.db.roleNames user) .access (emailClaim user) t.input.time jti)) ∧
    ∃ issued jti, cfg.jwt.claims? cfg.settings.key pair.refreshToken = some (tokenPayload cfg.settings user.id.str
      (t.pre.auth.db.roleNames user) .refresh (emailClaim user) issued jti) := by
  obtain ⟨clock, n, htime, rfl⟩ := h.made
  rw [← htime]
  exact ⟨⟨_, hjwt.claims?_encode _ _ (tokenPayload_plain emailClaim_plain)⟩, _, _,
    hjwt.claims?_encode _ _ (tokenPayload_plain emailClaim_plain)⟩

/-- A token that says what one of a pair says, and authenticates a request, says what the access token says;
and what the caller is taken for is what its user was. -/
theorem Issues.caller (hjwt : cfg.jwt.Lawful) (h : Issues cfg t user pair) {now : ℤ} {token : String}
    {payload : JsonDict} {claims : Claims}
    (htoken : cfg.SameClaims token pair.accessToken ∨ cfg.SameClaims token pair.refreshToken)
    (hclaims : cfg.jwt.claims? cfg.settings.key token = some payload)
    (hvalid : ClaimsValid requiredClaims now payload)
    (hty : payload.get? "type" = some (.str TokenType.access.value))
    (hpayload : Claims.ofPayload payload = .ok claims) :
    cfg.SameClaims token pair.accessToken ∧ claims.sub = user.id.str ∧ claims.roles = t.pre.auth.db.roleNames user ∧
      now < t.input.time + cfg.settings.securityAccessTokenTtlSeconds := by
  obtain ⟨⟨jti, haccess⟩, issued, jti', hrefresh⟩ := h.signed hjwt
  rcases htoken with ⟨said, htoken, hsaid⟩ | ⟨said, htoken, hsaid⟩
  · obtain rfl := Option.some.inj (hclaims.symm.trans htoken)
    have hsame : cfg.SameClaims token pair.accessToken := ⟨payload, htoken, hsaid⟩
    obtain rfl := Option.some.inj (hsaid.symm.trans haccess)
    obtain ⟨exp, hexp, time, htime, hlt⟩ := hvalid.unexpired
    have hexp' : (tokenPayload cfg.settings user.id.str (t.pre.auth.db.roleNames user) .access (emailClaim user)
        t.input.time jti).get? "exp" = some (.int (t.input.time + cfg.settings.securityAccessTokenTtlSeconds)) :=
      get?_issuedPayload (by decide) rfl
    obtain rfl := Option.some.inj (hexp.symm.trans hexp')
    obtain rfl := Except.ok.inj htime
    rw [Claims.ofPayload, rolesOf_strs (get?_issuedPayload (by decide) rfl),
      subjectOf_eq_ok.2 (get?_issuedPayload (by decide) rfl)] at hpayload
    obtain rfl := Except.ok.inj hpayload
    exact ⟨hsame, rfl, rfl, hlt⟩
  · obtain rfl := Option.some.inj (hclaims.symm.trans htoken)
    obtain rfl := Option.some.inj (hsaid.symm.trans hrefresh)
    have hrefresh' : (tokenPayload cfg.settings user.id.str (t.pre.auth.db.roleNames user) .refresh (emailClaim user)
        issued jti').get? "type" = some (.str TokenType.refresh.value) := get?_issuedPayload (by decide) rfl
    exact absurd hty (type_ne (by decide) hrefresh')

/-- A token that says what one of a pair says, and is taken for a refresh token, names its user. -/
theorem Issues.refreshed (hjwt : cfg.jwt.Lawful) (h : Issues cfg t user pair) {token : String} {payload : JsonDict}
    (htoken : cfg.SameClaims token pair.accessToken ∨ cfg.SameClaims token pair.refreshToken)
    (hclaims : cfg.jwt.claims? cfg.settings.key token = some payload)
    (hty : payload.get? "type" = some (.str TokenType.refresh.value)) {sub : String} {id : Uuid}
    (hsub : payload.get? "sub" = some (.str sub)) (hid : Uuid.ofStr? sub = some id) :
    cfg.SameClaims token pair.refreshToken ∧ id = user.id := by
  obtain ⟨⟨jti, haccess⟩, issued, jti', hrefresh⟩ := h.signed hjwt
  rcases htoken with ⟨said, htoken, hsaid⟩ | ⟨said, htoken, hsaid⟩
  · obtain rfl := Option.some.inj (hclaims.symm.trans htoken)
    obtain rfl := Option.some.inj (hsaid.symm.trans haccess)
    have haccess' : (tokenPayload cfg.settings user.id.str (t.pre.auth.db.roleNames user) .access (emailClaim user)
        t.input.time jti).get? "type" = some (.str TokenType.access.value) := get?_issuedPayload (by decide) rfl
    exact absurd hty (type_ne (by decide) haccess')
  · obtain rfl := Option.some.inj (hclaims.symm.trans htoken)
    have hsame : cfg.SameClaims token pair.refreshToken := ⟨payload, htoken, hsaid⟩
    obtain rfl := Option.some.inj (hsaid.symm.trans hrefresh)
    have hsub' : (tokenPayload cfg.settings user.id.str (t.pre.auth.db.roleNames user) .refresh (emailClaim user)
        issued jti').get? "sub" = some (.str user.id.str) := get?_issuedPayload (by decide) rfl
    obtain rfl := Json.str.inj (Option.some.inj (hsub.symm.trans hsub'))
    rw [Uuid.ofStr?_str] at hid
    exact ⟨hsame, (Option.some.inj hid).symm⟩

end tokens

section steps

variable {cfg : AuthConfig} {p : Platform V S σ} {svc : DocumentService V S} {s : SystemState V} {i : SystemInput}
  {pair : TokenPair}

theorem issues_of_ok (hjwt : cfg.jwt.Lawful) (h : ((systemMachine cfg p svc).step s i).1 = .ok (.inl (some pair))) :
    ∃ user, Issues cfg ((systemMachine cfg p svc).fire s i) user pair ∧
      ((∃ salt email password payload clock, i = .auth (.login salt email password) clock ∧
        LoginRequest.validate cfg.emailStr email password = .ok payload ∧
        UserService.authenticate cfg.ctx s.auth.db.users salt payload.email payload.password = .ok user) ∨
      ∃ body cookie clock, i = .auth (.refresh body cookie) clock ∧
        UsableBy cfg.jwt cfg.settings s.auth.db (clock 0) (refreshTokenOf body cookie) user) := by
  cases i with
  | call call F =>
    cases hclaims : cfg.callerClaims call.now call.token with
    | error e =>
      rw [step_of_refused hclaims] at h
      cases h
    | ok claims =>
      rw [step_of_claims hclaims] at h
      obtain ⟨result, -, hresult⟩ := except_map_eq_ok.1 h
      cases hresult
  | auth op clock =>
    have hmap : ((authMachine cfg).step s.auth (op, clock)).1.map Sum.inl = .ok (.inl (some pair)) := h
    obtain ⟨o, hstep, ho⟩ := except_map_eq_ok.1 hmap
    obtain rfl : o = some pair := Sum.inl.inj ho
    cases op with
    | login salt email password =>
      obtain ⟨n, hr⟩ := reply_eq_some hstep
      obtain ⟨payload, hbody, hlogin⟩ := except_bind_eq_ok.1 hr
      obtain ⟨user, hauth, hpair⟩ := except_bind_eq_ok.1 hlogin
      obtain ⟨hmem, hactive⟩ := authenticate_active hauth
      refine ⟨user, ⟨h, hmem, hactive, clock, s.auth.nextUuid, rfl, ?_⟩,
        .inl ⟨salt, email, password, payload, clock, rfl, hbody, hauth⟩⟩
      exact (congrArg Prod.fst (Except.ok.inj hpair)).symm
    | refresh body cookie =>
      obtain ⟨n, hr⟩ := reply_eq_some hstep
      obtain ⟨user, husable, hpair⟩ := (refresh_eq_ok hjwt).1 hr
      exact ⟨user, ⟨h, husable.mem, husable.active, fun k => clock (k + 1), s.auth.nextUuid, rfl,
        congrArg Prod.fst hpair⟩, .inr ⟨body, cookie, clock, rfl, husable⟩⟩
    | assignRole userId roleId => cases hstep
    | removeRole userId roleId => cases hstep
    | deactivate userId => cases hstep

theorem Unforged.earlier {ts ts' : List (SystemTransition V)} (h : Unforged cfg ts') (hpre : ts <+: ts') :
    Unforged cfg ts := fun earlier t ht => h earlier t (ht.trans hpre)

theorem unforged_concat {ts : List (SystemTransition V)} {t : SystemTransition V} (h : Unforged cfg ts)
    (ht : ∀ token ∈ t.input.presented?, (cfg.jwt.claims? cfg.settings.key token).isSome →
      ∃ t' ∈ ts, ∃ pair, t'.output = .ok (.inl (some pair)) ∧
        (cfg.SameClaims token pair.accessToken ∨ cfg.SameClaims token pair.refreshToken)) :
    Unforged cfg (ts ++ [t]) := by
  intro earlier last hpre
  rcases List.prefix_concat_iff.1 hpre with heq | hpre
  · obtain ⟨rfl, hlast⟩ := List.append_inj' heq rfl
    obtain rfl := List.singleton_inj.1 hlast
    exact ht
  · exact h earlier last hpre

/-- Every pair that a run issued belongs to a session. -/
theorem inSession_run (hjwt : cfg.jwt.Lawful) (is : List SystemInput)
    (hunforged : Unforged cfg ((systemMachine cfg p svc).trace s is)) :
    ∀ t ∈ (systemMachine cfg p svc).trace s is, ∀ pair, t.output = .ok (.inl (some pair)) →
      ∃ user, Issues cfg t user pair ∧ InSession cfg ((systemMachine cfg p svc).trace s is) user.id t pair := by
  induction is using List.reverseRecOn with
  | nil => exact fun t ht => absurd ht List.not_mem_nil
  | append_singleton is i ih =>
    rw [Machine.trace_concat] at hunforged ⊢
    have ih := ih (hunforged.earlier (List.prefix_append _ _))
    intro t ht pair hout
    rcases List.mem_append.1 ht with ht | ht
    · obtain ⟨user, hissues, hsession⟩ := ih t ht pair hout
      exact ⟨user, hissues, hsession.later _⟩
    obtain rfl := List.mem_singleton.1 ht
    obtain ⟨user, hissues, ⟨salt, email, password, payload, clock, rfl, hbody, hauth⟩ |
      ⟨body, cookie, clock, rfl, husable⟩⟩ := issues_of_ok hjwt hout
    · exact ⟨user, hissues, .login rfl hbody hauth hissues⟩
    · -- the refresh token was issued before, to the user that it names
      obtain ⟨payload, hclaims, hvalid, hty, sub, hsub, hid⟩ := husable.signed
      obtain ⟨t₀, ht₀, pair₀, hout₀, htoken⟩ := hunforged _ _ (List.prefix_refl _) (refreshTokenOf body cookie) rfl
        (by rw [hclaims]; rfl)
      obtain ⟨user₀, hissues₀, hsession₀⟩ := ih t₀ ht₀ pair₀ hout₀
      obtain ⟨hrefresh, hsame⟩ := hissues₀.refreshed hjwt htoken hclaims hty hsub hid
      rw [← hsame] at hsession₀
      exact ⟨user, hissues, .refresh hsession₀ rfl hrefresh hissues⟩

end steps

/-! ### Who acts -/

/-- The permission that the endpoint is declared with. -/
def CallBody.permission : CallBody → Permission
  | workflow call => call.permission
  | upload .. => .documentUpload

theorem CallBody.operation_permission (body : CallBody) (claims : Claims) :
    (body.operation claims).permission = body.permission ∧ (body.operation claims).claims = claims := by
  cases body <;> exact ⟨rfl, rfl⟩

section caller

variable (cfg : AuthConfig) (hjwt : cfg.jwt.Lawful) (p : Platform V S σ) (svc : DocumentService V S)
  (s : SystemState V) (is : List SystemInput) {call : ApiCall} {F : Faults Exn}
include hjwt

/-- Who a request is made as has a session, whose access token is at most its lifetime old. -/
theorem caller_inSession
    (hunforged : Unforged cfg ((systemMachine cfg p svc).trace s (is ++ [.call call F]))) {claims : Claims}
    (hclaims : cfg.callerClaims call.now call.token = .ok claims) :
    ∃ user, ∃ t ∈ (systemMachine cfg p svc).trace s is, ∃ pair,
      InSession cfg ((systemMachine cfg p svc).trace s is) user.id t pair ∧ Issues cfg t user pair ∧
        (∃ token, extractToken call.token = .ok token ∧ cfg.SameClaims token pair.accessToken) ∧
        claims.sub = user.id.str ∧
          claims.roles = t.pre.auth.db.roleNames user ∧
            call.now < t.input.time + cfg.settings.securityAccessTokenTtlSeconds := by
  rw [Machine.trace_concat] at hunforged
  obtain ⟨token, payload, htoken, hpayload, hvalid, hty, hof⟩ := (callerClaims_eq_ok hjwt).1 hclaims
  obtain ⟨t, ht, pair, hout, hpair⟩ := hunforged _ _ (List.prefix_refl _) token
    (by show token ∈ (extractToken call.token).toOption; rw [htoken]; rfl) (by rw [hpayload]; rfl)
  have hearlier := hunforged.earlier (List.prefix_append _ _)
  obtain ⟨user, hissues, hsession⟩ := inSession_run hjwt is hearlier t ht pair hout
  obtain ⟨hsame, hsub, hroles, htime⟩ := hissues.caller hjwt hpair hpayload hvalid hty hof
  exact ⟨user, t, ht, pair, hsession, hissues, ⟨token, htoken, hsame⟩, hsub, hroles, htime⟩

end caller

/-- Where tokens cannot be forged, whatever a request does goes back to a login: what its token says was
issued to an active user in a session that began with a login which `authenticate` accepted, is not older
than its lifetime, and the roles that the user had then grant the permission; the user is who the one line names that the
request adds to the audit log. -/
theorem calls_accountable (cfg : AuthConfig) (hjwt : cfg.jwt.Lawful) (p : Platform V S σ) (svc : DocumentService V S)
    (auth : AuthState) (files : FileSystem) (is : List SystemInput) (call : ApiCall) (F : Faults Exn)
    (result : WorkflowView ⊕ Document) :
    let m := systemMachine cfg p svc
    let start : SystemState V := ⟨auth, .start files⟩
    let s := m.run start is
    Unforged cfg (m.trace start (is ++ [.call call F])) → (m.step s (.call call F)).1 = .ok (.inr result) →
      ∃ user t pair, InSession cfg (m.trace start is) user.id t pair ∧ Issues cfg t user pair ∧
        (∃ token, extractToken call.token = .ok token ∧ cfg.SameClaims token pair.accessToken) ∧
        call.now < t.input.time + cfg.settings.securityAccessTokenTtlSeconds ∧
        call.body.permission.value ∈ permissionsForRoles (t.pre.auth.db.roleNames user) ∧
        ∃ line, (m.next s (.call call F)).library.db.trail = s.library.db.trail ++ [line] ∧
          line.actorId = some user.id := by
  intro m start s hunforged hok
  cases hclaims : cfg.callerClaims call.now call.token with
  | error e =>
    rw [step_of_refused hclaims] at hok
    cases hok
  | ok claims =>
    obtain ⟨user, t, -, pair, hsession, hissues, htoken, hsub, hroles, htime⟩ :=
      caller_inSession cfg hjwt p svc start is hunforged hclaims
    have hsound : s.library.Sound p svc := by
      rw [library_run cfg p svc start is]
      exact LibraryState.Sound.run p svc files _
    rw [step_of_claims hclaims] at hok
    obtain ⟨result', hserved, hresult⟩ := except_map_eq_ok.1 hok
    obtain rfl : result' = result := Sum.inr.inj hresult
    obtain ⟨caller, hallowed, hcommits⟩ := HttpRequest.commits_of_ok hsound.consistent.drawn hserved
    obtain ⟨hpermission, hoperation⟩ := call.body.operation_permission claims
    have hcaller : caller = user.id := by
      have huser := hallowed.user
      rw [show (call.request claims).operation.claims = claims from hoperation, hsub, Uuid.ofStr?_str] at huser
      exact (Option.some.inj huser).symm
    refine ⟨user, t, pair, hsession, hissues, htoken, htime, ?_, (call.request claims).line result', ?_, ?_⟩
    · have hperm := hallowed.permission
      rw [show (call.request claims).operation.permission = call.body.permission from hpermission,
        show (call.request claims).operation.claims = claims from hoperation, hroles] at hperm
      exact hperm
    · rw [Machine.next, step_of_claims hclaims]
      exact hcommits.trail hallowed
    · rw [← hcaller]
      exact hallowed.user

theorem extractToken_cookie {token : String} (h : token ≠ "") : extractToken ⟨none, some token⟩ = .ok token := by
  have hheader : ¬ bearerPrefix <+: (Option.getD (none : Option String) "").toList := by decide
  unfold extractToken
  dsimp only
  rw [if_neg hheader, if_neg h]

/-- A manager with a password. -/
def manager : User := ⟨⟨0⟩, "manager@bank.example", some "$secret", true⟩

def managerIam : Iam where
  users := ⟨[manager], by decide⟩
  userIds := by decide
  roles := [⟨⟨1⟩, "manager"⟩]
  userRoles := [(⟨0⟩, ⟨1⟩)]

def managerAuth (jwt : Jwt) : AuthConfig := ⟨markedHashes, jwt, devAuth.settings, some⟩

def managerLogin : SystemInput := .auth (.login 0 "manager@bank.example" "secret") fun _ => 0

def managerPair (jwt : Jwt) : TokenPair :=
  (UserService.issueTokens jwt devAuth.settings managerIam (fun _ => 0) manager 2).1

/-- A minute after the login a workflow is started with its access token. -/
def managerCall (jwt : Jwt) : ApiCall where
  token := ⟨none, some (managerPair jwt).accessToken⟩
  now := 60
  body := .workflow (.start ⟨.kyc, .empty⟩)
  header := none
  hex := "c81d5e0f72a94b36b0d1f4a86e3972c5"
  hexLength := by decide

def managerStart : SystemState ℕ := ⟨⟨managerIam, 2⟩, .start freshFiles⟩

section manager

variable {jwt : Jwt} (hjwt : jwt.Lawful) (htexts : ∀ key payload, jwt.encode key payload ≠ "")

theorem managerLogin_step :
    ((systemMachine (managerAuth jwt) plainPlatform countingService).step managerStart managerLogin).1 =
      .ok (.inl (some (managerPair jwt))) := by
  have hauth : UserService.authenticate markedHashes managerIam.users 0 "manager@bank.example" "secret" =
      .ok manager := rfl
  have hlogin : (managerAuth jwt).login managerIam (fun _ => 0) 0 "manager@bank.example" "secret" 2 =
      .ok (UserService.issueTokens jwt devAuth.settings managerIam (fun _ => 0) manager 2) := by
    unfold AuthConfig.login
    exact except_bind_eq_ok.2 ⟨⟨"manager@bank.example", "secret", by decide⟩, rfl,
      except_bind_eq_ok.2 ⟨manager, hauth, rfl⟩⟩
  exact congrArg (fun r => ((AuthState.reply ⟨managerIam, 2⟩ r).1.map Sum.inl : SystemOutput)) hlogin

theorem unforged_manager {is : List SystemInput} (his : ∀ i ∈ is, i.presented? = none) {call : ApiCall}
    {F : Faults Exn} (hcall : extractToken call.token = .ok (managerPair jwt).accessToken) :
    Unforged (managerAuth jwt) ((systemMachine (managerAuth jwt) plainPlatform countingService).trace managerStart
      (managerLogin :: is ++ [.call call F])) := by
  have hnil : Unforged (managerAuth jwt) ([] : List (SystemTransition ℕ)) := by
    intro earlier t hpre
    simp at hpre
  have hsilent : Unforged (managerAuth jwt)
      ((systemMachine (managerAuth jwt) plainPlatform countingService).trace managerStart (managerLogin :: is)) := by
    induction is using List.reverseRecOn with
    | nil => exact unforged_concat hnil fun token htoken => absurd htoken (by rintro ⟨⟩)
    | append_singleton is i ih =>
      rw [← List.cons_append, Machine.trace_concat]
      refine unforged_concat (ih fun j hj => his j (List.mem_append_left _ hj)) fun token htoken => ?_
      have hnone : i.presented? = none := his i (by simp)
      cases hnone.symm.trans htoken
  rw [Machine.trace_concat]
  refine unforged_concat hsilent fun token htoken hsigned => ?_
  have htoken : token ∈ (extractToken call.token).toOption := htoken
  rw [hcall] at htoken
  obtain rfl : (managerPair jwt).accessToken = token := Option.some.inj htoken
  obtain ⟨payload, hpayload⟩ := Option.isSome_iff_exists.1 hsigned
  exact ⟨_, List.mem_cons_self, managerPair jwt, managerLogin_step, .inl ⟨payload, hpayload, hpayload⟩⟩

include htexts

theorem extractToken_managerCall : extractToken (managerCall jwt).token = .ok (managerPair jwt).accessToken :=
  extractToken_cookie (htexts _ _)

include hjwt

theorem managerCall_ok :
    ∃ result, ((systemMachine (managerAuth jwt) plainPlatform countingService).step
      ((systemMachine (managerAuth jwt) plainPlatform countingService).run managerStart [managerLogin])
        (.call (managerCall jwt) .none)).1 = .ok (.inr result) := by
  generalize hs : (systemMachine (managerAuth jwt) plainPlatform countingService).run managerStart [managerLogin] = s
  have hlibrary : s.library = .start freshFiles := by
    rw [← hs, library_run]
    rfl
  have hissued : (0 : ℤ) ≤ 60 := by decide
  have hnow : (60 : ℤ) < 0 + devAuth.settings.securityAccessTokenTtlSeconds := by decide
  obtain ⟨claims, hclaims, hsub, hroles⟩ : ∃ claims, (managerAuth jwt).callerClaims (managerCall jwt).now
      (managerCall jwt).token = .ok claims ∧ claims.sub = manager.id.str ∧ claims.roles = ["manager"] :=
    callerClaims_of_access hjwt (extractToken_managerCall htexts) hissued hnow
  have hsound : s.library.Sound (plainPlatform.over countingService s.library.world.vectors) countingService := by
    rw [hlibrary]
    exact (LibraryState.Sound.start_files plainPlatform countingService freshFiles).platform _
  have hdone : ((managerCall jwt).request claims).operation.outcome countingService s.library = .done := by
    have hperm : ((managerCall jwt).request claims).operation.permitted = true := by
      show decide (Permission.workflowStart.value ∈ permissionsForRoles claims.roles) = true
      rw [hroles]
      decide
    have hid : Uuid.ofStr? claims.sub ≠ none := by
      rw [hsub, Uuid.ofStr?_str]
      exact Option.some_ne_none _
    exact (if_pos hperm).trans (if_neg hid)
  obtain ⟨result, hresult⟩ := HttpRequest.ok_of_done hsound hdone
  refine ⟨result, ?_⟩
  rw [step_of_claims hclaims]
  exact congrArg (Except.map Sum.inr) hresult

end manager

theorem calls_accountable_manager :
    let m := systemMachine (managerAuth numberedTokens) plainPlatform countingService
    let s := m.run managerStart [managerLogin]
    ∃ user : User, ∃ t pair,
      InSession (managerAuth numberedTokens) (m.trace managerStart [managerLogin]) user.id t pair ∧
        ∃ line, (m.next s (.call (managerCall numberedTokens) .none)).library.db.trail = s.library.db.trail ++ [line] ∧
          line.actorId = some user.id := by
  -- the tokens stay opaque: their numbers are never computed
  have hsession : ∀ jwt : Jwt, jwt.Lawful → (∀ key payload, jwt.encode key payload ≠ "") →
      let m := systemMachine (managerAuth jwt) plainPlatform countingService
      let s := m.run managerStart [managerLogin]
      ∃ user : User, ∃ t pair, InSession (managerAuth jwt) (m.trace managerStart [managerLogin]) user.id t pair ∧
        ∃ line, (m.next s (.call (managerCall jwt) .none)).library.db.trail = s.library.db.trail ++ [line] ∧
          line.actorId = some user.id := by
    intro jwt hjwt htexts m s
    obtain ⟨result, hresult⟩ := managerCall_ok hjwt htexts
    obtain ⟨user, t, pair, hin, -, -, -, -, line, htrail, hactor⟩ :=
      calls_accountable (managerAuth jwt) hjwt plainPlatform countingService ⟨managerIam, 2⟩ freshFiles
        [managerLogin] (managerCall jwt) .none result
          (unforged_manager (List.forall_mem_nil _) (extractToken_managerCall htexts)) hresult
    exact ⟨user, t, pair, hin, line, htrail, hactor⟩
  exact hsession numberedTokens numberedTokens_lawful fun _ _ => Nat.repr_ne_empty

end BankingAi
