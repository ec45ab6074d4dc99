import BankingAi.Api.Auth

/-!
# Refresh tokens presented again

A refresh checks the presented token and the user, and remembers nothing. So a token is accepted as
often as it is presented before it expires and while its user is active.
-/

namespace BankingAi

abbrev AuthTransition := Transition AuthState (AuthOp × (ℕ → ℤ)) (Except Exn (Option TokenPair))

/-- The step is a refresh with the token. -/
def AuthTransition.Presents (t : AuthTransition) (token : String) : Prop :=
  ∃ body cookie, t.input.1 = .refresh body cookie ∧ token = refreshTokenOf body cookie

/-- The step is a refresh that accepts the token. -/
def AuthTransition.Accepts (t : AuthTransition) (token : String) : Prop :=
  t.Presents token ∧ ∃ pair, t.output = .ok (some pair)

/-- The step is a refresh with the token while it is a valid refresh token of an active user. -/
def AuthTransition.PresentsUsable (cfg : AuthConfig) (t : AuthTransition) (token : String) : Prop :=
  t.Presents token ∧ Usable cfg.jwt cfg.settings t.pre.db (t.input.2 0) token

def AuthConfig.jtiOf (cfg : AuthConfig) (token : String) : Option String :=
  (cfg.jwt.claims? cfg.settings.key token).bind (textClaim · "jti")

/-- One token, or two with one `jti`. -/
def SameToken (cfg : AuthConfig) (a b : String) : Prop :=
  a = b ∨ ∃ jti, cfg.jtiOf a = some jti ∧ cfg.jtiOf b = some jti

/-- A token that a refresh accepted is never accepted again. -/
def RefreshedOnce (cfg : AuthConfig) (trace : List AuthTransition) : Prop :=
  trace.Pairwise fun t u => ∀ a b, t.Accepts a → u.Accepts b → ¬ SameToken cfg a b

/-- No token is presented twice while it is usable. -/
def NoReplay (cfg : AuthConfig) (trace : List AuthTransition) : Prop :=
  trace.Pairwise fun t u => ∀ a b, t.PresentsUsable cfg a → u.PresentsUsable cfg b →
    ¬ SameToken cfg a b

section steps

variable {cfg : AuthConfig} {s : AuthState}

theorem reply_db (r : Except Exn (TokenPair × ℕ)) : (s.reply r).2.db = s.db := by
  cases r <;> rfl

theorem refresh_step (hjwt : cfg.jwt.Lawful) {body cookie : Option String} (clock : ℕ → ℤ) :
    (∃ pair, ((authMachine cfg).step s (.refresh body cookie, clock)).1 = .ok (some pair)) ↔
      Usable cfg.jwt cfg.settings s.db (clock 0) (refreshTokenOf body cookie) := by
  constructor
  · rintro ⟨pair, h⟩
    obtain ⟨n, hr⟩ := reply_eq_some h
    obtain ⟨user, husable, -⟩ := (refresh_eq_ok hjwt).1 hr
    exact ⟨user, husable⟩
  · rintro ⟨user, husable⟩
    have hr : cfg.refresh s.db clock body cookie s.nextUuid = _ := (refresh_eq_ok hjwt).2 ⟨user, husable, rfl⟩
    exact ⟨_, congrArg (fun r => (s.reply r).1) hr⟩

theorem accepts_iff (hjwt : cfg.jwt.Lawful) {i : AuthOp × (ℕ → ℤ)} {token : String} :
    AuthTransition.Accepts ((authMachine cfg).fire s i) token ↔
      AuthTransition.PresentsUsable cfg ((authMachine cfg).fire s i) token := by
  obtain ⟨op, clock⟩ := i
  refine and_congr_right fun hpresents => ?_
  obtain ⟨body, cookie, hop, rfl⟩ := hpresents
  obtain rfl : op = .refresh body cookie := hop
  exact refresh_step hjwt clock

end steps

def analyst : User := ⟨⟨0⟩, "analyst@bank.example", some "$secret", true⟩

/-- The refresh token of the analyst's login. -/
def analystToken : String :=
  (UserService.issueTokens numberedTokens devAuth.settings analystIam (fun _ => 0) analyst 2).1.refreshToken

theorem analystToken_usable {now : ℤ} (hissued : 0 ≤ now) (h : now < 1209600) :
    Usable numberedTokens devAuth.settings analystIam now analystToken := by
  refine ⟨analyst, ?_⟩
  unfold analystToken UserService.issueTokens
  exact usableBy_createToken numberedTokens_lawful (List.mem_singleton_self _) rfl hissued (by rw [zero_add]; exact h)

/-- In any run, refresh tokens are accepted at most once if and only if no client presents one again
that is still valid and of an active user. -/
theorem refreshed_once_iff (cfg : AuthConfig) (hjwt : cfg.jwt.Lawful) (s : AuthState)
    (is : List (AuthOp × (ℕ → ℤ))) :
    RefreshedOnce cfg ((authMachine cfg).trace s is) ↔ NoReplay cfg ((authMachine cfg).trace s is) := by
  refine List.Pairwise.iff_of_mem fun {t u} ht hu => ?_
  obtain ⟨js, i, -, rfl⟩ := Machine.mem_trace ht
  obtain ⟨js', i', -, rfl⟩ := Machine.mem_trace hu
  simp only [accepts_iff hjwt]

theorem refreshed_once_iff_login :
    let login : AuthOp × (ℕ → ℤ) := (.login 0 "analyst@bank.example" "secret", fun _ => 0)
    let refresh : AuthOp × (ℕ → ℤ) := (.refresh none (some analystToken), fun _ => 60)
    RefreshedOnce devAuth ((authMachine devAuth).trace ⟨analystIam, 2⟩ [login, refresh]) := by
  intro login refresh
  refine (refreshed_once_iff devAuth numberedTokens_lawful _ _).2 ?_
  refine List.pairwise_pair.2 fun a b ha => ?_
  obtain ⟨⟨body, cookie, hop, -⟩, -⟩ := ha
  cases hop

/-- A minute after a refresh with the token of the login the same token is accepted again. -/
theorem refresh_replayed :
    let login : AuthOp × (ℕ → ℤ) := (.login 0 "analyst@bank.example" "secret", fun _ => 0)
    let refresh (time : ℤ) : AuthOp × (ℕ → ℤ) := (.refresh none (some analystToken), fun _ => time)
    ¬ RefreshedOnce devAuth ((authMachine devAuth).trace ⟨analystIam, 2⟩ [login, refresh 0, refresh 60]) := by
  intro login refresh h
  have haccepts : ∀ (s : AuthState) (time : ℤ), s.db = analystIam → 0 ≤ time → time < 1209600 →
      AuthTransition.Accepts ((authMachine devAuth).fire s (refresh time)) analystToken := by
    intro s time hdb hissued htime
    refine ⟨⟨none, some analystToken, rfl, rfl⟩, (refresh_step numberedTokens_lawful _).2 ?_⟩
    rw [hdb]
    exact analystToken_usable hissued htime
  have hrest := (List.pairwise_cons.1 (List.pairwise_cons.1 h).2).1
  refine hrest _ (List.mem_singleton_self _) analystToken analystToken (haccepts _ 0 ?_ (by decide) (by decide))
    (haccepts _ 60 ?_ (by decide) (by decide)) (.inl rfl)
  · exact reply_db _
  · exact (reply_db _).trans (reply_db _)

end BankingAi
