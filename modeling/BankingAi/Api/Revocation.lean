import BankingAi.Api.AuthenticatedRuns

/-!
# Access that ends

Requests are checked against their tokens and not against the tables, so what is taken from a user works
on in the tokens made before. No longer, though, than an access token lives: a refresh reads the user and
the roles again. So a deactivation and the removal of a role take effect within that time.
-/

namespace BankingAi

open Posix Review

variable {V S T σ : Type}

/-- No user with the id is active. -/
def Iam.Inactive (db : Iam) (id : Uuid) : Prop := ∀ user ∈ db.users.rows, user.id = id → user.isActive = false

/-- The user does not have the role among these. -/
def Iam.Stripped (db : Iam) (roles : List RoleRow) (userId roleId : Uuid) : Prop :=
  db.roles = roles ∧ (userId, roleId) ∉ db.userRoles

theorem Iam.inactive_deactivate (db : Iam) (id : Uuid) : (db.deactivate id).Inactive id := by
  intro user huser hid
  rcases Table.mem_update.1 huser with ⟨-, hne⟩ | ⟨r, -, -, rfl⟩
  · exact absurd hid hne
  · rfl

theorem Iam.Inactive.deactivate {db : Iam} {id : Uuid} (h : db.Inactive id) (id' : Uuid) :
    (db.deactivate id').Inactive id := by
  intro user huser hid
  rcases Table.mem_update.1 huser with ⟨hmem, -⟩ | ⟨r, -, -, rfl⟩
  · exact h user hmem hid
  · rfl

theorem Iam.Stripped.not_mem_roleNames {db : Iam} {roles : List RoleRow} {user : User} {role : RoleRow}
    (h : db.Stripped roles user.id role.id) (hrole : role ∈ roles) (hnames : (roles.map RoleRow.name).Nodup) :
    role.name ∉ db.roleNames user := by
  intro hmem
  obtain ⟨⟨userId, roleId⟩, hpair, hlookup⟩ := List.mem_filterMap.1 hmem
  obtain ⟨hpair, huser⟩ := List.mem_filter.1 hpair
  obtain rfl : userId = user.id := of_decide_eq_true huser
  obtain ⟨found, hfound, hname⟩ := Option.map_eq_some_iff.1 hlookup
  obtain ⟨hmem, hid⟩ := Table.lookup_eq_some hfound
  rw [h.1] at hmem
  obtain rfl := List.inj_on_of_nodup_map hnames hmem hrole hname
  have hid : found.id = roleId := hid
  rw [← hid] at hpair
  exact h.2 hpair

section ends

variable {cfg : AuthConfig} {p : Platform V S σ} {svc : DocumentService V S} {s : SystemState V} {id : Uuid}

theorem db_next (s : SystemState V) (i : SystemInput) :
    ((systemMachine cfg p svc).next s i).auth.db = s.auth.db ∨
      ∃ op clock, i = .auth op clock ∧
        ((∃ userId roleId, op = .assignRole userId roleId ∧
          ((systemMachine cfg p svc).next s i).auth.db = s.auth.db.assignRole userId roleId) ∨
        (∃ userId roleId, op = .removeRole userId roleId ∧
          ((systemMachine cfg p svc).next s i).auth.db = s.auth.db.removeRole userId roleId) ∨
        ∃ userId, op = .deactivate userId ∧
          ((systemMachine cfg p svc).next s i).auth.db = s.auth.db.deactivate userId) := by
  cases i with
  | call call F => exact .inl (congrArg AuthState.db (auth_next_call cfg p svc s call F))
  | auth op clock =>
    cases op with
    | login salt email password => exact .inl (reply_db _)
    | refresh body cookie => exact .inl (reply_db _)
    | assignRole userId roleId => exact .inr ⟨_, clock, rfl, .inl ⟨userId, roleId, rfl, rfl⟩⟩
    | removeRole userId roleId => exact .inr ⟨_, clock, rfl, .inr (.inl ⟨userId, roleId, rfl, rfl⟩)⟩
    | deactivate userId => exact .inr ⟨_, clock, rfl, .inr (.inr ⟨userId, rfl, rfl⟩)⟩

theorem roles_run (cfg : AuthConfig) (p : Platform V S σ) (svc : DocumentService V S) (s : SystemState V)
    (is : List SystemInput) : ((systemMachine cfg p svc).run s is).auth.db.roles = s.auth.db.roles := by
  refine Machine.run_invariant (I := fun s' : SystemState V => s'.auth.db.roles = s.auth.db.roles) (fun s' i h => ?_)
    rfl is
  rcases @db_next _ _ _ cfg p svc s' i with
    heq | ⟨op, clock, rfl, ⟨u, r, -, heq⟩ | ⟨u, r, -, heq⟩ | ⟨u, -, heq⟩⟩
  all_goals
    rw [heq]
    exact h

theorem inactive_next (i : SystemInput) (h : s.auth.db.Inactive id) :
    ((systemMachine cfg p svc).next s i).auth.db.Inactive id := by
  rcases @db_next _ _ _ cfg p svc s i with
    heq | ⟨op, clock, rfl, ⟨u, r, -, heq⟩ | ⟨u, r, -, heq⟩ | ⟨u, -, heq⟩⟩
  · rwa [heq]
  · rw [heq]
    exact h
  · rw [heq]
    exact h
  · rw [heq]
    exact h.deactivate u

theorem stripped_next {roles : List RoleRow} {userId roleId : Uuid} {i : SystemInput}
    (hi : ∀ clock, i ≠ .auth (.assignRole userId roleId) clock) (h : s.auth.db.Stripped roles userId roleId) :
    ((systemMachine cfg p svc).next s i).auth.db.Stripped roles userId roleId := by
  rcases @db_next _ _ _ cfg p svc s i with
    heq | ⟨op, clock, rfl, ⟨u, r, rfl, heq⟩ | ⟨u, r, -, heq⟩ | ⟨u, -, heq⟩⟩
  · rwa [heq]
  · rw [heq]
    refine ⟨h.1, fun hmem => ?_⟩
    unfold Iam.assignRole at hmem
    dsimp only at hmem
    split at hmem
    · exact h.2 hmem
    · rcases List.mem_append.1 hmem with hmem | hmem
      · exact h.2 hmem
      · obtain ⟨rfl, rfl⟩ := Prod.mk.inj (List.mem_singleton.1 hmem)
        exact hi clock rfl
  · rw [heq]
    exact ⟨h.1, fun hmem => h.2 (List.mem_filter.1 hmem).1⟩
  · rw [heq]
    exact h

variable {is js : List SystemInput} {i : SystemInput} {call : ApiCall} {F : Faults Exn}

/-- A request that comes the lifetime of an access token after a step, or later, is made with a token that
was issued after the step. -/
theorem caller_fresh (hjwt : cfg.jwt.Lawful)
    (hunforged : Unforged cfg ((systemMachine cfg p svc).trace s (is ++ i :: js ++ [.call call F])))
    (hpast : ∀ j ∈ is, j.time ≤ i.time)
    (hissues : ∀ s pair, ((systemMachine cfg p svc).step s i).1 ≠ .ok (.inl (some pair)))
    (hnow : i.time + cfg.settings.securityAccessTokenTtlSeconds ≤ call.now) {claims : Claims}
    (hclaims : cfg.callerClaims call.now call.token = .ok claims) :
    ∃ user pair, ∃ t ∈ (systemMachine cfg p svc).trace ((systemMachine cfg p svc).run s (is ++ [i])) js,
      Issues cfg t user pair ∧ claims.sub = user.id.str ∧ claims.roles = t.pre.auth.db.roleNames user := by
  obtain ⟨user, t, ht, pair, -, hissued, -, hsub, hroles, htime⟩ :=
    caller_inSession cfg hjwt p svc s (is ++ i :: js) hunforged hclaims
  refine ⟨user, pair, t, ?_, hissued, hsub, hroles⟩
  rw [Machine.trace_append] at ht
  rcases List.mem_append.1 ht with ht | ht
  · obtain ⟨before, j, hpre, rfl⟩ := Machine.mem_trace ht
    have hle := hpast j (hpre.subset (List.mem_append_right _ (List.mem_singleton_self j)))
    have htime : call.now < j.time + cfg.settings.securityAccessTokenTtlSeconds := htime
    omega
  · rcases List.mem_cons.1 ht with rfl | ht
    · exact absurd hissued.output (hissues _ _)
    · rwa [Machine.run_concat]

end ends

/-- Where tokens cannot be forged, a deactivated user has access no longer than an access token lives: no
request from then on is made as the user, whatever happened before and happens after. -/
theorem deactivation_ends_access (cfg : AuthConfig) (hjwt : cfg.jwt.Lawful) (p : Platform V S σ)
    (svc : DocumentService V S) (s : SystemState V) (is js : List SystemInput) (id : Uuid) (clock : ℕ → ℤ)
    (call : ApiCall) (F : Faults Exn) (hpast : ∀ i ∈ is, i.time ≤ clock 0)
    (hnow : clock 0 + cfg.settings.securityAccessTokenTtlSeconds ≤ call.now)
    (hunforged : Unforged cfg
      ((systemMachine cfg p svc).trace s (is ++ .auth (.deactivate id) clock :: js ++ [.call call F]))) :
    ¬ ∃ claims, cfg.callerClaims call.now call.token = .ok claims ∧ Uuid.ofStr? claims.sub = some id := by
  rintro ⟨claims, hclaims, hid⟩
  obtain ⟨user, pair, t, ht, hissues, hsub, -⟩ := caller_fresh hjwt hunforged hpast nofun hnow hclaims
  rw [hsub, Uuid.ofStr?_str] at hid
  obtain ⟨before, i, -, rfl⟩ := Machine.mem_trace ht
  have hinactive : ((systemMachine cfg p svc).run ((systemMachine cfg p svc).run s
      (is ++ [.auth (.deactivate id) clock])) before).auth.db.Inactive id := by
    refine Machine.run_invariant (I := fun s : SystemState V => s.auth.db.Inactive id)
      (fun s i h => inactive_next i h) ?_ before
    rw [Machine.run_concat]
    exact Iam.inactive_deactivate _ id
  cases hissues.active.symm.trans (hinactive user hissues.mem (Option.some.inj hid))

/-- The token of the login, a quarter of an hour after the user was deactivated. -/
def managerLate (jwt : Jwt) : ApiCall := { managerCall jwt with now := 1000 }

theorem deactivation_ends_access_manager :
    ¬ ∃ claims, (managerAuth numberedTokens).callerClaims 1000 (managerLate numberedTokens).token = .ok claims ∧
      Uuid.ofStr? claims.sub = some manager.id := by
  have hends : ∀ jwt : Jwt, jwt.Lawful → (∀ key payload, jwt.encode key payload ≠ "") →
      ¬ ∃ claims, (managerAuth jwt).callerClaims 1000 (managerLate jwt).token = .ok claims ∧
        Uuid.ofStr? claims.sub = some manager.id := by
    intro jwt hjwt htexts
    refine deactivation_ends_access (managerAuth jwt) hjwt plainPlatform countingService managerStart
      [managerLogin] [] manager.id (fun _ => 100) (managerLate jwt) .none (List.forall_mem_singleton.2 ?_) ?_
      (unforged_manager (List.forall_mem_singleton.2 rfl) (extractToken_managerCall htexts))
    · show (0 : ℤ) ≤ 100
      decide
    · show (100 : ℤ) + 900 ≤ 1000
      decide
  exact hends numberedTokens numberedTokens_lawful fun _ _ => Nat.repr_ne_empty

/-- A role that is taken from a user, and not given back, grants the user nothing for longer than that either. -/
theorem removed_role_expires (cfg : AuthConfig) (hjwt : cfg.jwt.Lawful) (p : Platform V S σ)
    (svc : DocumentService V S) (s : SystemState V) (is js : List SystemInput) (userId : Uuid) (role : RoleRow)
    (clock : ℕ → ℤ) (call : ApiCall) (F : Faults Exn) (hrole : role ∈ s.auth.db.roles)
    (hnames : (s.auth.db.roles.map RoleRow.name).Nodup) (hpast : ∀ i ∈ is, i.time ≤ clock 0)
    (hkept : ∀ clock, .auth (.assignRole userId role.id) clock ∉ js)
    (hnow : clock 0 + cfg.settings.securityAccessTokenTtlSeconds ≤ call.now)
    (hunforged : Unforged cfg
      ((systemMachine cfg p svc).trace s (is ++ .auth (.removeRole userId role.id) clock :: js ++ [.call call F]))) :
    ¬ ∃ claims, cfg.callerClaims call.now call.token = .ok claims ∧ Uuid.ofStr? claims.sub = some userId ∧
      role.name ∈ claims.roles := by
  rintro ⟨claims, hclaims, hid, hname⟩
  obtain ⟨user, pair, t, ht, hissues, hsub, hroles⟩ := caller_fresh hjwt hunforged hpast nofun hnow hclaims
  rw [hsub, Uuid.ofStr?_str] at hid
  obtain rfl := Option.some.inj hid
  obtain ⟨before, i, hpre, rfl⟩ := Machine.mem_trace ht
  have hstripped : ((systemMachine cfg p svc).run ((systemMachine cfg p svc).run s
      (is ++ [.auth (.removeRole user.id role.id) clock])) before).auth.db.Stripped s.auth.db.roles
        user.id role.id := by
    refine Machine.run_invariant_of
      (I := fun s' : SystemState V => s'.auth.db.Stripped s.auth.db.roles user.id role.id) (G := fun _ i => i ∈ js)
      (fun s' i hi h => stripped_next (fun clock heq => hkept clock (heq ▸ hi)) h) ?_ ?_
    · refine ⟨roles_run .., ?_⟩
      rw [Machine.run_concat]
      intro hmem
      exact absurd rfl (of_decide_eq_true (List.mem_filter.1 hmem).2)
    · intro t ht
      obtain ⟨before', j, hpre', rfl⟩ := Machine.mem_trace ht
      exact hpre.subset (List.mem_append_left _ (hpre'.subset (List.mem_append_right _ (List.mem_singleton_self j))))
  rw [hroles] at hname
  exact hstripped.not_mem_roleNames hrole hnames hname

theorem removed_role_expires_manager :
    ¬ ∃ claims, (managerAuth numberedTokens).callerClaims 1000 (managerLate numberedTokens).token = .ok claims ∧
      Uuid.ofStr? claims.sub = some manager.id ∧ "manager" ∈ claims.roles := by
  have hexpires : ∀ jwt : Jwt, jwt.Lawful → (∀ key payload, jwt.encode key payload ≠ "") →
      ¬ ∃ claims, (managerAuth jwt).callerClaims 1000 (managerLate jwt).token = .ok claims ∧
        Uuid.ofStr? claims.sub = some manager.id ∧ "manager" ∈ claims.roles := by
    intro jwt hjwt htexts
    refine removed_role_expires (managerAuth jwt) hjwt plainPlatform countingService managerStart
      [managerLogin] [] manager.id ⟨⟨1⟩, "manager"⟩ (fun _ => 100) (managerLate jwt) .none (List.mem_singleton_self _)
      (List.nodup_singleton _) (List.forall_mem_singleton.2 ?_) (fun _ => List.not_mem_nil) ?_
      (unforged_manager (List.forall_mem_singleton.2 rfl) (extractToken_managerCall htexts))
    · show (0 : ℤ) ≤ 100
      decide
    · show (100 : ℤ) + 900 ≤ 1000
      decide
  exact hexpires numberedTokens numberedTokens_lawful fun _ _ => Nat.repr_ne_empty

end BankingAi
