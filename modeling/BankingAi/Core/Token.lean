import Mathlib.Logic.Equiv.List
import BankingAi.Core.Security
import BankingAi.Db.Workflow
import BankingAi.Json.Access

/-!
# Tokens

Access and refresh tokens are signed by a JWT library, which is given. `createToken` merges the
extra claims over a base payload and signs the result; `decodeToken` verifies a token and checks
its type. Times are in whole seconds, as the library compares them.
-/

namespace BankingAi

inductive TokenType where
  | access | refresh
deriving DecidableEq

def TokenType.value : TokenType → String
  | access => "access"
  | refresh => "refresh"

theorem TokenType.value_injective : Function.Injective value := by
  intro t u h
  cases t <;> cases u <;> first | rfl | exact absurd h (by decide)

/-- What a token is signed with. -/
structure JwtKey where
  secret : String
  algorithm : String
deriving DecidableEq

structure Settings where
  appName : String
  securityJwtSecret : String
  securityJwtAlgorithm : String
  securityAccessTokenTtlSeconds : ℤ
  securityRefreshTokenTtlSeconds : ℤ

def Settings.key (settings : Settings) : JwtKey :=
  ⟨settings.securityJwtSecret, settings.securityJwtAlgorithm⟩

/-- `jwt.ExpiredSignatureError`, or any other `jwt.InvalidTokenError`. -/
inductive JwtError where
  | expired | invalid

/-- The JWT library: `claims?` is what a token says that is signed with the key, and `decode` is
given the claims a token must have and the time. -/
structure Jwt where
  encode (key : JwtKey) (payload : JsonDict) : String
  claims? (key : JwtKey) (token : String) : Option JsonDict
  decode (key : JwtKey) (required : List String) (now : ℤ) (token : String) : Except JwtError JsonDict

/-- Values that a token carries unchanged. -/
inductive Json.Plain : Json → Prop
  | str (s : String) : Plain (.str s)
  | int (n : ℤ) : Plain (.int n)
  | strs (l : List String) : Plain (.arr (l.map .str))

def PlainClaims (claims : JsonDict) : Prop := ∀ k v, claims.get? k = some v → v.Plain

/-- The time `exp` of the claims is not over. -/
def Unexpired (now : ℤ) (claims : JsonDict) : Prop :=
  ∃ v ∈ claims.get? "exp", ∃ exp, v.toInt = .ok exp ∧ now < exp

/-- A time that the claims state has come. -/
def Reached (now : ℤ) (claims : JsonDict) (key : String) : Prop :=
  ∀ v ∈ claims.get? key, ∃ time, v.toInt = .ok time ∧ time ≤ now

/-- What the library checks of the claims of a token, for no audience and no issuer. -/
structure ClaimsValid (required : List String) (now : ℤ) (claims : JsonDict) : Prop where
  required : ∀ k ∈ required, (claims.get? k).isSome
  subject : ∀ v ∈ claims.get? "sub", ∃ s, v = .str s
  tokenId : ∀ v ∈ claims.get? "jti", ∃ s, v = .str s
  audience : ∀ v ∈ claims.get? "aud", v.truthy = false
  issuedAt : Reached now claims "iat"
  notBefore : Reached now claims "nbf"
  unexpired : Unexpired now claims

/-- What the library promises: it accepts exactly the valid tokens signed with the key, and returns
their claims. -/
structure Jwt.Lawful (jwt : Jwt) : Prop where
  claims?_encode : ∀ key payload, PlainClaims payload →
    jwt.claims? key (jwt.encode key payload) = some payload
  decode_eq_ok : ∀ key required now token claims,
    jwt.decode key required now token = .ok claims ↔
      jwt.claims? key token = some claims ∧ ClaimsValid required now claims

/-- The claims of `create_token` before the extra ones. -/
def basePayload (settings : Settings) (subject : String) (roles : List String) (tokenType : TokenType)
    (issued : ℤ) (jti : String) : JsonDict :=
  let ttl := match tokenType with
    | .access => settings.securityAccessTokenTtlSeconds
    | .refresh => settings.securityRefreshTokenTtlSeconds
  .ofList
    [("sub", .str subject), ("roles", .arr (roles.map .str)), ("type", .str tokenType.value),
      ("iat", .int issued), ("nbf", .int issued), ("exp", .int (issued + ttl)), ("jti", .str jti),
      ("iss", .str settings.appName)]

def tokenPayload (settings : Settings) (subject : String) (roles : List String) (tokenType : TokenType)
    (extraClaims : JsonDict) (issued : ℤ) (jti : String) : JsonDict :=
  (basePayload settings subject roles tokenType issued jti).update extraClaims

/-- The token and its `jti`, which is drawn for it. -/
def createToken (jwt : Jwt) (settings : Settings) (subject : String) (roles : List String)
    (tokenType : TokenType) (extraClaims : JsonDict) (issued : ℤ) (drawn : Uuid) : String × String :=
  (jwt.encode settings.key (tokenPayload settings subject roles tokenType extraClaims issued drawn.hex),
    drawn.hex)

/-- `payload.get("type") == expected_type`. -/
def hasType (claims : JsonDict) (expected : TokenType) : Bool :=
  match claims.get? "type" with
  | some (.str t) => t = expected.value
  | _ => false

def requiredClaims : List String := ["exp", "iat", "sub"]

def decodeToken (jwt : Jwt) (settings : Settings) (expectedType : Option TokenType) (now : ℤ)
    (token : String) : Except Exn JsonDict :=
  match jwt.decode settings.key requiredClaims now token with
  | .error .expired => .error (.new .authentication "Token has expired." [])
  | .error .invalid => .error (.new .authentication "Invalid authentication token." [])
  | .ok payload =>
    match expectedType with
    | none => .ok payload
    | some expected =>
      if hasType payload expected then .ok payload
      else .error (.new .authentication s!"Expected a {expected.value} token." [])

/-! ### Claims -/

/-- `list(claims.get("roles", []))`; an item that is no string names no role. -/
def rolesOf (claims : JsonDict) : Except Exn (List String) :=
  match claims.get? "roles" with
  | none => .ok []
  | some (.arr items) => .ok (items.filterMap fun | .str s => some s | _ => none)
  | some (.str s) => .ok (s.toList.map String.singleton)
  | some (.obj fields) => .ok (fields.map Prod.fst)
  | some v => .error (.other "TypeError" s!"'{v.pyType}' object is not iterable")

/-- `str(claims["sub"])`; the library lets no subject through that is no string. -/
def subjectOf (claims : JsonDict) : Except Exn String :=
  match claims.get? "sub" with
  | some (.str sub) => .ok sub
  | _ => .error (.other "KeyError" "'sub'")

def textClaim (claims : JsonDict) (key : String) : Option String :=
  match claims.get? key with
  | some (.str s) => some s
  | _ => none

def Claims.ofPayload (claims : JsonDict) : Except Exn Claims := do
  let roles ← rolesOf claims
  let sub ← subjectOf claims
  pure { sub, email := textClaim claims "email", roles, jti := textClaim claims "jti" }

section payload

variable {settings : Settings} {subject jti : String} {roles : List String} {tokenType : TokenType}
  {extraClaims : JsonDict} {issued : ℤ}

theorem get?_tokenPayload {k : String} (h : extraClaims.get? k = none) :
    (tokenPayload settings subject roles tokenType extraClaims issued jti).get? k =
      (basePayload settings subject roles tokenType issued jti).get? k := by
  rw [tokenPayload, Dict.get?_update, h, Option.none_or]

theorem basePayload_plain : PlainClaims (basePayload settings subject roles tokenType issued jti) := by
  intro k v h
  unfold basePayload at h
  rw [Dict.get?_ofList (by simp)] at h
  simp only [List.mem_cons, Prod.mk.injEq, List.not_mem_nil, or_false] at h
  rcases h with ⟨-, rfl⟩ | ⟨-, rfl⟩ | ⟨-, rfl⟩ | ⟨-, rfl⟩ | ⟨-, rfl⟩ | ⟨-, rfl⟩ | ⟨-, rfl⟩ | ⟨-, rfl⟩
  all_goals constructor

theorem tokenPayload_plain (h : PlainClaims extraClaims) :
    PlainClaims (tokenPayload settings subject roles tokenType extraClaims issued jti) := by
  intro k v hv
  rw [tokenPayload, Dict.get?_update] at hv
  cases he : extraClaims.get? k with
  | some x =>
    rw [he] at hv
    exact Option.some.inj hv ▸ h k x he
  | none =>
    rw [he] at hv
    exact basePayload_plain k v hv

theorem hasType_eq_true {claims : JsonDict} {expected : TokenType} :
    hasType claims expected = true ↔ claims.get? "type" = some (.str expected.value) := by
  unfold hasType
  split
  case h_1 t h => simp [h]
  case h_2 h =>
    refine iff_of_false (by simp) fun h' => h _ h'

theorem type_ne {claims : JsonDict} {t u : TokenType} (h : t ≠ u)
    (hty : claims.get? "type" = some (.str t.value)) : claims.get? "type" ≠ some (.str u.value) := by
  intro h'
  have heq := hty.symm.trans h'
  injection heq with heq
  injection heq with heq
  exact h (TokenType.value_injective heq)

theorem decodeToken_eq_ok {jwt : Jwt} (hjwt : jwt.Lawful) {expected : TokenType} {now : ℤ}
    {token : String} {claims : JsonDict} :
    decodeToken jwt settings (some expected) now token = .ok claims ↔
      jwt.claims? settings.key token = some claims ∧ ClaimsValid requiredClaims now claims ∧
        claims.get? "type" = some (.str expected.value) := by
  rw [← and_assoc, ← hjwt.decode_eq_ok, ← hasType_eq_true]
  unfold decodeToken
  cases jwt.decode settings.key requiredClaims now token with
  | error e => cases e <;> simp
  | ok payload =>
    dsimp only
    by_cases h : hasType payload expected = true
    · rw [if_pos h]
      constructor
      · rintro ⟨⟩
        exact ⟨rfl, h⟩
      · rintro ⟨⟨⟩, -⟩
        rfl
    · rw [if_neg h]
      refine iff_of_false nofun ?_
      rintro ⟨heq, hty⟩
      cases heq
      exact h hty

theorem decodeToken_of_type_ne {jwt : Jwt} (hjwt : jwt.Lawful) {expected : TokenType} {now : ℤ}
    {token : String} {claims : JsonDict} (hclaims : jwt.claims? settings.key token = some claims)
    (hty : claims.get? "type" ≠ some (.str expected.value)) :
    ∃ e, decodeToken jwt settings (some expected) now token = .error e := by
  cases h : decodeToken jwt settings (some expected) now token with
  | error e => exact ⟨e, rfl⟩
  | ok claims' =>
    obtain ⟨h, -, hty'⟩ := (decodeToken_eq_ok hjwt).1 h
    cases h.symm.trans hclaims
    exact absurd hty' hty

end payload

/-! ### A library whose tokens are numbers -/

instance encodableChar : Encodable Char := .ofLeftInverse Char.toNat Char.ofNat Char.ofNat_toNat

instance encodableString : Encodable String := .ofLeftInverse String.toList String.ofList fun _ => String.ofList_toList

abbrev PlainValue := String ⊕ ℤ ⊕ List String

def Json.ofPlain : PlainValue → Json
  | .inl s => .str s
  | .inr (.inl n) => .int n
  | .inr (.inr l) => .arr (l.map .str)

def Json.toPlain : Json → PlainValue
  | .int n => .inr (.inl n)
  | .arr items => .inr (.inr (items.filterMap fun | .str s => some s | _ => none))
  | .str s => .inl s
  | _ => .inl ""

theorem Json.Plain.ofPlain_toPlain {v : Json} (h : v.Plain) : ofPlain v.toPlain = v := by
  cases h with
  | str s => rfl
  | int n => rfl
  | strs l =>
    refine congrArg (fun l : List String => Json.arr (l.map .str)) ?_
    rw [List.filterMap_map]
    exact List.filterMap_some

instance (now : ℤ) (claims : JsonDict) : Decidable (Unexpired now claims) :=
  match h : claims.get? "exp" with
  | none => .isFalse fun ⟨v, hv, _⟩ => by rw [h] at hv; cases hv
  | some v =>
    match h' : v.toInt with
    | .error e => .isFalse fun ⟨v', hv', exp, he, _⟩ => by
      obtain rfl := Option.some.inj (h.symm.trans hv')
      cases h'.symm.trans he
    | .ok exp => decidable_of_iff (now < exp) ⟨fun hlt => ⟨v, h, exp, h', hlt⟩, fun ⟨v', hv', exp', he, hlt⟩ => by
      obtain rfl := Option.some.inj (h.symm.trans hv')
      obtain rfl := Except.ok.inj (h'.symm.trans he)
      exact hlt⟩

instance (now : ℤ) (claims : JsonDict) (key : String) : Decidable (Reached now claims key) :=
  match h : claims.get? key with
  | none => .isTrue fun v hv => by rw [h] at hv; cases hv
  | some v =>
    match h' : v.toInt with
    | .error e => .isFalse fun hreached => by
      obtain ⟨time, htime, -⟩ := hreached v h
      cases h'.symm.trans htime
    | .ok time => decidable_of_iff (time ≤ now) <| by
      constructor
      · intro hle v' hv'
        obtain rfl := Option.some.inj (h.symm.trans hv')
        exact ⟨time, h', hle⟩
      · intro hreached
        obtain ⟨time', htime, hle⟩ := hreached v h
        obtain rfl := Except.ok.inj (h'.symm.trans htime)
        exact hle

/-- `isinstance(v, str)`. -/
def Json.isStr : Json → Bool
  | .str _ => true
  | _ => false

theorem Json.isStr_eq_true {v : Json} : v.isStr = true ↔ ∃ s, v = .str s := by
  cases v <;> simp [isStr]

theorem Json.all_isStr {o : Option Json} : o.all isStr = true ↔ ∀ v ∈ o, ∃ s, v = .str s := by
  cases o <;> simp [isStr_eq_true]

instance (required : List String) (now : ℤ) (claims : JsonDict) :
    Decidable (ClaimsValid required now claims) :=
  decidable_of_iff ((∀ k ∈ required, (claims.get? k).isSome) ∧ (claims.get? "sub").all Json.isStr = true ∧
      (claims.get? "jti").all Json.isStr = true ∧ (∀ v ∈ claims.get? "aud", v.truthy = false) ∧
      Reached now claims "iat" ∧ Reached now claims "nbf" ∧ Unexpired now claims) <| by
    constructor
    · rintro ⟨h₁, h₂, h₃, h₄, h₅, h₆, h₇⟩
      exact ⟨h₁, Json.all_isStr.1 h₂, Json.all_isStr.1 h₃, h₄, h₅, h₆, h₇⟩
    · rintro ⟨h₁, h₂, h₃, h₄, h₅, h₆, h₇⟩
      exact ⟨h₁, Json.all_isStr.2 h₂, Json.all_isStr.2 h₃, h₄, h₅, h₆, h₇⟩

/-- A token is the number of its key and claims. -/
def numberedTokens : Jwt where
  encode key payload :=
    (Encodable.encode (key.secret, key.algorithm, payload.entries.map fun p => (p.1, p.2.toPlain))).repr
  claims? := numberedClaims
  decode key required now token :=
    match numberedClaims key token with
    | none => .error .invalid
    | some claims =>
      if ClaimsValid required now claims then .ok claims
      else if Unexpired now claims then .error .invalid
      else .error .expired
where
  numberedClaims (key : JwtKey) (token : String) : Option JsonDict := do
    let (secret, algorithm, entries) ←
      (Encodable.decode (← token.toNat?) : Option (String × String × List (String × PlainValue)))
    if secret = key.secret ∧ algorithm = key.algorithm then
      some (Dict.ofList (entries.map fun p => (p.1, Json.ofPlain p.2)))
    else none

theorem numberedTokens_lawful : numberedTokens.Lawful where
  claims?_encode key payload h := by
    have hentries : payload.entries.map (fun p => (p.1, Json.ofPlain p.2.toPlain)) = payload.entries := by
      refine (List.map_congr_left fun p hp => ?_).trans (List.map_id _)
      rw [(h p.1 p.2 (Dict.get?_eq_some.2 hp)).ofPlain_toPlain]
      rfl
    show numberedTokens.numberedClaims key _ = _
    simp [numberedTokens, numberedTokens.numberedClaims, Nat.toNat?_repr, Encodable.encodek, Function.comp_def,
      hentries, Dict.ofList_entries]
  decode_eq_ok key required now token claims := by
    show (match numberedTokens.numberedClaims key token with | none => _ | some claims => _) = _ ↔
      numberedTokens.numberedClaims key token = _ ∧ _
    cases numberedTokens.numberedClaims key token with
    | none => simp
    | some found =>
      dsimp only
      constructor
      · intro h
        split at h
        case isTrue hvalid => cases h; exact ⟨rfl, hvalid⟩
        case isFalse => split at h <;> cases h
      · rintro ⟨hfound, hvalid⟩
        obtain rfl := Option.some.inj hfound
        rw [if_pos hvalid]

end BankingAi
