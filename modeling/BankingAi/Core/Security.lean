import BankingAi.Core.Errors
import BankingAi.Core.Rbac

/-!
# Security primitives

Passwords are hashed and verified by a `CryptContext`, which is given; a caller is a `Principal`
with the permissions of the roles in its token.
-/

namespace BankingAi

/-- A `ValueError`, of that class or of a subclass. -/
structure ValueError where
  typeName : String
  text : String

/-- The hashing library: `hash` draws a salt, and `verify` raises no other exception than a
`ValueError`, for a malformed hash. -/
structure CryptContext where
  hash (salt : ℕ) (plain : String) : String
  verify (plain hashed : String) : Except ValueError Bool

/-- What the library promises: a hash verifies exactly its own password, and the empty string is no
hash of anything. -/
structure CryptContext.Lawful (ctx : CryptContext) : Prop where
  verify_hash : ∀ salt p q, ctx.verify p (ctx.hash salt q) = .ok (decide (p = q))
  verify_empty : ∀ p, ctx.verify p "" ≠ .ok true

def hashPassword (ctx : CryptContext) (salt : ℕ) (plain : String) : String := ctx.hash salt plain

/-- A malformed hash is a non-match. -/
def verifyPassword (ctx : CryptContext) (plain hashed : String) : Bool :=
  match ctx.verify plain hashed with
  | .ok matched => matched
  | .error _ => false

theorem verifyPassword_eq_true {ctx : CryptContext} {plain hashed : String} :
    verifyPassword ctx plain hashed = true ↔ ctx.verify plain hashed = .ok true := by
  unfold verifyPassword
  split
  case h_1 matched h => rw [h, Except.ok.injEq]
  case h_2 e h => simp [h]

/-- The claims of a verified access token; a missing `roles` claim is the empty list. -/
structure Claims where
  sub : String
  email : Option String
  roles : List String
  jti : Option String

/-- The authenticated caller, with resolved permissions. -/
structure Principal where
  userId : String
  email : Option String
  roles : List String
  permissions : List String
  tokenId : Option String

namespace Principal

def fromClaims (claims : Claims) : Principal where
  userId := claims.sub
  email := claims.email
  roles := claims.roles
  permissions := permissionsForRoles claims.roles
  tokenId := claims.jti

def require (principal : Principal) (permissions : List String) : Except Exn Unit :=
  let missing := permissions.filter (· ∉ principal.permissions)
  if missing = [] then .ok ()
  else .error (.new .authorization "Missing required permission(s)."
    [("missing", .arr (missing.map Json.str))])

theorem require_eq_ok {principal : Principal} {permissions : List String} :
    principal.require permissions = .ok () ↔ ∀ p ∈ permissions, p ∈ principal.permissions := by
  unfold require
  dsimp only
  split
  case isTrue h => simpa [List.filter_eq_nil_iff] using h
  case isFalse h => simpa [List.filter_eq_nil_iff] using h

end Principal
end BankingAi
