import Mathlib.Data.List.Nodup
import Mathlib.Tactic.ByContra
import BankingAi.Core.Security
import BankingAi.Db.Workflow

/-!
# Authentication

`authenticate` verifies a password against the stored hash of the user under an email. If there is
none to verify against, it verifies against the hash of a fixed text, to take the same time; the
outcome of that verification counts like any other. So a user without a stored hash is let in with
the fixed text, and that is the only way in without one (`authenticate_correct_iff`).
-/

namespace BankingAi

/-- A row of `users`. -/
structure User where
  id : Uuid
  email : String
  hashedPassword : Option String
  isActive : Bool
deriving DecidableEq

/-- The table `users`; emails are unique. -/
structure Users where
  rows : List User
  unique : (rows.map User.email).Nodup

namespace Users

/-- `select(User).where(User.email == email)`. -/
def withEmail (users : Users) (email : String) : List User := users.rows.filter (·.email = email)

/-- `scalar_one_or_none`. -/
def scalarOneOrNone : List User → Except Exn (Option User)
  | [] => .ok none
  | [user] => .ok (some user)
  | _ => .error (.other "MultipleResultsFound" "Multiple rows were found when one or none was required")

def getByEmail (users : Users) (email : String) : Except Exn (Option User) :=
  scalarOneOrNone (users.withEmail email)

/-- Emails are unique, so the query never finds several rows. -/
theorem getByEmail_eq (users : Users) (email : String) :
    users.getByEmail email = .ok (Table.lookup User.email email users.rows) := by
  rw [getByEmail, withEmail, Table.filter_key users.unique]
  cases Table.lookup User.email email users.rows <;> rfl

end Users

/-- The text whose hash is verified against when there is no other. -/
def dummyPassword : String := "not-a-real-password"

def dummyVerify (ctx : CryptContext) (salt : ℕ) (password : String) : Bool :=
  verifyPassword ctx password (hashPassword ctx salt dummyPassword)

/-- `user.hashed_password if user and user.hashed_password else None`. -/
def storedHash (user : Option User) : Option String :=
  (user.bind User.hashedPassword).filter (· ≠ "")

namespace UserService

variable (ctx : CryptContext) (users : Users) (salt : ℕ) (email password : String)

def authenticate : Except Exn User := do
  let user ← users.getByEmail email
  let hashed := storedHash user
  let ok :=
    match hashed with
    | some hashed => verifyPassword ctx password hashed
    | none => dummyVerify ctx salt password
  match user with
  | none => .error (.new .authentication "Invalid email or password." [])
  | some user =>
    if !user.isActive || !ok then .error (.new .authentication "Invalid email or password." [])
    else pure user

end UserService

/-- Only the active user under the email gets in, with a password that the stored hash verifies;
anyone else meets an `AuthenticationError`. -/
structure AuthenticatesBy (ctx : CryptContext) (users : Users) (email password : String)
    (reply : Except Exn User) : Prop where
  accepted : ∀ user, reply = .ok user →
    user ∈ users.rows ∧ user.email = email ∧ user.isActive = true ∧
      ∃ hashed, user.hashedPassword = some hashed ∧ ctx.verify password hashed = .ok true
  refused : ∀ e, reply = .error e → e.IsApp .authentication

section authenticate

variable {ctx : CryptContext} {users : Users} {salt : ℕ} {email password : String} {user : User}

theorem authenticate_of_none (h : Table.lookup User.email email users.rows = none) :
    UserService.authenticate ctx users salt email password =
      .error (.new .authentication "Invalid email or password." []) := by
  rw [UserService.authenticate, users.getByEmail_eq, h]
  rfl

theorem authenticate_of_some (h : Table.lookup User.email email users.rows = some user) :
    UserService.authenticate ctx users salt email password =
      if user.isActive = true ∧ ((storedHash (some user)).elim (dummyVerify ctx salt password)
        (verifyPassword ctx password)) = true then .ok user
      else .error (.new .authentication "Invalid email or password." []) := by
  rw [UserService.authenticate, users.getByEmail_eq, h]
  show (if _ then _ else _) = _
  cases storedHash (some user) with
  | none => cases user.isActive <;> cases dummyVerify ctx salt password <;> rfl
  | some hashed =>
    cases hv : verifyPassword ctx password hashed
    · simp [hv]
    · cases user.isActive <;> simp [hv]
      rfl

theorem dummyVerify_eq_true (hctx : ctx.Lawful) :
    dummyVerify ctx salt password = true ↔ password = dummyPassword := by
  rw [dummyVerify, verifyPassword_eq_true, hashPassword, hctx.verify_hash]
  simp

theorem storedHash_eq_none : storedHash (some user) = none ↔ user.hashedPassword ∈ [none, some ""] := by
  cases h : user.hashedPassword with
  | none => simp [storedHash, h]
  | some hashed => simp [storedHash, h]

theorem storedHash_eq_some {hashed : String} (h : storedHash (some user) = some hashed) :
    user.hashedPassword = some hashed := by
  obtain ⟨h, -⟩ := Option.filter_eq_some_iff.1 h
  exact h

end authenticate

/-- A user without a hash gets in with the fixed text, which nothing stored verifies. -/
theorem authenticatesBy_of_no_hash {ctx : CryptContext} (hctx : ctx.Lawful) {users : Users}
    {salt : ℕ} {email password : String} {user : User}
    (hl : Table.lookup User.email email users.rows = some user)
    (hhash : storedHash (some user) = none) :
    AuthenticatesBy ctx users email password
        (UserService.authenticate ctx users salt email password) ↔
      ¬ (password = dummyPassword ∧ user.isActive = true) := by
  have hin : user.isActive = true ∧ dummyVerify ctx salt password = true ↔
      password = dummyPassword ∧ user.isActive = true := by
    rw [dummyVerify_eq_true hctx, and_comm]
  rw [authenticate_of_some hl, hhash, Option.elim_none, ← hin]
  split
  case isTrue h =>
    refine ⟨fun hby => ?_, fun hn => absurd h hn⟩
    obtain ⟨-, -, -, hashed, hsome, hverify⟩ := hby.accepted user rfl
    have hnone := storedHash_eq_none.1 hhash
    rw [hsome] at hnone
    obtain rfl : hashed = "" := by simpa using hnone
    exact absurd hverify (hctx.verify_empty password)
  case isFalse h =>
    exact ⟨fun _ => h, fun _ => ⟨nofun, fun e he => by cases he; rfl⟩⟩

/-- Authentication is by stored hashes exactly when the password is not the fixed text of the dummy
verification, or belongs to no active user without a hash. -/
theorem authenticate_by_hash_iff {ctx : CryptContext} (hctx : ctx.Lawful) (users : Users) (salt : ℕ)
    (email password : String) :
    AuthenticatesBy ctx users email password
        (UserService.authenticate ctx users salt email password) ↔
      ¬ (password = dummyPassword ∧ ∃ user ∈ users.rows, user.email = email ∧ user.isActive = true ∧
          user.hashedPassword ∈ [none, some ""]) := by
  cases hl : Table.lookup User.email email users.rows with
  | none =>
    rw [authenticate_of_none hl]
    have habsent : ∀ user ∈ users.rows, user.email ≠ email := fun user hu => by
      simpa using List.find?_eq_none.1 hl user hu
    refine ⟨fun _ h => ?_, fun _ => ⟨nofun, fun e he => by cases he; rfl⟩⟩
    obtain ⟨-, user, hu, hemail, -⟩ := h
    exact habsent user hu hemail
  | some user =>
    obtain ⟨hu, hemail⟩ := Table.lookup_eq_some hl
    have honly : ∀ user' ∈ users.rows, user'.email = email → user' = user := fun user' hu' he =>
      Option.some.inj ((Table.lookup_of_mem users.unique hu').symm.trans (by rw [he, hl]))
    cases hhash : storedHash (some user) with
    | none =>
      rw [authenticatesBy_of_no_hash hctx hl hhash]
      refine not_congr (and_congr_right fun _ => ⟨fun hactive => ?_, ?_⟩)
      · exact ⟨user, hu, hemail, hactive, storedHash_eq_none.1 hhash⟩
      · rintro ⟨user', hu', he, hactive, -⟩
        exact honly user' hu' he ▸ hactive
    | some hashed =>
      refine ⟨fun _ h => ?_, fun _ => ?_⟩
      · obtain ⟨-, user', hu', he, -, hnone⟩ := h
        rw [honly user' hu' he, ← storedHash_eq_none, hhash] at hnone
        cases hnone
      · rw [authenticate_of_some hl, hhash, Option.elim_some]
        split
        case isTrue h =>
          refine ⟨fun user' h' => ?_, nofun⟩
          obtain rfl := Except.ok.inj h'
          exact ⟨hu, hemail, h.1, hashed, storedHash_eq_some hhash, verifyPassword_eq_true.1 h.2⟩
        case isFalse h => exact ⟨nofun, fun e he => by cases he; rfl⟩

/-- Hashes marked with a dollar sign; anything else is no hash. -/
def markedHashes : CryptContext where
  hash _ plain := String.ofList ('$' :: plain.toList)
  verify plain hashed :=
    match hashed.toList with
    | '$' :: text => .ok (decide (plain.toList = text))
    | _ => .error ⟨"UnknownHashError", "hash could not be identified"⟩

theorem markedHashes_lawful : markedHashes.Lawful where
  verify_hash salt p q := by
    simp [markedHashes, String.toList_inj]
  verify_empty p := by
    intro h
    cases h

/-- A user linked to an external identity, and one with a password. -/
def twoUsers : Users where
  rows := [⟨⟨0⟩, "oidc@bank.example", none, true⟩, ⟨⟨1⟩, "local@bank.example", some "$secret", true⟩]
  unique := by decide

/-- The fixed text lets the externally linked user in, whatever the salt. -/
theorem dummy_password_accepted :
    ¬ AuthenticatesBy markedHashes twoUsers "oidc@bank.example" "not-a-real-password"
      (UserService.authenticate markedHashes twoUsers 7 "oidc@bank.example" "not-a-real-password") := by
  intro h
  obtain ⟨-, -, -, hashed, hsome, -⟩ := h.accepted ⟨⟨0⟩, "oidc@bank.example", none, true⟩ rfl
  cases hsome

theorem authenticate_by_hash_local :
    AuthenticatesBy markedHashes twoUsers "local@bank.example" "secret"
      (UserService.authenticate markedHashes twoUsers 7 "local@bank.example" "secret") :=
  (authenticate_by_hash_iff markedHashes_lawful twoUsers 7 "local@bank.example" "secret").2
    fun h => absurd h.1 (by decide)

end BankingAi
