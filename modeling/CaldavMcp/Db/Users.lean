/-
  `src/db/users.rs`. Argon2 is `Lib`; the salt is drawn like a Uuid.
-/
import CaldavMcp.Db.Exec
import CaldavMcp.Lib

namespace CaldavMcp

open Program

section

variable (lib : Lib)

/-- Hash a password. -/
def hashPassword (password : String) : Call String := do
  let salt ← ExceptT.lift (Prog.perform Op.salt)
  match lib.argon2Hash password salt with
  | .ok hash => return hash
  | .error e => throw (.internal ("Password hashing failed: " ++ e))

/-- Verify a password against a stored hash. -/
def verifyPassword (password hash : String) : Except AppError Bool :=
  match lib.argon2Verify password hash with
  | .ok valid => .ok valid
  | .error e => .error (.internal ("Invalid password hash: " ++ e))

/-- Look up a user by username. -/
def getUserByUsername (username : String) : Call (Option User) :=
  sql (.selectUserByUsername username)

/-- Look up a user by id. -/
def getUserById (id : String) : Call (Option User) := sql (.selectUserById id)

/-- Look up a user by email address. -/
def getUserByEmail (email : String) : Call (Option User) := sql (.selectUserByEmail email)

/-- Create a user with a hashed password. A UNIQUE failure is reported as a conflict. -/
def createUser (username : String) (email : Option String) (password : String) :
    Call User := do
  let id ← nowV7
  let passwordHash ← hashPassword lib password
  let _ ← tryCatch (sql (.insertUser
      { id := id, username := username, email := email, passwordHash := passwordHash }))
    fun
    | .database (.primaryKey _) | .database (.unique _) =>
      throw (.conflict ("User '" ++ username ++ "' already exists"))
    | e => throw e
  match ← getUserByUsername username with
  | some user => return user
  | none => throw (.internal "User created but not found")

/-- Reset a user's password. -/
def resetPassword (username newPassword : String) : Call Unit := do
  let hash ← hashPassword lib newPassword
  let rows ← sql (.updatePassword hash username)
  if rows = 0 then
    throw (.internal ("User '" ++ username ++ "' not found"))

/-- Verify a password against a user's stored hash, by username first, then by email. -/
def verifyUser (username password : String) : Call (Option User) := do
  let user ← match ← getUserByUsername username with
    | some u => pure (some u)
    | none => getUserByEmail username
  match user with
  | none => return none
  | some user =>
    if ← ExceptT.mk (pure (verifyPassword lib password user.passwordHash)) then
      return some user
    else
      return none

end

end CaldavMcp
