import NexaFx.Model.Database

/-!
# NexaFx — password resets

Two services reset passwords. `forgotPassword` and `resetPassword` of
`modules/auth/auth.service.ts` keep one link per user, in the user's row.
`auth/password-reset.service.ts` keeps tokens in a table of their own. Calls do
not overlap, so a call is one function of the table and of the instant at which
it is made; the random bytes that it draws are one of its arguments. Both store
the digest of a token (`sha256`), never the token.
-/

namespace NexaFx

-- ---------------------------------------------------------------------------
-- Links
-- ---------------------------------------------------------------------------

namespace ResetLinks

/-- A row of `users`: the columns that a reset reads or writes. -/
structure UserEntity (H : Type) where
  id : UserId
  email : String
  deleted : Bool
  passwordHash : String
  passwordResetTokenHash : Option H
  passwordResetExpiry : Option ℕ

/-- What `update` is given; `none` is `undefined`, and leaves the column as it is. -/
structure Changes (H : Type) where
  passwordHash : Option String := none
  passwordResetTokenHash : Option H := none
  passwordResetExpiry : Option ℕ := none

def UserEntity.apply {H : Type} (user : UserEntity H) (changes : Changes H) : UserEntity H :=
  { user with
    passwordHash := changes.passwordHash.getD user.passwordHash
    passwordResetTokenHash := changes.passwordResetTokenHash.or user.passwordResetTokenHash
    passwordResetExpiry := changes.passwordResetExpiry.or user.passwordResetExpiry }

structure Users (H : Type) where
  rows : List (UserEntity H)
  keyed : (rows.map UserEntity.id).Nodup

variable {H : Type}

/-- `findOne({ where: { email, deletedAt: IsNull() } })`. -/
def Users.find (users : Users H) (email : String) : Option (UserEntity H) :=
  users.rows.find? fun user => decide (user.email = email) && !user.deleted

def Users.update (users : Users H) (id : UserId) (changes : Changes H) : Users H where
  rows := users.rows.map fun user => if user.id = id then user.apply changes else user
  keyed := by
    have hsame : (users.rows.map fun user => if user.id = id then user.apply changes else user).map
        UserEntity.id = users.rows.map UserEntity.id := by
      rw [List.map_map]
      refine List.map_congr_left fun user _ => ?_
      by_cases h : user.id = id <;> simp [h, UserEntity.apply]
    rw [hsame]
    exact users.keyed

/-- Fifteen minutes. -/
def EXPIRY_MS : ℕ := 15 * 60 * 1000

section Calls

variable (sha256 : String → H)

/-- `rawToken` is mailed to the user. -/
def forgotPassword (now : ℕ) (rawToken email : String) (users : Users H) : Users H :=
  match users.find email with
  | none => users
  | some user =>
    users.update user.id
      { passwordResetTokenHash := some (sha256 rawToken)
        passwordResetExpiry := some (now + EXPIRY_MS) }

def resetPassword [DecidableEq H] (now : ℕ) (email token newPasswordHash : String)
    (users : Users H) : Except Err (Users H) :=
  match users.find email with
  | none => .error (.badRequest "Invalid or expired reset token")
  | some user =>
    match user.passwordResetTokenHash, user.passwordResetExpiry with
    | some passwordResetTokenHash, some passwordResetExpiry =>
      if passwordResetExpiry < now then .error (.badRequest "Reset token has expired")
      else if sha256 token ≠ passwordResetTokenHash then
        .error (.badRequest "Invalid or expired reset token")
      else
        .ok (users.update user.id
          { passwordHash := some newPasswordHash
            passwordResetTokenHash := none
            passwordResetExpiry := none })
    | _, _ => .error (.badRequest "Invalid or expired reset token")

inductive Call where
  | forgotPassword (email rawToken : String)
  | resetPassword (email token newPasswordHash : String)
  deriving DecidableEq

/-- A call at its time. -/
abbrev TimedCall := ℕ × Call

/-- The table after a call; a call that throws leaves it. -/
def Users.call [DecidableEq H] (users : Users H) : TimedCall → Users H
  | (now, .forgotPassword email rawToken) => forgotPassword sha256 now rawToken email users
  | (now, .resetPassword email token newPasswordHash) =>
    match resetPassword sha256 now email token newPasswordHash users with
    | .ok users' => users'
    | .error _ => users

def Users.calls [DecidableEq H] (users : Users H) (calls : List TimedCall) : Users H :=
  calls.foldl (Users.call sha256) users

end Calls

end ResetLinks

-- ---------------------------------------------------------------------------
-- Tokens
-- ---------------------------------------------------------------------------

namespace ResetTokens

/-- A row of `password_reset_tokens`. -/
structure PasswordResetToken (H : Type) where
  id : ℕ
  userId : UserId
  tokenHash : H
  attempts : ℕ
  expiresAt : ℕ
  used : Bool

structure Tokens (H : Type) where
  rows : List (PasswordResetToken H)
  keyed : (rows.map PasswordResetToken.id).Nodup

def MAX_ATTEMPTS : ℕ := 3

def TOKEN_TTL_MS : ℕ := 15 * 60 * 1000

variable {H : Type}

namespace Tokens

/-- `delete` of the rows of which this holds. -/
def delete (tokens : Tokens H) (p : PasswordResetToken H → Bool) : Tokens H where
  rows := tokens.rows.filter fun r => !p r
  keyed := Table.nodup_filter PasswordResetToken.id tokens.keyed _

/-- `save` of a token that was created. -/
def insert (tokens : Tokens H) (userId : UserId) (tokenHash : H) (expiresAt : ℕ) : Tokens H where
  rows := tokens.rows ++
    [⟨Table.freshKey (tokens.rows.map PasswordResetToken.id), userId, tokenHash, 0, expiresAt, false⟩]
  keyed := Table.nodup_concat PasswordResetToken.id tokens.keyed (Table.freshKey_notMem _)

/-- `update` of the rows of which this holds. -/
def update (tokens : Tokens H) (p : PasswordResetToken H → Bool)
    (f : PasswordResetToken H → PasswordResetToken H) (hf : ∀ r, (f r).id = r.id) : Tokens H where
  rows := tokens.rows.map fun r => if p r then f r else r
  keyed := by
    have hsame : (tokens.rows.map fun r => if p r then f r else r).map PasswordResetToken.id =
        tokens.rows.map PasswordResetToken.id := by
      rw [List.map_map]
      refine List.map_congr_left fun r _ => ?_
      by_cases h : p r <;> simp [h, hf]
    rw [hsame]
    exact tokens.keyed

def setAttempts (tokens : Tokens H) (id attempts : ℕ) : Tokens H :=
  tokens.update (fun r => decide (r.id = id)) (fun r => { r with attempts := attempts })
    fun _ => rfl

def setUsed [DecidableEq H] (tokens : Tokens H) (tokenHash : H) : Tokens H :=
  tokens.update (fun r => decide (r.tokenHash = tokenHash)) (fun r => { r with used := true })
    fun _ => rfl

def deleteId (tokens : Tokens H) (id : ℕ) : Tokens H := tokens.delete fun r => decide (r.id = id)

def find [DecidableEq H] (tokens : Tokens H) (tokenHash : H) : Option (PasswordResetToken H) :=
  tokens.rows.find? fun r => decide (r.tokenHash = tokenHash)

end Tokens

section Calls

variable (sha256 : String → H)

/-- `rawToken` is what the call returns. -/
def createResetToken (now : ℕ) (userId : UserId) (rawToken : String) (tokens : Tokens H) :
    Tokens H :=
  (tokens.delete fun r => decide (r.userId = userId) && !r.used).insert userId (sha256 rawToken)
    (now + TOKEN_TTL_MS)

def validateToken [DecidableEq H] (now : ℕ) (rawToken : String) (tokens : Tokens H) :
    Except Err UserId × Tokens H :=
  match tokens.find (sha256 rawToken) with
  | none => (.error (.notFound "Invalid or expired reset token"), tokens)
  | some record =>
    if record.used then (.error (.badRequest "Token has already been used"), tokens)
    else if record.expiresAt < now then
      (.error (.badRequest "Reset token has expired"), tokens.deleteId record.id)
    else if MAX_ATTEMPTS ≤ record.attempts then
      (.error (.badRequest "Too many attempts. Please request a new reset link."),
        tokens.deleteId record.id)
    else (.ok record.userId, tokens.setAttempts record.id (record.attempts + 1))

def consumeToken [DecidableEq H] (rawToken : String) (tokens : Tokens H) : Tokens H :=
  tokens.setUsed (sha256 rawToken)

def purgeExpiredTokens (now : ℕ) (tokens : Tokens H) : Tokens H :=
  tokens.delete fun r => decide (r.expiresAt < now)

inductive Call where
  | createResetToken (userId : UserId) (rawToken : String)
  | validateToken (rawToken : String)
  | consumeToken (rawToken : String)
  | purgeExpiredTokens
  deriving DecidableEq

/-- A call at its time. -/
abbrev TimedCall := ℕ × Call

/-- The table after a call. -/
def Tokens.call [DecidableEq H] (tokens : Tokens H) : TimedCall → Tokens H
  | (now, .createResetToken userId rawToken) => createResetToken sha256 now userId rawToken tokens
  | (now, .validateToken rawToken) => (validateToken sha256 now rawToken tokens).2
  | (_, .consumeToken rawToken) => consumeToken sha256 rawToken tokens
  | (now, .purgeExpiredTokens) => purgeExpiredTokens now tokens

def Tokens.calls [DecidableEq H] (tokens : Tokens H) (calls : List TimedCall) : Tokens H :=
  calls.foldl (Tokens.call sha256) tokens

end Calls

end ResetTokens

end NexaFx
