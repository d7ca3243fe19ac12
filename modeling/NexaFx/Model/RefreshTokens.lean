import NexaFx.Lib.Pool
import NexaFx.Model.Database

/-!
# NexaFx — stored refresh tokens

`tokens/refresh-tokens.service.ts` over the table `refresh_tokens`
(`auth/refresh-token.entity.ts`), repository call by repository call.

* `randomUUID` gives a value that was never given before: the token, the
  family and the row of a call carry the identity of that call.
* `hash` stands for the keyed HMAC of a token; what is proved assumes it
  injective. The check of the configured secret is part of the deployment.
* `save([existing, newEntity])` writes both rows in one database transaction.

`loggedOut` is ghost state: the families that a user had when
`revokeUserTokens` revoked them.
-/

namespace NexaFx

open Async

namespace RefreshTokens

-- ---------------------------------------------------------------------------
-- The table
-- ---------------------------------------------------------------------------

structure RefreshToken where
  id : ℕ
  userId : UserId
  familyId : ℕ
  tokenHash : ℕ
  parentTokenId : Option ℕ
  replacedByTokenId : Option ℕ
  expiresAt : Time
  revokedAt : Option Time
  deriving DecidableEq

/-- A token that can still be presented, as far as its revocation goes. -/
def RefreshToken.live (r : RefreshToken) : Bool := r.revokedAt.isNone

structure TokenDb where
  tokens : List RefreshToken
  now : Time
  loggedOut : List ℕ

namespace TokenDb

def token (db : TokenDb) (id : ℕ) : Option RefreshToken :=
  Table.get RefreshToken.id db.tokens id

/-- `findOne({ where: { tokenHash } })`. -/
def findByHash (db : TokenDb) (tokenHash : ℕ) : Option RefreshToken :=
  db.tokens.find? fun r => decide (r.tokenHash = tokenHash)

/-- Write a row over the stored one, or insert it. -/
def put (db : TokenDb) (r : RefreshToken) : TokenDb :=
  { db with tokens := Table.put RefreshToken.id r db.tokens }

/-- The unique index on `tokenHash`. -/
def violatesUnique (db : TokenDb) (r : RefreshToken) : Bool :=
  db.tokens.any fun x => decide (x.id ≠ r.id ∧ x.tokenHash = r.tokenHash)

def save (db : TokenDb) (r : RefreshToken) : Except Err TokenDb :=
  if db.violatesUnique r then .error .uniqueViolation else .ok (db.put r)

/-- `update({ userId }, { revokedAt })`. -/
def revoke (db : TokenDb) (userId : UserId) (at_ : Time) : TokenDb :=
  { db with
    tokens := db.tokens.map fun r =>
      if r.userId = userId then { r with revokedAt := some at_ } else r
    loggedOut := db.loggedOut ++
      (db.tokens.filter fun r => decide (r.userId = userId)).map RefreshToken.familyId }

end TokenDb

-- ---------------------------------------------------------------------------
-- Repository calls
-- ---------------------------------------------------------------------------

inductive TokenCmd where
  | findByHash (tokenHash : ℕ)
  /-- `new Date()`, which is no await and cannot fail. -/
  | now
  /-- `save(entity)` of a new row. -/
  | insert (entity : RefreshToken)
  /-- `save([existing, newEntity])`, with `existing` as it was read. -/
  | saveRotated (existing : RefreshToken) (at_ : Time) (newEntity : RefreshToken)
  | revoke (userId : UserId) (at_ : Time)
  /-- Time passes. -/
  | tick (ms : ℕ)
  deriving DecidableEq

@[reducible] def TokenCmd.Reply : TokenCmd → Type
  | .findByHash _ => Option RefreshToken
  | .now => Time
  | _ => Unit

/-- `existing.replacedByTokenId = newEntity.id; existing.revokedAt = now`. -/
def RefreshToken.replaced (existing : RefreshToken) (at_ : Time) (newId : ℕ) : RefreshToken :=
  { existing with replacedByTokenId := some newId, revokedAt := some at_ }

def exec : (c : TokenCmd) → TokenDb → Except Err (c.Reply × TokenDb)
  | .findByHash tokenHash, db => .ok (db.findByHash tokenHash, db)
  | .now, db => .ok (db.now, db)
  | .insert entity, db =>
    match db.save entity with
    | .error e => .error e
    | .ok db' => .ok ((), db')
  | .saveRotated existing at_ newEntity, db =>
    match db.save (existing.replaced at_ newEntity.id) with
    | .error e => .error e
    | .ok db' =>
      match db'.save newEntity with
      | .error e => .error e
      | .ok db'' => .ok ((), db'')
  | .revoke userId at_, db => .ok ((), db.revoke userId at_)
  | .tick ms, db => .ok ((), { db with now := db.now + ms })

-- ---------------------------------------------------------------------------
-- The service
-- ---------------------------------------------------------------------------

abbrev TokenProc := Proc TokenCmd TokenCmd.Reply Err

abbrev await (c : TokenCmd) : TokenProc c.Reply := Proc.call c

/-- What `createToken` and `rotateToken` return. -/
structure IssuedToken where
  token : ℕ
  expiresAt : Time
  deriving DecidableEq

section Service

variable (hash : ℕ → ℕ) (expirySeconds : ℕ)

/-- `Date.now() + expirySeconds * 1000`. -/
def expiry (t : Time) : Time := t + expirySeconds * 1000

def createToken (i : ℕ) (userId : UserId) : TokenProc IssuedToken := do
  let t ← await .now
  let entity : RefreshToken :=
    { id := i
      userId := userId
      familyId := i
      tokenHash := hash i
      parentTokenId := none
      replacedByTokenId := none
      expiresAt := expiry expirySeconds t
      revokedAt := none }
  await (.insert entity)
  return ⟨i, expiry expirySeconds t⟩

/-- `rotateToken` from the row it found on. -/
def rotateExisting (i : ℕ) (existing : RefreshToken) : TokenProc IssuedToken := do
  Proc.rejectWhen (existing.revokedAt.isSome = true)
    (.unauthorized "Invalid or revoked refresh token")
  let now ← await .now
  Proc.rejectWhen (existing.expiresAt < now) (.unauthorized "Refresh token expired")
  let t ← await .now
  let newEntity : RefreshToken :=
    { id := i
      userId := existing.userId
      familyId := existing.familyId
      tokenHash := hash i
      parentTokenId := some existing.id
      replacedByTokenId := none
      expiresAt := expiry expirySeconds t
      revokedAt := none }
  await (.saveRotated existing now newEntity)
  return ⟨i, expiry expirySeconds t⟩

def rotateToken (i : ℕ) (oldToken : ℕ) : TokenProc IssuedToken := do
  match ← await (.findByHash (hash oldToken)) with
  | none => Proc.throw (.unauthorized "Invalid or revoked refresh token")
  | some existing => rotateExisting hash expirySeconds i existing

def revokeUserTokens (userId : UserId) : TokenProc Unit := do
  let t ← await .now
  await (.revoke userId t)

inductive TokenCall where
  | createToken (userId : UserId)
  | rotateToken (oldToken : ℕ)
  | revokeUserTokens (userId : UserId)
  | tick (ms : ℕ)
  deriving DecidableEq

/-- The method behind a call; `none` is a method that returns nothing. -/
def prog (i : ℕ) : TokenCall → TokenProc (Option IssuedToken)
  | .createToken userId => do return some (← createToken hash expirySeconds i userId)
  | .rotateToken oldToken => do return some (← rotateToken hash expirySeconds i oldToken)
  | .revokeUserTokens userId => do
    revokeUserTokens userId
    return none
  | .tick ms => do
    await (.tick ms)
    return none

/-- All calls of the service, interleaved at every repository call. -/
def server : System TokenCall TokenCmd TokenCmd.Reply Err TokenDb (Option IssuedToken) where
  prog := prog hash expirySeconds
  exec := exec
  mayFail := fun c => decide (c ≠ .now)

end Service

abbrev TokenConfig := Config TokenCall TokenCmd TokenCmd.Reply Err TokenDb (Option IssuedToken)

/-- No token has been issued. -/
def start (now : Time) : TokenConfig := ⟨⟨[], now, []⟩, []⟩

-- ---------------------------------------------------------------------------
-- What a save writes
-- ---------------------------------------------------------------------------

theorem save_ok {db db' : TokenDb} {r : RefreshToken} (h : db.save r = .ok db') :
    db' = db.put r := by
  unfold TokenDb.save at h
  split at h
  · cases h
  · exact (Except.ok.inj h).symm

theorem exec_insert {entity : RefreshToken} {db db' : TokenDb} {a : Unit}
    (h : exec (.insert entity) db = .ok (a, db')) : db' = db.put entity := by
  rw [exec] at h
  split at h
  · cases h
  · rename_i hsave
    cases h
    exact save_ok hsave

theorem exec_saveRotated {existing newEntity : RefreshToken} {at_ : Time} {db db' : TokenDb}
    {a : Unit} (h : exec (.saveRotated existing at_ newEntity) db = .ok (a, db')) :
    db' = (db.put (existing.replaced at_ newEntity.id)).put newEntity := by
  rw [exec] at h
  split at h
  · cases h
  · rename_i hfirst
    split at h
    · cases h
    · rename_i hsecond
      cases h
      rw [save_ok hsecond, save_ok hfirst]

theorem tokenHash_of_findByHash {db : TokenDb} {tokenHash : ℕ} {r : RefreshToken}
    (h : db.findByHash tokenHash = some r) : r.tokenHash = tokenHash := by
  simpa using List.find?_some h

end RefreshTokens

end NexaFx
