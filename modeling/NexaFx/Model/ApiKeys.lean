import NexaFx.Lib.Pool
import NexaFx.Model.Database

/-!
# NexaFx — API keys

`modules/api-keys/services/api-keys.service.ts` over the table `api_keys`,
repository call by repository call.

* The row and the key that `createApiKey` makes carry the identity of the call;
  `hashKey` is the digest of a key.
* `save` of a loaded entity writes all its fields over the stored row, so what
  changed in between is written back as it was read.
-/

namespace NexaFx

open Async

namespace ApiKeys

-- ---------------------------------------------------------------------------
-- The table
-- ---------------------------------------------------------------------------

structure ApiKey where
  id : ℕ
  userId : UserId
  name : String
  keyHash : ℕ
  scopes : List String
  rateLimit : ℕ
  isActive : Bool
  lastUsedAt : Option Time
  expiresAt : Option Time
  createdAt : Time
  deriving DecidableEq

structure KeyDb where
  keys : List ApiKey
  now : Time

namespace KeyDb

def key (db : KeyDb) (id : ℕ) : Option ApiKey := Table.get ApiKey.id db.keys id

def put (db : KeyDb) (apiKey : ApiKey) : KeyDb :=
  { db with keys := Table.put ApiKey.id apiKey db.keys }

/-- The unique index on `keyHash`. -/
def violatesUnique (db : KeyDb) (apiKey : ApiKey) : Bool :=
  db.keys.any fun r => decide (r.id ≠ apiKey.id ∧ r.keyHash = apiKey.keyHash)

/-- `save` of a loaded entity. -/
def save (db : KeyDb) (apiKey : ApiKey) : Except Err KeyDb :=
  if db.violatesUnique apiKey then .error .uniqueViolation else .ok (db.put apiKey)

/-- `save` of a created entity: its key is new. -/
def insert (db : KeyDb) (apiKey : ApiKey) : Except Err KeyDb :=
  if (db.key apiKey.id).isSome then .error .uniqueViolation else db.save apiKey

/-- `findOne({ where: { userId, name, isActive: true } })`. -/
def findByName (db : KeyDb) (userId : UserId) (name : String) : Option ApiKey :=
  db.keys.find? fun r => decide (r.userId = userId ∧ r.name = name ∧ r.isActive = true)

/-- `findOne({ where: { id, userId } })`. -/
def findOwned (db : KeyDb) (id : ℕ) (userId : UserId) : Option ApiKey :=
  db.keys.find? fun r => decide (r.id = id ∧ r.userId = userId)

/-- `findOne({ where: { keyHash, isActive: true } })`. -/
def findActive (db : KeyDb) (keyHash : ℕ) : Option ApiKey :=
  db.keys.find? fun r => decide (r.keyHash = keyHash ∧ r.isActive = true)

end KeyDb

-- ---------------------------------------------------------------------------
-- Repository calls
-- ---------------------------------------------------------------------------

inductive KeyCmd where
  | findByName (userId : UserId) (name : String)
  | findOwned (id : ℕ) (userId : UserId)
  | findActive (keyHash : ℕ)
  /-- `new Date()`, which is no await and cannot fail. -/
  | now
  /-- `save(apiKey)` of a created entity. -/
  | insert (apiKey : ApiKey)
  /-- `apiKey.isActive = false; save(apiKey)`. -/
  | saveRevoked (apiKey : ApiKey)
  /-- `apiKey.lastUsedAt = lastUsedAt; save(apiKey)`. -/
  | saveUsed (apiKey : ApiKey) (lastUsedAt : Time)
  /-- Time passes. -/
  | tick (ms : ℕ)
  deriving DecidableEq

@[reducible] def KeyCmd.Reply : KeyCmd → Type
  | .findByName _ _ => Option ApiKey
  | .findOwned _ _ => Option ApiKey
  | .findActive _ => Option ApiKey
  | .now => Time
  | .insert _ => ApiKey
  | _ => Unit

def ApiKey.revoked (apiKey : ApiKey) : ApiKey := { apiKey with isActive := false }

def ApiKey.usedAt (apiKey : ApiKey) (t : Time) : ApiKey := { apiKey with lastUsedAt := some t }

/-- The `createdAt` column is filled in by the insert. -/
def ApiKey.stamp (apiKey : ApiKey) (t : Time) : ApiKey := { apiKey with createdAt := t }

def exec : (c : KeyCmd) → KeyDb → Except Err (c.Reply × KeyDb)
  | .findByName userId name, db => .ok (db.findByName userId name, db)
  | .findOwned id userId, db => .ok (db.findOwned id userId, db)
  | .findActive keyHash, db => .ok (db.findActive keyHash, db)
  | .now, db => .ok (db.now, db)
  | .insert apiKey, db =>
    match db.insert (apiKey.stamp db.now) with
    | .error e => .error e
    | .ok db' => .ok (apiKey.stamp db.now, db')
  | .saveRevoked apiKey, db =>
    match db.save apiKey.revoked with
    | .error e => .error e
    | .ok db' => .ok ((), db')
  | .saveUsed apiKey lastUsedAt, db =>
    match db.save (apiKey.usedAt lastUsedAt) with
    | .error e => .error e
    | .ok db' => .ok ((), db')
  | .tick ms, db => .ok ((), { db with now := db.now + ms })

-- ---------------------------------------------------------------------------
-- The service
-- ---------------------------------------------------------------------------

abbrev KeyProc := Proc KeyCmd KeyCmd.Reply Err

abbrev await (c : KeyCmd) : KeyProc c.Reply := Proc.call c

/-- The `data` of `createApiKey`, its date parsed. -/
structure CreateApiKeyDto where
  name : String
  scopes : Option (List String)
  rateLimit : Option ℕ
  expiresAt : Option Time
  deriving DecidableEq

/-- `data.rateLimit || 1000`. -/
def CreateApiKeyDto.limit (data : CreateApiKeyDto) : ℕ :=
  if data.rateLimit.getD 0 = 0 then 1000 else data.rateLimit.getD 0

section Service

variable (hashKey : ℕ → ℕ)

/-- `apiKeyRepo.create`. -/
def CreateApiKeyDto.create (i : ℕ) (userId : UserId) (data : CreateApiKeyDto) : ApiKey where
  id := i
  userId := userId
  name := data.name
  keyHash := hashKey i
  scopes := data.scopes.getD []
  rateLimit := data.limit
  isActive := true
  lastUsedAt := none
  expiresAt := data.expiresAt
  createdAt := 0

def createApiKey (i : ℕ) (userId : UserId) (data : CreateApiKeyDto) : KeyProc ApiKey := do
  let existing ← await (.findByName userId data.name)
  Proc.rejectWhen (existing.isSome = true) (.conflict "API key with this name already exists")
  await (.insert (data.create hashKey i userId))

def revokeApiKey (id : ℕ) (userId : UserId) : KeyProc ApiKey := do
  match ← await (.findOwned id userId) with
  | none => Proc.throw (.notFound "API key not found")
  | some apiKey =>
    await (.saveRevoked apiKey)
    return apiKey.revoked

/-- `apiKey.expiresAt && new Date() > apiKey.expiresAt`. -/
def ApiKey.expired (apiKey : ApiKey) (now : Time) : Prop :=
  ∃ t ∈ apiKey.expiresAt, t < now

instance (apiKey : ApiKey) (now : Time) : Decidable (apiKey.expired now) :=
  inferInstanceAs (Decidable (∃ t ∈ apiKey.expiresAt, t < now))

def validateApiKey (key : ℕ) : KeyProc ApiKey := do
  match ← await (.findActive (hashKey key)) with
  | none => Proc.throw (.unauthorized "Invalid API key")
  | some apiKey =>
    let now ← await .now
    Proc.rejectWhen (apiKey.expired now) (.unauthorized "API key has expired")
    let lastUsedAt ← await .now
    await (.saveUsed apiKey lastUsedAt)
    return apiKey.usedAt lastUsedAt

inductive KeyCall where
  | createApiKey (userId : UserId) (data : CreateApiKeyDto)
  | revokeApiKey (id : ℕ) (userId : UserId)
  | validateApiKey (key : ℕ)
  | tick (ms : ℕ)
  deriving DecidableEq

/-- The method behind a call; `none` is a method that returns nothing. -/
def prog (i : ℕ) : KeyCall → KeyProc (Option ApiKey)
  | .createApiKey userId data => do return some (← createApiKey hashKey i userId data)
  | .revokeApiKey id userId => do return some (← revokeApiKey id userId)
  | .validateApiKey key => do return some (← validateApiKey hashKey key)
  | .tick ms => do
    await (.tick ms)
    return none

/-- All calls of the service, interleaved at every repository call. -/
def server : System KeyCall KeyCmd KeyCmd.Reply Err KeyDb (Option ApiKey) where
  prog := prog hashKey
  exec := exec
  mayFail := fun c => decide (c ≠ .now)

end Service

abbrev KeyConfig := Config KeyCall KeyCmd KeyCmd.Reply Err KeyDb (Option ApiKey)

/-- No key has been created. -/
def start (now : Time) : KeyConfig := ⟨⟨[], now⟩, []⟩

-- ---------------------------------------------------------------------------
-- What a save writes
-- ---------------------------------------------------------------------------

theorem save_ok {db db' : KeyDb} {apiKey : ApiKey} (h : db.save apiKey = .ok db') :
    db.violatesUnique apiKey = false ∧ db' = db.put apiKey := by
  unfold KeyDb.save at h
  split at h
  · cases h
  · rename_i hunique
    exact ⟨by simpa using hunique, (Except.ok.inj h).symm⟩

theorem insert_ok {db db' : KeyDb} {apiKey : ApiKey} (h : db.insert apiKey = .ok db') :
    db.key apiKey.id = none ∧ db.violatesUnique apiKey = false ∧ db' = db.put apiKey := by
  unfold KeyDb.insert at h
  split at h
  · cases h
  · rename_i hnew
    exact ⟨by simpa using hnew, save_ok h⟩

theorem key_put (db : KeyDb) (apiKey : ApiKey) (id : ℕ) :
    (db.put apiKey).key id = if apiKey.id = id then some apiKey else db.key id :=
  Table.get_put ..

end ApiKeys

end NexaFx
