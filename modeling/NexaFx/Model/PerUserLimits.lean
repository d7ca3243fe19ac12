import NexaFx.Lib.Pool
import NexaFx.Lib.Table
import NexaFx.Model.Database

/-!
# NexaFx — rate limits of a user

`check` of `modules/rate-limit/services/per-user-rate-limit.service.ts`, await
by await. A record is found by its user and endpoint; the unique index on the two
makes them as good a key as the `id`, and no code deletes a record. Times are
milliseconds since the epoch.

`windows` and `passed` are ghost fields: the windows that were stored, and the
checks that were allowed, noted with the write after which a check returns.
-/

namespace NexaFx

open Async

namespace PerUserLimits

-- ---------------------------------------------------------------------------
-- State
-- ---------------------------------------------------------------------------

inductive Category where
  | read
  | write
  deriving DecidableEq

/-- A row of `rate_limit_records`. -/
structure RateLimitRecordEntity where
  userId : UserId
  endpoint : String
  requestCount : ℕ
  windowStart : ℕ
  deriving DecidableEq

abbrev RecordKey := UserId × String

def RateLimitRecordEntity.key (r : RateLimitRecordEntity) : RecordKey := (r.userId, r.endpoint)

structure PerUserRateLimitResult where
  allowed : Bool
  remaining : ℕ
  resetAt : ℕ
  limit : ℕ
  deriving DecidableEq

/-- A check, by its category and the time at which it started. -/
abbrev Started := Category × ℕ

structure LimiterDb where
  records : List RateLimitRecordEntity
  /-- `idx_rate_limit_records_user_endpoint`. -/
  unique : (records.map RateLimitRecordEntity.key).Nodup
  now : ℕ
  windows : List (RecordKey × ℕ)
  passed : List (RecordKey × Started)

namespace LimiterDb

def record (db : LimiterDb) (key : RecordKey) : Option RateLimitRecordEntity :=
  Table.get RateLimitRecordEntity.key db.records key

/-- The check is allowed. -/
def pass (db : LimiterDb) (key : RecordKey) (check : Started) : LimiterDb :=
  { db with passed := db.passed ++ [(key, check)] }

/-- The row is stored, by a check that is allowed. -/
def store (db : LimiterDb) (r : RateLimitRecordEntity) (check : Started) : LimiterDb :=
  { db.pass r.key check with
    records := Table.put RateLimitRecordEntity.key r db.records
    unique := Table.nodup_put RateLimitRecordEntity.key db.unique }

/-- The row is stored with a new window. -/
def storeWindow (db : LimiterDb) (r : RateLimitRecordEntity) (check : Started) : LimiterDb :=
  { db.store r check with windows := db.windows ++ [(r.key, r.windowStart)] }

end LimiterDb

-- ---------------------------------------------------------------------------
-- The limiter
-- ---------------------------------------------------------------------------

/-- The writes carry the check that makes them, for the ghost fields. -/
inductive LimiterCmd where
  /-- `new Date()`. -/
  | now
  | findOne (userId : UserId) (endpoint : String)
  /-- `save` of a record that was created. -/
  | insert (record : RateLimitRecordEntity) (check : Started)
  /-- `save` of a record that was found. -/
  | save (record : RateLimitRecordEntity) (check : Started)
  /-- `update(record.id, { requestCount })`. -/
  | update (record : RateLimitRecordEntity) (requestCount : ℕ) (check : Started)
  /-- Time passes. -/
  | tick (ms : ℕ)
  deriving DecidableEq

@[reducible] def LimiterCmd.Reply : LimiterCmd → Type
  | .now => ℕ
  | .findOne _ _ => Option RateLimitRecordEntity
  | _ => Unit

def exec : (c : LimiterCmd) → LimiterDb → Except Err (c.Reply × LimiterDb)
  | .now, db => .ok (db.now, db)
  | .findOne userId endpoint, db => .ok (db.record (userId, endpoint), db)
  | .insert record check, db =>
    match db.record record.key with
    | some _ => .error .uniqueViolation
    | none => .ok ((), db.storeWindow record check)
  | .save record check, db => .ok ((), db.storeWindow record check)
  | .update record requestCount check, db =>
    match db.record record.key with
    | some row => .ok ((), db.store { row with requestCount := requestCount } check)
    | none => .ok ((), db.pass record.key check)
  | .tick ms, db => .ok ((), { db with now := db.now + ms })

abbrev LimiterProc := Proc LimiterCmd LimiterCmd.Reply Err

abbrev await (c : LimiterCmd) : LimiterProc c.Reply := Proc.call c

def windowMs : ℕ := 60000

/-- `DEFAULT_LIMITS`, and `getLimitForEndpoint`, which looks at nothing else. -/
def Category.limit : Category → ℕ
  | .read => 100
  | .write => 20

def categorizeMethod (method : String) : Category :=
  if String.ofList (toUpperCase method.toList) ∈ ["GET", "HEAD", "OPTIONS"] then .read else .write

def check (userId : UserId) (endpoint method : String) : LimiterProc PerUserRateLimitResult := do
  let category := categorizeMethod method
  let limit := category.limit
  let now ← await .now
  let windowStart : ℤ := now - windowMs
  match ← await (.findOne userId endpoint) with
  | none =>
    await (.insert ⟨userId, endpoint, 1, now⟩ (category, now))
    return ⟨true, limit - 1, now + windowMs, limit⟩
  | some record =>
    if (record.windowStart : ℤ) < windowStart then
      await (.save { record with requestCount := 1, windowStart := now } (category, now))
      return ⟨true, limit - 1, now + windowMs, limit⟩
    else if record.requestCount < limit then
      await (.update record (record.requestCount + 1) (category, now))
      return ⟨true, limit - record.requestCount - 1, record.windowStart + windowMs, limit⟩
    else
      return ⟨false, limit - record.requestCount, record.windowStart + windowMs, limit⟩

inductive LimiterCall where
  | check (userId : UserId) (endpoint method : String)
  | tick (ms : ℕ)

def prog : LimiterCall → LimiterProc (Option PerUserRateLimitResult)
  | .check userId endpoint method => do return some (← check userId endpoint method)
  | .tick ms => do
    await (.tick ms)
    return none

def mayFail : LimiterCmd → Bool
  | .findOne _ _ | .insert _ _ | .save _ _ | .update _ _ _ => true
  | _ => false

/-- All checks, interleaved at their awaits. -/
def server : System LimiterCall LimiterCmd LimiterCmd.Reply Err LimiterDb
    (Option PerUserRateLimitResult) where
  prog := fun _ => prog
  exec := exec
  mayFail := mayFail

abbrev LimiterConfig :=
  Config LimiterCall LimiterCmd LimiterCmd.Reply Err LimiterDb (Option PerUserRateLimitResult)

end PerUserLimits

end NexaFx
