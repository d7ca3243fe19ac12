import NexaFx.Lib.Pool
import NexaFx.Model.Currency

/-!
# NexaFx — idempotent requests

`idempotency/idempotency.guard.ts`, `idempotency.interceptor.ts`,
`idempotency.service.ts` and `cleanup.job.ts`: a request that carries an
`Idempotency-Key` looks the key up (guard), runs its handler when there is no
record (deposit, withdrawal or swap), and stores the response under the key
(interceptor). Nothing reserves the key in between, the error of a failed store
is swallowed, and the table knows nothing of the user who made the request.

What a handler does when it runs is the environment's choice and part of the
request (`Outcome`): a response or an exception, with or without effects. So
every behaviour of the three handlers is covered. The request body and the
response are values of an arbitrary type `J`, and `hashRequest` is a parameter.

`executed` and `stored` are ghost logs of the handlers that ran and of the
records that were stored.
-/

namespace NexaFx

namespace Idempotency

open Async

/-- Milliseconds since the epoch. -/
abbrev Time := ℕ

def MIN_KEY_LENGTH : ℕ := 16
def MAX_KEY_LENGTH : ℕ := 255

/-- `HttpStatus.CREATED`, the status code of the three routes. -/
def CREATED : ℕ := 201

/-! ## Requests and records -/

/-- What a handler does when it runs: it has effects or not, and it returns a
response or throws. -/
structure Outcome (J : Type) where
  effects : Bool
  result : Except Err J

/-- A request with the user of its token. -/
structure Request (J : Type) where
  userId : ℕ
  idempotencyKey : Option String
  method : String
  url : String
  body : J
  outcome : Outcome J

/-- A row of `idempotency_keys`. -/
structure Record (J H : Type) where
  key : String
  requestHash : H
  response : J
  statusCode : ℕ
  expiresAt : Time

/-- A response with its status code. -/
structure Response (J : Type) where
  statusCode : ℕ
  body : J
  deriving DecidableEq

variable {J H : Type}

structure IdemDb (J H : Type) where
  records : List (Record J H)
  now : Time
  ttlHours : ℕ
  /-- The calls whose handler ran. -/
  executed : List (ℕ × Request J)
  /-- The calls that stored a response, with the record. -/
  stored : List (ℕ × Record J H)

namespace IdemDb

/-- `IdempotencyService.findByKey`: an expired record is found as well. -/
def findByKey (db : IdemDb J H) (key : String) : Option (Record J H) :=
  Table.get Record.key db.records key

/-- The record of a response stored now. -/
def record (db : IdemDb J H) (key : String) (requestHash : H) (response : J) (statusCode : ℕ) :
    Record J H :=
  ⟨key, requestHash, response, statusCode, db.now + db.ttlHours * 3600000⟩

/-- `IdempotencyService.store`: an upsert. -/
def store (db : IdemDb J H) (call : ℕ) (r : Record J H) : IdemDb J H :=
  { db with
    records := Table.put Record.key r db.records
    stored := db.stored ++ [(call, r)] }

/-- The record has not expired. -/
def fresh (db : IdemDb J H) (r : Record J H) : Bool := decide (db.now ≤ r.expiresAt)

end IdemDb

/-! ## Awaits -/

inductive IdemCmd (J H : Type) where
  | findByKey (key : String)
  /-- `next.handle()`. -/
  | handle (call : ℕ) (request : Request J)
  | store (call : ℕ) (key : String) (requestHash : H) (response : J) (statusCode : ℕ)
  /-- `delete({ expiresAt: LessThan(new Date()) })`. -/
  | deleteExpired
  /-- Time passes. -/
  | tick (ms : ℕ)

@[reducible] def IdemCmd.Reply : IdemCmd J H → Type
  | .findByKey _ => Option (Record J H)
  | .handle _ _ => Except Err J
  | .deleteExpired => ℕ
  | _ => Unit

def exec : (c : IdemCmd J H) → IdemDb J H → Except Err (c.Reply × IdemDb J H)
  | .findByKey key, db => .ok (db.findByKey key, db)
  | .handle call request, db =>
    .ok (request.outcome.result, { db with executed := db.executed ++ [(call, request)] })
  | .store call key requestHash response statusCode, db =>
    .ok ((), db.store call (db.record key requestHash response statusCode))
  | .deleteExpired, db =>
    .ok ((db.records.filter fun r => !db.fresh r).length,
      { db with records := db.records.filter db.fresh })
  | .tick ms, db => .ok ((), { db with now := db.now + ms })

/-! ## The guard, the interceptor and the job -/

abbrev IdemProc (J H : Type) := Proc (IdemCmd J H) IdemCmd.Reply Err

abbrev await (c : IdemCmd J H) : IdemProc J H c.Reply := Proc.call c

/-- The checks of the header, the upper bound twice as in the source. -/
def checkKey (idempotencyKey : Option String) : Except Err String :=
  match idempotencyKey with
  | none => .error (.badRequest "Idempotency-Key header is required")
  | some key =>
    if key = "" then .error (.badRequest "Idempotency-Key header is required")
    else if key.length < MIN_KEY_LENGTH then
      .error (.badRequest ("Idempotency-Key must be at least " ++ toString MIN_KEY_LENGTH ++
        " characters"))
    else if MAX_KEY_LENGTH < key.length then
      .error (.badRequest ("Idempotency-Key must not exceed " ++ toString MAX_KEY_LENGTH ++
        " characters"))
    else if MAX_KEY_LENGTH < key.length then
      .error (.badRequest ("Idempotency-Key must not exceed " ++ toString MAX_KEY_LENGTH ++
        " characters"))
    else .ok key

/-- What the guard attaches to the request. -/
structure Ticket (J H : Type) where
  idempotencyKey : String
  requestHash : H
  idempotencyResponse : Option (Response J)

section Programs

variable [DecidableEq H] (hashRequest : String → String → J → H)

/-- `IdempotencyGuard.canActivate`, on a route marked as idempotent. -/
def canActivate (request : Request J) : IdemProc J H (Ticket J H) := do
  let key ← Proc.ofExcept (checkKey request.idempotencyKey)
  let requestHash := hashRequest request.method request.url request.body
  match ← await (.findByKey key) with
  | some existing =>
    Proc.rejectWhen (existing.requestHash ≠ requestHash)
      (.unprocessable "Idempotency-Key already used with different request parameters")
    return ⟨key, requestHash, some ⟨existing.statusCode, existing.response⟩⟩
  | none => return ⟨key, requestHash, none⟩

/-- The interceptor after the handler has returned `data`: the response is
stored, and returned even when that fails. -/
def persist (i : ℕ) (key : String) (requestHash : H) (data : J) : IdemProc J H (Response J) := do
  let _ ← (await (.store i key requestHash data CREATED)).attempt
  return ⟨CREATED, data⟩

/-- `next.handle()` and what follows. -/
def handle (i : ℕ) (request : Request J) (key : String) (requestHash : H) :
    IdemProc J H (Response J) := do
  let result ← await (.handle i request)
  let data ← Proc.ofExcept result
  persist i key requestHash data

/-- `IdempotencyInterceptor.intercept`. -/
def intercept (i : ℕ) (request : Request J) (ticket : Ticket J H) : IdemProc J H (Response J) :=
  match ticket.idempotencyResponse with
  | some cached => return cached
  | none => handle i request ticket.idempotencyKey ticket.requestHash

/-- `IdempotencyCleanupJob.cleanupExpiredKeys`. -/
def cleanupExpiredKeys : IdemProc J H ℕ := await .deleteExpired

/-! ## The server -/

inductive IdemCall (J : Type) where
  | request (r : Request J)
  | cleanup
  | tick (ms : ℕ)

inductive Answer (J : Type) where
  | response (r : Response J)
  | cleaned (count : ℕ)
  | ticked
  deriving DecidableEq

def prog (i : ℕ) : IdemCall J → IdemProc J H (Answer J)
  | .request r => do
    let ticket ← canActivate hashRequest r
    return .response (← intercept i r ticket)
  | .cleanup => do return .cleaned (← cleanupExpiredKeys)
  | .tick ms => do
    await (.tick ms)
    return .ticked

def mayFail : IdemCmd J H → Bool
  | .tick _ => false
  | _ => true

/-- Any number of requests, interleaved at every await. -/
def server : System (IdemCall J) (IdemCmd J H) IdemCmd.Reply Err (IdemDb J H) (Answer J) where
  prog := prog hashRequest
  exec := exec
  mayFail := mayFail

end Programs

abbrev IdemConfig (J H : Type) :=
  Config (IdemCall J) (IdemCmd J H) IdemCmd.Reply Err (IdemDb J H) (Answer J)

abbrev IdemThread (J H : Type) := Thread (IdemCall J) (IdemCmd J H) IdemCmd.Reply Err (Answer J)

/-- No request has been made and the table is empty. -/
def start (now : Time) (ttlHours : ℕ) : IdemConfig J H := ⟨⟨[], now, ttlHours, [], []⟩, []⟩

/-- The request and the key it passes the guard's checks with. -/
def IdemCall.keyed (key : String) : IdemCall J → Bool
  | .request r =>
    match checkKey r.idempotencyKey with
    | .ok k => decide (k = key)
    | .error _ => false
  | _ => false

/-- How often handlers had effects under the key. -/
def IdemDb.effects (db : IdemDb J H) (key : String) : ℕ :=
  db.executed.countP fun e => (IdemCall.request e.2).keyed key && e.2.outcome.effects

end Idempotency

end NexaFx
