import Mathlib.Data.List.Sort
import NexaFx.Lib.Pool
import NexaFx.Lib.Table
import NexaFx.Model.Database

/-!
# NexaFx — webhooks

`dispatchEvent` of `webhooks/webhooks.service.ts`, `deliver` of
`webhooks/webhooks.processor.ts` and the methods of
`webhooks/webhook-retry.job.ts`, await by await, over the table
`webhook_deliveries` and the Bull queue.

* A POST is two commands: `send`, when the request leaves, and the await of its
  `answer`. The answers come from `net`, one after the other, each with the
  time it takes.
* The queue hands a job out once, to a `deliver` call, which makes all its
  attempts: the job is run again until an attempt does not throw or its attempts
  are used up.
* In a `catch`, the entity is what the `try` block had made of it by then.
* `log` is a ghost field that nothing in the program reads.
-/

namespace NexaFx

open Async

namespace Webhooks

-- ---------------------------------------------------------------------------
-- The tables
-- ---------------------------------------------------------------------------

/-- The call that dispatches an event, and the number of the endpoint in it. -/
abbrev DeliveryId := ℕ × ℕ

/-- `WebhookDeliveryStatus`. -/
inductive WebhookDeliveryStatus where
  | pending
  | delivered
  | failed
  | expired
  deriving DecidableEq, Repr

structure WebhookEndpoint where
  id : ℕ
  url : String
  secret : String
  events : List String
  isActive : Bool
  deriving DecidableEq

structure WebhookDelivery where
  id : DeliveryId
  endpointId : ℕ
  eventName : String
  requestBody : String
  attemptCount : ℕ
  responseCode : Option ℕ
  retryCount : ℕ
  maxRetries : ℕ
  errorMessage : Option String
  status : WebhookDeliveryStatus
  deliveredAt : Option Time
  lastAttemptAt : Option Time
  nextRetryAt : Option Time
  attempts : ℕ
  createdAt : Time
  updatedAt : Time
  deriving DecidableEq

/-- The table, whose keys are unique. -/
structure Deliveries where
  rows : List WebhookDelivery
  ids : (rows.map WebhookDelivery.id).Nodup

/-- A Bull job of the queue `webhooks`. -/
structure Job where
  deliveryId : DeliveryId
  timestamp : Time
  attempts : ℕ
  deriving DecidableEq

/-- What an endpoint does with a request: the status of a success, or what the
HTTP client rejects with, and after how many milliseconds. -/
structure Answer (ε : Type) where
  result : Except ε ℕ
  latency : ℕ

/-- What is thrown: its message, if it is an `Error`, and the status of the
response, if it comes from one. -/
structure Thrown where
  message : Option String
  status : Option ℕ
  deriving DecidableEq

inductive PostEvent where
  | sent (id : DeliveryId)
  | answered (id : DeliveryId)
  /-- The row is stored as DELIVERED. -/
  | stored (id : DeliveryId)
  deriving DecidableEq

def PostEvent.delivery : PostEvent → DeliveryId
  | .sent id => id
  | .answered id => id
  | .stored id => id

structure WebhookDb where
  deliveries : Deliveries
  endpoints : List WebhookEndpoint
  jobs : List Job
  /-- The deliveries whose job has been handed out. -/
  taken : List DeliveryId
  net : ℕ → Answer Thrown
  served : ℕ
  now : Time
  log : List PostEvent

/-- The fields that an `update` names; `undefined` leaves a column as it is. -/
structure DeliveryPatch where
  status : Option WebhookDeliveryStatus := none
  attempts : Option ℕ := none
  retryCount : Option ℕ := none
  responseCode : Option (Option ℕ) := none
  errorMessage : Option (Option String) := none
  deliveredAt : Option (Option Time) := none
  nextRetryAt : Option (Option Time) := none
  deriving DecidableEq

def DeliveryPatch.apply (patch : DeliveryPatch) (delivery : WebhookDelivery) : WebhookDelivery :=
  { delivery with
    status := patch.status.getD delivery.status
    attempts := patch.attempts.getD delivery.attempts
    retryCount := patch.retryCount.getD delivery.retryCount
    responseCode := patch.responseCode.getD delivery.responseCode
    errorMessage := patch.errorMessage.getD delivery.errorMessage
    deliveredAt := patch.deliveredAt.getD delivery.deliveredAt
    nextRetryAt := patch.nextRetryAt.getD delivery.nextRetryAt }

/-- The columns that the database keeps itself. -/
def WebhookDelivery.touch (delivery : WebhookDelivery) (t : Time) : WebhookDelivery :=
  { delivery with updatedAt := t }

def WebhookDelivery.stamp (delivery : WebhookDelivery) (t : Time) : WebhookDelivery :=
  { delivery with createdAt := t, updatedAt := t }

namespace WebhookDb

def delivery (st : WebhookDb) (id : DeliveryId) : Option WebhookDelivery :=
  Table.get WebhookDelivery.id st.deliveries.rows id

def endpoint (st : WebhookDb) (id : ℕ) : Option WebhookEndpoint :=
  Table.get WebhookEndpoint.id st.endpoints id

def put (st : WebhookDb) (delivery : WebhookDelivery) : WebhookDb :=
  { st with
    deliveries := ⟨Table.put WebhookDelivery.id delivery st.deliveries.rows,
      Table.nodup_put _ st.deliveries.ids⟩ }

/-- A status is written; DELIVERED is noted. -/
def note (st : WebhookDb) (id : DeliveryId) (status : Option WebhookDeliveryStatus) : WebhookDb :=
  { st with log := st.log ++ if status = some .delivered then [.stored id] else [] }

/-- `save` of a loaded entity writes all its fields over the stored row. -/
def save (st : WebhookDb) (delivery : WebhookDelivery) : WebhookDb :=
  (st.put delivery).note delivery.id (some delivery.status)

/-- `save` of a created entity: its key is new. -/
def insert (st : WebhookDb) (delivery : WebhookDelivery) : Except Thrown WebhookDb :=
  if (st.delivery delivery.id).isSome then .error ⟨some "duplicate key value", none⟩
  else .ok (st.save delivery)

/-- `update({ id }, patch)`; where there is no row, nothing happens. -/
def update (st : WebhookDb) (id : DeliveryId) (patch : DeliveryPatch) : WebhookDb :=
  match st.delivery id with
  | none => st
  | some delivery => (st.put ((patch.apply delivery).touch st.now)).note id patch.status

/-- `find({ where: { status: FAILED, nextRetryAt: LessThanOrEqual(now) }, take: 50,
order: { updatedAt: 'ASC' } })`. A missing `nextRetryAt` satisfies no comparison. -/
def findDue (st : WebhookDb) : List WebhookDelivery :=
  ((st.deliveries.rows.filter fun r => decide (r.status = .failed ∧
    ∃ t ∈ r.nextRetryAt, t ≤ st.now)).insertionSort
      fun r r' => r.updatedAt ≤ r'.updatedAt).take 50

/-- The job of the delivery, unless it has been handed out. -/
def waiting (st : WebhookDb) (id : DeliveryId) : Option Job :=
  if id ∈ st.taken then none else st.jobs.find? fun job => decide (job.deliveryId = id)

end WebhookDb

-- ---------------------------------------------------------------------------
-- Commands
-- ---------------------------------------------------------------------------

/-- What is posted. -/
structure Body where
  event : String
  deliveredAt : Time
  data : String
  deriving DecidableEq

structure Request where
  deliveryId : DeliveryId
  url : String
  body : Body
  /-- The header `X-Nexafx-Signature`. -/
  signature : String
  deriving DecidableEq

inductive WebhookCmd where
  /-- `find({ where: { isActive: true } })` on the endpoints. -/
  | findActive
  | insert (delivery : WebhookDelivery)
  /-- `webhooksQueue.add('deliver', { deliveryId }, { jobId: deliveryId, attempts, ... })`. -/
  | addJob (deliveryId : DeliveryId) (attempts : ℕ)
  /-- The queue hands out the job of the delivery. -/
  | takeJob (deliveryId : DeliveryId)
  | findDelivery (id : DeliveryId)
  | findEndpoint (id : ℕ)
  /-- `new Date()`, which is no await and cannot fail. -/
  | now
  /-- `save(delivery)` of a loaded entity. -/
  | save (delivery : WebhookDelivery)
  | send (request : Request)
  | answer (deliveryId : DeliveryId)
  /-- The clock is read, and the deliveries due by then are looked for. -/
  | findDue
  | update (id : DeliveryId) (patch : DeliveryPatch)
  /-- The owners of the endpoints change them. -/
  | setEndpoints (endpoints : List WebhookEndpoint)
  /-- Time passes. -/
  | tick (ms : ℕ)
  deriving DecidableEq

@[reducible] def WebhookCmd.Reply : WebhookCmd → Type
  | .findActive => List WebhookEndpoint
  | .insert _ => WebhookDelivery
  | .takeJob _ => Option Job
  | .findDelivery _ => Option WebhookDelivery
  | .findEndpoint _ => Option WebhookEndpoint
  | .now => Time
  | .answer _ => Except Thrown ℕ
  | .findDue => List WebhookDelivery
  | _ => Unit

/-- The endpoint answers the request. -/
def WebhookDb.serve (st : WebhookDb) (id : DeliveryId) : WebhookDb :=
  { st with
    served := st.served + 1
    now := st.now + (st.net st.served).latency
    log := st.log ++ match (st.net st.served).result with
      | .ok _ => [.answered id]
      | .error _ => [] }

def exec : (c : WebhookCmd) → WebhookDb → Except Thrown (c.Reply × WebhookDb)
  | .findActive, st => .ok (st.endpoints.filter WebhookEndpoint.isActive, st)
  | .insert delivery, st =>
    match st.insert (delivery.stamp st.now) with
    | .error e => .error e
    | .ok st' => .ok (delivery.stamp st.now, st')
  | .addJob deliveryId attempts, st =>
    .ok ((), { st with jobs := st.jobs ++ [⟨deliveryId, st.now, attempts⟩] })
  | .takeJob deliveryId, st =>
    match st.waiting deliveryId with
    | none => .ok (none, st)
    | some job => .ok (some job, { st with taken := deliveryId :: st.taken })
  | .findDelivery id, st => .ok (st.delivery id, st)
  | .findEndpoint id, st => .ok (st.endpoint id, st)
  | .now, st => .ok (st.now, st)
  | .save delivery, st => .ok ((), st.save (delivery.touch st.now))
  | .send request, st => .ok ((), { st with log := st.log ++ [.sent request.deliveryId] })
  | .answer deliveryId, st => .ok ((st.net st.served).result, st.serve deliveryId)
  | .findDue, st => .ok (st.findDue, st)
  | .update id patch, st => .ok ((), st.update id patch)
  | .setEndpoints endpoints, st => .ok ((), { st with endpoints := endpoints })
  | .tick ms, st => .ok ((), { st with now := st.now + ms })

/-- What is awaited of the database and of the queue. -/
def mayFail : WebhookCmd → Bool
  | .takeJob _ | .now | .send _ | .answer _ | .setEndpoints _ | .tick _ => false
  | _ => true

-- ---------------------------------------------------------------------------
-- Dispatch
-- ---------------------------------------------------------------------------

abbrev WebhookProc := Proc WebhookCmd WebhookCmd.Reply Thrown

abbrev await (c : WebhookCmd) : WebhookProc c.Reply := Proc.call c

/-- What the services read from the environment. -/
structure WebhookConfig where
  /-- `WEBHOOK_MAX_ATTEMPTS`. -/
  maxAttempts : ℕ := 5
  /-- `WEBHOOK_REPLAY_WINDOW_HOURS`. -/
  windowHours : ℕ := 24

section Services

-- `sign` is the hex HMAC of the body in JSON under the secret of the endpoint
variable (config : WebhookConfig) (sign : String → Body → String)

/-- `deliveriesRepository.create`, with the column defaults. -/
def createDelivery (id : DeliveryId) (endpointId : ℕ) (eventName requestBody : String) :
    WebhookDelivery where
  id := id
  endpointId := endpointId
  eventName := eventName
  requestBody := requestBody
  attemptCount := 0
  responseCode := none
  retryCount := 0
  maxRetries := 3
  errorMessage := none
  status := .pending
  deliveredAt := none
  lastAttemptAt := none
  nextRetryAt := none
  attempts := 0
  createdAt := 0
  updatedAt := 0

/-- One delivery and one job for each of the targets, the first of which has
the number `n`. -/
def dispatchTo (i : ℕ) (eventName payload : String) : ℕ → List WebhookEndpoint → WebhookProc Unit
  | _, [] => return ()
  | n, endpoint :: targets => do
    let delivery ← await (.insert (createDelivery (i, n) endpoint.id eventName payload))
    await (.addJob delivery.id config.maxAttempts)
    dispatchTo i eventName payload (n + 1) targets

def dispatchEvent (i : ℕ) (eventName payload : String) : WebhookProc Unit := do
  let endpoints ← await .findActive
  dispatchTo config i eventName payload 0
    (endpoints.filter fun endpoint => endpoint.events.contains eventName)

-- ---------------------------------------------------------------------------
-- The processor
-- ---------------------------------------------------------------------------

def request (endpoint : WebhookEndpoint) (delivery : WebhookDelivery) (now : Time) : Request where
  deliveryId := delivery.id
  url := endpoint.url
  body := ⟨delivery.eventName, now, delivery.requestBody⟩
  signature := sign endpoint.secret ⟨delivery.eventName, now, delivery.requestBody⟩

def WebhookDelivery.lost (delivery : WebhookDelivery) : WebhookDelivery :=
  { delivery with status := .failed, errorMessage := some "Webhook endpoint not found" }

def WebhookDelivery.expire (delivery : WebhookDelivery) (t : Time) : WebhookDelivery :=
  { delivery with
    status := .expired
    errorMessage := some "Delivery window expired"
    lastAttemptAt := some t
    attemptCount := delivery.attemptCount + 1 }

def WebhookDelivery.attempt (delivery : WebhookDelivery) (t : Time) : WebhookDelivery :=
  { delivery with attemptCount := delivery.attemptCount + 1, lastAttemptAt := some t }

def WebhookDelivery.deliver (delivery : WebhookDelivery) (status : ℕ) (t : Time) :
    WebhookDelivery :=
  { delivery with
    status := .delivered, responseCode := some status, deliveredAt := some t, errorMessage := none }

def WebhookDelivery.reject (delivery : WebhookDelivery) (error : Thrown) : WebhookDelivery :=
  { delivery with
    responseCode := error.status
    errorMessage := some (error.message.getD "Unknown delivery error") }

def WebhookDelivery.fail (delivery : WebhookDelivery) : WebhookDelivery :=
  { delivery with status := .failed }

/-- The `catch` of an attempt; `made` attempts were made before it. -/
def deliveryFailed (job : Job) (made : ℕ) (delivery : WebhookDelivery) (error : Thrown) :
    WebhookProc Unit := do
  if job.attempts ≤ made + 1 then
    await (.save (delivery.reject error).fail)
  else
    await (.save (delivery.reject error))
    Proc.throw error

/-- `deliver`: one attempt at the job. -/
def deliver (job : Job) (made : ℕ) : WebhookProc Unit := do
  match ← await (.findDelivery job.deliveryId) with
  | none => return ()
  | some delivery =>
    match ← await (.findEndpoint delivery.endpointId) with
    | none => await (.save delivery.lost)
    | some endpoint =>
      let now ← await .now
      if job.timestamp + config.windowHours * 3600000 < now then
        let lastAttemptAt ← await .now
        await (.save (delivery.expire lastAttemptAt))
      else
        let lastAttemptAt ← await .now
        await (.save (delivery.attempt lastAttemptAt))
        let now ← await .now
        await (.send (request sign endpoint (delivery.attempt lastAttemptAt) now))
        match ← await (.answer delivery.id) with
        | .error error => deliveryFailed job made (delivery.attempt lastAttemptAt) error
        | .ok status =>
          let deliveredAt ← await .now
          let delivered := (delivery.attempt lastAttemptAt).deliver status deliveredAt
          match ← (await (.save delivered)).attempt with
          | .ok _ => return ()
          | .error error => deliveryFailed job made delivered error

/-- The attempts at a job after `made` of them, of which at most `left` may be
followed by another one. -/
def attempts (job : Job) : (left made : ℕ) → WebhookProc Unit
  | 0, made => deliver config sign job made
  | left + 1, made => do
    match ← (deliver config sign job made).attempt with
    | .ok _ => return ()
    | .error _ => attempts job left (made + 1)

/-- A worker takes the job of the delivery and runs it. -/
def processJob (deliveryId : DeliveryId) : WebhookProc Unit := do
  match ← await (.takeJob deliveryId) with
  | none => return ()
  | some job => attempts config sign job (job.attempts - 1) 0

-- ---------------------------------------------------------------------------
-- The retry job
-- ---------------------------------------------------------------------------

def EXPONENTIAL_BACKOFF_MS : List ℕ := [60000, 300000, 1800000]

/-- `EXPONENTIAL_BACKOFF_MS[Math.min(retryCount, EXPONENTIAL_BACKOFF_MS.length - 1)]`. -/
def backoffMs (retryCount : ℕ) : ℕ :=
  EXPONENTIAL_BACKOFF_MS.getD (min retryCount (EXPONENTIAL_BACKOFF_MS.length - 1)) 0

/-- The update of a delivery whose retries are used up; its `nextRetryAt` is
`undefined`. -/
def exhausted : DeliveryPatch := { status := some .failed }

/-- The update of a retry that succeeded; its `nextRetryAt` is `undefined`. -/
def WebhookDelivery.succeeded (delivery : WebhookDelivery) (status : ℕ) (t : Time) :
    DeliveryPatch where
  status := some .delivered
  attempts := some (delivery.attempts + 1)
  retryCount := some (delivery.retryCount + 1)
  responseCode := some (some status)
  deliveredAt := some (some t)

/-- The update of a retry that failed. -/
def WebhookDelivery.retried (delivery : WebhookDelivery) (error : Thrown)
    (nextRetryAt : Option Time) : DeliveryPatch where
  status := some .failed
  attempts := some (delivery.attempts + 1)
  retryCount := some (delivery.retryCount + 1)
  responseCode := some error.status
  errorMessage := some (some (error.message.getD "Retry failed"))
  nextRetryAt := nextRetryAt.map some

/-- The `catch` of a retry. The next one is set unless this was the last. -/
def retryFailed (delivery : WebhookDelivery) (error : Thrown) : WebhookProc Unit := do
  if delivery.retryCount + 1 < delivery.maxRetries then
    let now ← await .now
    await (.update delivery.id
      (delivery.retried error (some (now + backoffMs (delivery.retryCount + 1)))))
  else
    await (.update delivery.id (delivery.retried error none))

/-- The body of the loop of `retryFailedDeliveries`. -/
def retryOne (delivery : WebhookDelivery) : WebhookProc Unit := do
  if delivery.maxRetries ≤ delivery.retryCount then
    await (.update delivery.id exhausted)
  else
    match ← await (.findEndpoint delivery.endpointId) with
    | none => return ()
    | some endpoint =>
      if endpoint.isActive = false then
        return ()
      else
        let now ← await .now
        await (.send (request sign endpoint delivery now))
        match ← await (.answer delivery.id) with
        | .error error => retryFailed delivery error
        | .ok status =>
          let deliveredAt ← await .now
          match ← (await (.update delivery.id (delivery.succeeded status deliveredAt))).attempt with
          | .ok _ => return ()
          | .error error => retryFailed delivery error

def retryAll : List WebhookDelivery → WebhookProc Unit
  | [] => return ()
  | delivery :: due => do
    retryOne sign delivery
    retryAll due

def retryFailedDeliveries : WebhookProc Unit := do
  let due ← await .findDue
  retryAll sign due

def manualRetry (deliveryId : DeliveryId) : WebhookProc Unit := do
  match ← await (.findDelivery deliveryId) with
  | none => Proc.throw ⟨some ("Delivery " ++ toString deliveryId ++ " not found"), none⟩
  | some delivery =>
    let now ← await .now
    if delivery.maxRetries ≤ delivery.retryCount then
      await (.update delivery.id { retryCount := some 0, nextRetryAt := some (some now) })
    else
      await (.update delivery.id { nextRetryAt := some (some now) })

-- ---------------------------------------------------------------------------
-- All calls
-- ---------------------------------------------------------------------------

inductive WebhookCall where
  | dispatchEvent (eventName payload : String)
  | processJob (deliveryId : DeliveryId)
  | retryFailedDeliveries
  | manualRetry (deliveryId : DeliveryId)
  | setEndpoints (endpoints : List WebhookEndpoint)
  | tick (ms : ℕ)
  deriving DecidableEq

def prog (i : ℕ) : WebhookCall → WebhookProc Unit
  | .dispatchEvent eventName payload => dispatchEvent config i eventName payload
  | .processJob deliveryId => processJob config sign deliveryId
  | .retryFailedDeliveries => retryFailedDeliveries sign
  | .manualRetry deliveryId => manualRetry deliveryId
  | .setEndpoints endpoints => await (.setEndpoints endpoints)
  | .tick ms => await (.tick ms)

/-- All calls, interleaved at every await. -/
def server : System WebhookCall WebhookCmd WebhookCmd.Reply Thrown WebhookDb Unit where
  prog := prog config sign
  exec := exec
  mayFail := mayFail

end Services

abbrev WebhookPool := Config WebhookCall WebhookCmd WebhookCmd.Reply Thrown WebhookDb Unit

/-- No event has been dispatched. -/
def start (endpoints : List WebhookEndpoint) (net : ℕ → Answer Thrown) (now : Time) :
    WebhookDb where
  deliveries := ⟨[], List.nodup_nil⟩
  endpoints := endpoints
  jobs := []
  taken := []
  net := net
  served := 0
  now := now
  log := []

-- ---------------------------------------------------------------------------
-- What is written and found
-- ---------------------------------------------------------------------------

section Tables

variable {st : WebhookDb} {delivery : WebhookDelivery} {id : DeliveryId}

theorem delivery_put (st : WebhookDb) (delivery : WebhookDelivery) (id : DeliveryId) :
    (st.put delivery).delivery id = if delivery.id = id then some delivery else st.delivery id :=
  Table.get_put ..

theorem id_of_delivery (h : st.delivery id = some delivery) : delivery.id = id :=
  Table.key_of_get _ h

theorem delivery_of_mem (h : delivery ∈ st.deliveries.rows) :
    st.delivery delivery.id = some delivery :=
  Table.get_of_mem _ st.deliveries.ids h

theorem mem_findDue (h : delivery ∈ st.findDue) :
    st.delivery delivery.id = some delivery ∧ delivery.status = .failed ∧
      ∃ t ∈ delivery.nextRetryAt, t ≤ st.now := by
  have hmem := (List.mem_insertionSort _).mp (List.mem_of_mem_take h)
  obtain ⟨hrow, hdue⟩ := List.mem_filter.mp hmem
  rw [decide_eq_true_eq] at hdue
  exact ⟨delivery_of_mem hrow, hdue.1, hdue.2⟩

/-- A run has each delivery once. -/
theorem nodup_findDue (st : WebhookDb) : (st.findDue.map WebhookDelivery.id).Nodup := by
  have hfound := Table.nodup_filter WebhookDelivery.id st.deliveries.ids fun r =>
    decide (r.status = .failed ∧ ∃ t ∈ r.nextRetryAt, t ≤ st.now)
  have hperm := List.perm_insertionSort (fun r r' : WebhookDelivery => r.updatedAt ≤ r'.updatedAt)
    (st.deliveries.rows.filter fun r => decide (r.status = .failed ∧
      ∃ t ∈ r.nextRetryAt, t ≤ st.now))
  exact ((hperm.map WebhookDelivery.id).nodup_iff.mpr hfound).sublist
    ((List.take_sublist 50 _).map WebhookDelivery.id)

end Tables

end Webhooks

end NexaFx
