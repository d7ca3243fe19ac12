import NexaFx.Lib.Pool
import NexaFx.Model.Database

/-!
# NexaFx — webhook subscriptions and their dispatcher

`create`, `toggle`, `update` and `getActiveSubscriptionsForEvent` of
`modules/webhooks/webhooks.service.ts`, and `dispatch` of
`modules/webhooks/webhook-dispatcher.service.ts`, await by await.

* A subscription has the identity of the call that creates it; a delivery is
  named by the call that dispatches and by the subscription.
* A payload is given as `JSON.stringify` prints it.
* Not under `src/` are the event catalog and `signWebhookPayload`, which are
  parameters, and the DTOs: an update names any of the columns that a client
  could set.
* The statuses that receivers answer with come from `net`, one after the other.

`log` is a ghost field: what each call has been answered and has written.
-/

namespace NexaFx

open Async

namespace Dispatcher

-- ---------------------------------------------------------------------------
-- The tables
-- ---------------------------------------------------------------------------

inductive WebhookStatus where
  | active
  | disabled
  deriving DecidableEq, Repr

structure WebhookSubscription where
  id : ℕ
  userId : Option UserId
  url : String
  events : List String
  secret : String
  isActive : Bool
  status : WebhookStatus
  deriving DecidableEq

/-- `s.status = 'active' AND s."isActive" AND s.events @> [eventName]`. -/
def WebhookSubscription.receives (sub : WebhookSubscription) (eventName : String) : Bool :=
  decide (sub.status = .active ∧ sub.isActive = true ∧ eventName ∈ sub.events)

inductive WebhookDeliveryStatus where
  | pending
  | delivered
  | failed
  | success
  deriving DecidableEq, Repr

/-- The call that dispatches, and the subscription. -/
abbrev DeliveryId := ℕ × ℕ

structure WebhookDelivery where
  id : DeliveryId
  subscriptionId : ℕ
  eventName : String
  payload : String
  signature : String
  status : WebhookDeliveryStatus
  attempts : ℕ
  lastHttpStatus : Option ℕ
  lastError : Option String
  lastAttemptAt : Time
  nextRetryAt : Option Time
  deriving DecidableEq

/-- What an `update` of a delivery names; `none` leaves the column as it is. -/
structure DeliveryPatch where
  status : WebhookDeliveryStatus
  attempts : ℕ
  lastHttpStatus : Option ℕ
  lastError : Option String
  lastAttemptAt : Time
  nextRetryAt : Option Time
  deriving DecidableEq

def DeliveryPatch.apply (patch : DeliveryPatch) (delivery : WebhookDelivery) : WebhookDelivery :=
  { delivery with
    status := patch.status
    attempts := patch.attempts
    lastHttpStatus := patch.lastHttpStatus.or delivery.lastHttpStatus
    lastError := patch.lastError.or delivery.lastError
    lastAttemptAt := patch.lastAttemptAt
    nextRetryAt := patch.nextRetryAt.or delivery.nextRetryAt }

/-- `UpdateWebhookDto`. -/
structure UpdateWebhookDto where
  url : Option String
  events : Option (List String)
  isActive : Option Bool
  status : Option WebhookStatus
  deriving DecidableEq

def UpdateWebhookDto.apply (dto : UpdateWebhookDto) (sub : WebhookSubscription) :
    WebhookSubscription :=
  { sub with
    url := dto.url.getD sub.url
    events := dto.events.getD sub.events
    isActive := dto.isActive.getD sub.isActive
    status := dto.status.getD sub.status }

-- ---------------------------------------------------------------------------
-- Messages
-- ---------------------------------------------------------------------------

/-- What is posted to a receiver. -/
structure Request where
  url : String
  body : String
  event : String
  timestamp : String
  signature : String
  deliveryId : DeliveryId
  deriving DecidableEq

/-- The notification `webhook.failed`. -/
structure Notification where
  recipientId : ℕ
  webhookUrl : String
  eventName : String
  error : String
  httpStatus : Option ℕ
  deliveryId : DeliveryId
  timestamp : Time
  deriving DecidableEq

/-- What is thrown: its message, if it is an `Error`, and the status of the
response, if it comes from one. -/
structure Thrown where
  message : Option String
  status : Option ℕ
  deriving DecidableEq

/-- What a call has been answered or has written. -/
inductive Act where
  /-- What the query of the subscriptions found. -/
  | found (subs : List WebhookSubscription)
  | saved (delivery : WebhookDelivery)
  | answered (request : Request) (httpStatus : ℕ)
  | updated (id : DeliveryId) (patch : DeliveryPatch)
  | notified (notification : Notification)
  deriving DecidableEq

structure DispatchDb where
  subscriptions : List WebhookSubscription
  keyed : (subscriptions.map WebhookSubscription.id).Nodup
  deliveries : List WebhookDelivery
  net : ℕ → ℕ
  served : ℕ
  now : Time
  log : List (ℕ × Act)

namespace DispatchDb

def subscription (db : DispatchDb) (id : ℕ) : Option WebhookSubscription :=
  Table.get WebhookSubscription.id db.subscriptions id

def delivery (db : DispatchDb) (id : DeliveryId) : Option WebhookDelivery :=
  Table.get WebhookDelivery.id db.deliveries id

def putSubscription (db : DispatchDb) (sub : WebhookSubscription) : DispatchDb :=
  { db with
    subscriptions := Table.put WebhookSubscription.id sub db.subscriptions
    keyed := Table.nodup_put WebhookSubscription.id db.keyed }

def putDelivery (db : DispatchDb) (delivery : WebhookDelivery) : DispatchDb :=
  { db with deliveries := Table.put WebhookDelivery.id delivery db.deliveries }

/-- The index on `url` is unique. -/
def urlTaken (db : DispatchDb) (sub : WebhookSubscription) : Bool :=
  db.subscriptions.any fun r => decide (r.url = sub.url ∧ r.id ≠ sub.id)

/-- The subscriptions that receive the event. -/
def receivers (db : DispatchDb) (eventName : String) : List WebhookSubscription :=
  db.subscriptions.filter fun sub => sub.receives eventName

def note (db : DispatchDb) (call : ℕ) (act : Act) : DispatchDb :=
  { db with log := db.log ++ [(call, act)] }

/-- What the call has been answered and has written, in order. -/
def actsOf (db : DispatchDb) (call : ℕ) : List Act :=
  (db.log.filter fun e => decide (e.1 = call)).map Prod.snd

end DispatchDb

-- ---------------------------------------------------------------------------
-- Commands
-- ---------------------------------------------------------------------------

inductive DispatchCmd where
  | insertSubscription (sub : WebhookSubscription)
  | findSubscription (id : ℕ)
  /-- `save` of a loaded subscription writes all its columns. -/
  | saveSubscription (sub : WebhookSubscription)
  | updateSubscription (id : ℕ) (dto : UpdateWebhookDto)
  /-- `getActiveSubscriptionsForEvent`. -/
  | findActive (call : ℕ) (eventName : String)
  /-- `new Date()`, which is no await and cannot fail. -/
  | now
  | saveDelivery (call : ℕ) (delivery : WebhookDelivery)
  | post (call : ℕ) (request : Request)
  | updateDelivery (call : ℕ) (id : DeliveryId) (patch : DeliveryPatch)
  | notify (call : ℕ) (notification : Notification)
  /-- Time passes. -/
  | tick (ms : ℕ)
  deriving DecidableEq

@[reducible] def DispatchCmd.Reply : DispatchCmd → Type
  | .insertSubscription _ => WebhookSubscription
  | .findSubscription _ => Option WebhookSubscription
  | .saveSubscription _ => WebhookSubscription
  | .findActive _ _ => List WebhookSubscription
  | .now => Time
  | .saveDelivery _ _ => WebhookDelivery
  | .post _ _ => ℕ
  | _ => Unit

def duplicateKey : Thrown := ⟨some "duplicate key value", none⟩

def exec : (c : DispatchCmd) → DispatchDb → Except Thrown (c.Reply × DispatchDb)
  | .insertSubscription sub, db =>
    if (db.subscription sub.id).isSome || db.urlTaken sub then .error duplicateKey
    else .ok (sub, db.putSubscription sub)
  | .findSubscription id, db => .ok (db.subscription id, db)
  | .saveSubscription sub, db =>
    if db.urlTaken sub then .error duplicateKey else .ok (sub, db.putSubscription sub)
  | .updateSubscription id dto, db =>
    match db.subscription id with
    | none => .ok ((), db)
    | some sub =>
      if db.urlTaken (dto.apply sub) then .error duplicateKey
      else .ok ((), db.putSubscription (dto.apply sub))
  | .findActive call eventName, db =>
    .ok (db.receivers eventName, db.note call (.found (db.receivers eventName)))
  | .now, db => .ok (db.now, db)
  | .saveDelivery call delivery, db =>
    if (db.delivery delivery.id).isSome then .error duplicateKey
    else .ok (delivery, (db.putDelivery delivery).note call (.saved delivery))
  | .post call request, db =>
    .ok (db.net db.served,
      { db.note call (.answered request (db.net db.served)) with served := db.served + 1 })
  | .updateDelivery call id patch, db =>
    match db.delivery id with
    | none => .ok ((), db.note call (.updated id patch))
    | some delivery =>
      .ok ((), (db.putDelivery (patch.apply delivery)).note call (.updated id patch))
  | .notify call notification, db => .ok ((), db.note call (.notified notification))
  | .tick ms, db => .ok ((), { db with now := db.now + ms })

def mayFail : DispatchCmd → Bool
  | .now => false
  | .tick _ => false
  | _ => true

abbrev DispatchProc := Proc DispatchCmd DispatchCmd.Reply Thrown

abbrev await (c : DispatchCmd) : DispatchProc c.Reply := Proc.call c

-- ---------------------------------------------------------------------------
-- The service
-- ---------------------------------------------------------------------------

/-- What is not under `src/`. -/
structure Setup where
  signWebhookPayload : (secret timestamp rawBody : String) → String
  WEBHOOK_EVENT_NAMES : List String

/-- `event.trim()`. -/
def trimmed (event : String) : String := String.ofList (trim event.toList)

/-- `[...new Set(events.map((event) => event.trim()))]`, when all are known. -/
def normalizeEvents (setup : Setup) (events : List String) : DispatchProc (List String) :=
  let normalizedEvents := (events.map trimmed).eraseDups
  let unsupportedEvents := normalizedEvents.filter fun event =>
    !decide (event ∈ setup.WEBHOOK_EVENT_NAMES)
  if unsupportedEvents ≠ [] then
    Proc.throw ⟨some ("Unsupported webhook events: " ++ ", ".intercalate unsupportedEvents), none⟩
  else Proc.done (.ok normalizedEvents)

/-- `secret` is drawn at random. -/
def create (setup : Setup) (i : ℕ) (url : String) (events : List String) (userId : Option UserId)
    (secret : String) : DispatchProc WebhookSubscription := do
  let normalized ← normalizeEvents setup events
  await (.insertSubscription {
    id := i
    userId := userId
    url := url
    events := normalized
    secret := secret
    isActive := true
    status := .active })

def toggle (id : ℕ) : DispatchProc WebhookSubscription := do
  match ← await (.findSubscription id) with
  | none => Proc.throw ⟨some ("Webhook subscription with ID " ++ toString id ++ " not found"), none⟩
  | some sub =>
    await (.saveSubscription { sub with
      isActive := !sub.isActive
      status := if sub.isActive then .disabled else .active })

/-- `dto.events ? { events: this.normalizeEvents(dto.events) } : {}`. -/
def normalizeUpdate (setup : Setup) (dto : UpdateWebhookDto) : DispatchProc UpdateWebhookDto :=
  match dto.events with
  | none => Proc.done (.ok dto)
  | some events => do
    let normalized ← normalizeEvents setup events
    return { dto with events := some normalized }

def update (setup : Setup) (id : ℕ) (dto : UpdateWebhookDto) :
    DispatchProc (Option WebhookSubscription) := do
  let changes ← normalizeUpdate setup dto
  await (.updateSubscription id changes)
  await (.findSubscription id)

-- ---------------------------------------------------------------------------
-- The dispatcher
-- ---------------------------------------------------------------------------

/-- `Math.floor(Date.now() / 1000).toString()`. -/
def seconds (t : Time) : String := toString (t / 1000)

/-- The row of a delivery, signed at `t` and saved at `t'`. -/
def opened (setup : Setup) (i : ℕ) (sub : WebhookSubscription) (eventName payload : String)
    (t t' : Time) : WebhookDelivery where
  id := (i, sub.id)
  subscriptionId := sub.id
  eventName := eventName
  payload := payload
  signature := setup.signWebhookPayload sub.secret (seconds t) payload
  status := .pending
  attempts := 0
  lastHttpStatus := none
  lastError := none
  lastAttemptAt := t'
  nextRetryAt := none

def request (setup : Setup) (i : ℕ) (sub : WebhookSubscription) (eventName payload : String)
    (t : Time) : Request where
  url := sub.url
  body := payload
  event := eventName
  timestamp := seconds t
  signature := setup.signWebhookPayload sub.secret (seconds t) payload
  deliveryId := (i, sub.id)

def deliveredPatch (attempts httpStatus : ℕ) (t : Time) : DeliveryPatch where
  status := .delivered
  attempts := attempts + 1
  lastHttpStatus := some httpStatus
  lastError := none
  lastAttemptAt := t
  nextRetryAt := none

/-- `err?.message ?? 'Webhook failed'`. -/
def Thrown.text (err : Thrown) : String := err.message.getD "Webhook failed"

/-- `nextRetryAt` is computed at `t`, the row written at `t'`. -/
def failedPatch (attempts : ℕ) (err : Thrown) (t t' : Time) : DeliveryPatch where
  status := .failed
  attempts := attempts + 1
  lastHttpStatus := err.status
  lastError := some err.text
  lastAttemptAt := t'
  nextRetryAt := some (t + 60000 * (attempts + 1))

def failure (i : ℕ) (sub : WebhookSubscription) (eventName : String) (err : Thrown) (t : Time) :
    Notification where
  recipientId := sub.id
  webhookUrl := sub.url
  eventName := eventName
  error := err.text
  httpStatus := err.status
  deliveryId := (i, sub.id)
  timestamp := t

/-- The `try` block. -/
def attemptDelivery (setup : Setup) (i : ℕ) (sub : WebhookSubscription) (eventName payload : String)
    (t : Time) (delivery : WebhookDelivery) : DispatchProc Unit := do
  let httpStatus ← await (.post i (request setup i sub eventName payload t))
  let lastAttemptAt ← await .now
  await (.updateDelivery i delivery.id (deliveredPatch delivery.attempts httpStatus lastAttemptAt))

/-- The `catch` block. -/
def giveUp (i : ℕ) (sub : WebhookSubscription) (eventName : String) (delivery : WebhookDelivery)
    (err : Thrown) : DispatchProc Unit := do
  let retryFrom ← await .now
  let lastAttemptAt ← await .now
  await (.updateDelivery i delivery.id (failedPatch delivery.attempts err retryFrom lastAttemptAt))
  let timestamp ← await .now
  await (.notify i (failure i sub eventName err timestamp))

def sendToSubscription (setup : Setup) (i : ℕ) (sub : WebhookSubscription)
    (eventName payload : String) : DispatchProc Unit := do
  let t ← await .now
  let t' ← await .now
  let delivery ← await (.saveDelivery i (opened setup i sub eventName payload t t'))
  match ← (attemptDelivery setup i sub eventName payload t delivery).attempt with
  | .ok _ => return ()
  | .error err => giveUp i sub eventName delivery err

/-- `for (const sub of subs)`. -/
def sendToAll (setup : Setup) (i : ℕ) (eventName payload : String) :
    List WebhookSubscription → DispatchProc Unit
  | [] => Proc.done (.ok ())
  | sub :: subs => do
    sendToSubscription setup i sub eventName payload
    sendToAll setup i eventName payload subs

/-- What `dispatch` returns, next to `success: true`. -/
def dispatch (setup : Setup) (i : ℕ) (eventName payload : String) : DispatchProc ℕ := do
  let subs ← await (.findActive i eventName)
  sendToAll setup i eventName payload subs
  return subs.length

-- ---------------------------------------------------------------------------
-- All calls
-- ---------------------------------------------------------------------------

inductive DispatchCall where
  | create (url : String) (events : List String) (userId : Option UserId) (secret : String)
  | toggle (id : ℕ)
  | update (id : ℕ) (dto : UpdateWebhookDto)
  | dispatch (eventName payload : String)
  | tick (ms : ℕ)
  deriving DecidableEq

/-- What a call returns; `sentTo` is that of `dispatch`. -/
inductive Answer where
  | subscription (sub : Option WebhookSubscription)
  | sentTo (n : ℕ)
  | none
  deriving DecidableEq

def prog (setup : Setup) (i : ℕ) : DispatchCall → DispatchProc Answer
  | .create url events userId secret => do
    let sub ← create setup i url events userId secret
    return .subscription (some sub)
  | .toggle id => do
    let sub ← toggle id
    return .subscription (some sub)
  | .update id dto => do
    let sub ← update setup id dto
    return .subscription sub
  | .dispatch eventName payload => do
    let n ← dispatch setup i eventName payload
    return .sentTo n
  | .tick ms => do
    await (.tick ms)
    return .none

/-- All calls, interleaved at every await. -/
def server (setup : Setup) :
    System DispatchCall DispatchCmd DispatchCmd.Reply Thrown DispatchDb Answer where
  prog := prog setup
  exec := exec
  mayFail := mayFail

abbrev DispatchServer :=
  Config DispatchCall DispatchCmd DispatchCmd.Reply Thrown DispatchDb Answer

def start (db : DispatchDb) : DispatchServer := ⟨db, []⟩

end Dispatcher

end NexaFx
