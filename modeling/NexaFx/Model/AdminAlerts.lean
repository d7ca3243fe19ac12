import NexaFx.Lib.Pool
import NexaFx.Model.Database

/-!
# NexaFx — alerts for administrators

`admin/admin-alert.service.ts`: an alert is mailed and posted to Slack unless
one of its type was let through less than `rateLimitMinutes` ago. The limiter is
an entry of the cache that lives for so long; looking for it and setting it are
two awaits.

The store behind the cache keeps an entry until its time is over, and for good
when the time is zero. `log` is a ghost field: what each call has done.
-/

namespace NexaFx

open Async

namespace Alerts

inductive Severity where
  | low
  | medium
  | high
  | critical
  deriving DecidableEq

/-- `payload.severity.toUpperCase()`. -/
def Severity.upper : Severity → String
  | .low => "LOW"
  | .medium => "MEDIUM"
  | .high => "HIGH"
  | .critical => "CRITICAL"

/-- `AdminAlertPayload`; the values of `metadata` are given as `String` prints
them. -/
structure AdminAlertPayload where
  type : String
  severity : Severity
  title : String
  message : String
  metadata : Option (List (String × String))
  deriving DecidableEq

/-- What `sendAdminAlert` is given; `recipient` is its `to`. -/
structure AdminAlertEmail where
  recipient : String
  subject : String
  body : String
  metadata : Option (List (String × String))
  deriving DecidableEq

/-- The body of the request to Slack, with the fields of its attachment. -/
structure SlackMessage where
  url : String
  text : String
  fields : Option (List (String × String))
  deriving DecidableEq

/-- The settings that the constructor reads. -/
structure AlertConfig where
  alertEmail : Option String
  slackWebhookUrl : Option String
  rateLimitMinutes : ℕ
  deriving DecidableEq

/-- The time to live of an entry, in milliseconds. -/
def AlertConfig.ttl (config : AlertConfig) : ℕ := config.rateLimitMinutes * 60000

/-! ## The cache and the log -/

structure Entry where
  key : String
  expires : Option Time
  deriving DecidableEq

def Entry.live (entry : Entry) (now : Time) : Bool :=
  match entry.expires with
  | none => true
  | some t => decide (now ≤ t)

/-- What a call has done. -/
inductive Step where
  | admitted
  | mailed (mail : AdminAlertEmail)
  | posted (message : SlackMessage)
  deriving DecidableEq

structure Event where
  call : ℕ
  type : String
  time : Time
  step : Step
  deriving DecidableEq

structure AlertDb where
  cache : List Entry
  now : Time
  log : List Event
  deriving DecidableEq

/-- `admin:alert:ratelimit:${eventType}`. -/
def limiterKey (eventType : String) : String := "admin:alert:ratelimit:" ++ eventType

namespace AlertDb

/-- `cacheManager.get(key)` finds something. -/
def exists_ (db : AlertDb) (key : String) : Bool :=
  (Table.get Entry.key db.cache key).any fun entry => entry.live db.now

/-- `cacheManager.set(key, '1', ttl)`. -/
def set (db : AlertDb) (key : String) (ttl : ℕ) : AlertDb :=
  { db with
    cache := Table.put Entry.key
      ⟨key, if ttl = 0 then none else some (db.now + ttl)⟩ db.cache }

def note (db : AlertDb) (call : ℕ) (type : String) (step : Step) : AlertDb :=
  { db with log := db.log ++ [⟨call, type, db.now, step⟩] }

end AlertDb

/-! ## Awaits -/

inductive AlertCmd where
  | get (eventType : String)
  | set (call : ℕ) (eventType : String) (ttl : ℕ)
  | sendAdminAlert (call : ℕ) (eventType : String) (mail : AdminAlertEmail)
  | post (call : ℕ) (eventType : String) (message : SlackMessage)
  /-- Time passes. -/
  | tick (ms : ℕ)
  deriving DecidableEq

@[reducible] def AlertCmd.Reply : AlertCmd → Type
  | .get _ => Bool
  | _ => Unit

def exec : (c : AlertCmd) → AlertDb → Except Err (c.Reply × AlertDb)
  | .get eventType, db => .ok (db.exists_ (limiterKey eventType), db)
  | .set call eventType ttl, db =>
    .ok ((), (db.set (limiterKey eventType) ttl).note call eventType .admitted)
  | .sendAdminAlert call eventType mail, db => .ok ((), db.note call eventType (.mailed mail))
  | .post call eventType message, db => .ok ((), db.note call eventType (.posted message))
  | .tick ms, db => .ok ((), { db with now := db.now + ms })

def mayFail : AlertCmd → Bool
  | .tick _ => false
  | _ => true

abbrev AlertProc := Proc AlertCmd AlertCmd.Reply Err

abbrev await (c : AlertCmd) : AlertProc c.Reply := Proc.call c

/-! ## The service -/

/-- `isRateLimited`. -/
def isRateLimited (config : AlertConfig) (i : ℕ) (eventType : String) : AlertProc Bool := do
  let found ← await (.get eventType)
  if found = true then
    return true
  else
    await (.set i eventType config.ttl)
    return false

def AdminAlertPayload.mail (payload : AdminAlertPayload) (recipient : String) :
    AdminAlertEmail where
  recipient := recipient
  subject := "[" ++ payload.severity.upper ++ "] " ++ payload.title
  body := payload.message
  metadata := payload.metadata

def AdminAlertPayload.slack (payload : AdminAlertPayload) (url : String) : SlackMessage where
  url := url
  text := "*[" ++ payload.severity.upper ++ "]* " ++ payload.title ++ "\n" ++ payload.message
  fields := payload.metadata

/-- The mail, in a `try`; an empty address is none. -/
def mailAlert (config : AlertConfig) (i : ℕ) (payload : AdminAlertPayload) : AlertProc Unit :=
  if config.alertEmail.getD "" = "" then return ()
  else do
    let _ ← (await (.sendAdminAlert i payload.type
      (payload.mail (config.alertEmail.getD "")))).attempt
    return ()

/-- The post to Slack, in a `try`; an empty address is none. -/
def postAlert (config : AlertConfig) (i : ℕ) (payload : AdminAlertPayload) : AlertProc Unit :=
  if config.slackWebhookUrl.getD "" = "" then return ()
  else do
    let _ ← (await (.post i payload.type
      (payload.slack (config.slackWebhookUrl.getD "")))).attempt
    return ()

/-- `sendAlert` past the limiter. -/
def deliver (config : AlertConfig) (i : ℕ) (payload : AdminAlertPayload) : AlertProc Unit := do
  mailAlert config i payload
  postAlert config i payload

/-- `sendAlert`, which the event handlers and `broadcastAlert` await. -/
def sendAlert (config : AlertConfig) (i : ℕ) (payload : AdminAlertPayload) : AlertProc Unit := do
  let limited ← isRateLimited config i payload.type
  if limited = true then
    return ()
  else
    deliver config i payload

inductive AlertCall where
  | sendAlert (payload : AdminAlertPayload)
  | tick (ms : ℕ)
  deriving DecidableEq

def prog (config : AlertConfig) (i : ℕ) : AlertCall → AlertProc Unit
  | .sendAlert payload => Alerts.sendAlert config i payload
  | .tick ms => await (.tick ms)

/-- All alerts, interleaved at every await. -/
def server (config : AlertConfig) :
    System AlertCall AlertCmd AlertCmd.Reply Err AlertDb Unit where
  prog := prog config
  exec := exec
  mayFail := mayFail

abbrev AlertServer := Config AlertCall AlertCmd AlertCmd.Reply Err AlertDb Unit

/-- A server that has not taken a call yet. -/
def start (db : AlertDb) : AlertServer := ⟨db, []⟩

end Alerts

end NexaFx
