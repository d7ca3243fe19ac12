import NexaFx.Model.Database

/-!
# NexaFx — rate alerts

`rate-alerts/rate-alerts.service.ts`. The alerts are an array of the service; its
methods run without an await. `events` is what has been emitted as
`rate-alert.triggered`; the random id of an alert is an argument.
-/

namespace NexaFx

namespace RateAlerts

inductive Direction where
  | above
  | below
  deriving DecidableEq

structure RateAlert where
  id : String
  userId : UserId
  currencyPair : String
  targetRate : ℚ
  direction : Direction
  triggered : Bool
  createdAt : Time
  deriving DecidableEq

/-- The payload of `rate-alert.triggered`. -/
structure Triggered where
  alertId : String
  userId : UserId
  currencyPair : String
  rate : ℚ
  deriving DecidableEq

/-- `rates[currencyPair]`, where there is a rate. -/
abbrev Rates := String → Option ℚ

namespace RateAlert

/-- `breached`. -/
def breached (alert : RateAlert) (currentRate : ℚ) : Bool :=
  match alert.direction with
  | .above => decide (alert.targetRate ≤ currentRate)
  | .below => decide (currentRate ≤ alert.targetRate)

/-- The rate at which the alert goes off; a missing rate and zero are skipped. -/
def breach (alert : RateAlert) (rates : Rates) : Option ℚ :=
  match rates alert.currencyPair with
  | none => none
  | some currentRate =>
    if currentRate = 0 then none
    else if alert.breached currentRate = true then some currentRate else none

def event (alert : RateAlert) (rate : ℚ) : Triggered :=
  ⟨alert.id, alert.userId, alert.currencyPair, rate⟩

end RateAlert

structure State where
  alerts : List RateAlert
  events : List Triggered
  deriving DecidableEq

/-- `alert.triggered = true` for the first alert with the id. -/
def trigger (alertId : String) : List RateAlert → List RateAlert
  | [] => []
  | alert :: rest =>
    if alert.id = alertId then { alert with triggered := true } :: rest
    else alert :: trigger alertId rest

/-- The loop of `checkThresholds`: the alerts, and what is emitted. -/
def checkAll (rates : Rates) : List RateAlert → List RateAlert × List Triggered
  | [] => ([], [])
  | alert :: rest =>
    if alert.triggered = true then (alert :: (checkAll rates rest).1, (checkAll rates rest).2)
    else
      match alert.breach rates with
      | none => (alert :: (checkAll rates rest).1, (checkAll rates rest).2)
      | some rate => ({ alert with triggered := true } :: (checkAll rates rest).1,
          alert.event rate :: (checkAll rates rest).2)

inductive Call where
  | create (id : String) (userId : UserId) (currencyPair : String) (targetRate : ℚ)
      (direction : Direction) (createdAt : Time)
  | deactivate (alertId : String)
  | checkThresholds (rates : Rates)

namespace State

def create (st : State) (alert : RateAlert) : State :=
  { st with alerts := st.alerts ++ [alert] }

def deactivate (st : State) (alertId : String) : State :=
  { st with alerts := trigger alertId st.alerts }

def checkThresholds (st : State) (rates : Rates) : State where
  alerts := (checkAll rates st.alerts).1
  events := st.events ++ (checkAll rates st.alerts).2

def step (st : State) : Call → State
  | .create id userId currencyPair targetRate direction createdAt =>
    st.create ⟨id, userId, currencyPair, targetRate, direction, false, createdAt⟩
  | .deactivate alertId => st.deactivate alertId
  | .checkThresholds rates => st.checkThresholds rates

/-- The calls of a run, one after the other. -/
def run (st : State) (calls : List Call) : State := calls.foldl step st

end State

/-- The service as it is constructed. -/
def empty : State := ⟨[], []⟩

end RateAlerts

end NexaFx
