import NexaFx.Lib.Pool
import NexaFx.Model.Currency

/-!
# NexaFx — endpoint rate limits

`checkRateLimit` of
`modules/endpoint-rate-limit/services/endpoint-rate-limit.service.ts`. A check
suspends once, at the lookup of the configuration; what follows it (the clock,
the window, the answer) is synchronous and one step (`slide`). Times are
milliseconds since the epoch.

`log` is a ghost field: the checks that found a configuration, in their order.
-/

namespace NexaFx

open Async

namespace EndpointLimits

-- ---------------------------------------------------------------------------
-- State
-- ---------------------------------------------------------------------------

inductive HttpMethod where
  | get
  | post
  | put
  | patch
  | delete
  deriving DecidableEq

def HttpMethod.text : HttpMethod → String
  | .get => "GET"
  | .post => "POST"
  | .put => "PUT"
  | .patch => "PATCH"
  | .delete => "DELETE"

/-- A row of `endpoint_rate_limit_configs`. -/
structure EndpointRateLimitConfig where
  endpoint : String
  method : HttpMethod
  maxRequests : ℕ
  windowMs : ℕ
  isActive : Bool
  deriving DecidableEq

/-- `remaining` is `none` where there is no limit. -/
structure RateLimitResult where
  allowed : Bool
  remaining : Option ℕ
  retryAfterMs : ℤ
  deriving DecidableEq

/-- A check of a configured endpoint. -/
structure Check where
  endpoint : String
  method : String
  time : ℕ
  result : RateLimitResult
  deriving DecidableEq

structure LimiterState where
  configs : List EndpointRateLimitConfig
  /-- `slidingWindows`: the timestamps of each key. -/
  slidingWindows : List (String × List ℕ)
  now : ℕ
  log : List Check

/-- `findOne({ where: { endpoint, method, isActive: true } })`. -/
def findConfig (configs : List EndpointRateLimitConfig) (endpoint method : String) :
    Option EndpointRateLimitConfig :=
  configs.find? fun c => decide (c.endpoint = endpoint ∧ c.method.text = method) && c.isActive

/-- `${method.toUpperCase()}:${endpoint}`. -/
def key (endpoint method : String) : String := method ++ ":" ++ endpoint

/-- The timestamps of a key, none before its first check. -/
def LimiterState.timestamps (st : LimiterState) (key : String) : List ℕ :=
  ((Table.get Prod.fst st.slidingWindows key).map Prod.snd).getD []

-- ---------------------------------------------------------------------------
-- The limiter
-- ---------------------------------------------------------------------------

/-- The synchronous part of a check: the answer and the new timestamps. -/
def slide (config : EndpointRateLimitConfig) (now : ℕ) (timestamps : List ℕ) :
    RateLimitResult × List ℕ :=
  let recent := timestamps.filter fun ts : ℕ => decide ((now : ℤ) - config.windowMs < (ts : ℤ))
  if config.maxRequests ≤ recent.length then
    let oldestInWindow := recent.headD 0
    (⟨false, some 0, max ((oldestInWindow : ℤ) + config.windowMs - now) 1⟩, recent)
  else
    (⟨true, some (config.maxRequests - (recent ++ [now]).length), 0⟩, recent ++ [now])

inductive LimiterCmd where
  /-- `configRepo.findOne`. -/
  | findConfig (endpoint method : String)
  /-- The synchronous rest of the check. -/
  | slide (endpoint method : String) (config : EndpointRateLimitConfig)
  /-- Time passes. -/
  | tick (ms : ℕ)

@[reducible] def LimiterCmd.Reply : LimiterCmd → Type
  | .findConfig _ _ => Option EndpointRateLimitConfig
  | .slide _ _ _ => RateLimitResult
  | .tick _ => Unit

/-- The window of the endpoint slides to the present, and the check is noted. -/
def LimiterState.slide (st : LimiterState) (endpoint method : String)
    (config : EndpointRateLimitConfig) : RateLimitResult × LimiterState :=
  let (result, timestamps) :=
    EndpointLimits.slide config st.now (st.timestamps (key endpoint method))
  (result, { st with
    slidingWindows := Table.put Prod.fst (key endpoint method, timestamps) st.slidingWindows
    log := st.log ++ [⟨endpoint, method, st.now, result⟩] })

def exec : (c : LimiterCmd) → LimiterState → Except Err (c.Reply × LimiterState)
  | .findConfig endpoint method, st => .ok (findConfig st.configs endpoint method, st)
  | .slide endpoint method config, st => .ok (st.slide endpoint method config)
  | .tick ms, st => .ok ((), { st with now := st.now + ms })

abbrev LimiterProc := Proc LimiterCmd LimiterCmd.Reply Err

abbrev await (c : LimiterCmd) : LimiterProc c.Reply := Proc.call c

/-- `method.toUpperCase()`. -/
def upperCase (method : String) : String := String.ofList (toUpperCase method.toList)

def checkRateLimit (endpoint method : String) : LimiterProc RateLimitResult := do
  match ← await (.findConfig endpoint (upperCase method)) with
  | none => return ⟨true, none, 0⟩
  | some config => await (.slide endpoint (upperCase method) config)

inductive LimiterCall where
  | check (endpoint method : String)
  | tick (ms : ℕ)

def prog : LimiterCall → LimiterProc (Option RateLimitResult)
  | .check endpoint method => do return some (← checkRateLimit endpoint method)
  | .tick ms => do
    await (.tick ms)
    return none

/-- The lookup of the configuration may fail. -/
def mayFail : LimiterCmd → Bool
  | .findConfig _ _ => true
  | _ => false

/-- All checks, interleaved where they suspend. -/
def server : System LimiterCall LimiterCmd LimiterCmd.Reply Err LimiterState
    (Option RateLimitResult) where
  prog := fun _ => prog
  exec := exec
  mayFail := mayFail

abbrev LimiterConfig :=
  Config LimiterCall LimiterCmd LimiterCmd.Reply Err LimiterState (Option RateLimitResult)

/-- A process that has just started. -/
def start (configs : List EndpointRateLimitConfig) (now : ℕ) : LimiterConfig :=
  ⟨⟨configs, [], now, []⟩, []⟩

-- ---------------------------------------------------------------------------
-- Keys
-- ---------------------------------------------------------------------------

theorem findConfig_some {configs : List EndpointRateLimitConfig} {endpoint method : String}
    {config : EndpointRateLimitConfig} (h : findConfig configs endpoint method = some config) :
    config.endpoint = endpoint ∧ config.method.text = method := by
  have hfound := List.find?_some h
  simp only [Bool.and_eq_true, decide_eq_true_eq] at hfound
  exact hfound.1

/-- Configured endpoints have keys of their own: no method has a colon in it. -/
theorem key_inj {endpoint endpoint' : String} {m m' : HttpMethod}
    (h : key endpoint m.text = key endpoint' m'.text) : endpoint = endpoint' ∧ m = m' := by
  have hlist := congrArg String.toList h
  simp only [key, String.toList_append] at hlist
  cases m <;> cases m' <;> simp [HttpMethod.text] at hlist <;>
    exact ⟨String.toList_inj.mp hlist, rfl⟩

end EndpointLimits

end NexaFx
