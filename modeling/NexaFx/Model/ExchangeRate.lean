import NexaFx.Lib.Pool
import NexaFx.Model.RateCache

/-!
# NexaFx — exchange rates of two providers

`getRate` of `fx/exchange-rate.service.ts`, await by await. What the providers
answer to the requests, in the order in which they are answered, is the
parameter `net`; failed requests are answers of it. `log` is ghost: what the
calls found in the cache, what they were answered and what they stored.

A reply comes with the time at which the call goes on: `Date.now()` does not
move within a stretch of synchronous code.
-/

namespace NexaFx

open Async

namespace ExchangeRate

open RateCache

inductive Provider where
  | openexchangerates
  | exchangeratehost
  deriving DecidableEq, Repr

structure RateResult where
  base : Code
  target : Code
  rate : ℚ
  provider : Provider
  fetchedAt : Time
  ageMs : ℕ
  deriving DecidableEq

structure CacheEntry where
  rate : ℚ
  provider : Provider
  fetchedAt : Time
  deriving DecidableEq

inductive RateError where
  | http (message : String)
  | typeError
  /-- `Rate not found for ${target}` -/
  | notFound (target : Code)
  | serviceUnavailable (message : String)
  deriving DecidableEq

/-- The record `rates` or `quotes` in the data of an answer. -/
abbrev Rates := String → Option ℚ

/-- Ghost events. -/
inductive RateEvent where
  | found (call : ℕ) (key : String) (now : Time) (cached : Option CacheEntry)
  /-- The rate in the answer that the provider gave for the pair, if any. -/
  | answered (call : ℕ) (provider : Provider) (base target : Code) (rate : Option ℚ) (now : Time)
  | stored (call : ℕ) (key : String) (entry : CacheEntry)
  deriving DecidableEq

structure State where
  cache : String → Option CacheEntry
  net : ℕ → Except RateError (Option Rates)
  served : ℕ
  now : Time
  log : List RateEvent

section Service

variable (mapping : CaseMapping) (ttlMs : ℚ)

def cacheKey (base target : Code) : String :=
  ExchangeRatesCache.toUpperCase mapping base.text ++ ":" ++
    ExchangeRatesCache.toUpperCase mapping target.text

/-- Under which name the provider's record has the rate of the pair. -/
def rateKey (base target : Code) : Provider → String
  | .openexchangerates => ExchangeRatesCache.toUpperCase mapping target.text
  | .exchangeratehost =>
    ExchangeRatesCache.toUpperCase mapping base.text ++
      ExchangeRatesCache.toUpperCase mapping target.text

/-- The rate in an answer. -/
def rateIn (base target : Code) (provider : Provider) :
    Except RateError (Option Rates) → Option ℚ
  | .ok (some rates) => rates (rateKey mapping base target provider)
  | _ => none

-- ---------------------------------------------------------------------------
-- Commands
-- ---------------------------------------------------------------------------

inductive RateCmd where
  | lookup (call : ℕ) (key : String)
  | request (call : ℕ) (provider : Provider) (base target : Code)
  | store (call : ℕ) (key : String) (entry : CacheEntry)
  | tick (ms : ℕ)
  deriving DecidableEq

@[reducible] def RateCmd.Reply : RateCmd → Type
  | .lookup .. => Option CacheEntry × Time
  | .request .. => Except RateError (Option Rates) × Time
  | _ => Unit

def exec : (c : RateCmd) → State → Except RateError (c.Reply × State)
  | .lookup call key, st =>
    .ok ((st.cache key, st.now),
      { st with log := st.log ++ [.found call key st.now (st.cache key)] })
  | .request call provider base target, st =>
    .ok ((st.net st.served, st.now),
      { st with
        served := st.served + 1
        log := st.log ++ [.answered call provider base target
          (rateIn mapping base target provider (st.net st.served)) st.now] })
  | .store call key entry, st =>
    .ok ((), { st with
      cache := Function.update st.cache key (some entry)
      log := st.log ++ [.stored call key entry] })
  | .tick ms, st => .ok ((), { st with now := st.now + ms })

-- ---------------------------------------------------------------------------
-- Calls
-- ---------------------------------------------------------------------------

abbrev RateProc := Proc RateCmd RateCmd.Reply RateError

abbrev await (c : RateCmd) : RateProc c.Reply := Proc.call c

def fetchFromOpenExchangeRates (i : ℕ) (base target : Code) : RateProc CacheEntry := do
  let (res, now) ← await (.request i .openexchangerates base target)
  match res with
  | .error err => .throw err
  | .ok none => .throw .typeError
  | .ok (some rates) =>
    match rates (rateKey mapping base target .openexchangerates) with
    | none => .throw (.notFound target)
    | some rate =>
      if rate = 0 then .throw (.notFound target)
      else return { rate, provider := .openexchangerates, fetchedAt := now }

def fetchFromExchangeRateHost (i : ℕ) (base target : Code) : RateProc CacheEntry := do
  let (res, now) ← await (.request i .exchangeratehost base target)
  match res with
  | .error err => .throw err
  | .ok none => .throw (.notFound target)
  | .ok (some quotes) =>
    match quotes (rateKey mapping base target .exchangeratehost) with
    | none => .throw (.notFound target)
    | some rate =>
      if rate = 0 then .throw (.notFound target)
      else return { rate, provider := .exchangeratehost, fetchedAt := now }

def unavailable : RateError :=
  .serviceUnavailable "Exchange rate providers are currently unavailable"

def fetchWithFallback (i : ℕ) (base target : Code) : RateProc CacheEntry := do
  match ← (fetchFromOpenExchangeRates mapping i base target).attempt with
  | .ok entry => return entry
  | .error _ =>
    match ← (fetchFromExchangeRateHost mapping i base target).attempt with
    | .ok entry => return entry
    | .error _ => .throw unavailable

/-- `Date.now() - cached.fetchedAt.getTime() < this.ttlMs` -/
def fresh (now : Time) (cached : CacheEntry) : Prop := (now : ℚ) - cached.fetchedAt < ttlMs

instance (now : Time) (cached : CacheEntry) : Decidable (fresh ttlMs now cached) := by
  unfold fresh; infer_instance

def getRate (i : ℕ) (base target : Code) : RateProc RateResult := do
  let key := cacheKey mapping base target
  let (cached, now) ← await (.lookup i key)
  match cached.filter fun cached => fresh ttlMs now cached with
  | some cached =>
    return { base, target, rate := cached.rate, provider := cached.provider,
             fetchedAt := cached.fetchedAt, ageMs := now - cached.fetchedAt }
  | none =>
    let result ← fetchWithFallback mapping i base target
    await (.store i key result)
    return { base, target, rate := result.rate, provider := result.provider,
             fetchedAt := result.fetchedAt, ageMs := 0 }

inductive RateCall where
  | getRate (base target : Code)
  | tick (ms : ℕ)
  deriving DecidableEq

def prog (i : ℕ) : RateCall → RateProc (Option RateResult)
  | .getRate base target => do
    let result ← getRate mapping ttlMs i base target
    return some result
  | .tick ms => do
    await (.tick ms)
    return none

/-- All calls, interleaved at every await. -/
def server : System RateCall RateCmd RateCmd.Reply RateError State (Option RateResult) where
  prog := prog mapping ttlMs
  exec := exec mapping
  mayFail _ := false

end Service

abbrev RatePool := Config RateCall RateCmd RateCmd.Reply RateError State (Option RateResult)

/-- An instance that has just been created. -/
def start (net : ℕ → Except RateError (Option Rates)) (now : Time) : RatePool where
  state := { cache := fun _ => none, net, served := 0, now, log := [] }
  threads := []

end ExchangeRate

end NexaFx
