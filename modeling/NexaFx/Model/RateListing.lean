import NexaFx.Lib.Pool
import NexaFx.Lib.Table
import NexaFx.Model.Database

/-!
# NexaFx — the listing of exchange rates

`getRates`, `getRateByPair` and `refreshExpiredRates` of
`exchange-rates/exchange-rates.service.ts`, await by await, over the tables
`exchange_rate_cache` and `exchange_rate_history`.

What `fetchRateFromSource` gives a call for a pair is a parameter, and so is
the row that a `findOne` without an order takes among those that match. The
first argument of a refresh's commands is ghost: how many entries it had saved.
-/

namespace NexaFx

open Async

namespace RateListing

def SUPPORTED_PAIRS : List String := ["USD/NGN", "USD/EUR", "USD/GBP", "EUR/NGN", "GBP/NGN"]

structure ExchangeRateCacheEntity where
  id : ℕ
  pair : String
  rate : ℚ
  source : String
  cachedAt : Time
  expiresAt : Time
  deriving DecidableEq

structure ExchangeRateHistoryEntity where
  pair : String
  rate : ℚ
  source : String
  recordedAt : Time
  deriving DecidableEq

/-- Which of the matching rows the `n`-th query takes. -/
structure Choice where
  choose : ℕ → List ExchangeRateCacheEntity → Option ExchangeRateCacheEntity
  mem : ∀ n rows row, choose n rows = some row → row ∈ rows
  isSome : ∀ n rows, rows ≠ [] → (choose n rows).isSome

/-- The first row. -/
def Choice.first : Choice where
  choose _ rows := rows.head?
  mem _ _ _ h := List.mem_of_head? h
  isSome _ _ h := List.isSome_head?.mpr h

structure ListingDb where
  rows : List ExchangeRateCacheEntity
  history : List ExchangeRateHistoryEntity
  nextId : ℕ
  queries : ℕ
  now : Time

def ListingDb.put (st : ListingDb) (row : ExchangeRateCacheEntity) : ListingDb :=
  { st with rows := Table.put ExchangeRateCacheEntity.id row st.rows }

inductive Thrown where
  | database
  deriving DecidableEq

-- ---------------------------------------------------------------------------
-- Commands
-- ---------------------------------------------------------------------------

inductive ListingCmd where
  /-- `new Date()` -/
  | now
  /-- `find` and `findOne` of the entries that expire after `since`. -/
  | find (since : Time)
  | findOne (pair : String) (since : Time)
  | count (since : Time)
  /-- The `new Date()` of a refresh. -/
  | beginRefresh
  | findPair (saved : ℕ) (pair : String)
  | save (saved : ℕ) (row : ExchangeRateCacheEntity)
  | insert (saved : ℕ) (pair : String) (rate : ℚ) (cachedAt expiresAt : Time)
  /-- `expiresAt` is ghost: that of the entries of this refresh. -/
  | saveHistory (saved : ℕ) (entry : ExchangeRateHistoryEntity) (expiresAt : Time)
  | tick (ms : ℕ)
  deriving DecidableEq

@[reducible] def ListingCmd.Reply : ListingCmd → Type
  | .now => Time
  | .find _ => List ExchangeRateCacheEntity
  | .findOne .. => Option ExchangeRateCacheEntity
  | .count _ => ℕ
  | .beginRefresh => Time
  | .findPair .. => Option ExchangeRateCacheEntity
  | .save .. => ExchangeRateCacheEntity
  | .insert .. => ExchangeRateCacheEntity
  | _ => Unit

section Service

variable (choice : Choice) (cacheTtlSeconds : ℕ) (fetchRateFromSource : ℕ → String → ℚ)

def exec : (c : ListingCmd) → ListingDb → Except Thrown (c.Reply × ListingDb)
  | .now, st => .ok (st.now, st)
  | .find since, st => .ok (st.rows.filter fun row => since < row.expiresAt, st)
  | .findOne pair since, st =>
    .ok (choice.choose st.queries
        (st.rows.filter fun row => row.pair = pair ∧ since < row.expiresAt),
      { st with queries := st.queries + 1 })
  | .count since, st => .ok ((st.rows.filter fun row => since < row.expiresAt).length, st)
  | .beginRefresh, st => .ok (st.now, st)
  | .findPair _ pair, st =>
    .ok (choice.choose st.queries (st.rows.filter fun row => row.pair = pair),
      { st with queries := st.queries + 1 })
  | .save _ row, st => .ok (row, st.put row)
  | .insert _ pair rate cachedAt expiresAt, st =>
    let row : ExchangeRateCacheEntity :=
      { id := st.nextId, pair, rate, source := "stellar", cachedAt, expiresAt }
    .ok (row, { st.put row with nextId := st.nextId + 1 })
  | .saveHistory _ entry _, st => .ok ((), { st with history := st.history ++ [entry] })
  | .tick ms, st => .ok ((), { st with now := st.now + ms })

/-- Dates and the clock do not fail. -/
def mayFail : ListingCmd → Bool
  | .now | .beginRefresh | .tick _ => false
  | _ => true

-- ---------------------------------------------------------------------------
-- Calls
-- ---------------------------------------------------------------------------

abbrev ListingProc := Proc ListingCmd ListingCmd.Reply Thrown

abbrev await (c : ListingCmd) : ListingProc c.Reply := Proc.call c

/-- Insert or update the entry of a pair. -/
def upsert (saved : ℕ) (pair : String) (rate : ℚ) (now expiresAt : Time) :
    Option ExchangeRateCacheEntity → ListingProc ExchangeRateCacheEntity
  | some cached =>
    await (.save saved
      { cached with rate := rate, source := "stellar", cachedAt := now, expiresAt := expiresAt })
  | none => await (.insert saved pair rate now expiresAt)

/-- The loop over the pairs. -/
def refreshPairs (i : ℕ) (now expiresAt : Time) :
    List String → List ExchangeRateCacheEntity → ListingProc (List ExchangeRateCacheEntity)
  | [], rates => return rates
  | pair :: pairs, rates => do
    let rate := fetchRateFromSource i pair
    let found ← await (.findPair rates.length pair)
    let cached ← upsert rates.length pair rate now expiresAt found
    await (.saveHistory (rates.length + 1) { pair, rate, source := "stellar", recordedAt := now }
      expiresAt)
    refreshPairs i now expiresAt pairs (rates ++ [cached])

def fetchAndCacheRates (i : ℕ) : ListingProc (List ExchangeRateCacheEntity) := do
  let now ← await .beginRefresh
  let expiresAt := now + cacheTtlSeconds * 1000
  refreshPairs fetchRateFromSource i now expiresAt SUPPORTED_PAIRS []

def getRates (i : ℕ) : ListingProc (List ExchangeRateCacheEntity) := do
  let since ← await .now
  let cached ← await (.find since)
  if 0 < cached.length then return cached
  else fetchAndCacheRates cacheTtlSeconds fetchRateFromSource i

def getRateByPair (i : ℕ) (pair : String) : ListingProc (Option ExchangeRateCacheEntity) := do
  let since ← await .now
  let cached ← await (.findOne pair since)
  match cached with
  | some cached => return some cached
  | none =>
    let rates ← fetchAndCacheRates cacheTtlSeconds fetchRateFromSource i
    return rates.find? fun r => r.pair = pair

def refreshExpiredRates (i : ℕ) : ListingProc Unit := do
  let since ← await .now
  let expired ← await (.count since)
  if expired = 0 then
    let _ ← fetchAndCacheRates cacheTtlSeconds fetchRateFromSource i
    return ()

inductive ListingCall where
  | getRates
  | getRateByPair (pair : String)
  | refreshExpiredRates
  | tick (ms : ℕ)
  deriving DecidableEq

/-- What the calls return. -/
inductive Answer where
  | rates (rates : List ExchangeRateCacheEntity)
  | rate (rate : Option ExchangeRateCacheEntity)
  | nothing
  deriving DecidableEq

def prog (i : ℕ) : ListingCall → ListingProc Answer
  | .getRates => do
    let rates ← getRates cacheTtlSeconds fetchRateFromSource i
    return .rates rates
  | .getRateByPair pair => do
    let rate ← getRateByPair cacheTtlSeconds fetchRateFromSource i pair
    return .rate rate
  | .refreshExpiredRates => do
    refreshExpiredRates cacheTtlSeconds fetchRateFromSource i
    return .nothing
  | .tick ms => do
    await (.tick ms)
    return .nothing

/-- All calls, interleaved at every await. -/
def server : System ListingCall ListingCmd ListingCmd.Reply Thrown ListingDb Answer where
  prog := prog cacheTtlSeconds fetchRateFromSource
  exec := exec choice
  mayFail := mayFail

end Service

abbrev ListingPool := Config ListingCall ListingCmd ListingCmd.Reply Thrown ListingDb Answer

abbrev ListingThread := Thread ListingCall ListingCmd ListingCmd.Reply Thrown Answer

/-- Nothing has been cached. -/
def start (now : Time) : ListingPool where
  state := { rows := [], history := [], nextId := 0, queries := 0, now }
  threads := []

end RateListing

end NexaFx
