import NexaFx.Lib.Table
import NexaFx.Model.Database

/-!
# NexaFx — the rate cache

`ExchangeRatesCache` of `exchange-rates/cache/exchange-rates.cache.ts`. A
JavaScript `Map` is the list of its entries in insertion order: `set` of a key
that is present replaces the value in place, of a new one appends it.

`toUpperCase` maps each character by itself; what Unicode maps a character to
is a parameter.
-/

namespace NexaFx

namespace RateCache

/-- The upper case of each character. No other character's has a `:`. -/
structure CaseMapping where
  upper : Char → List Char
  colon : ∀ ch, ':' ∈ upper ch → ch = ':'

theorem colon_toUpper (ch : Char) (h : ':' = ch.toUpper) : ch = ':' := by
  delta Char.toUpper at h
  split at h
  · rename_i hlower
    have hval : (58 : UInt32) = ch.val + ('A'.val - 'a'.val) := congrArg Char.val h
    have hge : (97 : UInt32) ≤ ch.val := hlower.1
    have hch : ch.val = 58 - ('A'.val - 'a'.val) := by
      rw [hval]
      simp
    rw [hch] at hge
    exact absurd hge (by decide)
  · exact h.symm

/-- The letters of ASCII have their capitals. -/
def CaseMapping.ascii : CaseMapping where
  upper ch := [ch.toUpper]
  colon ch h := colon_toUpper ch (List.mem_singleton.mp h)

structure CachedRate where
  fromCode : String
  toCode : String
  rate : ℚ
  cachedAt : Time
  deriving DecidableEq

structure ExchangeRatesCache where
  maxSize : ℕ
  ttlMs : ℚ
  cache : List (String × CachedRate)
  keys : (cache.map Prod.fst).Nodup

namespace ExchangeRatesCache

def create (maxSize : ℕ) (ttlMs : ℚ) : ExchangeRatesCache := ⟨maxSize, ttlMs, [], List.nodup_nil⟩

-- ---------------------------------------------------------------------------
-- The operations of a `Map`
-- ---------------------------------------------------------------------------

def find (c : ExchangeRatesCache) (key : String) : Option CachedRate :=
  (Table.get Prod.fst c.cache key).map Prod.snd

/-- `this.cache.delete(key)`. -/
def delete (c : ExchangeRatesCache) (key : String) : ExchangeRatesCache where
  maxSize := c.maxSize
  ttlMs := c.ttlMs
  cache := c.cache.filter fun e => decide (e.1 ≠ key)
  keys := Table.nodup_filter _ c.keys _

/-- `this.cache.set(key, entry)`. -/
def put (c : ExchangeRatesCache) (key : String) (entry : CachedRate) : ExchangeRatesCache where
  maxSize := c.maxSize
  ttlMs := c.ttlMs
  cache := Table.put Prod.fst (key, entry) c.cache
  keys := Table.nodup_put _ c.keys

def size (c : ExchangeRatesCache) : ℕ := c.cache.length

-- ---------------------------------------------------------------------------
-- The methods
-- ---------------------------------------------------------------------------

section Methods

variable (mapping : CaseMapping)

def toUpperCase (s : String) : String := String.ofList (s.toList.flatMap mapping.upper)

def buildKey (fromCode toCode : String) : String :=
  toUpperCase mapping fromCode ++ ":" ++ toUpperCase mapping toCode

def get (c : ExchangeRatesCache) (now : Time) (fromCode toCode : String) :
    Option CachedRate × ExchangeRatesCache :=
  let key := buildKey mapping fromCode toCode
  match c.find key with
  | none => (none, c)
  | some entry =>
    if c.ttlMs < (now : ℚ) - entry.cachedAt then
      (none, c.delete key)
    else
      (some entry, (c.delete key).put key entry)

/-- The first key of the `Map` is evicted from a full cache. -/
def makeRoom (c : ExchangeRatesCache) : ExchangeRatesCache :=
  if c.maxSize ≤ c.size then
    match c.cache.head? with
    | none => c
    | some lru => c.delete lru.1
  else c

def set (c : ExchangeRatesCache) (now : Time) (fromCode toCode : String) (rate : ℚ) :
    ExchangeRatesCache :=
  let key := buildKey mapping fromCode toCode
  (c.delete key).makeRoom.put key ⟨fromCode, toCode, rate, now⟩

def invalidate (c : ExchangeRatesCache) (fromCode toCode : String) : ExchangeRatesCache :=
  c.delete (buildKey mapping fromCode toCode)

def clear (c : ExchangeRatesCache) : ExchangeRatesCache := create c.maxSize c.ttlMs

end Methods

end ExchangeRatesCache

-- ---------------------------------------------------------------------------
-- Runs
-- ---------------------------------------------------------------------------

/-- A currency code: a text without `:`. -/
structure Code where
  text : String
  plain : ':' ∉ text.toList
  deriving DecidableEq

inductive RateOp where
  | get (fromCode toCode : Code)
  | set (fromCode toCode : Code) (rate : ℚ)
  | invalidate (fromCode toCode : Code)
  | clear

namespace ExchangeRatesCache

variable (mapping : CaseMapping)

/-- What the operation answers, and the cache after it. -/
def step (c : ExchangeRatesCache) (now : Time) : RateOp → Option CachedRate × ExchangeRatesCache
  | .get fromCode toCode => c.get mapping now fromCode.text toCode.text
  | .set fromCode toCode rate => (none, c.set mapping now fromCode.text toCode.text rate)
  | .invalidate fromCode toCode => (none, c.invalidate mapping fromCode.text toCode.text)
  | .clear => (none, c.clear)

/-- The operations with the time of each, in this order. -/
def run (c : ExchangeRatesCache) :
    List (Time × RateOp) → List (Option CachedRate) × ExchangeRatesCache
  | [] => ([], c)
  | (now, op) :: events =>
    let (answer, c') := c.step mapping now op
    let (answers, c'') := c'.run events
    (answer :: answers, c'')

theorem run_cons (c : ExchangeRatesCache) (now : Time) (op : RateOp)
    (events : List (Time × RateOp)) :
    c.run mapping ((now, op) :: events) =
      ((c.step mapping now op).1 :: ((c.step mapping now op).2.run mapping events).1,
        ((c.step mapping now op).2.run mapping events).2) := rfl

end ExchangeRatesCache

end RateCache

end NexaFx
