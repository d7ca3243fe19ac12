import Mathlib.Data.List.DropRight
import NexaFx.Lib.Table
import NexaFx.Model.Database

/-!
# NexaFx — the rates gateway

`handleConnection`, `handleReplay` and `broadcastRateUpdate` of
`rates/rates.gateway.ts`. What is emitted to one client or to all is part of
the result.
-/

namespace NexaFx

namespace RatesGateway

structure BufferedEvent where
  timestamp : Time
  currencyPair : String
  rate : ℚ
  deriving DecidableEq

def DEFAULT_REPLAY_WINDOW_MS : ℚ := 5 * 60 * 1000

def maxBufferSize : ℕ := 1000

structure Gateway where
  eventBuffer : List BufferedEvent
  currentRates : List (String × ℚ)
  deriving DecidableEq

def Gateway.create : Gateway := ⟨[], []⟩

/-- The message `rates.current` to a client that connects. -/
def Gateway.handleConnection (g : Gateway) (now : Time) : List BufferedEvent :=
  g.currentRates.map fun e => ⟨now, e.1, e.2⟩

/-- The message `rates.replay`; where it would be empty, none is emitted.
`RATE_REPLAY_WINDOW_MS` may be missing. -/
def Gateway.handleReplay (g : Gateway) (replayWindow : Option ℚ) (now : Time)
    (lastReceivedAt : Option ℚ) : Option (List BufferedEvent) :=
  let replayWindowMs := replayWindow.getD DEFAULT_REPLAY_WINDOW_MS
  let since := max ((now : ℚ) - replayWindowMs) (lastReceivedAt.getD 0)
  let missed := g.eventBuffer.filter fun e => decide (since < e.timestamp)
  if 0 < missed.length then some missed else none

/-- The new state, and the message `rates.updated` to all clients. -/
def Gateway.broadcastRateUpdate (g : Gateway) (now : Time) (currencyPair : String) (rate : ℚ) :
    Gateway × BufferedEvent :=
  let event : BufferedEvent := ⟨now, currencyPair, rate⟩
  let eventBuffer := g.eventBuffer ++ [event]
  ({ eventBuffer :=
      if maxBufferSize < eventBuffer.length then eventBuffer.rtake maxBufferSize else eventBuffer
     currentRates := Table.put Prod.fst (currencyPair, rate) g.currentRates }, event)

/-- A call of `broadcastRateUpdate`, with its time. -/
structure Update where
  now : Time
  currencyPair : String
  rate : ℚ
  deriving DecidableEq

/-- The updates in this order: the state after them, and what was emitted to
all clients. -/
def run (g : Gateway) : List Update → Gateway × List BufferedEvent
  | [] => (g, [])
  | update :: updates =>
    let (g', event) := g.broadcastRateUpdate update.now update.currencyPair update.rate
    let (g'', events) := run g' updates
    (g'', event :: events)

end RatesGateway

end NexaFx
