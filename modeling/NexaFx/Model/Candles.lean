import NexaFx.Lib.Grouping
import NexaFx.Lib.IsoDate

/-!
# Hourly candles

`rate-snapshot.util.ts`: rate points are sorted by time, gathered by the ISO
text of their hour in a `Map`, and every group becomes one candle. Rates are
taken from any linear order; `rates[0]` and the maximum of no rates are
`none`, which no group that `toOhlc` builds can show.
-/

namespace NexaFx

namespace RateSnapshots

/-- A recorded rate; `recordedAt` is its time value. -/
structure RatePoint (R : Type) where
  rate : R
  recordedAt : ℤ
  deriving DecidableEq, Repr

structure OhlcCandle (R : Type) where
  bucket : List Char
  «open» : Option R
  high : Option R
  low : Option R
  close : Option R
  deriving DecidableEq, Repr

def HOUR_MS : ℤ := 3600000

/-- The top of the hour. -/
def truncateToHour (at' : ℤ) : ℤ := at' / HOUR_MS * HOUR_MS

variable {R : Type} [LinearOrder R]

/-- The comparator of the first sort does not order `b` before `a`. -/
def timeOrder (a b : RatePoint R) : Bool := a.recordedAt - b.recordedAt ≤ 0

/-- `localeCompare` does not order `b` before `a`: on texts of one shape, with
digits where they differ, collation goes by the characters. -/
def bucketOrder (a b : OhlcCandle R) : Bool := a.bucket ≤ b.bucket

def hourKey (point : RatePoint R) : List Char :=
  IsoDate.toISOString (truncateToHour point.recordedAt)

def candle (entry : List Char × List (RatePoint R)) : OhlcCandle R :=
  let rates := entry.2.map RatePoint.rate
  { bucket := entry.1
    «open» := rates.head?
    high := rates.max?
    low := rates.min?
    close := rates.getLast? }

def toOhlc (points : List (RatePoint R)) : List (OhlcCandle R) :=
  let buckets := (points.mergeSort timeOrder).foldl
    (fun buckets point =>
      let key := hourKey point
      Table.put Prod.fst
        (key, ((Table.get Prod.fst buckets key).map Prod.snd).getD [] ++ [point]) buckets) []
  (buckets.map candle).mergeSort bucketOrder

end RateSnapshots

end NexaFx
