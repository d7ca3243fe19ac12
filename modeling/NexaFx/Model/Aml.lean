import NexaFx.Lib.JsNumber

/-!
# AML rules

The three checks of `aml/aml.service.ts`, as functions of the configuration, the
clock and the transactions they are given. Each returns the alert that it
creates, if any. Amounts are exact numbers; a mean or a deviation can be a
Number value that is none.
-/

namespace NexaFx

namespace Aml

open Js

structure TransactionRecord where
  userId : String
  amount : ℚ
  currency : String
  receiverId : Option String
  executedAt : ℤ
  deriving DecidableEq

/-- What `config.get` has at the keys `aml.*`. -/
structure AmlConfig where
  structuringThreshold : Option ℚ
  structuringWindowHours : Option ℤ
  structuringMinCount : Option ℤ
  smurfingWindowHours : Option ℤ
  smurfingMinWallets : Option ℤ
  smurfingAmountVariancePct : Option ℚ
  velocityBurstWindowHours : Option ℤ
  velocityBurstMaxCount : Option ℤ
  riskScoreWeight : Option ℤ

inductive AlertMetadata where
  | structuring (txCount : ℕ) (total threshold : ℚ)
  | smurfing (uniqueReceivers : ℕ) (avgAmount variancePct : Js.Num)
  | velocityBurst (txCount : ℕ) (windowHours maxCount : ℤ)
  deriving DecidableEq

structure AmlAlert where
  userId : String
  ruleTriggered : String
  riskScore : ℤ
  metadata : AlertMetadata
  deriving DecidableEq

/-- `new Date(ms)`, or `none` for an invalid date. -/
def date (ms : ℤ) : Option ℤ := if |ms| ≤ 8640000000000000 then some ms else none

/-- `t.executedAt >= cutoff`; an invalid date is not comparable. -/
def since (now windowHours : ℤ) (t : TransactionRecord) : Bool :=
  (date (now - windowHours * 3600000)).any (· ≤ t.executedAt)

variable (config : AmlConfig) (now : ℤ) (userId : String) (recentTxs : List TransactionRecord)

def riskWeight : ℤ := config.riskScoreWeight.getD 30

/-! ## Structuring -/

def structuringWindow : List TransactionRecord :=
  recentTxs.filter fun t => t.userId = userId &&
    since now (config.structuringWindowHours.getD 24) t &&
    t.amount < config.structuringThreshold.getD 10000

def checkStructuring : Option AmlAlert :=
  let threshold := config.structuringThreshold.getD 10000
  let minCount := config.structuringMinCount.getD 3
  let window := structuringWindow config now userId recentTxs
  let total := (window.map TransactionRecord.amount).sum
  if minCount ≤ window.length ∧ threshold ≤ total then
    some ⟨userId, "structuring", riskWeight config, .structuring window.length total threshold⟩
  else none

/-! ## Smurfing -/

/-- A `receiverId` that is set and not empty. -/
def TransactionRecord.hasReceiver (t : TransactionRecord) : Bool := t.receiverId.any (· ≠ "")

def smurfingWindow : List TransactionRecord :=
  recentTxs.filter fun t => t.userId = userId &&
    since now (config.smurfingWindowHours.getD 1) t && t.hasReceiver

/-- `amounts.reduce((s, a) => s + a, 0) / amounts.length` -/
def mean (amounts : List ℚ) : Js.Num :=
  if amounts = [] then .nan else .fin (amounts.sum / amounts.length)

/-- `Math.abs(a - avg) / avg` -/
def deviation (avg : Js.Num) (a : ℚ) : Js.Num :=
  match avg with
  | .fin m => if m = 0 then (if a = 0 then .nan else .inf false) else .fin (|a - m| / m)
  | _ => .nan

/-- `Math.max(...values)` -/
def maxOf (values : List Js.Num) : Js.Num := values.foldl Js.Num.max (.inf true)

def maxDeviation (amounts : List ℚ) : Js.Num := maxOf (amounts.map (deviation (mean amounts)))

/-- `x <= q` -/
def atMost (x : Js.Num) (q : ℚ) : Bool :=
  match x with
  | .nan => false
  | .inf negative => negative
  | .fin y => y ≤ q

/-- `x * 100` -/
def percent : Js.Num → Js.Num
  | .fin q => .fin (q * 100)
  | other => other

def checkSmurfing : Option AmlAlert :=
  let minWallets := config.smurfingMinWallets.getD 3
  let variancePct := config.smurfingAmountVariancePct.getD 5
  let window := smurfingWindow config now userId recentTxs
  if window.length < minWallets then none
  else
    let amounts := window.map TransactionRecord.amount
    let uniqueReceivers := (window.map TransactionRecord.receiverId).dedup.length
    if minWallets ≤ uniqueReceivers ∧ atMost (maxDeviation amounts) (variancePct / 100) = true then
      some ⟨userId, "smurfing", riskWeight config,
        .smurfing uniqueReceivers (mean amounts) (percent (maxDeviation amounts))⟩
    else none

/-! ## Velocity burst -/

def checkVelocityBurst : Option AmlAlert :=
  let windowHours := config.velocityBurstWindowHours.getD 1
  let maxCount := config.velocityBurstMaxCount.getD 10
  let count := (recentTxs.filter fun t => t.userId = userId && since now windowHours t).length
  if maxCount < count then
    some ⟨userId, "velocity-burst", riskWeight config, .velocityBurst count windowHours maxCount⟩
  else none

end Aml

end NexaFx
