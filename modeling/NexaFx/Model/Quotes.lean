import NexaFx.Model.Transactions

/-!
# NexaFx — quotes

What is announced before an operation: `previewFee` of `fees/fees.service.ts`,
and `simulateTransaction` and `getSwapPreview` of
`transactions/transactions.service.ts`. They write nothing.
-/

namespace NexaFx

open Decimal

namespace Quotes

structure FeePreview where
  transactionType : String
  amount : ℚ
  feeAmount : ℚ
  netAmount : ℚ
  currency : String
  feePercentage : ℚ
  deriving DecidableEq

/-- The rate that `previewFee` announces. -/
def feeRate (transactionType : String) : ℚ :=
  if transactionType = "withdrawal" then 5 / 1000 else 1 / 1000

def previewFee (transactionType : String) (amount : ℚ) (currency : String) : FeePreview :=
  let feeAmount := toFixed 8 (amount * feeRate transactionType)
  { transactionType := transactionType
    amount := amount
    feeAmount := feeAmount
    netAmount := toFixed 8 (amount - feeAmount)
    currency := currency
    feePercentage := feeRate transactionType * 100 }

structure SimulateDto where
  type : String
  amount : ℚ
  fromCurrency : String
  toCurrency : Option String

structure Simulation where
  simulationId : String
  type : String
  inputAmount : ℚ
  estimatedOutput : ℚ
  fee : ℚ
  estimatedSlippagePct : ℚ
  route : List String
  status : String
  deriving DecidableEq

/-- `simulateTransaction`, at the time `now`. -/
def simulateTransaction (now : Time) (dto : SimulateDto) : Simulation where
  simulationId := "sim_" ++ toString now
  type := dto.type
  inputAmount := dto.amount
  estimatedOutput :=
    if dto.toCurrency.isSome then toFixed 4 (dto.amount * (985 / 1000)) else dto.amount
  fee := calculateFee dto.amount
  estimatedSlippagePct := 15 / 100
  route := dto.fromCurrency :: dto.toCurrency.toList
  status := "SIMULATION_SUCCESS"

structure SwapPreviewDto where
  fromAmount : ℚ
  fromCurrency : String
  toCurrency : String

structure SwapPreviewResponse where
  fromCurrency : String
  toCurrency : String
  fromAmount : ℚ
  toAmount : ℚ
  rate : ℚ
  deriving DecidableEq

/-- `getSwapPreview`, where `Math.random()` gives `random`. -/
def getSwapPreview (random : ℚ) (dto : SwapPreviewDto) : Except Err SwapPreviewResponse :=
  if dto.fromAmount ≤ 0 then .error (.badRequest "Swap amount must be positive")
  else if dto.fromCurrency = dto.toCurrency then
    .error (.badRequest "Source and target currencies must differ")
  else
    let feeAdjustedAmount := dto.fromAmount - calculateFee dto.fromAmount
    let rate := toFixed 6 (85 / 100 + random * (3 / 10))
    .ok ⟨dto.fromCurrency, dto.toCurrency, dto.fromAmount, toFixed 8 (feeAdjustedAmount * rate), rate⟩

end Quotes

end NexaFx
