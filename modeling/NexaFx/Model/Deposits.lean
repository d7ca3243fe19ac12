import NexaFx.Model.Transactions

/-!
# NexaFx — the row of a deposit

`createDeposit` of `transactions/transactions.service.ts` as it is written: the
initializer of `const tx` reads `tx.id`. A `const` that is read before its
initializer has ended throws a `ReferenceError`.
-/

namespace NexaFx

open Async

/-- The argument of `txRepo.create`, where `tx` has this value so far. What is
stored as `fullTransactionId` is read by nothing modelled. -/
def DepositDto.initializer (i : TxId) (dto : DepositDto) (tx : Option Transaction) :
    Except Err Transaction :=
  match tx with
  | none => .error .fault  -- Cannot access 'tx' before initialization
  | some _ => .ok (dto.create i)

/-- `createDeposit`, with its initializer. -/
def createDepositAsWritten (i : ℕ) (dto : DepositDto) : TxProc Transaction := do
  await (.ensureAccepted dto.userId)
  await (.limitCheck dto.userId (totalChecked dto.amount) dto.currency)
  let row ← Proc.ofExcept (dto.initializer i none)
  let tx ← await (.insertTransaction row)
  let tx ← generateReceiptNumber tx
  depositSettle i dto tx

end NexaFx
