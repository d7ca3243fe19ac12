import NexaFx.Lib.Pool
import NexaFx.Model.Commands

/-!
# NexaFx — the transaction services

`transactions/transactions.service.ts` (`transfer`, `createDeposit`,
`createWithdrawal`, `createSwap`, `cancelTransaction`, `reverseTransaction`)
and `scheduled-jobs/scheduled-jobs.service.ts`
(`reconcilePendingTransactions`), await by await.

The entity `tx` of the source is mutated in memory and saved several times;
here each assignment makes a new value, and what a `catch` branch sees is the
value at the point of the failure. So a `transfer` whose confirmation write
fails returns a `tx` that already says COMPLETED, and the catch branch of a
swap attempt saves whatever status the attempt had reached.

The first argument `i` of each function is the identity of the call: it
becomes the key of the row that the call creates.
-/

namespace NexaFx

open Async Decimal

/-- An `async` method of the services. -/
abbrev TxProc := Proc Cmd Cmd.Reply Err

abbrev await (c : Cmd) : TxProc c.Reply := Proc.call c

/-! ## Requests -/

/-- `TransferDto`. The row is created from `{ ...dto }`, so a `pendingTimeoutAt`
in the request body reaches the row. -/
structure TransferDto where
  senderId : UserId
  receiverId : UserId
  amount : ℚ
  currency : String
  reference : String
  pendingTimeoutAt : Option Time := none
  deriving DecidableEq

structure DepositDto where
  userId : UserId
  amount : ℚ
  currency : String
  reference : String
  deriving DecidableEq

structure WithdrawalDto where
  userId : UserId
  amount : ℚ
  currency : String
  reference : String
  destinationAddress : String
  deriving DecidableEq

structure SwapDto where
  userId : UserId
  fromAmount : ℚ
  fromCurrency : String
  toAmount : ℚ
  toCurrency : String
  reference : String
  deriving DecidableEq

/-- The `input` of `reverseTransaction`. -/
structure ReverseInput where
  reversedBy : UserId
  reason : String
  deriving DecidableEq

/-! ## Fees and fresh rows -/

def FEE_RATE : ℚ := 1 / 1000

/-- `FeesService.calculateFee`; its `reason` is always `null`. -/
def calculateFee (amount : ℚ) : ℚ := toFixed 8 (amount * FEE_RATE)

/-- `dto.amount + fee.feeAmount`. -/
def totalChecked (amount : ℚ) : ℚ := amount + calculateFee amount

/-- `txRepo.create`, with the column defaults. -/
def createTransaction (i : TxId) (senderId receiverId : UserId) (amount : ℚ) (currency : String)
    (fee : ℚ) (reference : String) (metadata : Metadata) : Transaction where
  id := i
  senderId := senderId
  receiverId := receiverId
  amount := amount
  currency := currency
  fee := fee
  status := .pending
  reference := reference
  receiptNumber := none
  metadata := metadata
  createdAt := 0
  completedAt := none
  reversedAt := none
  pendingTimeoutAt := none
  reversedBy := none
  reversalReason := none
  reversalTransactionId := none
  retryCount := 0

def TransferDto.create (i : TxId) (dto : TransferDto) : Transaction :=
  { createTransaction i dto.senderId dto.receiverId dto.amount dto.currency 0 dto.reference
      .transfer with pendingTimeoutAt := dto.pendingTimeoutAt }

def DepositDto.create (i : TxId) (dto : DepositDto) : Transaction :=
  createTransaction i dto.userId dto.userId dto.amount dto.currency (calculateFee dto.amount)
    dto.reference .deposit

def WithdrawalDto.create (i : TxId) (dto : WithdrawalDto) : Transaction :=
  createTransaction i dto.userId dto.userId dto.amount dto.currency (calculateFee dto.amount)
    dto.reference (.withdrawal dto.destinationAddress)

def SwapDto.create (i : TxId) (dto : SwapDto) : Transaction :=
  createTransaction i dto.userId dto.userId dto.fromAmount dto.fromCurrency
    (calculateFee dto.fromAmount) dto.reference (.swap dto.toAmount dto.toCurrency)

/-- `tx.status = COMPLETED; tx.completedAt = new Date()`. -/
def Transaction.complete (tx : Transaction) (at_ : Time) : Transaction :=
  { tx with status := .completed, completedAt := some at_ }

/-- `tx.status = status`. -/
def Transaction.withStatus (tx : Transaction) (status : TransactionStatus) : Transaction :=
  { tx with status := status }

/-! ## Receipt numbers -/

/-- `NXF-YYYY-NNNNNN`. -/
def receiptText (year : ℕ) (digits : List Char) : String :=
  "NXF-" ++ toString year ++ "-" ++ String.ofList digits

def Transaction.withReceipt (tx : Transaction) (t : Time) (digits : List Char) : Transaction :=
  { tx with receiptNumber := some (receiptText (yearOf t) digits) }

/-- `String(seq).padStart(6, '0')`. -/
def padStart (seq : ℕ) : List Char := List.leftpad 6 '0' (Nat.toDigits 10 seq)

/-- `Date.now().toString().slice(-6)`. -/
def lastSix (t : Time) : List Char := (Nat.toDigits 10 t).drop ((Nat.toDigits 10 t).length - 6)

/-- `generateReceiptNumber`: a sequence, or the clock where there is none. -/
def generateReceiptNumber (tx : Transaction) : TxProc Transaction := do
  let seq ← (await .nextReceipt).attempt
  let t ← await .now
  let digits := match seq with
    | .ok n => padStart n
    | .error _ => lastSix t
  await (.saveTransaction .receipt (tx.withReceipt t digits))
  return tx.withReceipt t digits

/-- The `digits` of `generateReceiptNumber`. -/
def drawn (t : Time) : Except Err ℕ → List Char
  | .ok n => padStart n
  | .error _ => lastSix t

/-! ## Transfer -/

/-- `transfer` up to the PENDING record with its receipt number. -/
def transferPrepare (i : ℕ) (dto : TransferDto) : TxProc Transaction := do
  await (.ensureAccepted dto.senderId)
  let isDeactivated ← await (.isUserDeactivated dto.senderId)
  Proc.rejectWhen (isDeactivated = true)
    (.forbidden "Account has been deactivated. Cannot perform transactions.")
  Proc.rejectWhen (dto.amount ≤ 0) (.badRequest "Transfer amount must be positive")
  Proc.rejectWhen (dto.senderId = dto.receiverId)
    (.badRequest "Sender and receiver must differ")
  let senderBalance ← await (.getBalance dto.senderId dto.currency)
  Proc.rejectWhen ((senderBalance : ℚ) < 100 * dto.amount) (.badRequest "Insufficient balance")
  let tx ← await (.insertTransaction (dto.create i))
  generateReceiptNumber tx

/-- The two balance changes inside `dataSource.transaction`. -/
def transferMoves (i : ℕ) (dto : TransferDto) : TxProc ℤ := do
  await .startTransaction
  let _ ← await (.adjustBalance .debit i i dto.senderId dto.currency (-dto.amount))
  await (.adjustBalance (.credit 0) i i dto.receiverId dto.currency dto.amount)

/-- The confirmation write and the commit of `dataSource.transaction`. -/
def transferConfirm (tx : Transaction) : TxProc Unit := do
  await (.managerSave tx)
  await (.commit [tx])

/-- `transfer` from the `try` on. The catch branch returns `tx` as it is. -/
def transferSettle (i : ℕ) (dto : TransferDto) (tx : Transaction) : TxProc Transaction := do
  match ← (transferMoves i dto).attempt with
  | .error _ => return tx
  | .ok _ =>
    let t ← await .now
    let _ ← (transferConfirm (tx.complete t)).attempt
    return tx.complete t

def transfer (i : ℕ) (dto : TransferDto) : TxProc Transaction := do
  let tx ← transferPrepare i dto
  transferSettle i dto tx

/-! ## Deposit -/

def depositPrepare (i : ℕ) (dto : DepositDto) : TxProc Transaction := do
  await (.ensureAccepted dto.userId)
  await (.limitCheck dto.userId (totalChecked dto.amount) dto.currency)
  let tx ← await (.insertTransaction (dto.create i))
  generateReceiptNumber tx

/-- The catch branch of `createDeposit`. -/
def depositFailed (dto : DepositDto) (tx : Transaction) (err : Err) : TxProc Transaction := do
  await (.saveTransaction .failed (tx.withStatus .failed))
  await (.auditLog dto.userId "transaction.deposit.failed" tx.id)
  Proc.throw err

/-- The writes of `createDeposit` after the credit. -/
def depositConfirm (dto : DepositDto) (tx : Transaction) : TxProc Unit := do
  await (.saveTransaction (.completed 0) tx)
  await (.invalidateWalletBalanceCache dto.userId)

def depositSettle (i : ℕ) (dto : DepositDto) (tx : Transaction) : TxProc Transaction := do
  match ← (await (.adjustBalance (.credit 0) i i dto.userId dto.currency dto.amount)).attempt with
  | .error err => depositFailed dto tx err
  | .ok _ =>
    let t ← await .now
    match ← (depositConfirm dto (tx.complete t)).attempt with
    | .error err => depositFailed dto (tx.complete t) err
    | .ok _ => return tx.complete t

/-- `createDeposit`, without the reference to `tx` in its own initializer. -/
def createDeposit (i : ℕ) (dto : DepositDto) : TxProc Transaction := do
  let tx ← depositPrepare i dto
  depositSettle i dto tx

/-! ## Withdrawal -/

def withdrawalPrepare (i : ℕ) (dto : WithdrawalDto) : TxProc Transaction := do
  await (.ensureAccepted dto.userId)
  let destinationExists ← await (.accountExists dto.destinationAddress)
  Proc.rejectWhen (destinationExists = false)
    (.badRequest ("Destination Stellar account (" ++ dto.destinationAddress ++
      ") is not funded. The recipient account must have a minimum balance of 1 XLM."))
  await (.limitCheck dto.userId (totalChecked dto.amount) dto.currency)
  let balance ← await (.getBalance dto.userId dto.currency)
  Proc.rejectWhen ((balance : ℚ) < 100 * totalChecked dto.amount)
    (.badRequest "Insufficient balance including fee")
  let tx ← await (.insertTransaction (dto.create i))
  let tx ← generateReceiptNumber tx
  let _ ← await
    (.adjustBalance .debit i i dto.userId dto.currency (-totalChecked dto.amount))
  return tx

/-- The catch branch of `createWithdrawal`: refund, then FAILED. -/
def withdrawalFailed (i : ℕ) (dto : WithdrawalDto) (tx : Transaction) (err : Err) :
    TxProc Transaction := do
  let _ ← await (.adjustBalance .refund i i dto.userId dto.currency (totalChecked dto.amount))
  await (.saveTransaction .failed (tx.withStatus .failed))
  await (.auditLog dto.userId "transaction.withdrawal.failed_refunded" tx.id)
  Proc.throw err

/-- The writes of `createWithdrawal` after the debit. -/
def withdrawalConfirm (dto : WithdrawalDto) (tx : Transaction) : TxProc Unit := do
  await (.saveTransaction (.completed 0) tx)
  await (.invalidateWalletBalanceCache dto.userId)

def withdrawalSettle (i : ℕ) (dto : WithdrawalDto) (tx : Transaction) : TxProc Transaction := do
  let t ← await .now
  match ← (withdrawalConfirm dto (tx.complete t)).attempt with
  | .error err => withdrawalFailed i dto (tx.complete t) err
  | .ok _ => return tx.complete t

def createWithdrawal (i : ℕ) (dto : WithdrawalDto) : TxProc Transaction := do
  let tx ← withdrawalPrepare i dto
  withdrawalSettle i dto tx

/-! ## Swap -/

def MAX_RETRIES : ℕ := 3

/-- `createSwap` up to the PENDING record. -/
def swapPrepare (i : ℕ) (dto : SwapDto) : TxProc Transaction := do
  await (.ensureAccepted dto.userId)
  await (.limitCheck dto.userId (totalChecked dto.fromAmount) dto.fromCurrency)
  let balance ← await (.getBalance dto.userId dto.fromCurrency)
  Proc.rejectWhen ((balance : ℚ) < 100 * totalChecked dto.fromAmount)
    (.badRequest "Insufficient balance including fee")
  await (.insertTransaction (dto.create i))

/-- The record that `feesService.recordFee` saves. -/
def SwapDto.feeRecord (i : TxId) (dto : SwapDto) : FeeRecord where
  transactionId := i
  userId := dto.userId
  transactionType := "swap"
  amount := dto.fromAmount
  feeAmount := calculateFee dto.fromAmount
  currency := dto.fromCurrency
  reason := if calculateFee dto.fromAmount = 0 then some "no_fee_config" else none

/-- `tx` as an attempt completes it. -/
def Transaction.completeAttempt (tx : Transaction) (at_ : Time) (attempt : ℕ) : Transaction :=
  { tx.complete at_ with retryCount := attempt }

/-- `tx.retryCount = retryCount`. -/
def Transaction.withRetryCount (tx : Transaction) (retryCount : ℕ) : Transaction :=
  { tx with retryCount := retryCount }

/-- The writes of a swap attempt after the credit. -/
def swapConfirm (i : ℕ) (dto : SwapDto) (attempt : ℕ) (tx : Transaction) : TxProc Unit := do
  await (.saveTransaction (.completed attempt) tx)
  await (.recordFee attempt (dto.feeRecord i))

/-- The `try` of one attempt: `tx` on success; on failure the error and `tx` as
the attempt leaves it in memory. -/
def swapAttempt (i : ℕ) (dto : SwapDto) (attempt : ℕ) (tx : Transaction) :
    TxProc (Except (Err × Transaction) Transaction) := do
  match ← (await (.adjustBalance (.credit attempt) i i dto.userId dto.toCurrency
      dto.toAmount)).attempt with
  | .error err => return .error (err, tx)
  | .ok _ =>
    let t ← await .now
    match ← (swapConfirm i dto attempt (tx.completeAttempt t attempt)).attempt with
    | .error err => return .error (err, tx.completeAttempt t attempt)
    | .ok _ => return .ok (tx.completeAttempt t attempt)

/-- All retries exhausted: refund, FAILED, and the last error. -/
def swapGiveUp (i : ℕ) (dto : SwapDto) (tx : Transaction) (lastError : Err) :
    TxProc Transaction := do
  let _ ← await
    (.adjustBalance .refund i i dto.userId dto.fromCurrency (totalChecked dto.fromAmount))
  await (.saveTransaction .failed (tx.withStatus .failed))
  await (.auditLog dto.userId "transaction.swap.failed_refunded" tx.id)
  Proc.throw lastError

/-- `for (let attempt = 0; attempt < MAX_RETRIES; attempt++)`, with `left`
attempts to go. -/
def swapLoop (i : ℕ) (dto : SwapDto) : ℕ → Err → Transaction → TxProc Transaction
  | 0, lastError, tx => swapGiveUp i dto tx lastError
  | left + 1, _, tx => do
    match ← swapAttempt i dto (MAX_RETRIES - (left + 1)) tx with
    | .ok tx => return tx
    | .error (err, tx) =>
      let tx := tx.withRetryCount (MAX_RETRIES - (left + 1) + 1)
      await (.saveTransaction (.retry (MAX_RETRIES - (left + 1))) tx)
      swapLoop i dto left err tx

def createSwap (i : ℕ) (dto : SwapDto) : TxProc Transaction := do
  let tx ← swapPrepare i dto
  let _ ← await
    (.adjustBalance .debit i i dto.userId dto.fromCurrency (-totalChecked dto.fromAmount))
  swapLoop i dto MAX_RETRIES .fault tx

/-! ## Cancel -/

/-- `findById`. -/
def findById (id : TxId) : TxProc Transaction := do
  match ← await (.findTransaction id) with
  | none => Proc.throw (.notFound ("Transaction " ++ toString id ++ " not found"))
  | some tx => return tx

/-- The values of the status enumeration. -/
def TransactionStatus.text : TransactionStatus → String
  | .pending => "pending"
  | .completed => "completed"
  | .failed => "failed"
  | .reversed => "reversed"
  | .cancelled => "cancelled"

def cancelTransaction (id : TxId) : TxProc Transaction := do
  let tx ← findById id
  Proc.rejectWhen (tx.status ≠ .pending) (.unprocessable ("Transaction " ++ toString id ++
    " cannot be cancelled (current status: " ++ tx.status.text ++ ")"))
  await (.saveTransaction .cancelled (tx.withStatus .cancelled))
  return tx.withStatus .cancelled

/-! ## Reverse -/

/-- The reversal record of `tx`, created at the time it is completed. -/
def Transaction.reversal (tx : Transaction) (i : TxId) (reason : String) (at_ : Time) :
    Transaction :=
  { createTransaction i tx.receiverId tx.senderId tx.amount tx.currency 0
      (tx.reference ++ "-reversal") (.reversal tx.id reason) with
    status := .reversed, createdAt := at_, completedAt := some at_ }

/-- `tx` marked as reversed by the record `i`. -/
def Transaction.markReversed (tx : Transaction) (i : TxId) (input : ReverseInput) (at_ : Time) :
    Transaction :=
  { tx with
    status := .reversed
    reversedAt := some at_
    reversedBy := some input.reversedBy
    reversalReason := some input.reason
    reversalTransactionId := some i }

/-- The balance changes of `reverseTransaction`, which commit on their own. -/
def reverseMoves (i : ℕ) (tx : Transaction) : TxProc ℤ := do
  await .startTransaction
  let _ ← await (.adjustBalance .reversalCredit i tx.id tx.senderId tx.currency
    (toFixed 8 tx.amount))
  await (.adjustBalance .reversalDebit i tx.id tx.receiverId tx.currency
    (toFixed 8 (-tx.amount)))

/-- The record writes of `reverseTransaction`, the notices and the commit. -/
def reverseRecord (i : ℕ) (tx : Transaction) (input : ReverseInput) : TxProc Transaction := do
  let t ← await .now
  let reversal := tx.reversal i input.reason t
  await (.managerSave reversal)
  let t' ← await .now
  let marked := tx.markReversed i input t'
  await (.managerSave marked)
  await (.findUser tx.senderId)
  await (.findUser tx.receiverId)
  await (.auditLog input.reversedBy "transaction.reversed" tx.id)
  await (.commit [reversal, marked])
  return marked

def reverseTransaction (i : ℕ) (id : TxId) (input : ReverseInput) : TxProc Transaction := do
  let tx ← findById id
  Proc.rejectWhen (tx.reversedAt.isSome = true)
    (.unprocessable "Transaction has already been reversed")
  let _ ← reverseMoves i tx
  reverseRecord i tx input

/-! ## Reconciliation -/

def RECONCILE_JOB : LockKey := .scheduledJob "reconcile-pending-txs"

/-- The loop over the timed-out transactions. -/
def failTimedOut : List Transaction → TxProc Unit
  | [] => return ()
  | tx :: rest => do
    let acquired ← await (.acquireLock (.txProcessing tx.id))
    if acquired = true then
      (await (.saveTransaction .timedOut (tx.withStatus .failed))).ensure
        (await (.releaseLock (.txProcessing tx.id)))
    failTimedOut rest

/-- The body of the job, under the job lock. -/
def reconcileBody : TxProc Unit := do
  let t ← await .now
  let timedOut ← await (.findTimedOut t)
  failTimedOut timedOut

def reconcilePendingTransactions : TxProc Unit := do
  let acquiredJobLock ← await (.acquireLock RECONCILE_JOB)
  if acquiredJobLock = true then
    reconcileBody.ensure (await (.releaseLock RECONCILE_JOB))

/-! ## The server -/

/-- A call of the services. -/
inductive Call where
  | transfer (dto : TransferDto)
  | deposit (dto : DepositDto)
  | withdrawal (dto : WithdrawalDto)
  | swap (dto : SwapDto)
  | cancel (id : TxId)
  | reverse (id : TxId) (input : ReverseInput)
  | reconcile
  | tick (ms : ℕ)
  deriving DecidableEq

/-- The method behind a call; `none` is a method that returns nothing. -/
def prog (i : ℕ) : Call → TxProc (Option Transaction)
  | .transfer dto => do return some (← transfer i dto)
  | .deposit dto => do return some (← createDeposit i dto)
  | .withdrawal dto => do return some (← createWithdrawal i dto)
  | .swap dto => do return some (← createSwap i dto)
  | .cancel id => do return some (← cancelTransaction id)
  | .reverse id input => do return some (← reverseTransaction i id input)
  | .reconcile => do
    reconcilePendingTransactions
    return none
  | .tick ms => do
    await (.tick ms)
    return none

/-- Only the clock cannot fail. -/
def mayFail : Cmd → Bool
  | .now => false
  | .tick _ => false
  | _ => true

/-- All calls of the services, interleaved at every await. -/
def server : System Call Cmd Cmd.Reply Err Db (Option Transaction) where
  prog := prog
  exec := exec
  mayFail := mayFail

abbrev ServerConfig := Config Call Cmd Cmd.Reply Err Db (Option Transaction)

/-- A server that has not taken a call yet. -/
def start (db : Db) : ServerConfig := ⟨db, []⟩

end NexaFx
