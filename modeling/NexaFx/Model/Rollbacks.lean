import NexaFx.Lib.Pool
import NexaFx.Model.Wallets

/-!
# NexaFx — rollbacks and wallet history

`modules/transactions/services/transaction-rollback.service.ts`, await by
await, and `recordSnapshot` of `modules/wallet-history/services/`, which adds
up the transactions of a wallet. The keys of new rows are generated by the
database.
-/

namespace NexaFx

open Async

namespace Rollbacks

-- ---------------------------------------------------------------------------
-- The tables
-- ---------------------------------------------------------------------------

/-- The status of a `TransactionEntity`. -/
inductive EntityStatus where
  | pending
  | success
  | failed
  | cancelled
  deriving DecidableEq, Repr

def EntityStatus.text : EntityStatus → String
  | .pending => "PENDING"
  | .success => "SUCCESS"
  | .failed => "FAILED"
  | .cancelled => "CANCELLED"

/-- A value of `metadata`: a string, or anything else as its JSON text. -/
inductive MetaValue where
  | str (s : String)
  | other (json : String)
  deriving DecidableEq

structure TransactionEntity where
  id : ℕ
  amount : ℚ
  currency : String
  status : EntityStatus
  description : Option String
  metadata : Option (List (String × MetaValue))
  walletId : Option String
  toAddress : Option String
  fromAddress : Option String
  rollbackOf : Option ℕ
  deriving DecidableEq

structure TransactionRollbackEntity where
  id : ℕ
  originalTransactionId : ℕ
  rollbackTransactionId : ℕ
  reason : Option String
  rolledBackBy : UserId
  deriving DecidableEq

structure WalletEntity where
  id : String
  userId : UserId
  currency : String
  status : String
  deriving DecidableEq

/-- The tables; `id` is the primary key of the transactions. -/
structure RollbackDb where
  transactions : List TransactionEntity
  rollbacks : List TransactionRollbackEntity
  wallets : List WalletEntity
  now : ℕ
  keyed : (transactions.map TransactionEntity.id).Nodup

namespace RollbackDb

def transaction (db : RollbackDb) (id : ℕ) : Option TransactionEntity :=
  Table.get TransactionEntity.id db.transactions id

/-- `findOne({ originalTransactionId })`. -/
def rollbackFor (db : RollbackDb) (originalTransactionId : ℕ) : Option TransactionRollbackEntity :=
  db.rollbacks.find? fun r => decide (r.originalTransactionId = originalTransactionId)

def freshTransaction (db : RollbackDb) (tx : TransactionEntity) : TransactionEntity :=
  { tx with id := Table.freshKey (db.transactions.map TransactionEntity.id) }

def insertTransaction (db : RollbackDb) (tx : TransactionEntity) : RollbackDb :=
  { db with
    transactions := db.transactions ++ [db.freshTransaction tx]
    keyed := Table.nodup_concat TransactionEntity.id db.keyed (Table.freshKey_notMem _) }

def freshRollback (db : RollbackDb) (record : TransactionRollbackEntity) :
    TransactionRollbackEntity :=
  { record with id := Table.freshKey (db.rollbacks.map TransactionRollbackEntity.id) }

def insertRollback (db : RollbackDb) (record : TransactionRollbackEntity) : RollbackDb :=
  { db with rollbacks := db.rollbacks ++ [db.freshRollback record] }

/-- The tables without the transactions under these keys. -/
def without (db : RollbackDb) (ids : List ℕ) : RollbackDb :=
  { db with
    transactions := db.transactions.filter fun tx => decide (tx.id ∉ ids)
    keyed := Table.nodup_filter TransactionEntity.id db.keyed _ }

end RollbackDb

-- ---------------------------------------------------------------------------
-- Rollback
-- ---------------------------------------------------------------------------

inductive RollbackCmd where
  | findTransaction (id : ℕ)
  | findRollback (originalTransactionId : ℕ)
  | saveTransaction (tx : TransactionEntity)
  | saveRollback (record : TransactionRollbackEntity)
  deriving DecidableEq

def RollbackCmd.Reply : RollbackCmd → Type
  | .findTransaction _ => Option TransactionEntity
  | .findRollback _ => Option TransactionRollbackEntity
  | .saveTransaction _ => TransactionEntity
  | .saveRollback _ => TransactionRollbackEntity

/-- The atomic effect of each command. -/
def exec : (c : RollbackCmd) → RollbackDb → Except Err (c.Reply × RollbackDb)
  | .findTransaction id, db => .ok (db.transaction id, db)
  | .findRollback originalTransactionId, db => .ok (db.rollbackFor originalTransactionId, db)
  | .saveTransaction tx, db => .ok (db.freshTransaction tx, db.insertTransaction tx)
  | .saveRollback record, db => .ok (db.freshRollback record, db.insertRollback record)

abbrev RollbackProc := Proc RollbackCmd RollbackCmd.Reply Err

abbrev await (c : RollbackCmd) : RollbackProc c.Reply := Proc.call c

structure RollbackTransactionDto where
  reason : Option String
  deriving DecidableEq

structure RollbackResult where
  success : Bool
  originalTransaction : TransactionEntity
  rollbackTransaction : TransactionEntity
  rollbackRecord : TransactionRollbackEntity
  deriving DecidableEq

/-- `{ ...metadata, rollbackReason, originalTransactionId }`; a key without a
value is not stored. -/
def rollbackMetadata (metadata : Option (List (String × MetaValue))) (reason : Option String)
    (transactionId : ℕ) : List (String × MetaValue) :=
  let reasoned := match reason with
    | some reason => Table.put Prod.fst ("rollbackReason", .str reason) (metadata.getD [])
    | none => (metadata.getD []).filter fun entry => decide (entry.1 ≠ "rollbackReason")
  Table.put Prod.fst ("originalTransactionId", .str (toString transactionId)) reasoned

/-- `dto.reason ? ": " + dto.reason : ""`. -/
def reasonText : Option String → String
  | some reason => if reason = "" then "" else ": " ++ reason
  | none => ""

/-- The compensating transaction. -/
def TransactionEntity.compensation (originalTx : TransactionEntity) (transactionId : ℕ)
    (reason : Option String) : TransactionEntity where
  id := 0
  amount := -originalTx.amount
  currency := originalTx.currency
  status := .success
  description := some ("Rollback of transaction " ++ toString transactionId ++ reasonText reason)
  metadata := some (rollbackMetadata originalTx.metadata reason transactionId)
  walletId := originalTx.walletId
  toAddress := originalTx.fromAddress
  fromAddress := originalTx.toAddress
  rollbackOf := some transactionId

def rollback (transactionId : ℕ) (dto : RollbackTransactionDto) (adminUserId : UserId) :
    RollbackProc RollbackResult := do
  match ← await (.findTransaction transactionId) with
  | none => Proc.throw (.notFound ("Transaction with ID " ++ toString transactionId ++ " not found"))
  | some originalTx =>
    Proc.rejectWhen (originalTx.status ≠ .success) (.badRequest
      ("Only completed transactions can be rolled back. Current status: " ++
        originalTx.status.text))
    let alreadyRolledBack ← await (.findRollback transactionId)
    Proc.rejectWhen (alreadyRolledBack.isSome = true) (.badRequest
      ("Transaction " ++ toString transactionId ++ " has already been rolled back"))
    let savedRollbackTx ← await (.saveTransaction (originalTx.compensation transactionId dto.reason))
    let savedRollbackRecord ← await (.saveRollback
      { id := 0
        originalTransactionId := transactionId
        rollbackTransactionId := savedRollbackTx.id
        reason := dto.reason
        rolledBackBy := adminUserId })
    return ⟨true, originalTx, savedRollbackTx, savedRollbackRecord⟩

structure RollbackCall where
  transactionId : ℕ
  dto : RollbackTransactionDto
  adminUserId : UserId
  deriving DecidableEq

/-- Rollback requests, interleaved at every await; any repository call may fail. -/
def rollbackServer :
    System RollbackCall RollbackCmd RollbackCmd.Reply Err RollbackDb RollbackResult where
  prog _ call := rollback call.transactionId call.dto call.adminUserId
  exec := exec

-- ---------------------------------------------------------------------------
-- Wallet history
-- ---------------------------------------------------------------------------

/-- `metadata?.type === 'CREDIT' || fromAddress == null`. -/
def TransactionEntity.isCredit (tx : TransactionEntity) : Bool :=
  decide ((Table.get Prod.fst (tx.metadata.getD []) "type").map Prod.snd = some (.str "CREDIT")) ||
    tx.fromAddress.isNone

/-- The balance of one wallet, transaction by transaction. -/
def walletBalance (db : RollbackDb) (walletId : String) : ℚ :=
  (db.transactions.filter fun tx => decide (tx.walletId = some walletId)).foldl
    (fun balance tx =>
      if tx.status = .success then
        if tx.isCredit then balance + tx.amount else balance - tx.amount
      else balance) 0

structure WalletBalanceSnapshot where
  userId : UserId
  balances : List (String × ℚ)
  totalValueUsd : ℚ
  snapshotDate : ℕ
  deriving DecidableEq

/-- `balances[currency] ?? 0`. -/
def balanceIn (balances : List (String × ℚ)) (currency : String) : ℚ :=
  ((Table.get Prod.fst balances currency).map Prod.snd).getD 0

/-- One wallet of the loop. -/
def addWallet (db : RollbackDb) (acc : List (String × ℚ) × ℚ) (wallet : WalletEntity) :
    List (String × ℚ) × ℚ :=
  let balance := walletBalance db wallet.id
  (Table.put Prod.fst (wallet.currency, balanceIn acc.1 wallet.currency + balance) acc.1,
    if wallet.currency = "USD" then acc.2 + balance else acc.2)

/-- `find({ userId, status: 'active' })`. -/
def activeWallets (db : RollbackDb) (userId : UserId) : List WalletEntity :=
  db.wallets.filter fun wallet => decide (wallet.userId = userId ∧ wallet.status = "active")

def recordSnapshot (db : RollbackDb) (userId : UserId) : WalletBalanceSnapshot :=
  let totals := (activeWallets db userId).foldl (addWallet db) ([], 0)
  { userId := userId
    balances := totals.1
    totalValueUsd := totals.2
    snapshotDate := db.now }

end Rollbacks

end NexaFx
