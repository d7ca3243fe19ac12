import NexaFx.Lib.Proc
import NexaFx.Model.Database

/-!
# NexaFx — bulk payments

`create` and `processBulkPayment` of `bulk-payments/bulk-payments.service.ts`,
await by await. `setImmediate` runs `processBulkPayment` once `create` has
returned.

The amounts are columns of eight decimals. A transaction notes the item that it
is created for; in the program only its description does.
-/

namespace NexaFx

open Async Decimal

namespace BulkPayments

/-- `BulkPaymentStatus`; `partly` is `'partial'`. -/
inductive BulkPaymentStatus where
  | pending
  | processing
  | completed
  | failed
  | partly
  deriving DecidableEq, Repr

/-- `BulkPaymentItemStatus`. -/
inductive BulkPaymentItemStatus where
  | pending
  | success
  | failed
  deriving DecidableEq, Repr

/-- The bulk payment of an item, and its number in it. -/
abbrev ItemId := ℕ × ℕ

/-- The item that the transaction is created for, and how many transactions
there were before. -/
structure TransactionId where
  item : ItemId
  number : ℕ
  deriving DecidableEq, Repr

structure BulkPaymentEntity where
  id : ℕ
  userId : UserId
  status : BulkPaymentStatus
  totalCount : ℕ
  successCount : ℕ
  failCount : ℕ
  totalAmount : ℚ
  currency : String
  completedAt : Option Time
  deriving DecidableEq

structure BulkPaymentItemEntity where
  id : ItemId
  bulkPaymentId : ℕ
  recipientAddress : String
  amount : ℚ
  status : BulkPaymentItemStatus
  error : Option String
  transactionId : Option TransactionId
  deriving DecidableEq

structure TransactionEntity where
  id : TransactionId
  amount : ℚ
  currency : String
  status : String
  toAddress : String
  description : String
  deriving DecidableEq

structure BulkDb where
  payments : List BulkPaymentEntity
  items : List BulkPaymentItemEntity
  transactions : List TransactionEntity
  now : Time

/-- What a `decimal(18, 8)` column stores. -/
def decimal8 (x : ℚ) : ℚ := toFixed 8 x

-- ---------------------------------------------------------------------------
-- Commands
-- ---------------------------------------------------------------------------

/-- The fields that an `update` of an item names. -/
inductive ItemPatch where
  | success (transactionId : TransactionId)
  | failed (error : String)
  deriving DecidableEq

def ItemPatch.apply (patch : ItemPatch) (item : BulkPaymentItemEntity) : BulkPaymentItemEntity :=
  match patch with
  | .success transactionId => { item with status := .success, transactionId := some transactionId }
  | .failed error => { item with status := .failed, error := some error }

inductive BulkCmd where
  | savePayment (payment : BulkPaymentEntity)
  | saveItems (items : List BulkPaymentItemEntity)
  | findPayment (id : ℕ)
  /-- `update(id, { status: 'processing' })`. -/
  | start (id : ℕ)
  | findItems (bulkPaymentId : ℕ)
  /-- `create` and `save` of the transaction of an item. -/
  | saveTransaction (item : ItemId) (amount : ℚ) (currency toAddress description : String)
  | updateItem (id : ItemId) (patch : ItemPatch)
  /-- `update(id, { status, successCount, failCount, completedAt: new Date() })`. -/
  | finish (id : ℕ) (status : BulkPaymentStatus) (successCount failCount : ℕ)
  deriving DecidableEq

@[reducible] def BulkCmd.Reply : BulkCmd → Type
  | .savePayment _ => BulkPaymentEntity
  | .saveItems _ => List BulkPaymentItemEntity
  | .findPayment _ => Option BulkPaymentEntity
  | .findItems _ => List BulkPaymentItemEntity
  | .saveTransaction .. => TransactionEntity
  | _ => Unit

structure Thrown where
  message : String
  deriving DecidableEq

namespace BulkDb

def payment (db : BulkDb) (id : ℕ) : Option BulkPaymentEntity :=
  db.payments.find? fun payment => payment.id = id

def itemsOf (db : BulkDb) (bulkPaymentId : ℕ) : List BulkPaymentItemEntity :=
  db.items.filter fun item => item.bulkPaymentId = bulkPaymentId

/-- The transactions created for an item. -/
def transactionsFor (db : BulkDb) (item : ItemId) : List TransactionEntity :=
  db.transactions.filter fun tx => tx.id.item = item

def updatePayment (db : BulkDb) (id : ℕ) (f : BulkPaymentEntity → BulkPaymentEntity) : BulkDb :=
  { db with payments := db.payments.map fun payment => if payment.id = id then f payment else payment }

def updateItem (db : BulkDb) (id : ItemId) (patch : ItemPatch) : BulkDb :=
  { db with items := db.items.map fun item => if item.id = id then patch.apply item else item }

/-- The transaction as it is stored. -/
def newTransaction (db : BulkDb) (item : ItemId) (amount : ℚ)
    (currency toAddress description : String) : TransactionEntity where
  id := ⟨item, db.transactions.length⟩
  amount := decimal8 amount
  currency := currency
  status := "PENDING"
  toAddress := toAddress
  description := description

end BulkDb

def exec : (c : BulkCmd) → BulkDb → Except Thrown (c.Reply × BulkDb)
  | .savePayment payment, db =>
    .ok (payment, { db with
      payments := db.payments ++ [{ payment with totalAmount := decimal8 payment.totalAmount }] })
  | .saveItems items, db =>
    .ok (items, { db with
      items := db.items ++ items.map fun item => { item with amount := decimal8 item.amount } })
  | .findPayment id, db => .ok (db.payment id, db)
  | .start id, db =>
    .ok ((), db.updatePayment id fun payment => { payment with status := .processing })
  | .findItems bulkPaymentId, db => .ok (db.itemsOf bulkPaymentId, db)
  | .saveTransaction item amount currency toAddress description, db =>
    .ok (db.newTransaction item amount currency toAddress description,
      { db with
        transactions := db.transactions ++
          [db.newTransaction item amount currency toAddress description] })
  | .updateItem id patch, db => .ok ((), db.updateItem id patch)
  | .finish id status successCount failCount, db =>
    .ok ((), db.updatePayment id fun payment =>
      { payment with
        status := status, successCount := successCount, failCount := failCount,
        completedAt := some db.now })

-- ---------------------------------------------------------------------------
-- The service
-- ---------------------------------------------------------------------------

abbrev BulkProc := Proc BulkCmd BulkCmd.Reply Thrown

abbrev await (c : BulkCmd) : BulkProc c.Reply := Proc.call c

structure BulkPaymentItemDto where
  recipientAddress : String
  amount : ℚ
  deriving DecidableEq

structure CreateBulkPaymentDto where
  items : List BulkPaymentItemDto
  currency : String
  deriving DecidableEq

/-- `bulkPaymentRepo.create`. -/
def createPayment (i : ℕ) (userId : UserId) (dto : CreateBulkPaymentDto) : BulkPaymentEntity where
  id := i
  userId := userId
  status := .pending
  totalCount := dto.items.length
  successCount := 0
  failCount := 0
  totalAmount := (dto.items.map BulkPaymentItemDto.amount).sum
  currency := String.ofList (toUpperCase dto.currency.toList)
  completedAt := none

/-- `bulkPaymentItemRepo.create`. -/
def createItem (bulkPaymentId n : ℕ) (item : BulkPaymentItemDto) : BulkPaymentItemEntity where
  id := (bulkPaymentId, n)
  bulkPaymentId := bulkPaymentId
  recipientAddress := item.recipientAddress
  amount := item.amount
  status := .pending
  error := none
  transactionId := none

def create (i : ℕ) (userId : UserId) (dto : CreateBulkPaymentDto) :
    BulkProc (BulkPaymentEntity × List BulkPaymentItemEntity) := do
  let saved ← await (.savePayment (createPayment i userId dto))
  let savedItems ← await (.saveItems (dto.items.mapIdx (createItem saved.id)))
  return (saved, savedItems)

/-- The `try` block of an item. -/
def processItem (bulkPayment : BulkPaymentEntity) (item : BulkPaymentItemEntity) :
    BulkProc Unit := do
  let savedTx ← await (.saveTransaction item.id item.amount bulkPayment.currency
    item.recipientAddress
    ("Bulk payment " ++ toString bulkPayment.id ++ " - item " ++ toString item.id))
  await (.updateItem item.id (.success savedTx.id))

/-- `error.message || 'Processing failed'`. -/
def Thrown.text (error : Thrown) : String :=
  if error.message = "" then "Processing failed" else error.message

/-- The loop, with the counts so far. -/
def processItems (bulkPayment : BulkPaymentEntity) :
    List BulkPaymentItemEntity → (successCount failCount : ℕ) → BulkProc (ℕ × ℕ)
  | [], successCount, failCount => return (successCount, failCount)
  | item :: items, successCount, failCount => do
    match ← (processItem bulkPayment item).attempt with
    | .ok _ => processItems bulkPayment items (successCount + 1) failCount
    | .error error =>
      await (.updateItem item.id (.failed error.text))
      processItems bulkPayment items successCount (failCount + 1)

def finalStatus (successCount failCount : ℕ) : BulkPaymentStatus :=
  if failCount = 0 then .completed else if successCount = 0 then .failed else .partly

def processBulkPayment (bulkPaymentId : ℕ) : BulkProc Unit := do
  match ← await (.findPayment bulkPaymentId) with
  | none => return ()
  | some bulkPayment =>
    await (.start bulkPaymentId)
    let items ← await (.findItems bulkPaymentId)
    let (successCount, failCount) ← processItems bulkPayment items 0 0
    await (.finish bulkPaymentId (finalStatus successCount failCount) successCount failCount)

end BulkPayments

end NexaFx
