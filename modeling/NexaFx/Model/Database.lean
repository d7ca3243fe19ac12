import NexaFx.Lib.Decimal
import NexaFx.Lib.Table
import NexaFx.Model.Currency

/-!
# NexaFx — the shared state

The tables and in-memory data that the transaction services read and write.

* Amounts are exact decimals (`ℚ`); a wallet balance is a `decimal(20,2)`
  column and is kept as its integer number of hundredths.
* `uuid` keys are natural numbers. The key of a transaction is the identity of
  the call that creates it, so it is fresh by construction.
* Time is in milliseconds since the epoch.

`moves` is the one ghost field: the log of every committed change of a wallet
balance with the call that made it and the transaction in whose name it was
made. Nothing in the program reads it; it is what "the balance effect of a
transaction" refers to.
-/

namespace NexaFx

abbrev UserId := ℕ
abbrev TxId := ℕ
abbrev Time := ℕ

/-! ## Entities -/

/-- `TransactionStatus`. -/
inductive TransactionStatus where
  | pending
  | completed
  | failed
  | reversed
  | cancelled
  deriving DecidableEq, Repr

/-- The `metadata` column: what the service itself writes into it, by kind of
transaction. What a client adds to it is read by nothing modelled here. -/
inductive Metadata where
  | transfer
  | deposit
  | withdrawal (destinationAddress : String)
  | swap (toAmount : ℚ) (toCurrency : String)
  | reversal (reversalOf : TxId) (reason : String)
  deriving DecidableEq

/-- A row of `transactions`. -/
structure Transaction where
  id : TxId
  senderId : UserId
  receiverId : UserId
  amount : ℚ
  currency : String
  fee : ℚ
  status : TransactionStatus
  reference : String
  receiptNumber : Option String
  metadata : Metadata
  createdAt : Time
  completedAt : Option Time
  reversedAt : Option Time
  pendingTimeoutAt : Option Time
  reversedBy : Option UserId
  reversalReason : Option String
  reversalTransactionId : Option TxId
  retryCount : ℕ
  deriving DecidableEq

/-- The `createdAt` column is filled in by the insert. -/
def Transaction.stamp (tx : Transaction) (t : Time) : Transaction := { tx with createdAt := t }

/-- A row of `wallet_balances`; `balance` counts hundredths. -/
structure Wallet where
  accountId : UserId
  currency : String
  balance : ℤ
  isPrimary : Bool
  label : Option String
  color : Option String
  keyVersion : ℕ
  deriving DecidableEq

/-- The unique index of `wallet_balances`. -/
def Wallet.key (w : Wallet) : UserId × String := (w.accountId, w.currency)

/-- A wallet as `manager.create` makes it, with the column defaults. -/
def Wallet.create (accountId : UserId) (currency : String) : Wallet where
  accountId := accountId
  currency := currency
  balance := 0
  isPrimary := false
  label := none
  color := none
  keyVersion := 1

/-- A row of `fee_records`. -/
structure FeeRecord where
  transactionId : TxId
  userId : UserId
  transactionType : String
  amount : ℚ
  feeAmount : ℚ
  currency : String
  reason : Option String
  deriving DecidableEq

/-- A row of `fx_trades`. -/
structure FxTrade where
  id : ℕ
  userId : UserId
  fromCurrency : String
  toCurrency : String
  fromAmount : ℚ
  toAmount : ℚ
  rate : ℚ
  executedAt : Time
  reversedAt : Option Time
  deriving DecidableEq

/-- One committed change of a wallet balance, in hundredths. -/
structure Move where
  call : ℕ
  tx : TxId
  account : UserId
  currency : String
  cents : ℤ
  deriving DecidableEq

/-- The keys of the Redis locks. -/
inductive LockKey where
  | scheduledJob (jobName : String)
  | txProcessing (id : TxId)
  deriving DecidableEq

/-- Net change of a wallet by the moves of a log that satisfy `p`. -/
def Move.net (ms : List Move) (p : Move → Bool) (accountId : UserId) (currency : String) : ℤ :=
  ((ms.filter fun m => p m && decide (m.account = accountId ∧ m.currency = currency)).map
    Move.cents).sum

theorem Move.net_append (ms ms' : List Move) (p : Move → Bool) (a : UserId) (c : String) :
    Move.net (ms ++ ms') p a c = Move.net ms p a c + Move.net ms' p a c := by
  simp [Move.net]

theorem Move.net_singleton (m : Move) (p : Move → Bool) (a : UserId) (c : String) :
    Move.net [m] p a c =
      if p m = true ∧ m.account = a ∧ m.currency = c then m.cents else 0 := by
  unfold Move.net
  by_cases h : p m = true ∧ m.account = a ∧ m.currency = c
  · rw [if_pos h, List.filter_cons_of_pos (by simpa using h)]
    simp
  · rw [if_neg h, List.filter_cons_of_neg (by simpa using h)]
    rfl

/-- Settings read from the environment. -/
structure Settings where
  singleTxLimitUsd : ℚ := 25000
  dailyLimitUsd : ℚ := 50000
  monthlyLimitUsd : ℚ := 500000
  pendingTxTimeoutMinutes : ℕ := 30
  lockTtlMs : ℕ := 300000

structure Db where
  settings : Settings
  wallets : List Wallet
  transactions : List Transaction
  feeRecords : List FeeRecord
  /-- The user has accepted the current terms. -/
  termsAccepted : UserId → Bool
  deactivated : UserId → Bool
  userExists : UserId → Bool
  /-- The Stellar account exists. -/
  accountFunded : String → Bool
  /-- The rate to USD that the rate service would return. -/
  usdRate : String → Option ℚ
  /-- The limit accumulators, by UTC day and by UTC month. -/
  dailyTotals : UserId → ℕ → ℚ
  monthlyTotals : UserId → ℕ → ℚ
  /-- `transaction_receipt_seq`. -/
  receiptSeq : ℕ
  /-- The Redis locks, with their expiry. -/
  locks : List (LockKey × Time)
  now : Time
  moves : List Move

/-- A deployment with the default settings, on which nothing has happened yet:
every user exists and has accepted the terms. -/
def Db.deployed (wallets : List Wallet) : Db where
  settings := {}
  wallets := wallets
  transactions := []
  feeRecords := []
  termsAccepted := fun _ => true
  deactivated := fun _ => false
  userExists := fun _ => true
  accountFunded := fun _ => true
  usdRate := fun _ => none
  dailyTotals := fun _ _ => 0
  monthlyTotals := fun _ _ => 0
  receiptSeq := 0
  locks := []
  now := 1767225600000
  moves := []

/-! ## The calendar -/

/-- UTC day number of an instant. -/
def dayOf (t : Time) : ℕ := t / 86400000

/-- Year and month of a day number (proleptic Gregorian calendar). -/
def civil (day : ℕ) : ℕ × ℕ :=
  let z := day + 719468
  let era := z / 146097
  let doe := z % 146097
  let yoe := (doe - doe / 1460 + doe / 36524 - doe / 146096) / 365
  let doy := doe - (365 * yoe + yoe / 4 - yoe / 100)
  let mp := (5 * doy + 2) / 153
  let month := if mp < 10 then mp + 3 else mp - 9
  (yoe + era * 400 + (if month ≤ 2 then 1 else 0), month)

def yearOf (t : Time) : ℕ := (civil (dayOf t)).1

/-- The month an instant lies in, numbered through. -/
def monthOf (t : Time) : ℕ := (civil (dayOf t)).1 * 12 + (civil (dayOf t)).2

example : civil 0 = (1970, 1) := by decide
example : civil 19782 = (2024, 2) := by decide

/-! ## Lookups -/

namespace Db

/-- `findOne({ where: { id } })` on `transactions`. -/
def transaction (db : Db) (id : TxId) : Option Transaction :=
  Table.get Transaction.id db.transactions id

/-- `findOne({ where: { accountId, currency } })` on `wallet_balances`. -/
def wallet (db : Db) (accountId : UserId) (currency : String) : Option Wallet :=
  Table.get Wallet.key db.wallets (accountId, currency)

/-- The stored balance in hundredths; a missing wallet holds nothing. -/
def cents (db : Db) (accountId : UserId) (currency : String) : ℤ :=
  ((db.wallet accountId currency).map Wallet.balance).getD 0

/-- Write a row over the stored one, or insert it. -/
def putTransaction (db : Db) (tx : Transaction) : Db :=
  { db with transactions := Table.put Transaction.id tx db.transactions }

/-- The unique indexes on `reference` and `receiptNumber`. -/
def violatesUnique (db : Db) (tx : Transaction) : Bool :=
  db.transactions.any fun r =>
    decide (r.id ≠ tx.id) &&
      (decide (r.reference = tx.reference) ||
        (r.receiptNumber.isSome && decide (r.receiptNumber = tx.receiptNumber)))

/-- Net change of a wallet by the logged moves that satisfy `p`. -/
def net (db : Db) (p : Move → Bool) : UserId → String → ℤ := Move.net db.moves p

/-- Net change of a wallet by call `i`. -/
def netOf (db : Db) (i : ℕ) : UserId → String → ℤ := db.net fun m => decide (m.call = i)

/-! ### What a written transaction changes -/

theorem transaction_put (db : Db) (tx : Transaction) (id : TxId) :
    (db.putTransaction tx).transaction id =
      if tx.id = id then some tx else db.transaction id :=
  Table.get_put ..

@[simp] theorem putTransaction_wallets (db : Db) (tx : Transaction) :
    (db.putTransaction tx).wallets = db.wallets := rfl
@[simp] theorem putTransaction_moves (db : Db) (tx : Transaction) :
    (db.putTransaction tx).moves = db.moves := rfl
@[simp] theorem putTransaction_cents (db : Db) (tx : Transaction) (a : UserId) (c : String) :
    (db.putTransaction tx).cents a c = db.cents a c := rfl
@[simp] theorem putTransaction_netOf (db : Db) (tx : Transaction) (i : ℕ) :
    (db.putTransaction tx).netOf i = db.netOf i := rfl

end Db

end NexaFx
