import NexaFx.Lib.Pool
import NexaFx.Model.Wallets

/-!
# NexaFx — the writers of a wallet row

The three writers of `wallet_balances`, statement by statement:
`WalletsService.adjustBalance` (`wallet/wallets.service.ts`) inside
`withTransaction` (`common/helpers/with-transaction.helper.ts`),
`WalletsService.updateCustomization`, and `KeyRotationService.rotate`
(`admin/key-rotation.service.ts`).

* A database transaction publishes its row at `commitTransaction`. The row lock
  of `pessimistic_write` is held from the `findOne` to the commit or rollback;
  an uncommitted insert holds its index entry in the same way.
* A plain `save(entity)` is two statements: the row is read again (`reread`),
  and the columns in which the entity differs from what was read are updated
  (`write`). The update waits for the row lock, the read does not.
* The version column is incremented by every update and compared by nothing, so
  it is left out.

`release` of the query runner returns the connection to the pool; it does not
fail and changes nothing, and is left out too.
-/

namespace NexaFx

open Async Decimal

namespace WalletRows

abbrev WalletKey := UserId × String

/-- `WalletBalance`, what the service returns of a wallet. -/
structure WalletBalance where
  accountId : UserId
  currency : String
  balance : ℤ
  label : Option String
  color : Option String
  deriving DecidableEq

def toBalance (w : Wallet) : WalletBalance :=
  ⟨w.accountId, w.currency, w.balance, w.label, w.color⟩

/-! ## Column by column -/

/-- The columns an update writes; `none` leaves the column alone. -/
structure Changes where
  balance : Option ℤ
  isPrimary : Option Bool
  label : Option (Option String)
  color : Option (Option String)
  keyVersion : Option ℕ
  deriving DecidableEq

def changed {β : Type} [DecidableEq β] (stored value : β) : Option β :=
  if value = stored then none else some value

/-- Nothing to update. -/
def Changes.none : Changes := ⟨.none, .none, .none, .none, .none⟩

/-- The columns in which the entity differs from the stored row. -/
def diff (entity stored : Wallet) : Changes where
  balance := changed stored.balance entity.balance
  isPrimary := changed stored.isPrimary entity.isPrimary
  label := changed stored.label entity.label
  color := changed stored.color entity.color
  keyVersion := changed stored.keyVersion entity.keyVersion

/-- `UPDATE ... SET` of these columns. -/
def Changes.apply (ch : Changes) (w : Wallet) : Wallet :=
  { w with
    balance := ch.balance.getD w.balance
    isPrimary := ch.isPrimary.getD w.isPrimary
    label := ch.label.getD w.label
    color := ch.color.getD w.color
    keyVersion := ch.keyVersion.getD w.keyVersion }

/-! ## The table and its locks -/

structure WalletDb where
  wallets : List Wallet
  /-- The locked keys, each with the call whose database transaction holds it. -/
  locks : List (WalletKey × ℕ)

namespace WalletDb

def row (db : WalletDb) (key : WalletKey) : Option Wallet := Table.get Wallet.key db.wallets key

/-- The stored balance in hundredths; a missing wallet holds nothing. -/
def cents (db : WalletDb) (key : WalletKey) : ℤ := ((db.row key).map Wallet.balance).getD 0

def lockedBy (db : WalletDb) (key : WalletKey) : Option ℕ :=
  (Table.get Prod.fst db.locks key).map Prod.snd

def lock (db : WalletDb) (key : WalletKey) (call : ℕ) : WalletDb :=
  { db with locks := Table.put Prod.fst (key, call) db.locks }

/-- The end of a database transaction releases its locks. -/
def unlock (db : WalletDb) (call : ℕ) : WalletDb :=
  { db with locks := db.locks.filter fun l => decide (l.2 ≠ call) }

def put (db : WalletDb) (w : Wallet) : WalletDb :=
  { db with wallets := Table.put Wallet.key w db.wallets }

end WalletDb

/-! ## Statements -/

inductive RowCmd where
  | startTransaction
  /-- `findOne` with `lock: pessimistic_write`. -/
  | findOneForUpdate (call : ℕ) (key : WalletKey)
  /-- `manager.save` of a wallet just created. -/
  | stageInsert (call : ℕ) (wallet : Wallet)
  /-- `manager.save` of the locked wallet. -/
  | stageUpdate (call : ℕ) (wallet : Wallet)
  | commitTransaction (call : ℕ) (wallet : Wallet)
  | rollbackTransaction (call : ℕ)
  | findOne (key : WalletKey)
  | find
  /-- The read inside `save(entity)`. -/
  | reread (entity : Wallet)
  /-- The write inside `save(entity)`, given what was read. -/
  | write (entity : Wallet) (stored : Option Wallet)
  deriving DecidableEq

@[reducible] def RowCmd.Reply : RowCmd → Type
  | .findOneForUpdate _ _ => Option Wallet
  | .findOne _ => Option Wallet
  | .find => List Wallet
  | .reread _ => Option Wallet
  | _ => Unit

def exec : (c : RowCmd) → WalletDb → Except Err (c.Reply × WalletDb)
  | .startTransaction, db => .ok ((), db)
  | .findOneForUpdate call key, db =>
    match db.row key with
    | none => .ok (none, db)
    | some w => .ok (some w, db.lock key call)
  | .stageInsert call w, db =>
    match db.row w.key with
    | some _ => .error .uniqueViolation
    | none => .ok ((), db.lock w.key call)
  | .stageUpdate _ _, db => .ok ((), db)
  | .commitTransaction call w, db => .ok ((), (db.put w).unlock call)
  | .rollbackTransaction call, db => .ok ((), db.unlock call)
  | .findOne key, db => .ok (db.row key, db)
  | .find, db => .ok (db.wallets, db)
  | .reread entity, db => .ok (db.row entity.key, db)
  | .write entity none, db =>
    match db.row entity.key with
    | some _ => .error .uniqueViolation
    | none => .ok ((), db.put entity)
  | .write entity (some stored), db =>
    match db.row entity.key with
    | none => .ok ((), db)
    | some w => .ok ((), db.put ((diff entity stored).apply w))

/-- A statement that needs a locked row waits; a `save` without changes sends no
update. -/
def ready : RowCmd → WalletDb → Bool
  | .findOneForUpdate _ key, db => (db.row key).isNone || (db.lockedBy key).isNone
  | .stageInsert _ w, db => (db.row w.key).isSome || (db.lockedBy w.key).isNone
  | .write entity none, db => (db.row entity.key).isSome || (db.lockedBy entity.key).isNone
  | .write entity (some stored), db =>
    decide (diff entity stored = .none) || (db.lockedBy entity.key).isNone
  | _, _ => true

/-! ## The services -/

abbrev RowProc := Proc RowCmd RowCmd.Reply Err

abbrev await (c : RowCmd) : RowProc c.Reply := Proc.call c

/-- `withTransaction`; `fn` returns the row it has staged. -/
def withTransaction (call : ℕ) (fn : RowProc Wallet) : RowProc Wallet := do
  await .startTransaction
  let committed : RowProc Wallet := do
    let result ← fn
    await (.commitTransaction call result)
    return result
  match ← committed.attempt with
  | .ok result => return result
  | .error error =>
    await (.rollbackTransaction call)
    Proc.throw error

/-- `wallet.balance = newBalance`. -/
def withBalance (w : Wallet) (newBalance : ℤ) : Wallet := { w with balance := newBalance }

/-- `manager.save(wallet)`: an insert when the wallet was not found. -/
def managerSave (call : ℕ) (found : Option Wallet) (wallet : Wallet) : RowProc Unit :=
  match found with
  | none => await (.stageInsert call wallet)
  | some _ => await (.stageUpdate call wallet)

/-- The body of the database transaction of `adjustBalance`. -/
def adjustRow (call : ℕ) (key : WalletKey) (delta : ℚ) : RowProc Wallet := do
  let found ← await (.findOneForUpdate call key)
  let wallet := found.getD (.create key.1 key.2)
  let newBalance := Db.newBalance wallet.balance delta
  Proc.rejectWhen (newBalance < 0) (.badRequest "Insufficient balance")
  managerSave call found (withBalance wallet newBalance)
  return withBalance wallet newBalance

def getBalance (accountId : UserId) (currency : String) : RowProc WalletBalance := do
  let normalizedCurrency ← Proc.ofExcept (validateCurrency currency)
  match ← await (.findOne (accountId, normalizedCurrency)) with
  | none => return ⟨accountId, normalizedCurrency, 0, none, none⟩
  | some wallet => return toBalance wallet

def adjustBalance (call : ℕ) (accountId : UserId) (currency : String) (delta : ℚ) :
    RowProc WalletBalance := do
  let normalizedCurrency ← Proc.ofExcept (validateCurrency currency)
  if delta = 0 then getBalance accountId normalizedCurrency
  else do
    let saved ← withTransaction call (adjustRow call (accountId, normalizedCurrency) delta)
    return toBalance saved

/-- `walletRepository.save(entity)`. -/
def save (entity : Wallet) : RowProc Unit := do
  let stored ← await (.reread entity)
  await (.write entity stored)

/-- `if (label !== undefined) wallet.label = label`, and the color. -/
def customize (w : Wallet) (label color : Option String) : Wallet :=
  { w with
    label := match label with
      | none => w.label
      | some l => some l
    color := match color with
      | none => w.color
      | some c => some c }

def updateCustomization (accountId : UserId) (currency : String) (label color : Option String) :
    RowProc WalletBalance := do
  let normalizedCurrency ← Proc.ofExcept (validateCurrency currency)
  match ← await (.findOne (accountId, normalizedCurrency)) with
  | none => Proc.throw (.badRequest "Wallet not found")
  | some wallet =>
    save (customize wallet label color)
    return toBalance (customize wallet label color)

/-- What `rotate` returns. -/
structure Rotation where
  total : ℕ
  rotated : ℕ
  skipped : ℕ
  deriving DecidableEq

/-- The loop of `rotate` over the wallets loaded up front. -/
def rotateEach (currentVersion : ℕ) : List Wallet → Rotation → RowProc Rotation
  | [], counts => return counts
  | wallet :: rest, counts =>
    if wallet.keyVersion = currentVersion then
      rotateEach currentVersion rest { counts with skipped := counts.skipped + 1 }
    else do
      save { wallet with keyVersion := currentVersion }
      rotateEach currentVersion rest { counts with rotated := counts.rotated + 1 }

def rotate (currentVersion : ℕ) : RowProc Rotation := do
  let all ← await .find
  rotateEach currentVersion all ⟨all.length, 0, 0⟩

/-! ## The server -/

inductive WalletCall where
  | adjustBalance (accountId : UserId) (currency : String) (delta : ℚ)
  | updateCustomization (accountId : UserId) (currency : String) (label color : Option String)
  | rotate (currentVersion : ℕ)
  deriving DecidableEq

inductive Answer where
  | balance (b : WalletBalance)
  | rotation (r : Rotation)
  deriving DecidableEq

def prog (i : ℕ) : WalletCall → RowProc Answer
  | .adjustBalance accountId currency delta => do
    return .balance (← adjustBalance i accountId currency delta)
  | .updateCustomization accountId currency label color => do
    return .balance (← updateCustomization accountId currency label color)
  | .rotate currentVersion => do return .rotation (← rotate currentVersion)

/-- All writers of wallet rows, interleaved at every statement; every statement
may fail. -/
def server : System WalletCall RowCmd RowCmd.Reply Err WalletDb Answer where
  prog := prog
  exec := exec
  ready := ready

abbrev RowConfig := Config WalletCall RowCmd RowCmd.Reply Err WalletDb Answer

abbrev RowThread := Thread WalletCall RowCmd RowCmd.Reply Err Answer

/-- No call has been made and no row is locked. -/
def start (wallets : List Wallet) : RowConfig := ⟨⟨wallets, []⟩, []⟩

/-! ## What the statements change -/

namespace WalletDb

variable (db : WalletDb) (w : Wallet) (key key' : WalletKey) (call : ℕ)

theorem row_put : (db.put w).row key = if w.key = key then some w else db.row key :=
  Table.get_put ..

theorem cents_put : (db.put w).cents key = if w.key = key then w.balance else db.cents key := by
  unfold cents
  rw [row_put]
  split <;> rfl

@[simp] theorem row_lock : (db.lock key call).row key' = db.row key' := rfl
@[simp] theorem row_unlock : (db.unlock call).row key = db.row key := rfl
@[simp] theorem cents_lock : (db.lock key call).cents key' = db.cents key' := rfl
@[simp] theorem cents_unlock : (db.unlock call).cents key = db.cents key := rfl
@[simp] theorem lockedBy_put : (db.put w).lockedBy key = db.lockedBy key := rfl

theorem lockedBy_lock :
    (db.lock key call).lockedBy key' = if key = key' then some call else db.lockedBy key' := by
  unfold lockedBy lock
  rw [Table.get_put]
  split <;> rfl

/-- The locks of the other database transactions stay. -/
theorem lockedBy_unlock {db : WalletDb} {key : WalletKey} {call j : ℕ}
    (h : db.lockedBy key = some j) (hj : j ≠ call) : (db.unlock call).lockedBy key = some j := by
  unfold lockedBy at h ⊢
  obtain ⟨l, hl, rfl⟩ := Option.map_eq_some_iff.mp h
  have hkeep : Table.get Prod.fst (db.unlock call).locks key = some l :=
    Table.get_filter _ hl (by simpa using hj)
  rw [hkeep]
  rfl

theorem cents_of_row {db : WalletDb} {key : WalletKey} {w : Wallet} (h : db.row key = some w) :
    db.cents key = w.balance := by
  rw [cents, h]
  rfl

theorem key_of_row {db : WalletDb} {key : WalletKey} {w : Wallet} (h : db.row key = some w) :
    w.key = key :=
  Table.key_of_get _ h

end WalletDb

theorem apply_none (w : Wallet) : Changes.none.apply w = w := rfl

theorem apply_key (ch : Changes) (w : Wallet) : (ch.apply w).key = w.key := rfl

/-- An entity with the stored balance leaves the balance column alone. -/
theorem apply_diff_balance {entity stored : Wallet} (h : stored.balance = entity.balance)
    (w : Wallet) : ((diff entity stored).apply w).balance = w.balance := by
  simp [Changes.apply, diff, changed, h]

/-! ## One call alone -/

section Alone

open Proc

/-- A database transaction that ends leaves no lock behind. -/
theorem unlock_put_lock (ws : List Wallet) (key : WalletKey) (w : Wallet) (call : ℕ) :
    ((WalletDb.lock ⟨ws, []⟩ key call).put w).unlock call = ⟨Table.put Wallet.key w ws, []⟩ := by
  simp [WalletDb.lock, WalletDb.unlock, WalletDb.put, Table.put]

theorem unlock_lock (ws : List Wallet) (key : WalletKey) (call : ℕ) :
    (WalletDb.lock ⟨ws, []⟩ key call).unlock call = ⟨ws, []⟩ := by
  simp [WalletDb.lock, WalletDb.unlock, Table.put]

theorem unlock_nil (ws : List Wallet) (call : ℕ) :
    WalletDb.unlock ⟨ws, []⟩ call = ⟨ws, []⟩ := rfl

theorem toBalance_withBalance (w : Wallet) (b : ℤ) : (toBalance (withBalance w b)).balance = b :=
  rfl

theorem moveBalance_wallets (db : Db) (call : ℕ) (tx : TxId) (w : Wallet) (b : ℤ) :
    (db.moveBalance call tx w b).wallets = Table.put Wallet.key (withBalance w b) db.wallets := rfl

/-- **Alone, `adjustBalance` is the atomic step of `Db.adjustBalance`.** -/
theorem adjustBalance_alone (db : Db) (i : ℕ) (tx : TxId) (accountId : UserId)
    (currency : String) {delta : ℚ} (hz : delta ≠ 0) :
    ((adjustBalance i accountId currency delta).run exec noFault ⟨db.wallets, []⟩).1.map
        WalletBalance.balance = (db.adjustBalance i tx accountId currency delta).map Prod.fst ∧
    ((adjustBalance i accountId currency delta).run exec noFault ⟨db.wallets, []⟩).2 =
      ⟨(match db.adjustBalance i tx accountId currency delta with
        | .ok (_, db') => db'.wallets
        | .error _ => db.wallets), []⟩ := by
  unfold adjustBalance Db.adjustBalance
  cases hcur : validateCurrency currency with
  | error e => exact ⟨rfl, rfl⟩
  | ok cur =>
    simp only [if_neg hz, Proc.ofExcept, bind_eq, done_ok_bind]
    have hrow : WalletDb.row ⟨db.wallets, []⟩ (accountId, cur) = db.wallet accountId cur := rfl
    cases hw : db.wallet accountId cur with
    | none =>
      rw [hw] at hrow
      have hinsert : ∀ b, WalletDb.row ⟨db.wallets, []⟩
          (withBalance (Wallet.create accountId cur) b).key = none := fun _ => hrow
      by_cases hneg : Db.newBalance (Wallet.create accountId cur).balance delta < 0
      · simp [withTransaction, adjustRow, rejectWhen_pos, Proc.throw, Proc.call, Proc.run, noFault,
          exec, hrow, hneg, unlock_nil, Except.map]
      · simp [withTransaction, adjustRow, managerSave, rejectWhen_neg, Proc.call, Proc.run, noFault,
          exec, hrow, hneg, hinsert, unlock_put_lock, Except.map, toBalance_withBalance,
          moveBalance_wallets]
    | some w =>
      rw [hw] at hrow
      by_cases hneg : Db.newBalance w.balance delta < 0
      · simp [withTransaction, adjustRow, rejectWhen_pos, Proc.throw, Proc.call, Proc.run, noFault,
          exec, hrow, hneg, unlock_lock, Except.map]
      · simp [withTransaction, adjustRow, managerSave, rejectWhen_neg, Proc.call, Proc.run, noFault,
          exec, hrow, hneg, unlock_put_lock, Except.map, toBalance_withBalance, moveBalance_wallets]

end Alone

end WalletRows

end NexaFx
