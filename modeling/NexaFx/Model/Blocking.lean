import NexaFx.Model.Fx
import NexaFx.Model.Transactions

/-!
# NexaFx — blocked users

The two registries that block a user (`user-deactivation.service.ts` and
`account-freeze.service.ts`) beside the five operations that move a user's
money: `transfer`, `createInternalTransfer`, `createWithdrawal`, `createSwap`
of `transactions.service.ts` and `executeTrade` of `fx.service.ts`.

The two services work on one database. Their commands are those of
`MoneyCmd`, and each operation is its own program with its commands read as
those (`Proc.embed`). None of the five writes to a registry.
-/

namespace NexaFx

open Async

-- ---------------------------------------------------------------------------
-- The registries
-- ---------------------------------------------------------------------------

/-- A row of `user_deactivations`. -/
structure UserDeactivation where
  userId : UserId
  isActive : Bool
  deriving DecidableEq

/-- A row of `account_freezes`. -/
structure AccountFreeze where
  userId : UserId
  isActive : Bool
  deriving DecidableEq

/-- `findOne({ where: { userId, isActive: true } })` has found a row. -/
def isUserDeactivated (rows : List UserDeactivation) (userId : UserId) : Bool :=
  (rows.find? fun r => decide (r.userId = userId) && r.isActive).isSome

/-- `findOne({ where: { userId, isActive: true } })` has found a row. -/
def isAccountFrozen (rows : List AccountFreeze) (userId : UserId) : Bool :=
  (rows.find? fun r => decide (r.userId = userId) && r.isActive).isSome

/-- The database of the two services, with the registries and the users. What
`isUserDeactivated` answers is what the deactivations say. -/
structure Platform where
  fx : Fx.FxDb
  deactivations : List UserDeactivation
  freezes : List AccountFreeze
  /-- `usersService.findByEmail`. -/
  userByEmail : String → Option UserId
  registered : fx.db.deactivated = isUserDeactivated deactivations

/-- One of the registries blocks the user. -/
def Platform.Blocked (p : Platform) (userId : UserId) : Prop :=
  isUserDeactivated p.deactivations userId = true ∨ isAccountFrozen p.freezes userId = true

-- ---------------------------------------------------------------------------
-- The operations
-- ---------------------------------------------------------------------------

inductive MoneyCmd where
  | findByEmail (email : String)
  | tx (c : Cmd)
  | fx (c : Fx.FxCmd)
  deriving DecidableEq

@[reducible] def MoneyCmd.Reply : MoneyCmd → Type
  | .findByEmail _ => Option UserId
  | .tx c => c.Reply
  | .fx c => c.Reply

/-- The atomic effect of each command; `users` is `findByEmail`. -/
def MoneyCmd.exec (users : String → Option UserId) :
    (c : MoneyCmd) → Fx.FxDb → Except Err (c.Reply × Fx.FxDb)
  | .findByEmail email, st => .ok (users email, st)
  | .tx c, st =>
    match NexaFx.exec c st.db with
    | .error e => .error e
    | .ok (a, db) => .ok (a, { st with db := db })
  | .fx c, st => Fx.exec c st

abbrev MoneyProc := Proc MoneyCmd MoneyCmd.Reply Err

abbrev awaitMoney (c : MoneyCmd) : MoneyProc c.Reply := Proc.call c

/-- The body of `createInternalTransfer`. -/
structure InternalTransferDto where
  senderId : UserId
  recipientEmail : String
  amount : ℚ
  currency : String
  deriving DecidableEq

/-- What `createInternalTransfer` hands to `transfer`. -/
def InternalTransferDto.toTransfer (dto : InternalTransferDto) (receiverId : UserId) (t : Time) :
    TransferDto where
  senderId := dto.senderId
  receiverId := receiverId
  amount := dto.amount
  currency := dto.currency
  reference := "int_" ++ toString t

def createInternalTransfer (i : ℕ) (dto : InternalTransferDto) : MoneyProc Unit := do
  match ← awaitMoney (.findByEmail dto.recipientEmail) with
  | none =>
    Proc.throw (.notFound ("Recipient with email " ++ dto.recipientEmail ++ " not found"))
  | some receiverId =>
    let t ← awaitMoney (.tx .now)
    (transfer i (dto.toTransfer receiverId t)).embed .tx (fun _ a => a) fun _ => ()

/-- A call that moves money of the user who makes it. -/
inductive MoneyCall where
  | transfer (dto : TransferDto)
  | internalTransfer (dto : InternalTransferDto)
  | withdrawal (dto : WithdrawalDto)
  | swap (dto : SwapDto)
  | trade (dto : Fx.ExecuteTradeDto)
  deriving DecidableEq

namespace MoneyCall

/-- Whose money it is. -/
def userId : MoneyCall → UserId
  | transfer dto => dto.senderId
  | internalTransfer dto => dto.senderId
  | withdrawal dto => dto.userId
  | swap dto => dto.userId
  | trade dto => dto.userId

/-- The method behind the call. -/
def prog (i : ℕ) : MoneyCall → MoneyProc Unit
  | transfer dto => (NexaFx.transfer i dto).embed .tx (fun _ a => a) fun _ => ()
  | internalTransfer dto => createInternalTransfer i dto
  | withdrawal dto => (createWithdrawal i dto).embed .tx (fun _ a => a) fun _ => ()
  | swap dto => (createSwap i dto).embed .tx (fun _ a => a) fun _ => ()
  | trade dto => (Fx.executeTrade i dto).embed .fx (fun _ a => a) fun _ => ()

end MoneyCall

/-- How the call `i` ends, and what it leaves, when `φ` fails. -/
def Platform.make (p : Platform) (i : ℕ) (call : MoneyCall) (φ : MoneyCmd → Option Err) :
    Except Err Unit × Fx.FxDb :=
  (call.prog i).run (MoneyCmd.exec p.userByEmail) φ p.fx

end NexaFx
