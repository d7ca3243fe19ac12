import NexaFx.Lib.Pool
import NexaFx.Model.Database

/-!
# NexaFx — admin approvals

`requestAdminApproval`, `approveAdminRequest` and the two methods that it
executes, of `admin/admin.service.ts`, await by await.

`actionData` has the fields that either action reads. Ghost are `log`, the saves
of a call that approves, with what was executed and for which request, and the
`Origin`s that commands carry for it.
-/

namespace NexaFx

open Async

namespace Admin

-- ---------------------------------------------------------------------------
-- The tables
-- ---------------------------------------------------------------------------

inductive AdminApprovalStatus where
  | pending
  | approved
  | rejected
  deriving DecidableEq, Repr

structure ActionData where
  transactionId : ℕ
  newStatus : TransactionStatus
  targetUserId : UserId
  isActive : Bool
  reason : Option String
  deriving DecidableEq

structure AdminApproval where
  id : ℕ
  actionType : String
  actionData : ActionData
  requestedBy : UserId
  approvedBy : Option UserId
  status : AdminApprovalStatus
  deriving DecidableEq

structure Transaction where
  id : ℕ
  status : TransactionStatus
  amount : ℚ
  currency : String
  senderId : UserId
  receiverId : UserId
  reference : String
  deriving DecidableEq

structure User where
  id : UserId
  isActive : Bool
  role : String
  kycStatus : String
  email : String
  deriving DecidableEq

/-- What an audit event says of the entity, before and after. -/
inductive Snapshot where
  | transaction (status : TransactionStatus) (amount : ℚ) (currency : String)
      (senderId receiverId : UserId) (reference : String)
  | user (isActive : Bool) (role kycStatus email : String)
  deriving DecidableEq

def Transaction.snapshot (tx : Transaction) : Snapshot :=
  .transaction tx.status tx.amount tx.currency tx.senderId tx.receiverId tx.reference

def User.snapshot (user : User) : Snapshot :=
  .user user.isActive user.role user.kycStatus user.email

structure AuditEvent where
  userId : UserId
  action : String
  entityType : String
  entityId : ℕ
  before : Snapshot
  after : Snapshot
  reason : Option String
  deriving DecidableEq

-- ---------------------------------------------------------------------------
-- What is executed
-- ---------------------------------------------------------------------------

inductive Action where
  | overrideTransactionStatus (transactionId : ℕ) (newStatus : TransactionStatus)
      (reason : Option String)
  | updateUserStatus (targetUserId : UserId) (isActive : Bool) (reason : Option String)
  deriving DecidableEq

/-- Which call executes an action, and for which request. -/
structure Origin where
  call : ℕ
  approvalId : ℕ
  deriving DecidableEq

structure Execution where
  origin : Origin
  adminUserId : UserId
  action : Action
  deriving DecidableEq

inductive AdminEvent where
  /-- The request is stored as APPROVED. -/
  | approved (origin : Origin)
  /-- The target of the action is stored. -/
  | executed (execution : Execution)
  deriving DecidableEq

def AdminEvent.origin : AdminEvent → Origin
  | .approved origin => origin
  | .executed execution => execution.origin

structure AdminDb where
  approvals : List AdminApproval
  transactions : List Transaction
  users : List User
  audit : List AuditEvent
  log : List AdminEvent

namespace AdminDb

def approval (db : AdminDb) (id : ℕ) : Option AdminApproval :=
  Table.get AdminApproval.id db.approvals id

def transaction (db : AdminDb) (id : ℕ) : Option Transaction :=
  Table.get Transaction.id db.transactions id

def user (db : AdminDb) (id : UserId) : Option User := Table.get User.id db.users id

end AdminDb

-- ---------------------------------------------------------------------------
-- Commands
-- ---------------------------------------------------------------------------

inductive AdminCmd where
  /-- `create` and `save` of a request, whose key is new. -/
  | insertApproval (id : ℕ) (actionType : String) (actionData : ActionData) (requestedBy : UserId)
  | findApproval (id : ℕ)
  /-- `save` of the loaded request. -/
  | saveApproval (call : ℕ) (approval : AdminApproval)
  | findTransaction (origin : Origin) (id : ℕ)
  | saveTransaction (transaction : Transaction) (execution : Execution)
  | findUser (origin : Origin) (id : UserId)
  | saveUser (user : User) (execution : Execution)
  | audit (event : AuditEvent)
  deriving DecidableEq

@[reducible] def AdminCmd.Reply : AdminCmd → Type
  | .insertApproval .. | .saveApproval .. => AdminApproval
  | .findApproval _ => Option AdminApproval
  | .findTransaction .. => Option Transaction
  | .saveTransaction .. => Transaction
  | .findUser .. => Option User
  | .saveUser .. => User
  | .audit _ => Unit

structure Thrown where
  message : String
  deriving DecidableEq

/-- The request as it is stored, with the column defaults. -/
def newApproval (id : ℕ) (actionType : String) (actionData : ActionData) (requestedBy : UserId) :
    AdminApproval where
  id := id
  actionType := actionType
  actionData := actionData
  requestedBy := requestedBy
  approvedBy := none
  status := .pending

def exec : (c : AdminCmd) → AdminDb → Except Thrown (c.Reply × AdminDb)
  | .insertApproval id actionType actionData requestedBy, db =>
    if (db.approval id).isSome then .error ⟨"duplicate key value"⟩
    else .ok (newApproval id actionType actionData requestedBy, { db with
      approvals := Table.put AdminApproval.id (newApproval id actionType actionData requestedBy)
        db.approvals })
  | .findApproval id, db => .ok (db.approval id, db)
  | .saveApproval call approval, db =>
    .ok (approval, { db with
      approvals := Table.put AdminApproval.id approval db.approvals
      log := db.log ++ [.approved ⟨call, approval.id⟩] })
  | .findTransaction _ id, db => .ok (db.transaction id, db)
  | .saveTransaction transaction execution, db =>
    .ok (transaction, { db with
      transactions := Table.put Transaction.id transaction db.transactions
      log := db.log ++ [.executed execution] })
  | .findUser _ id, db => .ok (db.user id, db)
  | .saveUser user execution, db =>
    .ok (user, { db with
      users := Table.put User.id user db.users
      log := db.log ++ [.executed execution] })
  | .audit event, db => .ok ((), { db with audit := db.audit ++ [event] })

-- ---------------------------------------------------------------------------
-- The service
-- ---------------------------------------------------------------------------

abbrev AdminProc := Proc AdminCmd AdminCmd.Reply Thrown

abbrev await (c : AdminCmd) : AdminProc c.Reply := Proc.call c

def overrideTransactionStatus (origin : Origin) (transactionId : ℕ) (newStatus : TransactionStatus)
    (adminUserId : UserId) (reason : Option String) : AdminProc Transaction := do
  match ← await (.findTransaction origin transactionId) with
  | none => Proc.throw ⟨"Transaction " ++ toString transactionId ++ " not found"⟩
  | some transaction =>
    let updated ← await (.saveTransaction { transaction with status := newStatus }
      ⟨origin, adminUserId, .overrideTransactionStatus transactionId newStatus reason⟩)
    await (.audit {
      userId := adminUserId
      action := "admin.transaction.status_override"
      entityType := "transaction"
      entityId := transactionId
      before := transaction.snapshot
      after := updated.snapshot
      reason := reason })
    return updated

def updateUserStatus (origin : Origin) (targetUserId : UserId) (isActive : Bool)
    (adminUserId : UserId) (reason : Option String) : AdminProc User := do
  match ← await (.findUser origin targetUserId) with
  | none => Proc.throw ⟨"User " ++ toString targetUserId ++ " not found"⟩
  | some user =>
    let updated ← await (.saveUser { user with isActive := isActive }
      ⟨origin, adminUserId, .updateUserStatus targetUserId isActive reason⟩)
    await (.audit {
      userId := adminUserId
      action := if isActive then "admin.user.activated" else "admin.user.suspended"
      entityType := "user"
      entityId := targetUserId
      before := user.snapshot
      after := updated.snapshot
      reason := reason })
    return updated

def requestAdminApproval (i : ℕ) (actionType : String) (actionData : ActionData)
    (requestedBy : UserId) : AdminProc AdminApproval :=
  await (.insertApproval i actionType actionData requestedBy)

/-- What is done for a request that has been approved. -/
def execute (i : ℕ) (saved : AdminApproval) (approvedBy : UserId) : AdminProc Unit := do
  if saved.actionType = "override_transaction_status" then
    let _ ← overrideTransactionStatus ⟨i, saved.id⟩ saved.actionData.transactionId
      saved.actionData.newStatus approvedBy saved.actionData.reason
  else if saved.actionType = "update_user_status" then
    let _ ← updateUserStatus ⟨i, saved.id⟩ saved.actionData.targetUserId
      saved.actionData.isActive approvedBy saved.actionData.reason

def approveAdminRequest (i approvalId : ℕ) (approvedBy : UserId) : AdminProc AdminApproval := do
  match ← await (.findApproval approvalId) with
  | none => Proc.throw ⟨"Approval request " ++ toString approvalId ++ " not found"⟩
  | some approval =>
    Proc.rejectWhen (approval.status ≠ .pending) ⟨"Approval is not pending"⟩
    Proc.rejectWhen (approval.requestedBy = approvedBy) ⟨"Admin cannot approve their own request"⟩
    let saved ← await (.saveApproval i
      { approval with status := .approved, approvedBy := some approvedBy })
    execute i saved approvedBy
    return saved

-- ---------------------------------------------------------------------------
-- All calls
-- ---------------------------------------------------------------------------

inductive AdminCall where
  | requestAdminApproval (actionType : String) (actionData : ActionData) (requestedBy : UserId)
  | approveAdminRequest (approvalId : ℕ) (approvedBy : UserId)
  deriving DecidableEq

def prog (i : ℕ) : AdminCall → AdminProc AdminApproval
  | .requestAdminApproval actionType actionData requestedBy =>
    requestAdminApproval i actionType actionData requestedBy
  | .approveAdminRequest approvalId approvedBy => approveAdminRequest i approvalId approvedBy

/-- All calls, interleaved at every await. -/
def server : System AdminCall AdminCmd AdminCmd.Reply Thrown AdminDb AdminApproval where
  prog := prog
  exec := exec

abbrev AdminPool := Config AdminCall AdminCmd AdminCmd.Reply Thrown AdminDb AdminApproval

end Admin

end NexaFx
