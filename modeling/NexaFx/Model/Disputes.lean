import NexaFx.Lib.Pool
import NexaFx.Model.Database

/-!
# NexaFx — disputes

`disputes/disputes.service.ts`, await by await. The service keeps two kinds of
rows, each with its own transitions: `Dispute` (`openDispute`, `resolveDispute`,
`autoCloseStaleDisputes`) and `DisputeEntity` (`fileDispute`, `escalate`,
`resolve`, `reject`). A `save` writes the loaded fields over the stored row. The
keys of new rows are generated by the database.
-/

namespace NexaFx

open Async

namespace Disputes

-- ---------------------------------------------------------------------------
-- The tables
-- ---------------------------------------------------------------------------

/-- The status of a `Dispute`. -/
inductive DisputeStatus where
  | opened
  | underReview
  | resolved
  | rejected
  deriving DecidableEq, Repr

def DisputeStatus.closed : DisputeStatus → Bool
  | .resolved | .rejected => true
  | _ => false

structure Dispute where
  id : ℕ
  transactionId : TxId
  userId : UserId
  reason : String
  status : DisputeStatus
  resolution : Option String
  createdAt : ℕ
  resolvedAt : Option ℕ
  deriving DecidableEq

/-- The status of a `DisputeEntity`. -/
inductive EntityStatus where
  | opened
  | underReview
  | escalated
  | resolved
  | rejected
  deriving DecidableEq, Repr

def EntityStatus.closed : EntityStatus → Bool
  | .resolved | .rejected => true
  | _ => false

structure DisputeEntity where
  id : ℕ
  userId : UserId
  transactionId : TxId
  reason : String
  description : Option String
  status : EntityStatus
  assignedTo : Option UserId
  escalationLevel : ℕ
  resolvedAt : Option ℕ
  deriving DecidableEq

structure DisputeMessageEntity where
  disputeId : ℕ
  senderId : UserId
  senderRole : String
  message : String
  deriving DecidableEq

structure FileDisputeDto where
  transactionId : TxId
  reason : String
  description : Option String
  deriving DecidableEq

structure OpenDisputeDto where
  transactionId : TxId
  userId : UserId
  reason : String
  deriving DecidableEq

structure DisputesDb where
  transactions : List (TxId × TransactionStatus)
  disputes : List Dispute
  entities : List DisputeEntity
  messages : List DisputeMessageEntity
  now : ℕ
  /-- `id` is the primary key of the disputes. -/
  keyed : (disputes.map Dispute.id).Nodup

namespace DisputesDb

def transactionStatus (db : DisputesDb) (id : TxId) : Option TransactionStatus :=
  (Table.get Prod.fst db.transactions id).map Prod.snd

def dispute (db : DisputesDb) (id : ℕ) : Option Dispute := Table.get Dispute.id db.disputes id

def entity (db : DisputesDb) (id : ℕ) : Option DisputeEntity :=
  Table.get DisputeEntity.id db.entities id

/-- The row of a dispute that is opened. -/
def freshDispute (db : DisputesDb) (dto : OpenDisputeDto) : Dispute where
  id := Table.freshKey (db.disputes.map Dispute.id)
  transactionId := dto.transactionId
  userId := dto.userId
  reason := dto.reason
  status := .opened
  resolution := none
  createdAt := db.now
  resolvedAt := none

def insertDispute (db : DisputesDb) (dto : OpenDisputeDto) : DisputesDb :=
  { db with
    disputes := db.disputes ++ [db.freshDispute dto]
    keyed := Table.nodup_concat Dispute.id db.keyed (Table.freshKey_notMem _) }

def saveDispute (db : DisputesDb) (d : Dispute) : DisputesDb :=
  { db with
    disputes := Table.put Dispute.id d db.disputes
    keyed := Table.nodup_put Dispute.id db.keyed }

/-- `find` of the disputes that are open or under review, created before `cutoff`. -/
def stale (db : DisputesDb) (cutoff : ℤ) : List Dispute :=
  db.disputes.filter fun d => !d.status.closed && decide ((d.createdAt : ℤ) < cutoff)

/-- The row of a dispute that is filed. -/
def freshEntity (db : DisputesDb) (userId : UserId) (dto : FileDisputeDto) : DisputeEntity where
  id := Table.freshKey (db.entities.map DisputeEntity.id)
  userId := userId
  transactionId := dto.transactionId
  reason := dto.reason
  description := dto.description
  status := .opened
  assignedTo := none
  escalationLevel := 1
  resolvedAt := none

def insertEntity (db : DisputesDb) (userId : UserId) (dto : FileDisputeDto) : DisputesDb :=
  { db with entities := db.entities ++ [db.freshEntity userId dto] }

end DisputesDb

-- ---------------------------------------------------------------------------
-- The service
-- ---------------------------------------------------------------------------

inductive DisputeErr where
  | badRequest (message : String)
  | notFound (message : String)
  /-- A plain `Error`. -/
  | error (message : String)
  | fault
  deriving DecidableEq, Repr

inductive DisputeCmd where
  | now
  | findTransaction (id : TxId)
  /-- `create` and `save`. -/
  | insertDispute (dto : OpenDisputeDto)
  | findDispute (id : ℕ)
  | saveDispute (d : Dispute)
  | findStale (cutoff : ℤ)
  /-- `create` and `save`. -/
  | insertEntity (userId : UserId) (dto : FileDisputeDto)
  | findEntity (id : ℕ)
  /-- `findOne({ where: { id, userId } })`. -/
  | findEntityOf (id : ℕ) (userId : UserId)
  | saveEntity (e : DisputeEntity)
  | saveMessage (m : DisputeMessageEntity)
  /-- Time passes. -/
  | tick (ms : ℕ)
  deriving DecidableEq

@[reducible] def DisputeCmd.Reply : DisputeCmd → Type
  | .now => ℕ
  | .findTransaction _ => Option TransactionStatus
  | .insertDispute _ => Dispute
  | .findDispute _ => Option Dispute
  | .saveDispute _ => Dispute
  | .findStale _ => List Dispute
  | .insertEntity _ _ => DisputeEntity
  | .findEntity _ => Option DisputeEntity
  | .findEntityOf _ _ => Option DisputeEntity
  | .saveEntity _ => DisputeEntity
  | .saveMessage _ => Unit
  | .tick _ => Unit

/-- The atomic effect of each command. -/
def exec : (c : DisputeCmd) → DisputesDb → Except DisputeErr (c.Reply × DisputesDb)
  | .now, db => .ok (db.now, db)
  | .findTransaction id, db => .ok (db.transactionStatus id, db)
  | .insertDispute dto, db => .ok (db.freshDispute dto, db.insertDispute dto)
  | .findDispute id, db => .ok (db.dispute id, db)
  | .saveDispute d, db => .ok (d, db.saveDispute d)
  | .findStale cutoff, db => .ok (db.stale cutoff, db)
  | .insertEntity userId dto, db => .ok (db.freshEntity userId dto, db.insertEntity userId dto)
  | .findEntity id, db => .ok (db.entity id, db)
  | .findEntityOf id userId, db =>
    .ok ((db.entity id).filter fun e => decide (e.userId = userId), db)
  | .saveEntity e, db =>
    .ok (e, { db with entities := Table.put DisputeEntity.id e db.entities })
  | .saveMessage m, db => .ok ((), { db with messages := db.messages ++ [m] })
  | .tick ms, db => .ok ((), { db with now := db.now + ms })

abbrev DisputeProc := Proc DisputeCmd DisputeCmd.Reply DisputeErr

abbrev await (c : DisputeCmd) : DisputeProc c.Reply := Proc.call c

abbrev throw {α : Type} (e : DisputeErr) : DisputeProc α := .done (.error e)

/-- `status` is RESOLVED or REJECTED. -/
structure ResolveDisputeDto where
  status : DisputeStatus
  resolution : String
  closes : status.closed = true

/-- `description || reason`. -/
def FileDisputeDto.text (dto : FileDisputeDto) : String :=
  match dto.description with
  | none | some "" => dto.reason
  | some description => description

def fileDispute (userId : UserId) (dto : FileDisputeDto) : DisputeProc DisputeEntity := do
  let saved ← await (.insertEntity userId dto)
  await (.saveMessage ⟨saved.id, userId, "user", dto.text⟩)
  return saved

def escalate (id : ℕ) (userId : UserId) (assignTo : Option UserId) : DisputeProc DisputeEntity := do
  match ← await (.findEntityOf id userId) with
  | none => throw (.notFound "Dispute not found")
  | some dispute =>
    Proc.rejectWhen (dispute.status.closed = true)
      (.error "Cannot escalate a resolved or rejected dispute")
    let updated ← await (.saveEntity
      { dispute with
        escalationLevel := dispute.escalationLevel + 1
        status := .escalated
        assignedTo := assignTo.or dispute.assignedTo })
    await (.saveMessage
      ⟨id, userId, "user", "Dispute escalated to level " ++ toString updated.escalationLevel⟩)
    return updated

/-- What `resolve` and `reject` do, with the status they set. -/
def close (status : EntityStatus) (id : ℕ) : DisputeProc DisputeEntity := do
  match ← await (.findEntity id) with
  | none => throw (.notFound "Dispute not found")
  | some dispute =>
    let now ← await .now
    await (.saveEntity { dispute with status := status, resolvedAt := some now })

def resolve (id : ℕ) : DisputeProc DisputeEntity := close .resolved id

def reject (id : ℕ) : DisputeProc DisputeEntity := close .rejected id

def openDispute (dto : OpenDisputeDto) : DisputeProc Dispute := do
  match ← await (.findTransaction dto.transactionId) with
  | none => throw (.notFound ("Transaction " ++ toString dto.transactionId ++ " not found"))
  | some status =>
    Proc.rejectWhen (status ≠ .completed)
      (.badRequest "Disputes can only be opened on completed transactions")
    await (.insertDispute dto)

def findDisputeById (id : ℕ) : DisputeProc Dispute := do
  match ← await (.findDispute id) with
  | none => throw (.notFound ("Dispute " ++ toString id ++ " not found"))
  | some dispute => return dispute

def resolveDispute (id : ℕ) (dto : ResolveDisputeDto) : DisputeProc Dispute := do
  let dispute ← findDisputeById id
  Proc.rejectWhen (dispute.status.closed = true) (.badRequest "Dispute is already closed")
  let now ← await .now
  await (.saveDispute
    { dispute with
      status := dto.status
      resolution := some dto.resolution
      resolvedAt := some now })

/-- The loop over the disputes that were found. -/
def closeEach : List Dispute → DisputeProc Unit
  | [] => return ()
  | dispute :: stale => do
    let now ← await .now
    let _ ← await (.saveDispute
      { dispute with
        status := .resolved
        resolution := some "Auto-closed after 30 days"
        resolvedAt := some now })
    closeEach stale

def autoCloseStaleDisputes : DisputeProc Unit := do
  let now ← await .now
  let stale ← await (.findStale (now - 30 * 24 * 60 * 60 * 1000))
  closeEach stale

inductive DisputeCall where
  | fileDispute (userId : UserId) (dto : FileDisputeDto)
  | escalate (id : ℕ) (userId : UserId) (assignTo : Option UserId)
  | resolve (id : ℕ)
  | reject (id : ℕ)
  | openDispute (dto : OpenDisputeDto)
  | resolveDispute (id : ℕ) (dto : ResolveDisputeDto)
  | autoCloseStaleDisputes
  | tick (ms : ℕ)

def prog : DisputeCall → DisputeProc Unit
  | .fileDispute userId dto => do let _ ← fileDispute userId dto
  | .escalate id userId assignTo => do let _ ← escalate id userId assignTo
  | .resolve id => do let _ ← resolve id
  | .reject id => do let _ ← reject id
  | .openDispute dto => do let _ ← openDispute dto
  | .resolveDispute id dto => do let _ ← resolveDispute id dto
  | .autoCloseStaleDisputes => autoCloseStaleDisputes
  | .tick ms => await (.tick ms)

def mayFail : DisputeCmd → Bool
  | .now | .tick _ => false
  | _ => true

/-- All calls of the service, interleaved at their awaits. -/
def server : System DisputeCall DisputeCmd DisputeCmd.Reply DisputeErr DisputesDb Unit where
  prog := fun _ => prog
  exec := exec
  mayFail := mayFail

abbrev DisputesConfig :=
  Config DisputeCall DisputeCmd DisputeCmd.Reply DisputeErr DisputesDb Unit

end Disputes

end NexaFx
