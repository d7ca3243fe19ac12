import NexaFx.Lib.Pool
import NexaFx.Model.Database

/-!
# NexaFx — identity documents

`kyc/kyc.service.ts`, `kyc/kyc-bulk-review.service.ts` and
`common/helpers/with-transaction.helper.ts`, await by await. A submission is
inserted inside a database transaction: until that commits, the row is seen by
its own transaction only, but it holds its entry of the partial unique index on
pending documents, and another insert for the same user waits for it.

`findOne` without an order returns any of the rows that match: which one is a
parameter (`Pick`). So is what `new URL` makes of a text.

`stores` is a ghost field: every version of a document that was made visible,
with the call that did it. Of the `kyc.reviewed` events, the call is ghost.
-/

namespace NexaFx

open Async

namespace Kyc

-- ---------------------------------------------------------------------------
-- The table
-- ---------------------------------------------------------------------------

inductive KycDocumentStatus where
  | pending
  | approved
  | rejected
  | appealed
  deriving DecidableEq, Repr

structure KycDocument where
  id : ℕ
  userId : UserId
  documentType : String
  documentNumber : String
  documentUrl : String
  status : KycDocumentStatus
  reviewedBy : Option UserId
  reviewedAt : Option ℕ
  appealReason : Option String
  deriving DecidableEq

structure SubmitKycDto where
  userId : UserId
  documentType : String
  documentNumber : String
  documentUrl : String
  deriving DecidableEq

/-- `status` is APPROVED or REJECTED. -/
structure ReviewKycDto where
  reviewerId : UserId
  status : KycDocumentStatus
  decides : status = .approved ∨ status = .rejected

def approval (reviewerId : UserId) : ReviewKycDto := ⟨reviewerId, .approved, Or.inl rfl⟩

def rejection (reviewerId : UserId) : ReviewKycDto := ⟨reviewerId, .rejected, Or.inr rfl⟩

/-- A row, with the call whose database transaction has inserted it and is not
over. -/
structure Row where
  doc : KycDocument
  openIn : Option ℕ
  deriving DecidableEq

def Row.id (r : Row) : ℕ := r.doc.id

def Row.committed (r : Row) : Bool := r.openIn.isNone

/-- The row has an entry for the user in the index on pending documents. -/
def Row.pendingOf (userId : UserId) (r : Row) : Bool :=
  decide (r.doc.userId = userId ∧ r.doc.status = .pending)

/-- The rows that a statement of the call finds. -/
def Row.visibleTo (call : ℕ) (r : Row) : Bool := r.committed || decide (r.openIn = some call)

/-- At the commit of `call`. -/
def Row.commit (call : ℕ) (r : Row) : Row :=
  if r.openIn = some call then { r with openIn := none } else r

/-- `UPDATE` with the values of `d`. -/
def Row.update (d : KycDocument) (r : Row) : Row :=
  if r.id = d.id ∧ r.openIn = none then { r with doc := d } else r

@[simp] theorem Row.commit_doc (call : ℕ) (r : Row) : (r.commit call).doc = r.doc := by
  unfold commit
  split <;> rfl

@[simp] theorem Row.commit_id (call : ℕ) (r : Row) : (r.commit call).id = r.id :=
  congrArg KycDocument.id (r.commit_doc call)

@[simp] theorem Row.update_id (d : KycDocument) (r : Row) : (r.update d).id = r.id := by
  unfold update
  split
  · rename_i h
    exact h.1.symm
  · rfl

@[simp] theorem Row.update_openIn (d : KycDocument) (r : Row) : (r.update d).openIn = r.openIn := by
  unfold update
  split <;> rfl

structure KycDb where
  rows : List Row
  /-- `id` is the primary key. -/
  keyed : (rows.map Row.id).Nodup
  now : ℕ
  stores : List (ℕ × KycDocument)
  reviewed : List (ℕ × KycDocument)

namespace KycDb

def documents (db : KycDb) : List KycDocument := (db.rows.filter Row.committed).map Row.doc

def document (db : KycDb) (id : ℕ) : Option KycDocument := db.documents.find? fun d => d.id = id

/-- The PENDING documents of the user that the call sees. -/
def pendingSeen (db : KycDb) (call : ℕ) (userId : UserId) : List KycDocument :=
  (db.rows.filter fun r => r.visibleTo call && r.pendingOf userId).map Row.doc

def approvedOf (db : KycDb) (userId : UserId) : List KycDocument :=
  db.documents.filter fun d => decide (d.userId = userId ∧ d.status = .approved)

/-- The row of a new submission. -/
def fresh (db : KycDb) (call : ℕ) (dto : SubmitKycDto) : Row where
  doc :=
    { id := Table.freshKey (db.rows.map Row.id)
      userId := dto.userId
      documentType := dto.documentType
      documentNumber := dto.documentNumber
      documentUrl := dto.documentUrl
      status := .pending
      reviewedBy := none
      reviewedAt := none
      appealReason := none }
  openIn := some call

def insert (db : KycDb) (call : ℕ) (dto : SubmitKycDto) : KycDb :=
  { db with
    rows := db.rows ++ [db.fresh call dto]
    keyed := Table.nodup_concat Row.id db.keyed (Table.freshKey_notMem _) }

/-- The documents that the call has inserted and not committed. -/
def staged (db : KycDb) (call : ℕ) : List KycDocument :=
  (db.rows.filter fun r => decide (r.openIn = some call)).map Row.doc

def commit (db : KycDb) (call : ℕ) : KycDb :=
  { db with
    rows := db.rows.map (Row.commit call)
    keyed := by
      have hsame : (db.rows.map (Row.commit call)).map Row.id = db.rows.map Row.id := by
        rw [List.map_map]
        exact List.map_congr_left fun r _ => r.commit_id call
      rw [hsame]
      exact db.keyed
    stores := db.stores ++ (db.staged call).map fun d => (call, d) }

def rollback (db : KycDb) (call : ℕ) : KycDb :=
  { db with
    rows := db.rows.filter fun r => decide (r.openIn ≠ some call)
    keyed := Table.nodup_filter Row.id db.keyed _ }

/-- `save` of a document that was loaded: all of its columns are written. A row
that nobody else sees is not reached. -/
def save (db : KycDb) (call : ℕ) (d : KycDocument) : KycDb :=
  { db with
    rows := db.rows.map (Row.update d)
    keyed := by
      have hsame : (db.rows.map (Row.update d)).map Row.id = db.rows.map Row.id := by
        rw [List.map_map]
        exact List.map_congr_left fun r _ => r.update_id d
      rw [hsame]
      exact db.keyed
    stores := db.stores ++
      (db.rows.filter fun r => decide (r.id = d.id ∧ r.openIn = none)).map fun _ => (call, d) }

end KycDb

-- ---------------------------------------------------------------------------
-- Commands
-- ---------------------------------------------------------------------------

inductive KycErr where
  | badRequest (message : String)
  | notFound (message : String)
  | forbidden (message : String)
  | conflict (message : String) (submissionId : Option ℕ)
  /-- Code 23505. -/
  | uniqueViolation
  | fault (message : String)
  deriving DecidableEq, Repr

def KycErr.message : KycErr → String
  | .badRequest m | .notFound m | .forbidden m | .conflict m _ | .fault m => m
  | .uniqueViolation =>
    "duplicate key value violates unique constraint \"IDX_kyc_documents_active_user\""

inductive KycCmd where
  | startTransaction
  /-- `findOne({ where: { userId, status: PENDING } })`. -/
  | findPending (call : ℕ) (userId : UserId)
  /-- `manager.create` and `manager.save`. -/
  | insert (call : ℕ) (dto : SubmitKycDto)
  | commitTransaction (call : ℕ)
  | rollbackTransaction (call : ℕ)
  | findDocument (id : ℕ)
  | saveDocument (call : ℕ) (d : KycDocument)
  /-- `events.emit('kyc.reviewed', saved)`. -/
  | emitReviewed (call : ℕ) (d : KycDocument)
  /-- `findOne({ where: { userId, status: APPROVED } })`. -/
  | findApproved (userId : UserId)
  | now
  /-- Time passes. -/
  | tick (ms : ℕ)
  deriving DecidableEq

@[reducible] def KycCmd.Reply : KycCmd → Type
  | .findPending _ _ | .findDocument _ | .findApproved _ => Option KycDocument
  | .insert _ _ | .saveDocument _ _ => KycDocument
  | .now => ℕ
  | _ => Unit

/-- The row that `findOne` returns of those that match. -/
structure Pick where
  pick : List KycDocument → Option KycDocument
  mem : ∀ {ds d}, pick ds = some d → d ∈ ds
  found : ∀ {ds d}, d ∈ ds → (pick ds).isSome = true

/-- The first of several rows. -/
def firstRow : Pick where
  pick := List.head?
  mem := List.mem_of_mem_head?
  found := by
    intro ds d h
    cases ds with
    | nil => cases h
    | cons _ _ => rfl

/-- What the service runs with. -/
structure Service where
  /-- `KYC_STORAGE_HOST`; empty when it is not set. -/
  storageHost : String
  /-- `new URL(url).hostname`, when the text is a URL. -/
  hostname : String → Option String
  rows : Pick

def exec (rows : Pick) : (c : KycCmd) → KycDb → Except KycErr (c.Reply × KycDb)
  | .startTransaction, db => .ok ((), db)
  | .findPending call userId, db => .ok (rows.pick (db.pendingSeen call userId), db)
  | .insert call dto, db =>
    match db.pendingSeen call dto.userId with
    | [] => .ok ((db.fresh call dto).doc, db.insert call dto)
    | _ :: _ => .error .uniqueViolation
  | .commitTransaction call, db => .ok ((), db.commit call)
  | .rollbackTransaction call, db => .ok ((), db.rollback call)
  | .findDocument id, db => .ok (db.document id, db)
  | .saveDocument call d, db => .ok (d, db.save call d)
  | .emitReviewed call d, db => .ok ((), { db with reviewed := db.reviewed ++ [(call, d)] })
  | .findApproved userId, db => .ok (rows.pick (db.approvedOf userId), db)
  | .now, db => .ok (db.now, db)
  | .tick ms, db => .ok ((), { db with now := db.now + ms })

/-- An insert waits for the transaction that has inserted a pending document of
the same user. -/
def ready : KycCmd → KycDb → Bool
  | .insert call dto, db =>
    db.rows.all fun r => r.visibleTo call || !r.pendingOf dto.userId
  | _, _ => true

def mayFail : KycCmd → Bool
  | .rollbackTransaction _ | .emitReviewed _ _ | .now | .tick _ => false
  | _ => true

abbrev KycProc := Proc KycCmd KycCmd.Reply KycErr

abbrev await (c : KycCmd) : KycProc c.Reply := Proc.call c

abbrev throw {α : Type} (e : KycErr) : KycProc α := .done (.error e)

-- ---------------------------------------------------------------------------
-- Submissions
-- ---------------------------------------------------------------------------

/-- `withTransaction`. -/
def withTransaction {α : Type} (call : ℕ) (fn : KycProc α) : KycProc α := do
  await .startTransaction
  let committed : KycProc α := do
    let result ← fn
    await (.commitTransaction call)
    return result
  match ← committed.attempt with
  | .ok result => return result
  | .error error =>
    await (.rollbackTransaction call)
    throw error

def validateDocumentUrl (hostname : String → Option String) (url allowedHost : String) :
    Except KycErr Unit :=
  match hostname url with
  | none => .error (.badRequest "documentUrl must be a valid URL")
  | some host =>
    if host ≠ allowedHost then
      .error (.badRequest ("documentUrl must originate from the authorised storage domain (" ++
        allowedHost ++ ")"))
    else .ok ()

/-- The check of `submit` on the URL. -/
def Service.checkUrl (svc : Service) (url : String) : Except KycErr Unit :=
  if svc.storageHost ≠ "" then validateDocumentUrl svc.hostname url svc.storageHost else .ok ()

def activeSubmission : String := "An active KYC submission already exists for this user"

/-- What `submit` does inside the transaction. -/
def insertPending (call : ℕ) (dto : SubmitKycDto) : KycProc KycDocument := do
  match ← await (.findPending call dto.userId) with
  | some existing => throw (.conflict activeSubmission (some existing.id))
  | none => await (.insert call dto)

/-- The `catch` of `submit`. -/
def translate (call : ℕ) (dto : SubmitKycDto) : Except KycErr KycDocument → KycProc KycDocument
  | .ok doc => return doc
  | .error .uniqueViolation => do
    let existing ← await (.findPending call dto.userId)
    throw (.conflict activeSubmission (existing.map KycDocument.id))
  | .error error => throw error

def submit (svc : Service) (call : ℕ) (dto : SubmitKycDto) : KycProc KycDocument := do
  Proc.ofExcept (svc.checkUrl dto.documentUrl)
  translate call dto (← (withTransaction call (insertPending call dto)).attempt)

-- ---------------------------------------------------------------------------
-- Reviews
-- ---------------------------------------------------------------------------

def notFoundMessage (id : ℕ) : String := "KYC document " ++ toString id ++ " not found"

/-- A review may decide the document. -/
def KycDocumentStatus.undecided : KycDocumentStatus → Bool
  | .pending | .appealed => true
  | _ => false

def review (call : ℕ) (id : ℕ) (dto : ReviewKycDto) : KycProc KycDocument := do
  match ← await (.findDocument id) with
  | none => throw (.notFound (notFoundMessage id))
  | some doc =>
    Proc.rejectWhen (doc.status ≠ .pending ∧ doc.status ≠ .appealed)
      (.forbidden "Document has already been reviewed")
    let now ← await .now
    let saved ← await (.saveDocument call
      { doc with
        status := dto.status
        reviewedBy := some dto.reviewerId
        reviewedAt := some now })
    await (.emitReviewed call saved)
    return saved

def appeal (call : ℕ) (id : ℕ) (reason : String) : KycProc KycDocument := do
  match ← await (.findDocument id) with
  | none => throw (.notFound (notFoundMessage id))
  | some doc =>
    Proc.rejectWhen (doc.status ≠ .rejected) (.forbidden "Only rejected documents can be appealed")
    await (.saveDocument call { doc with status := .appealed, appealReason := some reason })

structure BulkReviewDto where
  kycIds : List ℕ
  decision : ReviewKycDto

structure Failure where
  id : ℕ
  error : String
  deriving DecidableEq

structure BulkReviewResult where
  processed : ℕ
  succeeded : ℕ
  failed : List Failure
  deriving DecidableEq

def maxBulkReviewIds : ℕ := 50

/-- The loop of `bulkReview`. -/
def reviewEach (call : ℕ) (dto : ReviewKycDto) : List ℕ → List Failure → KycProc (List Failure)
  | [], failed => return failed
  | id :: ids, failed => do
    match ← (review call id dto).attempt with
    | .ok _ => reviewEach call dto ids failed
    | .error error => reviewEach call dto ids (failed ++ [⟨id, error.message⟩])

def bulkReview (call : ℕ) (dto : BulkReviewDto) : KycProc BulkReviewResult := do
  let ids := dto.kycIds.eraseDups
  Proc.rejectWhen (ids.length = 0) (.badRequest "kycIds must contain at least one id.")
  Proc.rejectWhen (ids.length > maxBulkReviewIds)
    (.badRequest ("A bulk review accepts at most " ++ toString maxBulkReviewIds ++
      " ids; received " ++ toString ids.length ++ "."))
  let failed ← reviewEach call dto.decision ids []
  return ⟨ids.length, ids.length - failed.length, failed⟩

-- ---------------------------------------------------------------------------
-- Approval
-- ---------------------------------------------------------------------------

/-- `validityDays * 86_400_000`, added to the instant of the review. -/
def expiry (reviewedAt : ℕ) (validityDays : ℤ) : ℤ := reviewedAt + validityDays * 86400000

def isApproved (userId : UserId) (validityDays : ℤ) : KycProc Bool := do
  match ← await (.findApproved userId) with
  | none => return false
  | some doc =>
    match doc.reviewedAt with
    | none => return false
    | some reviewedAt =>
      let now ← await .now
      return decide ((now : ℤ) < expiry reviewedAt validityDays)

structure ExpiryStatus where
  isApproved : Bool
  isExpired : Bool
  reviewedAt : Option ℕ
  expiresAt : Option ℤ
  deriving DecidableEq

def checkExpiry (userId : UserId) (validityDays : ℤ) : KycProc ExpiryStatus := do
  match ← await (.findApproved userId) with
  | none => return ⟨false, false, none, none⟩
  | some doc =>
    match doc.reviewedAt with
    | none => return ⟨false, false, none, none⟩
    | some reviewedAt =>
      let expiresAt := expiry reviewedAt validityDays
      let now ← await .now
      let isExpired := decide ((now : ℤ) ≥ expiresAt)
      return ⟨!isExpired, isExpired, some reviewedAt, some expiresAt⟩

-- ---------------------------------------------------------------------------
-- The server
-- ---------------------------------------------------------------------------

inductive KycCall where
  | submit (dto : SubmitKycDto)
  | review (id : ℕ) (dto : ReviewKycDto)
  | appeal (id : ℕ) (reason : String)
  | bulkReview (dto : BulkReviewDto)
  | tick (ms : ℕ)

inductive Answer where
  | document (d : KycDocument)
  | bulk (r : BulkReviewResult)
  | nothing
  deriving DecidableEq

def prog (svc : Service) (i : ℕ) : KycCall → KycProc Answer
  | .submit dto => do return .document (← submit svc i dto)
  | .review id dto => do return .document (← review i id dto)
  | .appeal id reason => do return .document (← appeal i id reason)
  | .bulkReview dto => do return .bulk (← bulkReview i dto)
  | .tick ms => do
    await (.tick ms)
    return .nothing

/-- All writers of documents, interleaved at every statement. -/
def server (svc : Service) : System KycCall KycCmd KycCmd.Reply KycErr KycDb Answer where
  prog := prog svc
  exec := exec svc.rows
  ready := ready
  mayFail := mayFail

abbrev KycConfig := Config KycCall KycCmd KycCmd.Reply KycErr KycDb Answer

abbrev KycThread := Thread KycCall KycCmd KycCmd.Reply KycErr Answer

end Kyc

end NexaFx
