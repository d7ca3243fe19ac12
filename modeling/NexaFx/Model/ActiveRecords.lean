import NexaFx.Lib.Pool
import NexaFx.Model.Database

/-!
# NexaFx — records that are on or off

`modules/account-freeze`, `modules/user-deactivation` and
`modules/stellar-federation`: a table of records with an `isActive` flag. A
record is created active when no active one has its key, and switched off later;
none is ever deleted.

* The key is the user of a freeze or deactivation, and domain and Stellar address
  of a federation address.
* The row a call creates carries the identity of the call.
* `save` of a loaded entity writes all its columns over the stored row.
-/

namespace NexaFx

open Async

namespace Active

variable {κ δ : Type} [DecidableEq κ]

/-! ## The table -/

/-- A row: its key, its flag, and the other columns. -/
structure Row (κ δ : Type) where
  id : ℕ
  userId : UserId
  key : κ
  isActive : Bool
  data : δ
  deriving DecidableEq

/-- The table, with its primary key. -/
structure ActiveDb (κ δ : Type) where
  rows : List (Row κ δ)
  now : Time
  nodup : (rows.map Row.id).Nodup

namespace ActiveDb

def row (db : ActiveDb κ δ) (id : ℕ) : Option (Row κ δ) := Table.get Row.id db.rows id

def put (db : ActiveDb κ δ) (row : Row κ δ) : ActiveDb κ δ :=
  { db with rows := Table.put Row.id row db.rows, nodup := Table.nodup_put Row.id db.nodup }

/-- `findOne` of the key with `isActive: true`. -/
def findActive (db : ActiveDb κ δ) (key : κ) : Option (Row κ δ) :=
  db.rows.find? fun r => decide (r.key = key ∧ r.isActive = true)

/-- `findOne({ where: { id, userId } })`. -/
def findOwned (db : ActiveDb κ δ) (id : ℕ) (userId : UserId) : Option (Row κ δ) :=
  db.rows.find? fun r => decide (r.id = id ∧ r.userId = userId)

/-- The active rows with the key. -/
def active (db : ActiveDb κ δ) (key : κ) : ℕ :=
  db.rows.countP fun r => decide (r.key = key ∧ r.isActive = true)

end ActiveDb

/-! ## Repository calls -/

inductive Cmd (κ δ : Type) where
  | findActive (key : κ)
  | findOwned (id : ℕ) (userId : UserId)
  /-- `new Date()`, which is no await and cannot fail. -/
  | now
  /-- `save` of a created entity. -/
  | insert (row : Row κ δ)
  /-- `save` of a loaded entity. -/
  | save (row : Row κ δ)
  /-- Time passes. -/
  | tick (ms : ℕ)

@[reducible] def Cmd.Reply : Cmd κ δ → Type
  | .findActive _ => Option (Row κ δ)
  | .findOwned _ _ => Option (Row κ δ)
  | .now => Time
  | .insert _ => Row κ δ
  | .save _ => Row κ δ
  | .tick _ => Unit

def exec : (c : Cmd κ δ) → ActiveDb κ δ → Except Err (c.Reply × ActiveDb κ δ)
  | .findActive key, db => .ok (db.findActive key, db)
  | .findOwned id userId, db => .ok (db.findOwned id userId, db)
  | .now, db => .ok (db.now, db)
  | .insert row, db =>
    if (db.row row.id).isSome then .error .uniqueViolation else .ok (row, db.put row)
  | .save row, db => .ok (row, db.put row)
  | .tick ms, db => .ok ((), { db with now := db.now + ms })

def mayFail : Cmd κ δ → Bool
  | .now => false
  | .tick _ => false
  | _ => true

abbrev ActiveProc (κ δ : Type) := Proc (Cmd κ δ) Cmd.Reply Err

abbrev await (c : Cmd κ δ) : ActiveProc κ δ c.Reply := Proc.call c

/-! ## What the services share -/

/-- Create an active record unless there is one; `make` fills the other columns. -/
def switchOn (i : ℕ) (userId : UserId) (key : κ) (conflict : String) (make : ActiveProc κ δ δ) :
    ActiveProc κ δ (Row κ δ) := do
  let existing ← await (.findActive key)
  Proc.rejectWhen (existing.isSome = true) (.conflict conflict)
  let data ← make
  await (.insert { id := i, userId := userId, key := key, isActive := true, data := data })

/-- Switch a record off that was looked up; `close` fills the other columns. -/
def switchOff (found : Option (Row κ δ)) (missing : String) (close : δ → ActiveProc κ δ δ) :
    ActiveProc κ δ (Row κ δ) :=
  match found with
  | none => Proc.throw (.notFound missing)
  | some row => do
    let data ← close row.data
    await (.save { row with isActive := false, data := data })

/-- There is an active record. -/
def isOn (key : κ) : ActiveProc κ δ Bool := do
  let record ← await (.findActive key)
  return record.isSome

/-- What a method returns. -/
inductive Answer (κ δ : Type) where
  | record (row : Row κ δ)
  | flag (b : Bool)
  | none

/-! ## Account freezes -/

structure Freeze where
  reason : String
  frozenBy : String
  notes : Option String
  frozenAt : Time
  unfrozenBy : Option String
  unfrozenAt : Option Time
  deriving DecidableEq

def freezeAccount (i : ℕ) (userId : UserId) (reason frozenBy : String) (notes : Option String) :
    ActiveProc UserId Freeze (Row UserId Freeze) :=
  switchOn i userId userId "Account is already frozen" do
    let frozenAt ← await .now
    return { reason := reason, frozenBy := frozenBy, notes := notes, frozenAt := frozenAt,
             unfrozenBy := none, unfrozenAt := none }

/-- Empty notes leave the old ones. -/
def unfreezeAccount (userId : UserId) (unfrozenBy : String) (notes : Option String) :
    ActiveProc UserId Freeze (Row UserId Freeze) := do
  let activeFreeze ← await (.findActive userId)
  switchOff activeFreeze "No active freeze found for this account" fun freeze => do
    let unfrozenAt ← await .now
    return { freeze with
      unfrozenBy := some unfrozenBy
      unfrozenAt := some unfrozenAt
      notes := if notes.getD "" = "" then freeze.notes else notes }

inductive FreezeCall where
  | freezeAccount (userId : UserId) (reason frozenBy : String) (notes : Option String)
  | unfreezeAccount (userId : UserId) (unfrozenBy : String) (notes : Option String)
  | isAccountFrozen (userId : UserId)
  | tick (ms : ℕ)
  deriving DecidableEq

def FreezeCall.prog (i : ℕ) : FreezeCall → ActiveProc UserId Freeze (Answer UserId Freeze)
  | .freezeAccount userId reason frozenBy notes => do
    return .record (← Active.freezeAccount i userId reason frozenBy notes)
  | .unfreezeAccount userId unfrozenBy notes => do
    return .record (← Active.unfreezeAccount userId unfrozenBy notes)
  | .isAccountFrozen userId => do return .flag (← isOn userId)
  | .tick ms => do
    await (.tick ms)
    return .none

/-! ## Deactivated users -/

structure Deactivation where
  reason : Option String
  deactivatedBy : UserId
  deactivatedAt : Time
  reactivatedBy : Option UserId
  reactivatedAt : Option Time
  deriving DecidableEq

def deactivate (i : ℕ) (userId : UserId) (reason : Option String) (adminId : UserId) :
    ActiveProc UserId Deactivation (Row UserId Deactivation) :=
  switchOn i userId userId ("User " ++ toString userId ++ " is already deactivated") do
    let deactivatedAt ← await .now
    return { reason := reason, deactivatedBy := adminId, deactivatedAt := deactivatedAt,
             reactivatedBy := none, reactivatedAt := none }

def reactivate (userId adminId : UserId) :
    ActiveProc UserId Deactivation (Row UserId Deactivation) := do
  let record ← await (.findActive userId)
  switchOff record ("No active deactivation found for user " ++ toString userId)
    fun deactivation => do
      let reactivatedAt ← await .now
      return { deactivation with
        reactivatedBy := some adminId
        reactivatedAt := some reactivatedAt }

inductive DeactivationCall where
  | deactivate (userId : UserId) (reason : Option String) (adminId : UserId)
  | reactivate (userId adminId : UserId)
  | isUserDeactivated (userId : UserId)
  | tick (ms : ℕ)
  deriving DecidableEq

def DeactivationCall.prog (i : ℕ) :
    DeactivationCall → ActiveProc UserId Deactivation (Answer UserId Deactivation)
  | .deactivate userId reason adminId => do
    return .record (← Active.deactivate i userId reason adminId)
  | .reactivate userId adminId => do return .record (← Active.reactivate userId adminId)
  | .isUserDeactivated userId => do return .flag (← isOn userId)
  | .tick ms => do
    await (.tick ms)
    return .none

/-! ## Federation addresses -/

structure Memo where
  memo : Option String
  memoType : Option String
  deriving DecidableEq

/-- Domain and Stellar address. -/
abbrev Address := String × String

def createAddress (i : ℕ) (userId : UserId) (domain stellarAddress : String) (memo : Memo) :
    ActiveProc Address Memo (Row Address Memo) :=
  switchOn i userId (domain, stellarAddress)
    "Federation address already exists for this domain and stellar address" (return memo)

/-- `query` up to its first star, and what follows the star. -/
def splitAtStar (query : String) : Option (String × String) :=
  match query.toList.span (· ≠ '*') with
  | (_, []) => none
  | (name, _ :: domain) => some (String.ofList name, String.ofList domain)

def resolveAddress (query : String) : ActiveProc Address Memo (Row Address Memo) :=
  match splitAtStar query with
  | none => Proc.throw
      (.notFound "Invalid federation address format. Expected user*domain.com")
  | some (name, domain) => do
    match ← await (.findActive (domain, name)) with
    | none => Proc.throw (.notFound "Federation address not found")
    | some address => return address

/-- Whether the address is active makes no difference. -/
def deleteAddress (id : ℕ) (userId : UserId) : ActiveProc Address Memo (Row Address Memo) := do
  let address ← await (.findOwned id userId)
  switchOff address "Federation address not found" fun memo => return memo

inductive FederationCall where
  | createAddress (userId : UserId) (domain stellarAddress : String) (memo : Memo)
  | resolveAddress (query : String)
  | deleteAddress (id : ℕ) (userId : UserId)
  | tick (ms : ℕ)
  deriving DecidableEq

def FederationCall.prog (i : ℕ) : FederationCall → ActiveProc Address Memo (Answer Address Memo)
  | .createAddress userId domain stellarAddress memo => do
    return .record (← Active.createAddress i userId domain stellarAddress memo)
  | .resolveAddress query => do return .record (← Active.resolveAddress query)
  | .deleteAddress id userId => do
    let _ ← Active.deleteAddress id userId
    return .none
  | .tick ms => do
    await (.tick ms)
    return .none

/-- The calls of a service, interleaved at every await. -/
def server {K : Type} (prog : ℕ → K → ActiveProc κ δ (Answer κ δ)) :
    System K (Cmd κ δ) Cmd.Reply Err (ActiveDb κ δ) (Answer κ δ) where
  prog := prog
  exec := exec
  mayFail := mayFail

abbrev ActiveConfig (K κ δ : Type) :=
  Config K (Cmd κ δ) Cmd.Reply Err (ActiveDb κ δ) (Answer κ δ)

/-- A server that has not taken a call yet. -/
def start {K : Type} (db : ActiveDb κ δ) : ActiveConfig K κ δ := ⟨db, []⟩

end Active

end NexaFx
