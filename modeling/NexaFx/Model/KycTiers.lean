import NexaFx.Lib.Pool
import NexaFx.Lib.Table
import NexaFx.Model.Currency
import NexaFx.Model.Database

/-!
# NexaFx — KYC tiers

`modules/kyc-tiers/services/kyc-tiers.service.ts`, await by await. A decision
on an upgrade request is a `save` of its row; the grant of the tier is another,
of the row of the user, and that one writes back every column that was loaded.
Any other service that changes a user by loading and saving the row is a call
`updateUser`. The columns of the user table that tiers have no part in are a
parameter `F`.

`decisions` and `changes` are ghost fields: every version of a request that was
saved, and what each save of a user was to change.
-/

namespace NexaFx

open Async

namespace KycTiers

variable {F : Type}

-- ---------------------------------------------------------------------------
-- Tiers
-- ---------------------------------------------------------------------------

/-- `TIER_LEVELS[tier]`. -/
def TIER_LEVELS (tier : String) : Option ℕ :=
  match tier with
  | "NONE" => some 0
  | "BASIC" => some 1
  | "ADVANCED" => some 2
  | "VERIFIED" => some 3
  | _ => none

/-- `tier.toUpperCase()`. -/
def upperCase (tier : String) : String := String.ofList (toUpperCase tier.toList)

theorem upperCase_upperCase (tier : String) : upperCase (upperCase tier) = upperCase tier := by
  unfold upperCase
  rw [String.toList_ofList, toUpperCase_toUpperCase]

/-- `TIER_LEVELS[tier.toUpperCase()] ?? 0`. -/
def level (tier : String) : ℕ := (TIER_LEVELS (upperCase tier)).getD 0

-- ---------------------------------------------------------------------------
-- The tables
-- ---------------------------------------------------------------------------

inductive KycTierUpgradeStatus where
  | pending
  | approved
  | rejected
  deriving DecidableEq, Repr

/-- A value of the `documents` column. -/
inductive Json where
  | string (s : String)
  | other (text : String)
  deriving DecidableEq

abbrev Documents := List (String × Json)

/-- `{ ...documents, rejectionReason: reason }`; what is undefined is not stored. -/
def rejectionDocuments (documents : Documents) (reason : Option String) : Documents :=
  (documents.filter fun d => d.1 ≠ "rejectionReason") ++
    (reason.map fun r => ("rejectionReason", Json.string r)).toList

structure KycTierUpgradeEntity where
  id : ℕ
  userId : UserId
  currentTier : String
  requestedTier : String
  documents : Documents
  status : KycTierUpgradeStatus
  reviewedBy : Option UserId
  reviewedAt : Option ℕ
  deriving DecidableEq

structure UserEntity (F : Type) where
  id : UserId
  /-- `metadata?.kycTier`. -/
  kycTier : Option String
  /-- The other columns, and the other keys of `metadata`. -/
  others : F

/-- `user.metadata?.kycTier ?? 'NONE'`. -/
def UserEntity.currentTier (u : UserEntity F) : String := u.kycTier.getD "NONE"

/-- What a save of a user is to change. -/
inductive UserChange (F : Type) where
  | grant (upgradeId : ℕ) (tier : String)
  | others (f : F → F)

def UserChange.apply (u : UserEntity F) : UserChange F → UserEntity F
  | .grant _ tier => { u with kycTier := some tier }
  | .others f => { u with others := f u.others }

@[simp] theorem UserChange.apply_id (u : UserEntity F) (c : UserChange F) : (c.apply u).id = u.id := by
  cases c <;> rfl

structure RequestKycTierUpgradeDto where
  requestedTier : String
  documents : Option Documents
  deriving DecidableEq

structure TierDb (F : Type) where
  users : List (UserEntity F)
  upgrades : List KycTierUpgradeEntity
  /-- `id` is the primary key. -/
  keyed : (upgrades.map KycTierUpgradeEntity.id).Nodup
  now : ℕ
  decisions : List KycTierUpgradeEntity
  changes : List (UserId × UserChange F)

/-- `UPDATE` with the values of `u`. -/
def KycTierUpgradeEntity.update (u row : KycTierUpgradeEntity) : KycTierUpgradeEntity :=
  if row.id = u.id then u else row

@[simp] theorem KycTierUpgradeEntity.update_id (u row : KycTierUpgradeEntity) :
    (u.update row).id = row.id := by
  unfold update
  split
  · rename_i h
    exact h.symm
  · rfl

/-- `UPDATE` with the values of `u`. -/
def UserEntity.update (u row : UserEntity F) : UserEntity F := if row.id = u.id then u else row

namespace TierDb

def user (db : TierDb F) (userId : UserId) : Option (UserEntity F) :=
  db.users.find? fun u => u.id = userId

def upgrade (db : TierDb F) (id : ℕ) : Option KycTierUpgradeEntity :=
  db.upgrades.find? fun u => u.id = id

/-- The pending requests of the user. -/
def pendingOf (db : TierDb F) (userId : UserId) : List KycTierUpgradeEntity :=
  db.upgrades.filter fun u => decide (u.userId = userId ∧ u.status = .pending)

/-- `upgradeRepo.create`. -/
def fresh (db : TierDb F) (userId : UserId) (currentTier : String)
    (dto : RequestKycTierUpgradeDto) : KycTierUpgradeEntity where
  id := Table.freshKey (db.upgrades.map KycTierUpgradeEntity.id)
  userId := userId
  currentTier := currentTier
  requestedTier := upperCase dto.requestedTier
  documents := dto.documents.getD []
  status := .pending
  reviewedBy := none
  reviewedAt := none

def insert (db : TierDb F) (userId : UserId) (currentTier : String)
    (dto : RequestKycTierUpgradeDto) : TierDb F :=
  { db with
    upgrades := db.upgrades ++ [db.fresh userId currentTier dto]
    keyed := Table.nodup_concat KycTierUpgradeEntity.id db.keyed (Table.freshKey_notMem _) }

def saveUpgrade (db : TierDb F) (u : KycTierUpgradeEntity) : TierDb F :=
  { db with
    upgrades := db.upgrades.map u.update
    keyed := by
      have hsame : (db.upgrades.map u.update).map KycTierUpgradeEntity.id =
          db.upgrades.map KycTierUpgradeEntity.id := by
        rw [List.map_map]
        exact List.map_congr_left fun row _ => u.update_id row
      rw [hsame]
      exact db.keyed
    decisions := db.decisions ++ [u] }

def saveUser (db : TierDb F) (u : UserEntity F) (change : UserChange F) : TierDb F :=
  { db with
    users := db.users.map u.update
    changes := db.changes ++ [(u.id, change)] }

end TierDb

-- ---------------------------------------------------------------------------
-- Commands
-- ---------------------------------------------------------------------------

inductive TierErr where
  | notFound (message : String)
  | badRequest (message : String)
  | fault (message : String)
  deriving DecidableEq, Repr

/-- What a user is looked up for: to be looked at, or to be saved with a change. -/
inductive Purpose where
  | check
  | grant (upgradeId : ℕ)
  | others
  deriving DecidableEq

inductive TierCmd (F : Type) where
  /-- `userRepo.findOne({ where: { id: userId } })`. -/
  | findUser (userId : UserId) (purpose : Purpose)
  | findUpgrade (id : ℕ)
  /-- `upgradeRepo.findOne({ where: { userId, status: 'pending' } })`. -/
  | findPending (userId : UserId)
  | insertUpgrade (userId : UserId) (currentTier : String) (dto : RequestKycTierUpgradeDto)
  | saveUpgrade (u : KycTierUpgradeEntity)
  | saveUser (u : UserEntity F) (change : UserChange F)
  | now
  /-- Time passes. -/
  | tick (ms : ℕ)

@[reducible] def TierCmd.Reply : TierCmd F → Type
  | .findUser _ _ => Option (UserEntity F)
  | .findUpgrade _ | .findPending _ => Option KycTierUpgradeEntity
  | .insertUpgrade _ _ _ | .saveUpgrade _ => KycTierUpgradeEntity
  | .now => ℕ
  | _ => Unit

def exec : (c : TierCmd F) → TierDb F → Except TierErr (c.Reply × TierDb F)
  | .findUser userId _, db => .ok (db.user userId, db)
  | .findUpgrade id, db => .ok (db.upgrade id, db)
  | .findPending userId, db => .ok ((db.pendingOf userId).head?, db)
  | .insertUpgrade userId currentTier dto, db =>
    .ok (db.fresh userId currentTier dto, db.insert userId currentTier dto)
  | .saveUpgrade u, db => .ok (u, db.saveUpgrade u)
  | .saveUser u change, db => .ok ((), db.saveUser u change)
  | .now, db => .ok (db.now, db)
  | .tick ms, db => .ok ((), { db with now := db.now + ms })

def mayFail : TierCmd F → Bool
  | .now | .tick _ => false
  | _ => true

abbrev TierProc (F : Type) := Proc (TierCmd F) TierCmd.Reply TierErr

abbrev await (c : TierCmd F) : TierProc F c.Reply := Proc.call c

abbrev throw {α : Type} (e : TierErr) : TierProc F α := .done (.error e)

-- ---------------------------------------------------------------------------
-- The service
-- ---------------------------------------------------------------------------

def requestUpgrade (userId : UserId) (dto : RequestKycTierUpgradeDto) :
    TierProc F KycTierUpgradeEntity := do
  match ← await (.findUser userId .check) with
  | none => throw (.notFound "User not found")
  | some user =>
    let currentTier := user.currentTier
    let currentLevel := level currentTier
    match TIER_LEVELS (upperCase dto.requestedTier) with
    | none => throw (.badRequest ("Invalid tier: " ++ dto.requestedTier))
    | some requestedLevel =>
      Proc.rejectWhen (requestedLevel ≤ currentLevel)
        (.badRequest "Requested tier must be higher than current tier")
      match ← await (.findPending userId) with
      | some _ => throw (.badRequest "You already have a pending tier upgrade request")
      | none => await (.insertUpgrade userId currentTier dto)

def approve (id : ℕ) (adminId : UserId) : TierProc F KycTierUpgradeEntity := do
  match ← await (.findUpgrade id) with
  | none => throw (.notFound "KYC tier upgrade request not found")
  | some upgrade =>
    Proc.rejectWhen (upgrade.status ≠ .pending)
      (.badRequest "Only pending requests can be approved")
    let now ← await .now
    let saved ← await (.saveUpgrade
      { upgrade with status := .approved, reviewedBy := some adminId, reviewedAt := some now })
    match ← await (.findUser upgrade.userId (.grant upgrade.id)) with
    | none => return saved
    | some user =>
      await (.saveUser { user with kycTier := some upgrade.requestedTier }
        (.grant upgrade.id upgrade.requestedTier))
      return saved

def reject (id : ℕ) (adminId : UserId) (reason : Option String) :
    TierProc F KycTierUpgradeEntity := do
  match ← await (.findUpgrade id) with
  | none => throw (.notFound "KYC tier upgrade request not found")
  | some upgrade =>
    Proc.rejectWhen (upgrade.status ≠ .pending)
      (.badRequest "Only pending requests can be rejected")
    let now ← await .now
    await (.saveUpgrade
      { upgrade with
        status := .rejected
        reviewedBy := some adminId
        reviewedAt := some now
        documents := rejectionDocuments upgrade.documents reason })

/-- A change of a user by another service: `findOne` and `save`. -/
def updateUser (userId : UserId) (f : F → F) : TierProc F Unit := do
  match ← await (.findUser userId .others) with
  | none => return ()
  | some user => await (.saveUser { user with others := f user.others } (.others f))

-- ---------------------------------------------------------------------------
-- The server
-- ---------------------------------------------------------------------------

inductive TierCall (F : Type) where
  | requestUpgrade (userId : UserId) (dto : RequestKycTierUpgradeDto)
  | approve (id : ℕ) (adminId : UserId)
  | reject (id : ℕ) (adminId : UserId) (reason : Option String)
  | updateUser (userId : UserId) (f : F → F)
  | tick (ms : ℕ)

/-- The request that was made or decided. -/
abbrev TierAnswer := Option KycTierUpgradeEntity

def prog : TierCall F → TierProc F TierAnswer
  | .requestUpgrade userId dto => do return some (← requestUpgrade userId dto)
  | .approve id adminId => do return some (← approve id adminId)
  | .reject id adminId reason => do return some (← reject id adminId reason)
  | .updateUser userId f => do
    updateUser userId f
    return none
  | .tick ms => do
    await (.tick ms)
    return none

/-- All of them, interleaved at every await. -/
def server (F : Type) : System (TierCall F) (TierCmd F) TierCmd.Reply TierErr (TierDb F) TierAnswer where
  prog _ := prog
  exec := exec
  mayFail := mayFail

abbrev TierConfig (F : Type) :=
  Config (TierCall F) (TierCmd F) TierCmd.Reply TierErr (TierDb F) TierAnswer

abbrev TierThread (F : Type) := Thread (TierCall F) (TierCmd F) TierCmd.Reply TierErr TierAnswer

end KycTiers

end NexaFx
