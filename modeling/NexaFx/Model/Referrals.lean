import NexaFx.Lib.Pool
import NexaFx.Model.Wallets

/-!
# NexaFx — referrals

`referral/referral.service.ts` over the tables `referrals` and
`referral_rewards` and the wallets, await by await.

* A code that nobody has applied is a row whose `referredId` is the referrer.
* The rows that a call makes carry the identity of the call.
* `rewardReferral` credits the wallet inside its database transaction, but the
  credit opens and commits a transaction of its own; what `commit` publishes are
  the reward and the referral.
-/

namespace NexaFx

open Async

namespace Referrals

-- ---------------------------------------------------------------------------
-- The tables
-- ---------------------------------------------------------------------------

/-- `ReferralStatus`. -/
inductive ReferralStatus where
  | pending
  | qualified
  | rewarded
  deriving DecidableEq, Repr

structure Referral where
  id : ℕ
  referrerId : UserId
  referredId : UserId
  referralCode : String
  status : ReferralStatus
  createdAt : Time
  qualifiedAt : Option Time
  rewardedAt : Option Time
  deriving DecidableEq

/-- `RewardType`. -/
inductive RewardType where
  | credit
  | discount
  deriving DecidableEq

/-- `RewardStatus`. -/
inductive RewardStatus where
  | pending
  | paid
  deriving DecidableEq

structure ReferralReward where
  id : ℕ
  referralId : ℕ
  rewardType : RewardType
  amount : ℚ
  currency : String
  status : RewardStatus
  createdAt : Time
  paidAt : Option Time
  deriving DecidableEq

/-- `db` holds the users, the wallets and the clock. -/
structure ReferralDb where
  referrals : List Referral
  rewards : List ReferralReward
  db : Db

namespace ReferralDb

def referral (st : ReferralDb) (id : ℕ) : Option Referral := Table.get Referral.id st.referrals id

def put (st : ReferralDb) (referral : Referral) : ReferralDb :=
  { st with referrals := Table.put Referral.id referral st.referrals }

/-- The unique indexes on `referredId` and `referralCode`. -/
def violatesUnique (st : ReferralDb) (referral : Referral) : Bool :=
  st.referrals.any fun r => decide (r.id ≠ referral.id ∧
    (r.referredId = referral.referredId ∨ r.referralCode = referral.referralCode))

/-- `save` of a loaded entity writes all its fields over the stored row. -/
def save (st : ReferralDb) (referral : Referral) : Except Err ReferralDb :=
  if st.violatesUnique referral then .error .uniqueViolation else .ok (st.put referral)

/-- `save` of a created entity: its key is new. -/
def insert (st : ReferralDb) (referral : Referral) : Except Err ReferralDb :=
  if (st.referral referral.id).isSome then .error .uniqueViolation else st.save referral

/-- `findOne({ where: { referredId } })`. -/
def findByReferred (st : ReferralDb) (referredId : UserId) : Option Referral :=
  Table.get Referral.referredId st.referrals referredId

/-- `findOne({ where: { referralCode } })`. -/
def findByCode (st : ReferralDb) (code : String) : Option Referral :=
  Table.get Referral.referralCode st.referrals code

/-- `count({ where: { referrerId } })`. -/
def countByReferrer (st : ReferralDb) (referrerId : UserId) : ℕ :=
  st.referrals.countP fun r => decide (r.referrerId = referrerId)

end ReferralDb

-- ---------------------------------------------------------------------------
-- Commands
-- ---------------------------------------------------------------------------

inductive ReferralCmd where
  /-- `UsersService.findById`, which throws when there is no such user. -/
  | findUser (id : UserId)
  | findByReferred (referredId : UserId)
  | findByCode (code : String)
  | countByReferrer (referrerId : UserId)
  | findReferral (id : ℕ)
  /-- `new Date()`, which is no await and cannot fail. -/
  | now
  /-- `save(referral)` of a created entity. -/
  | insert (referral : Referral)
  /-- `save(referral)` of a loaded entity. -/
  | save (referral : Referral)
  | startTransaction
  | adjustBalance (call referralId : ℕ) (accountId : UserId) (currency : String) (delta : ℚ)
  | managerSaveReward (reward : ReferralReward)
  | managerSaveReferral (referral : Referral)
  | commit (reward : ReferralReward) (referral : Referral)
  /-- Time passes. -/
  | tick (ms : ℕ)
  deriving DecidableEq

@[reducible] def ReferralCmd.Reply : ReferralCmd → Type
  | .findByReferred _ => Option Referral
  | .findByCode _ => Option Referral
  | .countByReferrer _ => ℕ
  | .findReferral _ => Option Referral
  | .now => Time
  | .insert _ => Referral
  | .managerSaveReward _ => ReferralReward
  | _ => Unit

/-- The `createdAt` column is filled in by the insert. -/
def Referral.stamp (referral : Referral) (t : Time) : Referral := { referral with createdAt := t }

def ReferralReward.stamp (reward : ReferralReward) (t : Time) : ReferralReward :=
  { reward with createdAt := t }

def exec : (c : ReferralCmd) → ReferralDb → Except Err (c.Reply × ReferralDb)
  | .findUser id, st =>
    if st.db.userExists id then .ok ((), st)
    else .error (.notFound ("User " ++ toString id ++ " not found"))
  | .findByReferred referredId, st => .ok (st.findByReferred referredId, st)
  | .findByCode code, st => .ok (st.findByCode code, st)
  | .countByReferrer referrerId, st => .ok (st.countByReferrer referrerId, st)
  | .findReferral id, st => .ok (st.referral id, st)
  | .now, st => .ok (st.db.now, st)
  | .insert referral, st =>
    match st.insert (referral.stamp st.db.now) with
    | .error e => .error e
    | .ok st' => .ok (referral.stamp st.db.now, st')
  | .save referral, st =>
    match st.save referral with
    | .error e => .error e
    | .ok st' => .ok ((), st')
  | .startTransaction, st => .ok ((), st)
  | .adjustBalance call referralId accountId currency delta, st =>
    match st.db.adjustBalance call referralId accountId currency delta with
    | .error e => .error e
    | .ok (_, db) => .ok ((), { st with db := db })
  | .managerSaveReward reward, st => .ok (reward.stamp st.db.now, st)
  | .managerSaveReferral referral, st =>
    match st.save referral with
    | .error e => .error e
    | .ok _ => .ok ((), st)
  | .commit reward referral, st =>
    match st.save referral with
    | .error e => .error e
    | .ok st' => .ok ((), { st' with rewards := st'.rewards ++ [reward] })
  | .tick ms, st => .ok ((), { st with db := { st.db with now := st.db.now + ms } })

-- ---------------------------------------------------------------------------
-- The service
-- ---------------------------------------------------------------------------

abbrev ReferralProc := Proc ReferralCmd ReferralCmd.Reply Err

abbrev await (c : ReferralCmd) : ReferralProc c.Reply := Proc.call c

/-- What the service reads from the configuration under `referral`. -/
structure ReferralConfig where
  programActive : Bool
  maxReferrals : Option ℕ
  rewardAmount : Option ℚ

/-- `maxReferrals ?? 100`. -/
def ReferralConfig.limit (config : ReferralConfig) : ℕ := config.maxReferrals.getD 100

/-- `rewardAmount ?? 10`. -/
def ReferralConfig.amount (config : ReferralConfig) : ℚ := config.rewardAmount.getD 10

def base36Digit (d : ℕ) : Char := if d < 10 then Char.ofNat (48 + d) else Char.ofNat (55 + d)

/-- `t.toString(36).toUpperCase()`. -/
def base36 (t : Time) : String :=
  if t = 0 then "0" else String.ofList ((Nat.digits 36 t).reverse.map base36Digit)

example : base36 1767225600000 = "MJUOHS00" := by decide +kernel

section Service

-- `short` is the head of a user's key, `id.slice(0, 8).toUpperCase()`
variable (short : UserId → String) (config : ReferralConfig)

def referralCode (referrerId : UserId) (now : Time) : String :=
  "REF-" ++ short referrerId ++ "-" ++ base36 now

/-- `referralRepo.create`. -/
def createReferral (i : ℕ) (referrerId : UserId) (code : String) : Referral where
  id := i
  referrerId := referrerId
  referredId := referrerId
  referralCode := code
  status := .pending
  createdAt := 0
  qualifiedAt := none
  rewardedAt := none

def generateCode (i : ℕ) (referrerId : UserId) : ReferralProc Referral := do
  await (.findUser referrerId)
  let now ← await .now
  await (.insert (createReferral i referrerId (referralCode short referrerId now)))

/-- `referral.referredId = refereeId; referral.status = PENDING`. -/
def Referral.applied (referral : Referral) (refereeId : UserId) : Referral :=
  { referral with referredId := refereeId, status := .pending }

def applyCode (code : String) (refereeId : UserId) : ReferralProc Referral := do
  Proc.rejectWhen (config.programActive = false) (.badRequest "Referral program is not active")
  await (.findUser refereeId)
  let existing ← await (.findByReferred refereeId)
  Proc.rejectWhen (existing.isSome = true) (.badRequest "User has already been referred")
  match ← await (.findByCode code) with
  | none => Proc.throw (.notFound "Referral code not found")
  | some referral =>
    let referrerCount ← await (.countByReferrer referral.referrerId)
    Proc.rejectWhen (config.limit ≤ referrerCount)
      (.badRequest "Referrer has reached the maximum referral limit")
    await (.save (referral.applied refereeId))
    return referral.applied refereeId

/-- `referral.status = QUALIFIED; referral.qualifiedAt = new Date()`. -/
def Referral.qualified (referral : Referral) (t : Time) : Referral :=
  { referral with status := .qualified, qualifiedAt := some t }

def qualifyReferral (referralId : ℕ) : ReferralProc Referral := do
  match ← await (.findReferral referralId) with
  | none => Proc.throw (.notFound ("Referral " ++ toString referralId ++ " not found"))
  | some referral =>
    Proc.rejectWhen (referral.status ≠ .pending) (.badRequest "Referral is not in pending status")
    let now ← await .now
    await (.save (referral.qualified now))
    return referral.qualified now

/-- `referral.status = REWARDED; referral.rewardedAt = new Date()`. -/
def Referral.rewarded (referral : Referral) (t : Time) : Referral :=
  { referral with status := .rewarded, rewardedAt := some t }

/-- `manager.create(ReferralReward, ...)`. -/
def createReward (i referralId : ℕ) (amount : ℚ) (now : Time) : ReferralReward where
  id := i
  referralId := referralId
  rewardType := .credit
  amount := amount
  currency := "USD"
  status := .paid
  createdAt := 0
  paidAt := some now

def rewardReferral (i referralId : ℕ) : ReferralProc (Referral × ReferralReward) := do
  match ← await (.findReferral referralId) with
  | none => Proc.throw (.notFound ("Referral " ++ toString referralId ++ " not found"))
  | some referral =>
    Proc.rejectWhen (referral.status ≠ .qualified)
      (.badRequest "Referral must be qualified before rewarding")
    await .startTransaction
    await (.adjustBalance i referral.id referral.referrerId "USD" config.amount)
    let paidAt ← await .now
    let reward ← await (.managerSaveReward (createReward i referral.id config.amount paidAt))
    let rewardedAt ← await .now
    await (.managerSaveReferral (referral.rewarded rewardedAt))
    await (.commit reward (referral.rewarded rewardedAt))
    return (referral.rewarded rewardedAt, reward)

inductive ReferralCall where
  | generateCode (referrerId : UserId)
  | applyCode (code : String) (refereeId : UserId)
  | qualifyReferral (referralId : ℕ)
  | rewardReferral (referralId : ℕ)
  deriving DecidableEq

/-- What a call returns: the referral, and the reward if it made one. -/
abbrev Returned := Referral × Option ReferralReward

/-- The method behind a call. -/
def prog (i : ℕ) : ReferralCall → ReferralProc Returned
  | .generateCode referrerId => do return (← generateCode short i referrerId, none)
  | .applyCode code refereeId => do return (← applyCode config code refereeId, none)
  | .qualifyReferral referralId => do return (← qualifyReferral referralId, none)
  | .rewardReferral referralId => do
    let (referral, reward) ← rewardReferral config i referralId
    return (referral, some reward)

/-- All calls of the service, interleaved at every await. -/
def server : System ReferralCall ReferralCmd ReferralCmd.Reply Err ReferralDb Returned where
  prog := prog short config
  exec := exec
  mayFail := fun c => decide (c ≠ .now)

/-- The `rewardReferral` calls alone: a call is given by its referral. -/
def rewardServer :
    System ℕ ReferralCmd ReferralCmd.Reply Err ReferralDb (Referral × ReferralReward) where
  prog := rewardReferral config
  exec := exec
  mayFail := fun c => decide (c ≠ .now)

-- ---------------------------------------------------------------------------
-- Sequences of calls
-- ---------------------------------------------------------------------------

/-- A call with what it returned or threw and the state before and after it. -/
structure ReferralEntry where
  call : ReferralCall
  result : Except Err Returned
  before : ReferralDb
  after : ReferralDb

def ReferralDb.atTime (st : ReferralDb) (t : Time) : ReferralDb :=
  { st with db := { st.db with now := t } }

/-- The calls one after the other, each at its own time; `n` numbers them. -/
def sequence : ℕ → ReferralDb → List (Time × ReferralCall) → List ReferralEntry
  | _, _, [] => []
  | n, st, (t, k) :: calls =>
    let r := (prog short config n k).run exec Proc.noFault (st.atTime t)
    ⟨k, r.1, st.atTime t, r.2⟩ :: sequence (n + 1) r.2 calls

end Service

/-- No code has been generated. -/
def start (db : Db) : ReferralDb := ⟨[], [], db⟩

-- ---------------------------------------------------------------------------
-- What a save writes
-- ---------------------------------------------------------------------------

theorem save_ok {st st' : ReferralDb} {referral : Referral} (h : st.save referral = .ok st') :
    st.violatesUnique referral = false ∧ st' = st.put referral := by
  unfold ReferralDb.save at h
  split at h
  · cases h
  · rename_i hunique
    exact ⟨by simpa using hunique, (Except.ok.inj h).symm⟩

theorem insert_ok {st st' : ReferralDb} {referral : Referral} (h : st.insert referral = .ok st') :
    st.referral referral.id = none ∧ st.violatesUnique referral = false ∧
      st' = st.put referral := by
  unfold ReferralDb.insert at h
  split at h
  · cases h
  · rename_i hnew
    exact ⟨by simpa using hnew, save_ok h⟩

theorem referral_put (st : ReferralDb) (referral : Referral) (id : ℕ) :
    (st.put referral).referral id = if referral.id = id then some referral else st.referral id :=
  Table.get_put ..

end Referrals

end NexaFx
