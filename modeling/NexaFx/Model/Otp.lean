import NexaFx.Lib.Pool
import NexaFx.Model.Database

/-!
# NexaFx — one-time passwords

`otp/otp.service.ts` (`generate`, `verify`) over the table `otps`, repository
call by repository call.

* A row is named by its user, its purpose and a serial number; the uuid of the
  source is unique to the row in the same way.
* `hmac` is the keyed digest of a code.
* `save` of a loaded entity writes the field that was changed. A row that is
  gone by then is inserted again as it was loaded.

`comparisons` and `accepted` are ghost state: the codes compared so far, and
the calls whose code was right with the row they used.
-/

namespace NexaFx

open Async

namespace Otps

-- ---------------------------------------------------------------------------
-- The table
-- ---------------------------------------------------------------------------

/-- `OtpPurpose`. -/
inductive OtpPurpose where
  | emailVerify
  | twoFa
  | passwordReset
  deriving DecidableEq, Repr

structure Otp where
  userId : UserId
  purpose : OtpPurpose
  serial : ℕ
  codeHash : String
  attempts : ℕ
  expiresAt : Time
  usedAt : Option Time
  createdAt : Time
  deriving DecidableEq

abbrev OtpId := UserId × OtpPurpose × ℕ

def Otp.id (otp : Otp) : OtpId := (otp.userId, otp.purpose, otp.serial)

structure OtpDb where
  otps : List Otp
  nextSerial : ℕ
  now : Time
  comparisons : List (OtpId × Bool)
  accepted : List (ℕ × Otp)

namespace OtpDb

def otp (db : OtpDb) (id : OtpId) : Option Otp := Table.get Otp.id db.otps id

def put (db : OtpDb) (otp : Otp) : OtpDb := { db with otps := Table.put Otp.id otp db.otps }

/-- The newest row of the list, the first one among equals. -/
def newest : List Otp → Option Otp
  | [] => none
  | otp :: rest =>
    match newest rest with
    | none => some otp
    | some later => if otp.createdAt < later.createdAt then some later else some otp

/-- `findOne({ where: { userId, purpose }, order: { createdAt: 'DESC' } })`. -/
def findLatest (db : OtpDb) (userId : UserId) (purpose : OtpPurpose) : Option Otp :=
  newest (db.otps.filter fun otp => decide (otp.userId = userId ∧ otp.purpose = purpose))

/-- `delete({ userId, purpose, usedAt: undefined })`: an undefined value is no
condition. -/
def delete (db : OtpDb) (userId : UserId) (purpose : OtpPurpose) : OtpDb :=
  { db with otps := db.otps.filter fun otp =>
      !decide (otp.userId = userId ∧ otp.purpose = purpose) }

/-- Ghost: the code of a call was compared with the hash of the row. -/
def noteComparison (db : OtpDb) (otp : Otp) (isValid : Bool) : OtpDb :=
  { db with comparisons := (otp.id, isValid) :: db.comparisons }

/-- Ghost: the call used the row. -/
def noteUse (db : OtpDb) (call : ℕ) (otp : Otp) : OtpDb :=
  { db with accepted := (call, otp) :: db.accepted }

/-- The row that `create` makes, with the column defaults. -/
def created (db : OtpDb) (userId : UserId) (purpose : OtpPurpose) (codeHash : String)
    (expiresAt : Time) : Otp where
  userId := userId
  purpose := purpose
  serial := db.nextSerial
  codeHash := codeHash
  attempts := 0
  expiresAt := expiresAt
  usedAt := none
  createdAt := db.now

end OtpDb

-- ---------------------------------------------------------------------------
-- Repository calls
-- ---------------------------------------------------------------------------

inductive OtpCmd where
  /-- `new Date()`, which is no await and cannot fail. -/
  | now
  | delete (userId : UserId) (purpose : OtpPurpose)
  | insert (userId : UserId) (purpose : OtpPurpose) (codeHash : String) (expiresAt : Time)
  | sendMail (userId : UserId)
  | findLatest (userId : UserId) (purpose : OtpPurpose)
  /-- No await: notes that a code was compared with the hash of the row. -/
  | compared (otp : Otp) (isValid : Bool)
  /-- `otp.attempts += 1; save(otp)`. -/
  | saveAttempts (otp : Otp)
  /-- `otp.usedAt = usedAt; save(otp)`, by the call `call`. -/
  | saveUsed (call : ℕ) (otp : Otp) (usedAt : Time)
  /-- Time passes. -/
  | tick (ms : ℕ)
  deriving DecidableEq

@[reducible] def OtpCmd.Reply : OtpCmd → Type
  | .now => Time
  | .findLatest _ _ => Option Otp
  | _ => Unit

/-- The row that a save of `attempts` writes over the stored one. -/
def Otp.withAttempts (otp : Otp) (attempts : ℕ) : Otp := { otp with attempts := attempts }

def Otp.withUsedAt (otp : Otp) (usedAt : Time) : Otp := { otp with usedAt := some usedAt }

def exec : (c : OtpCmd) → OtpDb → Except Err (c.Reply × OtpDb)
  | .now, db => .ok (db.now, db)
  | .delete userId purpose, db => .ok ((), db.delete userId purpose)
  | .insert userId purpose codeHash expiresAt, db =>
    .ok ((), { db.put (db.created userId purpose codeHash expiresAt) with
      nextSerial := db.nextSerial + 1 })
  | .sendMail _, db => .ok ((), db)
  | .findLatest userId purpose, db => .ok (db.findLatest userId purpose, db)
  | .compared otp isValid, db => .ok ((), db.noteComparison otp isValid)
  | .saveAttempts otp, db =>
    .ok ((), db.put (((db.otp otp.id).getD otp).withAttempts (otp.attempts + 1)))
  | .saveUsed call otp usedAt, db =>
    .ok ((), (db.put (((db.otp otp.id).getD otp).withUsedAt usedAt)).noteUse call otp)
  | .tick ms, db => .ok ((), { db with now := db.now + ms })

-- ---------------------------------------------------------------------------
-- The service
-- ---------------------------------------------------------------------------

abbrev OtpProc := Proc OtpCmd OtpCmd.Reply Err

abbrev await (c : OtpCmd) : OtpProc c.Reply := Proc.call c

def MAX_ATTEMPTS : ℕ := 5

section Service

variable (hmac : String → String) (expiry : ℕ)

/-- `generate` with the code that `randomSixDigit` gives. -/
def generate (userId : UserId) (purpose : OtpPurpose) (code : String) : OtpProc Unit := do
  let t ← await .now
  await (.delete userId purpose)
  await (.insert userId purpose (hmac code) (t + expiry * 1000))
  await (.sendMail userId)

/-- `verify` from the row it found on. -/
def verifyFound (i : ℕ) (code : String) (otp : Otp) : OtpProc Bool := do
  Proc.rejectWhen (otp.usedAt.isSome = true) (.unauthorized "OTP already used")
  let now ← await .now
  Proc.rejectWhen (otp.expiresAt < now) (.unauthorized "OTP expired")
  Proc.rejectWhen (MAX_ATTEMPTS ≤ otp.attempts) (.unauthorized "Max OTP attempts exceeded")
  let isValid := decide (hmac code = otp.codeHash)
  await (.compared otp isValid)
  if isValid = false then
    await (.saveAttempts otp)
    return false
  else
    let usedAt ← await .now
    await (.saveUsed i otp usedAt)
    return true

def verify (i : ℕ) (userId : UserId) (code : String) (purpose : OtpPurpose) : OtpProc Bool := do
  match ← await (.findLatest userId purpose) with
  | none => Proc.throw (.unauthorized "No OTP found")
  | some otp => verifyFound hmac i code otp

inductive OtpCall where
  | generate (userId : UserId) (purpose : OtpPurpose) (code : String)
  | verify (userId : UserId) (code : String) (purpose : OtpPurpose)
  | tick (ms : ℕ)
  deriving DecidableEq

/-- The method behind a call; `none` is a method that returns nothing. -/
def prog (i : ℕ) : OtpCall → OtpProc (Option Bool)
  | .generate userId purpose code => do
    generate hmac expiry userId purpose code
    return none
  | .verify userId code purpose => do return some (← verify hmac i userId code purpose)
  | .tick ms => do
    await (.tick ms)
    return none

/-- Neither the clock nor a note can fail. -/
def mayFail : OtpCmd → Bool
  | .now | .compared _ _ | .tick _ => false
  | _ => true

/-- All calls of the service, interleaved at every repository call. -/
def server : System OtpCall OtpCmd OtpCmd.Reply Err OtpDb (Option Bool) where
  prog := prog hmac expiry
  exec := exec
  mayFail := mayFail

end Service

abbrev OtpConfig := Config OtpCall OtpCmd OtpCmd.Reply Err OtpDb (Option Bool)

/-- No password has been generated. -/
def start (now : Time) : OtpConfig := ⟨⟨[], 0, now, [], []⟩, []⟩

-- ---------------------------------------------------------------------------
-- Rows and lookups
-- ---------------------------------------------------------------------------

section Rows

variable {db : OtpDb} {otp : Otp} {id : OtpId} {userId : UserId} {purpose : OtpPurpose}

theorem otp_put (db : OtpDb) (otp : Otp) (id : OtpId) :
    (db.put otp).otp id = if otp.id = id then some otp else db.otp id :=
  Table.get_put ..

theorem mem_of_newest : ∀ {rows : List Otp}, OtpDb.newest rows = some otp → otp ∈ rows
  | [], h => by cases h
  | first :: rest, h => by
    rw [OtpDb.newest] at h
    split at h
    · cases h
      exact List.mem_cons_self ..
    · rename_i later hrest
      split at h
      · cases h
        exact List.mem_cons_of_mem _ (mem_of_newest hrest)
      · cases h
        exact List.mem_cons_self ..

/-- What is found is a stored row of the user and the purpose. -/
theorem findLatest_some (h : db.findLatest userId purpose = some otp) :
    otp ∈ db.otps ∧ otp.userId = userId ∧ otp.purpose = purpose := by
  have hmem := List.mem_filter.mp (mem_of_newest h)
  simp only [decide_eq_true_eq] at hmem
  exact ⟨hmem.1, hmem.2.1, hmem.2.2⟩

/-- A deletion removes a row or leaves it. -/
theorem otp_delete (db : OtpDb) (userId : UserId) (purpose : OtpPurpose) (id : OtpId) :
    (db.delete userId purpose).otp id = db.otp id ∨ (db.delete userId purpose).otp id = none := by
  have hget := Table.get_filter_key Otp.id db.otps
    (fun id => !decide (id.1 = userId ∧ id.2.1 = purpose)) id
  by_cases h : id.1 = userId ∧ id.2.1 = purpose
  · right
    rw [if_neg (by simp [h])] at hget
    exact hget
  · left
    rw [if_pos (by rwa [Bool.not_eq_true', decide_eq_false_iff_not])] at hget
    exact hget

end Rows

end Otps

end NexaFx
