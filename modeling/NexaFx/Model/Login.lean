import NexaFx.Model.Auth

/-!
# NexaFx — password login

`AuthService.login` of `auth/auth.service.ts` over `UsersService.findByEmail`
and `UsersService.update`. Calls do not overlap, so a call is one function of
the users table and of the instant at which it is made.

`hash` is the digest of a password; two digests are compared byte by byte.
-/

namespace NexaFx

namespace Auth

-- ---------------------------------------------------------------------------
-- Users
-- ---------------------------------------------------------------------------

/-- `UserRole`. -/
inductive UserRole where
  | admin
  | user
  | compliance
  deriving DecidableEq, Repr

def UserRole.text : UserRole → String
  | .admin => "admin"
  | .user => "user"
  | .compliance => "compliance"

/-- A row of `users`: the columns that a login reads or writes. -/
structure User where
  id : UserId
  email : String
  passwordHash : String
  role : UserRole
  require2fa : Bool
  failedLoginAttempts : ℕ
  lockedUntil : Option Time
  deriving DecidableEq

/-- The `users` table, whose keys and e-mail addresses are unique. -/
structure Users where
  rows : List User
  ids : (rows.map User.id).Nodup
  emails : (rows.map User.email).Nodup

/-- The fields of an `UpdateUserDto` that a login sets. -/
structure UpdateUserDto where
  failedLoginAttempts : ℕ
  /-- Absent, or a value, which may be `null`. -/
  lockedUntil : Option (Option Time) := none

/-- `Object.assign(user, dto)`. -/
def User.assign (user : User) (dto : UpdateUserDto) : User :=
  { user with
    failedLoginAttempts := dto.failedLoginAttempts
    lockedUntil := dto.lockedUntil.getD user.lockedUntil }

namespace Users

def findByEmail (users : Users) (email : String) : Option User :=
  Table.get User.email users.rows email

def findById (users : Users) (id : UserId) : Option User := Table.get User.id users.rows id

/-- The row `id` is saved with the fields of `dto`. -/
def write (users : Users) (id : UserId) (dto : UpdateUserDto) : Users where
  rows := users.rows.map fun user => if user.id = id then user.assign dto else user
  ids := by
    have hsame : (users.rows.map fun user => if user.id = id then user.assign dto else user).map
        User.id = users.rows.map User.id := by
      rw [List.map_map]
      refine List.map_congr_left fun user _ => ?_
      by_cases h : user.id = id <;> simp [h, User.assign]
    rw [hsame]
    exact users.ids
  emails := by
    have hsame : (users.rows.map fun user => if user.id = id then user.assign dto else user).map
        User.email = users.rows.map User.email := by
      rw [List.map_map]
      refine List.map_congr_left fun user _ => ?_
      by_cases h : user.id = id <;> simp [h, User.assign]
    rw [hsame]
    exact users.emails

/-- `UsersService.update`. -/
def update (users : Users) (id : UserId) (dto : UpdateUserDto) : Except Err Users :=
  match users.findById id with
  | none => .error (.notFound ("User " ++ toString id ++ " not found"))
  | some _ => .ok (users.write id dto)

end Users

-- ---------------------------------------------------------------------------
-- Login
-- ---------------------------------------------------------------------------

structure LoginDto where
  email : String
  password : String
  totpCode : Option String
  deriving DecidableEq

/-- What the other services say about the user during the call. -/
structure Standing where
  termsAccepted : Bool
  isDeactivated : Bool
  deriving DecidableEq

/-- What a login throws: an exception of the framework, or the `ReferenceError`
of an identifier that is not declared. -/
inductive Thrown where
  | http (e : Err)
  | referenceError (message : String)
  deriving DecidableEq

def MAX_FAILED_ATTEMPTS : ℕ := 5

/-- `LOCKOUT_MINUTES`, in milliseconds. -/
def LOCKOUT_MS : ℕ := 30 * 60000

/-- The day of the month of a day number. -/
def dayOfMonth (day : ℕ) : ℕ :=
  let doe := (day + 719468) % 146097
  let yoe := (doe - doe / 1460 + doe / 36524 - doe / 146096) / 365
  let doy := doe - (365 * yoe + yoe / 4 - yoe / 100)
  doy - (153 * ((5 * doy + 2) / 153) + 2) / 5 + 1

/-- `n` with at least `width` digits. -/
def digits (width n : ℕ) : String := String.ofList (List.leftpad width '0' (Nat.toDigits 10 n))

/-- `toISOString`. -/
def toISOString (t : Time) : String :=
  digits 4 (civil (dayOf t)).1 ++ "-" ++ digits 2 (civil (dayOf t)).2 ++ "-" ++
    digits 2 (dayOfMonth (dayOf t)) ++ "T" ++ digits 2 (t / 3600000 % 24) ++ ":" ++
    digits 2 (t / 60000 % 60) ++ ":" ++ digits 2 (t / 1000 % 60) ++ "." ++
    digits 3 (t % 1000) ++ "Z"

example : toISOString 1709210096007 = "2024-02-29T12:34:56.007Z" := by decide +kernel

/-- `user.lockedUntil && user.lockedUntil > new Date()`. -/
def User.lock (user : User) (now : Time) : Option Time :=
  user.lockedUntil.filter fun until_ => decide (now < until_)

/-- The branch of a wrong password. At the threshold the argument of the update
names `lockedUntil`, which is not declared (the variable is `lockoutUntil`), so
the call throws before anything is stored or sent. -/
def rejectPassword (users : Users) (user : User) : Except Thrown Token × Users :=
  if MAX_FAILED_ATTEMPTS ≤ user.failedLoginAttempts + 1 then
    (.error (.referenceError "lockedUntil is not defined"), users)
  else
    match users.update user.id { failedLoginAttempts := user.failedLoginAttempts + 1 } with
    | .error e => (.error (.http e), users)
    | .ok users' => (.error (.http (.unauthorized "Invalid credentials")), users')

/-- What follows the reset: terms, deactivation, token. -/
def letIn (jwtExpiry : ℕ) (standing : Standing) (now : Time) (user : User) (users : Users) :
    Except Thrown Token × Users :=
  if standing.termsAccepted = false then (.error (.http (.forbidden "accept_terms")), users)
  else if standing.isDeactivated = true then
    (.error (.http (.unauthorized "Account has been deactivated by an administrator")), users)
  else (.ok (issueToken jwtExpiry now user.id user.email user.role.text), users)

/-- The branch of the right password: reset what is set, then go on. -/
def acceptPassword (jwtExpiry : ℕ) (standing : Standing) (now : Time) (users : Users)
    (user : User) : Except Thrown Token × Users :=
  if 0 < user.failedLoginAttempts ∨ user.lockedUntil.isSome = true then
    match users.update user.id { failedLoginAttempts := 0, lockedUntil := some none } with
    | .error e => (.error (.http e), users)
    | .ok users' => letIn jwtExpiry standing now user users'
  else letIn jwtExpiry standing now user users

/-- `login`: what it returns or throws, and the users after it. -/
def login (hash : String → String) (jwtExpiry : ℕ) (users : Users) (now : Time)
    (standing : Standing) (dto : LoginDto) : Except Thrown Token × Users :=
  match users.findByEmail dto.email with
  | none => (.error (.http (.unauthorized "Invalid credentials")), users)
  | some user =>
    if user.role = .admin ∧ user.require2fa = true ∧ dto.totpCode.getD "" = "" then
      (.error (.http (.forbidden "2FA code required for admin accounts")), users)
    else
      match user.lock now with
      | some until_ => (.error (.http (.forbidden ("Account is locked until " ++
          toISOString until_ ++ ". Try again later."))), users)
      | none =>
        if hash dto.password ≠ user.passwordHash then rejectPassword users user
        else acceptPassword jwtExpiry standing now users user

/-! ### Sequences of calls -/

structure LoginCall where
  now : Time
  standing : Standing
  dto : LoginDto
  deriving DecidableEq

/-- A call with what it returned or threw and the users before and after it. -/
structure LoginEntry where
  call : LoginCall
  result : Except Thrown Token
  before : Users
  after : Users

/-- The calls one after the other. -/
def logins (hash : String → String) (jwtExpiry : ℕ) : Users → List LoginCall → List LoginEntry
  | _, [] => []
  | users, call :: calls =>
    let r := login hash jwtExpiry users call.now call.standing call.dto
    ⟨call, r.1, users, r.2⟩ :: logins hash jwtExpiry r.2 calls

-- ---------------------------------------------------------------------------
-- What an update changes
-- ---------------------------------------------------------------------------

namespace Users

variable {users : Users} {user : User} {id : UserId} {email : String}

/-- A row that is found by its address is found by its key. -/
theorem findById_of_findByEmail (h : users.findByEmail email = some user) :
    users.findById user.id = some user :=
  Table.get_of_mem User.id users.ids (Table.mem_of_get User.email h)

theorem update_found (h : users.findByEmail email = some user) (dto : UpdateUserDto) :
    users.update user.id dto = .ok (users.write user.id dto) := by
  rw [update, findById_of_findByEmail h]

/-- An update keeps every address, so each account is found where it was. -/
theorem findByEmail_write (users : Users) (id : UserId) (dto : UpdateUserDto) (email : String) :
    (users.write id dto).findByEmail email =
      (users.findByEmail email).map fun user => if user.id = id then user.assign dto else user := by
  unfold findByEmail write Table.get
  rw [List.find?_map]
  congr 2
  funext user
  by_cases h : user.id = id <;> simp [h, User.assign]

/-- The account that is updated reads back with the fields assigned. -/
theorem findByEmail_written (h : users.findByEmail email = some user) (dto : UpdateUserDto) :
    (users.write user.id dto).findByEmail email = some (user.assign dto) := by
  rw [findByEmail_write, h]
  simp

end Users

end Auth

end NexaFx
