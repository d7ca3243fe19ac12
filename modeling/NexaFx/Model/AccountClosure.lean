import NexaFx.Model.Transactions

/-!
# NexaFx — closing an account

`users/account-closure.service.ts` and `getBalancesForAccount` of
`wallet/wallets.service.ts`, await by await, beside the transaction services
(`Proc.embed`), which have no part in the table of accounts.

A `decimal` column is loaded as a string, and `!==` compares a string with a
number without converting either. Password hashes, TOTP codes, the claims of a
token and the date arithmetic of the server's time zone are parameters.
-/

namespace NexaFx

open Async

namespace AccountClosure

-- ---------------------------------------------------------------------------
-- Values as JavaScript compares them
-- ---------------------------------------------------------------------------

inductive JsValue where
  | number (q : ℚ)
  | string (s : String)
  deriving DecidableEq

/-- `a !== b`. -/
def JsValue.strictNe (a b : JsValue) : Bool := decide (a ≠ b)

/-- The text of a `decimal(20,2)` column, from its hundredths. -/
def decimalText (cents : ℤ) : String :=
  let digits := toString (cents.natAbs % 100)
  (if cents < 0 then "-" else "") ++ toString (cents.natAbs / 100) ++ "." ++
    (if digits.length < 2 then "0" ++ digits else digits)

example : decimalText 0 = "0.00" := by decide +kernel
example : decimalText (-1205) = "-12.05" := by decide +kernel

-- ---------------------------------------------------------------------------
-- The tables
-- ---------------------------------------------------------------------------

structure UserAccount where
  id : UserId
  email : String
  displayName : String
  passwordSalt : String
  passwordHash : String
  twoFactorSecret : String
  isActive : Bool
  deletedAt : Option Time
  closedAt : Option Time
  piiPurgeAt : Option Time
  piiPurgedAt : Option Time
  finalEmailSentAt : Option Time
  deriving DecidableEq

structure RefreshToken where
  userId : UserId
  revokedAt : Option Time
  deriving DecidableEq

/-- An element of what `getBalancesForAccount` returns. -/
structure WalletBalance where
  accountId : UserId
  currency : String
  balance : JsValue
  label : Option String
  color : Option String
  deriving DecidableEq

def WalletBalance.of (wallet : Wallet) : WalletBalance where
  accountId := wallet.accountId
  currency := wallet.currency
  balance := .string (decimalText wallet.balance)
  label := wallet.label
  color := wallet.color

structure ClosureDb where
  db : Db
  accounts : List UserAccount
  refreshTokens : List RefreshToken

namespace ClosureDb

def account (st : ClosureDb) (id : UserId) : Option UserAccount :=
  Table.get UserAccount.id st.accounts id

def walletsOf (st : ClosureDb) (accountId : UserId) : List Wallet :=
  st.db.wallets.filter fun w => decide (w.accountId = accountId)

def getBalancesForAccount (st : ClosureDb) (accountId : UserId) : List WalletBalance :=
  (st.walletsOf accountId).map WalletBalance.of

def saveAccount (st : ClosureDb) (account : UserAccount) : ClosureDb :=
  { st with accounts := Table.put UserAccount.id account st.accounts }

/-- `refreshTokenRepository.update({ userId }, { revokedAt })`. -/
def revokeTokens (st : ClosureDb) (userId : UserId) (revokedAt : Time) : ClosureDb :=
  { st with refreshTokens := st.refreshTokens.map fun t =>
      if t.userId = userId then { t with revokedAt := some revokedAt } else t }

end ClosureDb

-- ---------------------------------------------------------------------------
-- Commands
-- ---------------------------------------------------------------------------

/-- What the service runs with. -/
structure Service where
  /-- `claims.sub` of a token that `verifyAsync` accepts at the time. -/
  subject : String → Time → Option UserId
  hashPassword : String → String → String
  generateTwoFactorCode : String → ℤ → String
  /-- `setFullYear(getFullYear() + years)`. -/
  addYears : Time → ℕ → Time

inductive ClosureCmd where
  | verifyAsync (token : String)
  | findAccount (id : UserId)
  | getBalancesForAccount (accountId : UserId)
  | saveAccount (account : UserAccount)
  | revokeTokens (userId : UserId) (revokedAt : Time)
  | sendFinalConfirmation (email displayName : String)
  | tx (c : Cmd)
  deriving DecidableEq

@[reducible] def ClosureCmd.Reply : ClosureCmd → Type
  | .verifyAsync _ => UserId
  | .findAccount _ => Option UserAccount
  | .getBalancesForAccount _ => List WalletBalance
  | .tx c => c.Reply
  | _ => Unit

def exec (svc : Service) : (c : ClosureCmd) → ClosureDb → Except Err (c.Reply × ClosureDb)
  | .verifyAsync token, st =>
    match svc.subject token st.db.now with
    | some sub => .ok (sub, st)
    | none => .error (.unauthorized "invalid token")
  | .findAccount id, st => .ok (st.account id, st)
  | .getBalancesForAccount accountId, st => .ok (st.getBalancesForAccount accountId, st)
  | .saveAccount account, st => .ok ((), st.saveAccount account)
  | .revokeTokens userId revokedAt, st => .ok ((), st.revokeTokens userId revokedAt)
  | .sendFinalConfirmation _ _, st => .ok ((), st)
  | .tx c, st =>
    match NexaFx.exec c st.db with
    | .error e => .error e
    | .ok (a, db) => .ok (a, { st with db := db })

def mayFail : ClosureCmd → Bool
  | .tx c => NexaFx.mayFail c
  | _ => true

abbrev ClosureProc := Proc ClosureCmd ClosureCmd.Reply Err

abbrev await (c : ClosureCmd) : ClosureProc c.Reply := Proc.call c

-- ---------------------------------------------------------------------------
-- The service
-- ---------------------------------------------------------------------------

def TWO_FACTOR_TIME_STEP_SECONDS : ℕ := 30

def PII_RETENTION_YEARS : ℕ := 7

/-- `/^\d{6}$/`. -/
def isSixDigits (code : List Char) : Bool := decide (code.length = 6) && code.all Char.isDigit

def Service.isTwoFactorCodeValid (svc : Service) (secret code : String) (now : Time) : Bool :=
  let normalizedCode := trim code.toList
  if isSixDigits normalizedCode then
    let currentWindow : ℤ := (now / 1000 / TWO_FACTOR_TIME_STEP_SECONDS : ℕ)
    [currentWindow - 1, currentWindow, currentWindow + 1].any fun window =>
      decide (svc.generateTwoFactorCode secret window = String.ofList normalizedCode)
  else false

def Service.buildPiiPurgeDate (svc : Service) (referenceDate : Time) : Time :=
  svc.addYears referenceDate PII_RETENTION_YEARS

def verifyAccessToken (token : String) : ClosureProc UserId := do
  match ← (await (.verifyAsync token)).attempt with
  | .ok sub => return sub
  | .error _ => Proc.throw (.unauthorized "Invalid access token")

/-- `balances.some((balance) => balance.balance !== 0)`. -/
def hasFunds (balances : List WalletBalance) : Bool :=
  balances.any fun balance => balance.balance.strictNe (.number 0)

def assertZeroBalance (accountId : UserId) : ClosureProc Unit := do
  let balances ← await (.getBalancesForAccount accountId)
  Proc.rejectWhen (hasFunds balances = true)
    (.unprocessable "Account balance must be zero before closure")

structure AccountClosureResult where
  deletedAt : Time
  piiPurgeAt : Time
  deriving DecidableEq

/-- The account as `closeAccount` stores it first. -/
def Service.closed (svc : Service) (account : UserAccount) (now : Time) : UserAccount :=
  { account with
    isActive := false
    deletedAt := some now
    closedAt := some now
    piiPurgeAt := some (svc.buildPiiPurgeDate now) }

/-- The `try` block. -/
def sendConfirmation (account : UserAccount) : ClosureProc Unit := do
  await (.sendFinalConfirmation account.email account.displayName)
  let now ← await (.tx .now)
  await (.saveAccount { account with finalEmailSentAt := some now })

/-- What `closeAccount` does when the checks are passed. -/
def Service.closeChecked (svc : Service) (account : UserAccount) : ClosureProc AccountClosureResult := do
  let now ← await (.tx .now)
  await (.saveAccount (svc.closed account now))
  await (.revokeTokens account.id now)
  let _ ← (sendConfirmation (svc.closed account now)).attempt
  return ⟨now, svc.buildPiiPurgeDate now⟩

def Service.closeAccount (svc : Service) (accessToken currentPassword twoFactorCode : String) :
    ClosureProc AccountClosureResult := do
  Proc.rejectWhen (currentPassword = "" ∨ twoFactorCode = "")
    (.unauthorized "Password and 2FA confirmation are required")
  let sub ← verifyAccessToken accessToken
  match ← await (.findAccount sub) with
  | none => Proc.throw (.unauthorized "Account not found")
  | some account =>
    Proc.rejectWhen (account.isActive = false) (.unauthorized "Account not found")
    Proc.rejectWhen (svc.hashPassword currentPassword account.passwordSalt ≠ account.passwordHash)
      (.unauthorized "Invalid password")
    let now ← await (.tx .now)
    Proc.rejectWhen (svc.isTwoFactorCodeValid account.twoFactorSecret twoFactorCode now = false)
      (.unauthorized "Invalid two-factor code")
    assertZeroBalance account.id
    svc.closeChecked account

-- ---------------------------------------------------------------------------
-- The server
-- ---------------------------------------------------------------------------

inductive ClosureCall where
  | close (accessToken currentPassword twoFactorCode : String)
  | tx (k : Call)
  deriving DecidableEq

inductive Answer where
  | closed (r : AccountClosureResult)
  | transaction (tx : Option Transaction)
  deriving DecidableEq

def prog (svc : Service) (i : ℕ) : ClosureCall → ClosureProc Answer
  | .close accessToken currentPassword twoFactorCode => do
    return .closed (← svc.closeAccount accessToken currentPassword twoFactorCode)
  | .tx k => (NexaFx.prog i k).embed .tx (fun _ a => a) Answer.transaction

/-- Closures and all calls of the transaction services, interleaved at every await. -/
def server (svc : Service) :
    System ClosureCall ClosureCmd ClosureCmd.Reply Err ClosureDb Answer where
  prog := prog svc
  exec := exec svc
  mayFail := mayFail

abbrev ClosureConfig := Config ClosureCall ClosureCmd ClosureCmd.Reply Err ClosureDb Answer

abbrev ClosureThread := Thread ClosureCall ClosureCmd ClosureCmd.Reply Err Answer

end AccountClosure

end NexaFx
