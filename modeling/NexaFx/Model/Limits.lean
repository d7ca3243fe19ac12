import NexaFx.Lib.Pool
import NexaFx.Model.Commands

/-!
# NexaFx — transaction limits

`transactions/transaction-limit.service.ts`. A check converts the amount to
USD, which may suspend while a rate is fetched, and then compares and adds it
to two accumulators. From the rate on, the check is synchronous: its reads and
writes of the accumulators are one step (`accumulate`), keyed by the UTC day
and month that the clock shows by then. The two keys come from two readings of
the clock.

`accepted` is ghost state: the amounts that passed, with the keys they were
added under. `Model.Commands` uses the whole check as one atomic step;
`check_alone` is the connection.
-/

namespace NexaFx

open Async

namespace Limits

-- ---------------------------------------------------------------------------
-- State
-- ---------------------------------------------------------------------------

/-- An amount that passed the check. -/
structure Acceptance where
  userId : UserId
  amountUsd : ℚ
  day : ℕ
  month : ℕ
  deriving DecidableEq

structure LimitState where
  /-- The rate to USD that the rate service would return. -/
  usdRate : String → Option ℚ
  now : Time
  dailyTotals : UserId → ℕ → ℚ
  monthlyTotals : UserId → ℕ → ℚ
  accepted : List Acceptance

/-- The accumulators of a process that has just started. -/
def LimitState.fresh (usdRate : String → Option ℚ) (now : Time) : LimitState :=
  ⟨usdRate, now, fun _ _ => 0, fun _ _ => 0, []⟩

/-- `map.set(key, total)`. -/
def setTotal (totals : UserId → ℕ → ℚ) (userId : UserId) (key : ℕ) (total : ℚ) :
    UserId → ℕ → ℚ :=
  Function.update totals userId (Function.update (totals userId) key total)

-- ---------------------------------------------------------------------------
-- Commands
-- ---------------------------------------------------------------------------

inductive LimitCmd where
  /-- `exchangeRate.getRate(currency, 'USD')`. -/
  | getRate (currency : String)
  /-- `new Date()`, which is no await and cannot fail. -/
  | now
  /-- The synchronous rest of the check. -/
  | accumulate (userId : UserId) (amountUsd : ℚ) (day month : ℕ)
  /-- Time passes. -/
  | tick (ms : ℕ)
  /-- The rate of a currency changes. -/
  | quote (currency : String) (rate : Option ℚ)
  deriving DecidableEq

@[reducible] def LimitCmd.Reply : LimitCmd → Type
  | .getRate _ => ℚ
  | .now => Time
  | _ => Unit

/-- Both totals are compared before either is stored. -/
def accumulate (settings : Settings) (s : LimitState) (userId : UserId) (amountUsd : ℚ)
    (day month : ℕ) : Except Err LimitState :=
  let dayTotal := s.dailyTotals userId day + amountUsd
  let monTotal := s.monthlyTotals userId month + amountUsd
  if settings.dailyLimitUsd < dayTotal then
    .error (.limitExceeded "Transaction would exceed daily USD-equivalent limit of $"
      settings.dailyLimitUsd)
  else if settings.monthlyLimitUsd < monTotal then
    .error (.limitExceeded "Transaction would exceed monthly USD-equivalent limit of $"
      settings.monthlyLimitUsd)
  else
    .ok { s with
      dailyTotals := setTotal s.dailyTotals userId day dayTotal
      monthlyTotals := setTotal s.monthlyTotals userId month monTotal
      accepted := s.accepted ++ [⟨userId, amountUsd, day, month⟩] }

def exec (settings : Settings) : (c : LimitCmd) → LimitState → Except Err (c.Reply × LimitState)
  | .getRate currency, s =>
    match s.usdRate currency with
    | none => .error (.unavailable "Exchange rate providers are currently unavailable")
    | some rate => .ok (rate, s)
  | .now, s => .ok (s.now, s)
  | .accumulate userId amountUsd day month, s =>
    match accumulate settings s userId amountUsd day month with
    | .error e => .error e
    | .ok s' => .ok ((), s')
  | .tick ms, s => .ok ((), { s with now := s.now + ms })
  | .quote currency rate, s =>
    .ok ((), { s with usdRate := Function.update s.usdRate currency rate })

-- ---------------------------------------------------------------------------
-- The service
-- ---------------------------------------------------------------------------

abbrev LimitProc := Proc LimitCmd LimitCmd.Reply Err

abbrev await (c : LimitCmd) : LimitProc c.Reply := Proc.call c

def toUsd (amount : ℚ) (currency : String) : LimitProc ℚ :=
  if toUpperCase currency.toList = ['U', 'S', 'D'] then return amount
  else do
    let rate ← await (.getRate currency)
    return amount * rate

/-- `check` from the amount in USD on. -/
def checkUsd (settings : Settings) (userId : UserId) (amountUsd : ℚ) : LimitProc Unit := do
  Proc.rejectWhen (settings.singleTxLimitUsd < amountUsd)
    (.limitExceeded "Transaction exceeds single-transaction USD-equivalent limit of $"
      settings.singleTxLimitUsd)
  let today ← await .now
  let thisMonth ← await .now
  await (.accumulate userId amountUsd (dayOf today) (monthOf thisMonth))

def check (settings : Settings) (userId : UserId) (amount : ℚ) (currency : String) :
    LimitProc Unit := do
  let amountUsd ← toUsd amount currency
  checkUsd settings userId amountUsd

/-- A check; or the clock or a rate moves. -/
inductive LimitCall where
  | check (userId : UserId) (amount : ℚ) (currency : String)
  | tick (ms : ℕ)
  | quote (currency : String) (rate : Option ℚ)
  deriving DecidableEq

def prog (settings : Settings) : LimitCall → LimitProc Unit
  | .check userId amount currency => check settings userId amount currency
  | .tick ms => await (.tick ms)
  | .quote currency rate => await (.quote currency rate)

/-- Fetching a rate is the one thing that can fail from outside. -/
def mayFail : LimitCmd → Bool
  | .getRate _ => true
  | _ => false

/-- All checks, interleaved where they suspend. -/
def server (settings : Settings) :
    System LimitCall LimitCmd LimitCmd.Reply Err LimitState Unit where
  prog := fun _ => prog settings
  exec := exec settings
  mayFail := mayFail

abbrev LimitConfig := Config LimitCall LimitCmd LimitCmd.Reply Err LimitState Unit

def start (usdRate : String → Option ℚ) (now : Time) : LimitConfig :=
  ⟨.fresh usdRate now, []⟩

-- ---------------------------------------------------------------------------
-- One check alone
-- ---------------------------------------------------------------------------

/-- What a check sees of the database. -/
def ofDb (db : Db) : LimitState :=
  ⟨db.usdRate, db.now, db.dailyTotals, db.monthlyTotals, []⟩

theorem accumulate_ok {settings : Settings} {s s' : LimitState} {userId : UserId} {amountUsd : ℚ}
    {day month : ℕ} (h : accumulate settings s userId amountUsd day month = .ok s') :
    s.dailyTotals userId day + amountUsd ≤ settings.dailyLimitUsd ∧
    s.monthlyTotals userId month + amountUsd ≤ settings.monthlyLimitUsd ∧
    s' = { s with
      dailyTotals := setTotal s.dailyTotals userId day (s.dailyTotals userId day + amountUsd)
      monthlyTotals :=
        setTotal s.monthlyTotals userId month (s.monthlyTotals userId month + amountUsd)
      accepted := s.accepted ++ [⟨userId, amountUsd, day, month⟩] } := by
  unfold accumulate at h
  simp only at h
  split at h
  · cases h
  · rename_i hday
    split at h
    · cases h
    · rename_i hmonth
      exact ⟨not_lt.mp hday, not_lt.mp hmonth, (Except.ok.inj h).symm⟩

/-- The accumulators after an accepted check of `db` are those of `s`. -/
def SameTotals (s : LimitState) (db : Db) : Prop :=
  s.dailyTotals = db.dailyTotals ∧ s.monthlyTotals = db.monthlyTotals

/-- A check ends as `Db.limitCheck` does, with the same accumulators. -/
def Agrees (r : Except Err Unit × LimitState) (db : Db) (r' : Except Err Db) : Prop :=
  match r' with
  | .ok db' => r.1 = .ok () ∧ SameTotals r.2 db'
  | .error e => r.1 = .error e ∧ SameTotals r.2 db

theorem run_accumulate (settings : Settings) (userId : UserId) (amountUsd : ℚ) (day month : ℕ)
    (s : LimitState) :
    (await (.accumulate userId amountUsd day month)).run (exec settings) Proc.noFault s =
      match accumulate settings s userId amountUsd day month with
      | .ok s' => (.ok (), s')
      | .error e => (.error e, s) := by
  rw [Proc.run_call]
  simp only [Proc.noFault, outcome_none, exec]
  cases accumulate settings s userId amountUsd day month <;> rfl

theorem checkUsd_alone (db : Db) (userId : UserId) (amountUsd : ℚ) {amount : ℚ} {currency : String}
    (h : db.toUsd amount currency = some amountUsd) :
    Agrees ((checkUsd db.settings userId amountUsd).run (exec db.settings) Proc.noFault (ofDb db))
      db (db.limitCheck userId amount currency) := by
  unfold Db.limitCheck checkUsd
  simp only [h, Proc.bind_eq, Proc.run_rejectWhen_bind]
  by_cases hsingle : db.settings.singleTxLimitUsd < amountUsd
  · rw [if_pos hsingle, if_pos hsingle]
    exact ⟨rfl, rfl, rfl⟩
  rw [if_neg hsingle, if_neg hsingle, Proc.run_call_bind_ok rfl rfl, Proc.run_call_bind_ok rfl rfl,
    run_accumulate]
  by_cases hday : db.settings.dailyLimitUsd < db.dailyTotals userId (dayOf db.now) + amountUsd
  · have hacc : accumulate db.settings (ofDb db) userId amountUsd (dayOf db.now) (monthOf db.now) =
        .error _ := if_pos hday
    rw [if_pos hday]
    simp only [ofDb] at hacc ⊢
    rw [hacc]
    exact ⟨rfl, rfl, rfl⟩
  by_cases hmonth :
      db.settings.monthlyLimitUsd < db.monthlyTotals userId (monthOf db.now) + amountUsd
  · have hacc : accumulate db.settings (ofDb db) userId amountUsd (dayOf db.now) (monthOf db.now) =
        .error _ := (if_neg hday).trans (if_pos hmonth)
    rw [if_neg hday, if_pos hmonth]
    simp only [ofDb] at hacc ⊢
    rw [hacc]
    exact ⟨rfl, rfl, rfl⟩
  · have hacc : accumulate db.settings (ofDb db) userId amountUsd (dayOf db.now) (monthOf db.now) =
        .ok _ := (if_neg hday).trans (if_neg hmonth)
    rw [if_neg hday, if_neg hmonth]
    simp only [ofDb] at hacc ⊢
    rw [hacc]
    exact ⟨rfl, rfl, rfl⟩

/-- **Alone, a check is the atomic step of `Db.limitCheck`.** -/
theorem check_alone (db : Db) (userId : UserId) (amount : ℚ) (currency : String) :
    Agrees ((check db.settings userId amount currency).run (exec db.settings) Proc.noFault
      (ofDb db)) db (db.limitCheck userId amount currency) := by
  unfold check toUsd
  by_cases husd : toUpperCase currency.toList = ['U', 'S', 'D']
  · rw [if_pos husd]
    exact checkUsd_alone db userId amount (if_pos husd)
  · rw [if_neg husd]
    simp only [Proc.bind_eq, Proc.bind_assoc, Proc.pure_eq, Proc.done_ok_bind]
    have hto : db.toUsd amount currency = (db.usdRate currency).map (amount * ·) := if_neg husd
    cases hrate : db.usdRate currency with
    | none =>
      rw [hrate] at hto
      have hexec : outcome (Proc.noFault (LimitCmd.getRate currency))
          (exec db.settings (.getRate currency) (ofDb db)) =
          .error (.unavailable "Exchange rate providers are currently unavailable") := by
        simp only [Proc.noFault, outcome_none, exec, ofDb, hrate]
      rw [Proc.run_call_bind_error hexec, Db.limitCheck, hto]
      exact ⟨rfl, rfl, rfl⟩
    | some rate =>
      rw [hrate] at hto
      have hexec : exec db.settings (.getRate currency) (ofDb db) = .ok (rate, ofDb db) := by
        simp only [exec, ofDb, hrate]
      rw [Proc.run_call_bind_ok rfl hexec]
      exact checkUsd_alone db userId _ hto

end Limits

end NexaFx
