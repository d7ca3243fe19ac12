import NexaFx.Safety.Blocking

/-!
# NexaFx — limit usage and work done

`createDeposit`, `createWithdrawal` and `createSwap` count their amount when
the limit check passes, before the balance check, the row, the balance changes
and the retries. None of the later exits gives it back. So the accumulators are
what the completed calls add up to exactly when no call throws once its limit
check has passed (`usage_equals_work_iff`).

* `Counting.cases` — one call: its limit check did not pass and nothing is
  counted, or it passed and the rest of the call counts nothing more;
* `OneDay` — a user's calls on one day, one after the other, with anything else
  happening between them.
-/

namespace NexaFx

open Async Decimal Proc

-- ---------------------------------------------------------------------------
-- The three operations
-- ---------------------------------------------------------------------------

/-- A call that is checked against the limits. -/
inductive LimitedCall where
  | deposit (dto : DepositDto)
  | withdrawal (dto : WithdrawalDto)
  | swap (dto : SwapDto)
  deriving DecidableEq

namespace LimitedCall

def userId : LimitedCall → UserId
  | deposit dto => dto.userId
  | withdrawal dto => dto.userId
  | swap dto => dto.userId

/-- Amount plus fee. -/
def total : LimitedCall → ℚ
  | deposit dto => totalChecked dto.amount
  | withdrawal dto => totalChecked dto.amount
  | swap dto => totalChecked dto.fromAmount

def currency : LimitedCall → String
  | deposit dto => dto.currency
  | withdrawal dto => dto.currency
  | swap dto => dto.fromCurrency

/-- The method behind the call. -/
def prog (i : ℕ) : LimitedCall → TxProc Transaction
  | deposit dto => createDeposit i dto
  | withdrawal dto => createWithdrawal i dto
  | swap dto => createSwap i dto

/-- The limit check of the call. -/
def limitCmd (call : LimitedCall) : Cmd := .limitCheck call.userId call.total call.currency

end LimitedCall

-- ---------------------------------------------------------------------------
-- One call
-- ---------------------------------------------------------------------------

/-- What was added to the accumulators of the user under the keys of the day. -/
structure Db.CountedFor (db db' : Db) (u : UserId) (amountUsd : ℚ) : Prop where
  daily : db'.dailyTotals u (dayOf db.now) = db.dailyTotals u (dayOf db.now) + amountUsd
  monthly : db'.monthlyTotals u (monthOf db.now) = db.monthlyTotals u (monthOf db.now) + amountUsd

theorem Db.countedFor_limitCheck {db db' : Db} {u : UserId} {amount amountUsd : ℚ}
    {currency : String} (h : db.limitCheck u amount currency = .ok db')
    (husd : db.toUsd amount currency = some amountUsd) : db.CountedFor db' u amountUsd := by
  obtain ⟨usd, husd', rfl⟩ := Db.limitCheck_ok h
  rw [husd] at husd'
  cases husd'
  constructor <;> simp

/-- How a call that counts may end: its limit check has not passed, the call
throws and nothing has changed; or it has passed, and that is all that has been
counted. -/
structure Counting (call : LimitedCall) (p : TxProc Transaction) : Prop where
  cases : ∀ (φ : Cmd → Option Err) (db : Db),
    ((¬ ∃ st ∈ p.trace exec φ db, st.cmd = call.limitCmd ∧ st.ok = true) ∧
      (∃ e, (p.run exec φ db).1 = .error e) ∧ db.SameTotals (p.run exec φ db).2) ∨
    ((∃ st ∈ p.trace exec φ db, st.cmd = call.limitCmd ∧ st.ok = true) ∧
      ∃ db₁, db.limitCheck call.userId call.total call.currency = .ok db₁ ∧
        db₁.SameTotals (p.run exec φ db).2)

theorem counting_of_checks {call : LimitedCall} {guard : TxProc Unit} {rest : TxProc Transaction}
    {A : Db → Prop} (hguard : ∀ db, Checks exec guard db (A db))
    (hreads : guard.Issues (·.counts = false)) (hrest : rest.Issues (·.counts = false)) :
    Counting call (guard.bind fun _ => (await call.limitCmd).bind fun _ => rest) := by
  refine ⟨fun φ db => ?_⟩
  have hno : ∀ {α : Type} {p : TxProc α} {db : Db}, p.Issues (·.counts = false) →
      ¬ ∃ st ∈ p.trace exec φ db, st.cmd = call.limitCmd ∧ st.ok = true := by
    rintro α p db hp ⟨st, hst, hcmd, -⟩
    have hcounts := (trace_inv (I := fun _ => True) hp (fun _ _ _ _ _ _ _ => trivial) trivial st
      hst).1
    rw [hcmd] at hcounts
    cases hcounts
  have hguards := Proc.yields exec φ guard db
  rcases (hguard db).refuses φ with ⟨e, hrun⟩ | ⟨-, hrun⟩
  · -- a check before the limit fails
    rw [hrun] at hguards
    have hall := hguards.bind_error (k := fun _ => (await call.limitCmd).bind fun _ => rest)
    rw [hall.run, hall.trace]
    exact Or.inl ⟨hno hreads, ⟨e, rfl⟩, .refl db⟩
  rw [hrun] at hguards
  cases hout : outcome (φ call.limitCmd) (exec call.limitCmd db) with
  | error e =>
    have hall := hguards.bind (k := fun _ => (await call.limitCmd).bind fun _ => rest)
      ((Yields.call_error hout).bind_error)
    rw [hall.run, hall.trace]
    refine Or.inl ⟨?_, ⟨e, rfl⟩, .refl db⟩
    rintro ⟨st, hst, hcmd, hok⟩
    rcases List.mem_append.mp hst with hmem | hmem
    · exact hno hreads ⟨st, hmem, hcmd, hok⟩
    · rw [List.mem_singleton.mp hmem] at hok
      cases hok
  | ok r =>
    obtain ⟨a, db₁⟩ := r
    obtain ⟨hφ, hexec⟩ := outcome_eq_ok hout
    have hall := hguards.bind (k := fun _ => (await call.limitCmd).bind fun _ => rest)
      ((Yields.call hφ hexec).bind (Proc.yields exec φ rest db₁))
    rw [hall.run, hall.trace]
    refine Or.inr ⟨⟨⟨call.limitCmd, true, db₁⟩, ?_, rfl, rfl⟩, db₁, exec_limitCheck hexec,
      sameTotals_of_issues hrest φ db₁⟩
    exact List.mem_append.mpr (Or.inr (List.mem_cons_self ..))

theorem counting_counted {call : LimitedCall} {guard : TxProc Unit} {A : Db → Prop}
    {message : String} {tx : Transaction} {k : Transaction → TxProc Transaction}
    (hguard : ∀ db, Checks exec guard db (A db)) (hreads : guard.Issues (·.counts = false))
    (hk : ∀ tx, (k tx).Issues (·.counts = false)) :
    Counting call (counted guard call.userId call.total call.currency message tx k) := by
  refine counting_of_checks hguard hreads ?_
  refine issues_bind ?_ fun _ => issues_bind (issues_call.mpr rfl) hk
  exact issues_bind (issues_call.mpr rfl) fun _ =>
    issues_bind (issues_rejectWhen _ _) fun _ => issues_done _

section Operations

variable {i : ℕ}

/-- `createDeposit` up to the limit check. -/
def depositChecks (dto : DepositDto) : TxProc Unit := do
  await (.ensureAccepted dto.userId)
  return ()

theorem checks_depositChecks (dto : DepositDto) (db : Db) :
    Checks exec (depositChecks dto) db (db.termsAccepted dto.userId = true) := by
  unfold depositChecks
  simp only [bind_eq]
  refine (checks_ensureAccepted_bind checks_done).iff ?_
  rw [and_true]

theorem createDeposit_eq (i : ℕ) (dto : DepositDto) :
    createDeposit i dto = (depositChecks dto).bind fun _ =>
      (await (LimitedCall.deposit dto).limitCmd).bind fun _ =>
        (await (.insertTransaction (dto.create i))).bind fun tx =>
          (generateReceiptNumber tx).bind (depositSettle i dto) := by
  unfold createDeposit depositPrepare depositChecks LimitedCall.limitCmd
  simp only [bind_eq, bind_assoc, pure_eq, done_ok_bind]
  rfl

theorem depositSettle_uncounted (dto : DepositDto) (tx : Transaction) :
    (depositSettle i dto tx).Issues (·.counts = false) := by
  have hfailed : ∀ tx err, (depositFailed dto tx err).Issues (·.counts = false) := fun tx err =>
    issues_bind (issues_call.mpr rfl) fun _ => issues_bind (issues_call.mpr rfl) fun _ =>
      issues_throw err
  refine issues_bind (issues_attempt (issues_call.mpr rfl)) fun r => ?_
  cases r with
  | error err => exact hfailed tx err
  | ok =>
    refine issues_bind (issues_call.mpr rfl) fun t => ?_
    refine issues_bind (issues_attempt (issues_bind (issues_call.mpr rfl) fun _ =>
      issues_call.mpr rfl)) fun r => ?_
    cases r with
    | ok => exact issues_done _
    | error err => exact hfailed _ err

/-- Every call counts at most once, in its limit check. -/
theorem LimitedCall.counting (i : ℕ) (call : LimitedCall) : Counting call (call.prog i) := by
  cases call with
  | deposit dto =>
    show Counting _ (createDeposit i dto)
    rw [createDeposit_eq]
    refine counting_of_checks (checks_depositChecks dto) ?_ ?_
    · exact issues_bind (issues_call.mpr rfl) fun _ => issues_done _
    · exact issues_bind (issues_call.mpr rfl) fun tx =>
        issues_bind (generateReceiptNumber_uncounted tx) fun _ => depositSettle_uncounted dto _
  | withdrawal dto =>
    show Counting _ (createWithdrawal i dto)
    rw [createWithdrawal_eq]
    refine counting_counted (checks_withdrawalChecks dto) ?_ fun tx => ?_
    · exact issues_bind (issues_call.mpr rfl) fun _ => issues_bind (issues_call.mpr rfl) fun _ =>
        issues_bind (issues_rejectWhen _ _) fun _ => issues_done _
    · exact issues_bind (generateReceiptNumber_uncounted tx) fun _ =>
        issues_bind (issues_call.mpr rfl) fun _ => withdrawalSettle_uncounted i dto _
  | swap dto =>
    show Counting _ (createSwap i dto)
    rw [createSwap_eq]
    refine counting_counted (checks_swapChecks dto) ?_ fun tx => ?_
    · exact issues_bind (issues_call.mpr rfl) fun _ => issues_done _
    · exact issues_bind (issues_call.mpr rfl) fun _ => swapLoop_uncounted i dto _ _ tx

/-! ### What returns is COMPLETED -/

variable {φ : Cmd → Option Err} {db db' : Db} {tx tx' : Transaction}

theorem depositSettle_completed {dto : DepositDto}
    (h : (depositSettle i dto tx).run exec φ db = (.ok tx', db')) : tx'.status = .completed := by
  have hfailed : ∀ (tx : Transaction) (err : Err) (d : Db),
      (depositFailed dto tx err).run exec φ d ≠ (.ok tx', db') := by
    intro tx err d h
    unfold depositFailed at h
    simp only [bind_eq] at h
    obtain ⟨_, _, -, h⟩ := run_call_bind_returns h
    obtain ⟨_, _, -, h⟩ := run_call_bind_returns h
    cases h
  unfold depositSettle at h
  simp only [bind_eq] at h
  obtain ⟨r, d, -, h⟩ := run_bind_returns h
  cases r with
  | error err => exact absurd h (hfailed tx err d)
  | ok b =>
    obtain ⟨t, d, -, h⟩ := run_bind_returns h
    obtain ⟨r, d, -, h⟩ := run_bind_returns h
    cases r with
    | error err => exact absurd h (hfailed _ err d)
    | ok _ =>
      cases h
      rfl

theorem withdrawalSettle_completed {dto : WithdrawalDto}
    (h : (withdrawalSettle i dto tx).run exec φ db = (.ok tx', db')) : tx'.status = .completed := by
  unfold withdrawalSettle at h
  simp only [bind_eq] at h
  obtain ⟨t, d, -, h⟩ := run_bind_returns h
  obtain ⟨r, d, -, h⟩ := run_bind_returns h
  cases r with
  | ok _ =>
    cases h
    rfl
  | error err =>
    unfold withdrawalFailed at h
    simp only [bind_eq] at h
    obtain ⟨_, _, -, h⟩ := run_bind_returns h
    obtain ⟨_, _, -, h⟩ := run_bind_returns h
    obtain ⟨_, _, -, h⟩ := run_bind_returns h
    cases h

theorem swapAttempt_completed {dto : SwapDto} {n : ℕ}
    (h : (swapAttempt i dto n tx).run exec φ db = (.ok (.ok tx'), db')) :
    tx'.status = .completed := by
  unfold swapAttempt at h
  simp only [bind_eq] at h
  obtain ⟨r, d, -, h⟩ := run_bind_returns h
  cases r with
  | error err => cases h
  | ok b =>
    obtain ⟨t, d, -, h⟩ := run_bind_returns h
    obtain ⟨r, d, -, h⟩ := run_bind_returns h
    cases r with
    | error err => cases h
    | ok _ =>
      cases h
      rfl

theorem swapLoop_completed {dto : SwapDto} {left : ℕ} {lastError : Err}
    (h : (swapLoop i dto left lastError tx).run exec φ db = (.ok tx', db')) :
    tx'.status = .completed := by
  induction left generalizing lastError tx db with
  | zero => exact absurd h (swapGiveUp_throws i dto tx lastError φ db db' tx')
  | succ left ih =>
    rw [swapLoop, bind_eq] at h
    obtain ⟨r, d, hattempt, h⟩ := run_bind_returns h
    cases r with
    | ok tx₁ =>
      cases h
      exact swapAttempt_completed hattempt
    | error r =>
      obtain ⟨_, _, -, h⟩ := run_bind_returns h
      exact ih h

theorem LimitedCall.completed_of_returns {call : LimitedCall}
    (h : (call.prog i).run exec φ db = (.ok tx, db')) : tx.status = .completed := by
  cases call with
  | deposit dto =>
    obtain ⟨_, _, -, h⟩ := run_bind_returns (p := depositPrepare i dto) h
    exact depositSettle_completed h
  | withdrawal dto =>
    obtain ⟨_, _, -, h⟩ := run_bind_returns (p := withdrawalPrepare i dto) h
    exact withdrawalSettle_completed h
  | swap dto =>
    obtain ⟨_, _, -, h⟩ := run_bind_returns (p := swapPrepare i dto) h
    obtain ⟨_, _, -, h⟩ := run_bind_returns h
    exact swapLoop_completed h

end Operations

-- ---------------------------------------------------------------------------
-- One day
-- ---------------------------------------------------------------------------

/-- A call of the user, with the awaits that failed and the state it began in. -/
structure Served where
  id : TxId
  call : LimitedCall
  faults : Cmd → Option Err
  before : Db

namespace Served

def result (e : Served) : Except Err Transaction :=
  ((e.call.prog e.id).run exec e.faults e.before).1

def after (e : Served) : Db := ((e.call.prog e.id).run exec e.faults e.before).2

/-- The USD value of amount plus fee. -/
def worth (e : Served) : ℚ := (e.before.toUsd e.call.total e.call.currency).getD 0

/-- The call ended COMPLETED. -/
def completed (e : Served) : Bool :=
  match e.result with
  | .ok tx => decide (tx.status = .completed)
  | .error _ => false

/-- The limit check of the call was made and has passed. -/
def PassedLimit (e : Served) : Prop :=
  ∃ st ∈ (e.call.prog e.id).trace exec e.faults e.before, st.cmd = e.call.limitCmd ∧ st.ok = true

end Served

/-- The calls of `u` on one day, none beginning before the last has ended.
Between two calls anything may happen that is not a call of `u`. -/
inductive OneDay (u : UserId) (day : ℕ) (db : Db) : List Served → Db → Prop
  | nil : OneDay u day db [] db
  | meanwhile {es : List Served} {d d' : Db} (h : OneDay u day db es d)
      (hdaily : d'.dailyTotals u = d.dailyTotals u)
      (hmonthly : d'.monthlyTotals u = d.monthlyTotals u) : OneDay u day db es d'
  | call {es : List Served} (e : Served) (h : OneDay u day db es e.before)
      (huser : e.call.userId = u) (hday : dayOf e.before.now = day) :
      OneDay u day db (es ++ [e]) e.after

/-- The month a day lies in, numbered through. -/
def monthOfDay (day : ℕ) : ℕ := (civil day).1 * 12 + (civil day).2

/-- The USD values of the calls that ended COMPLETED, together. -/
def workDone (es : List Served) : ℚ := ((es.filter Served.completed).map Served.worth).sum

/-- A call that throws leaves both accumulators as they were, and what has been
added to them is what the completed calls are worth. -/
structure UsageEqualsWork (u : UserId) (day : ℕ) (db : Db) (es : List Served) (d : Db) : Prop where
  thrown : ∀ e ∈ es, (∃ err, e.result = .error err) → e.before.SameTotals e.after
  daily : d.dailyTotals u day = db.dailyTotals u day + workDone es
  monthly : d.monthlyTotals u (monthOfDay day) =
    db.monthlyTotals u (monthOfDay day) + workDone es

section Day

variable {u : UserId} {day : ℕ} {db d : Db} {es : List Served}

/-- What a call does to the accumulators. -/
theorem Served.counts (e : Served) :
    (¬ e.PassedLimit ∧ (∃ err, e.result = .error err) ∧ e.before.SameTotals e.after) ∨
      (e.PassedLimit ∧ e.before.CountedFor e.after e.call.userId e.worth ∧
        (e.worth = 0 → e.before.SameTotals e.after)) := by
  rcases (e.call.counting e.id).cases e.faults e.before with h | ⟨hpassed, db₁, hlimit, hrest⟩
  · exact Or.inl h
  refine Or.inr ⟨hpassed, ?_⟩
  obtain ⟨amountUsd, husd, -⟩ := Db.limitCheck_ok hlimit
  have hcounted := Db.countedFor_limitCheck hlimit husd
  have hworth : e.worth = amountUsd := by
    rw [Served.worth, husd, Option.getD_some]
  rw [hworth]
  refine ⟨⟨?_, ?_⟩, ?_⟩
  · rw [Served.after, hrest.daily, hcounted.daily]
  · rw [Served.after, hrest.monthly, hcounted.monthly]
  · rintro rfl
    exact ((Db.sameTotals_limitCheck_iff hlimit).mpr husd).trans hrest

theorem Served.completed_of_result {e : Served} {tx : Transaction} (h : e.result = .ok tx) :
    e.completed = true := by
  have hstatus : tx.status = .completed :=
    LimitedCall.completed_of_returns (Prod.ext h rfl)
  unfold Served.completed
  rw [h]
  exact decide_eq_true hstatus

theorem Served.not_completed {e : Served} {err : Err} (h : e.result = .error err) :
    e.completed = false := by
  unfold Served.completed
  rw [h]

theorem workDone_append (es : List Served) (e : Served) :
    workDone (es ++ [e]) = workDone es + if e.completed = true then e.worth else 0 := by
  unfold workDone
  rw [List.filter_append, List.map_append, List.sum_append]
  split
  · rename_i hc
    rw [List.filter_cons_of_pos hc]
    simp
  · rename_i hc
    rw [List.filter_cons_of_neg hc]
    simp

/-- No call throws once its limit check has passed with an amount worth
anything. -/
def NoneThrowsLate (es : List Served) : Prop :=
  ∀ e ∈ es, e.PassedLimit → e.worth ≠ 0 → ∃ tx, e.result = .ok tx

/-- What one call adds, if it does not throw late. -/
theorem Served.adds {e : Served} (hlate : e.PassedLimit → e.worth ≠ 0 → ∃ tx, e.result = .ok tx) :
    e.before.CountedFor e.after e.call.userId (if e.completed = true then e.worth else 0) := by
  rcases e.counts with ⟨-, ⟨err, herr⟩, hsame⟩ | ⟨hpassed, hcounted, -⟩
  · rw [e.not_completed herr, if_neg Bool.false_ne_true]
    exact ⟨by rw [hsame.daily, add_zero], by rw [hsame.monthly, add_zero]⟩
  by_cases hworth : e.worth = 0
  · rw [hworth] at hcounted ⊢
    rw [ite_self]
    exact hcounted
  · obtain ⟨tx, htx⟩ := hlate hpassed hworth
    rw [if_pos (e.completed_of_result htx)]
    exact hcounted

theorem OneDay.usage (h : OneDay u day db es d) (hlate : NoneThrowsLate es) :
    d.dailyTotals u day = db.dailyTotals u day + workDone es ∧
      d.monthlyTotals u (monthOfDay day) =
        db.monthlyTotals u (monthOfDay day) + workDone es := by
  induction h with
  | nil => exact ⟨(add_zero _).symm, (add_zero _).symm⟩
  | meanwhile _ hdaily hmonthly ih =>
    rw [hdaily, hmonthly]
    exact ih hlate
  | @call es e _ huser hday ih =>
    obtain ⟨hd, hm⟩ := ih fun e' he' => hlate e' (List.mem_append_left _ he')
    have hadds := e.adds (hlate e (List.mem_append_right _ (List.mem_singleton_self e)))
    have hmonth : monthOf e.before.now = monthOfDay day := by
      rw [← hday]
      rfl
    have hdaily := hadds.daily
    have hmonthly := hadds.monthly
    rw [huser, hday, hd] at hdaily
    rw [huser, hmonth, hm] at hmonthly
    rw [workDone_append, ← add_assoc, ← add_assoc]
    exact ⟨hdaily, hmonthly⟩

end Day

/-- User 1 deposits 100.00 USD. -/
def hundredDeposited : Served where
  id := 0
  call := .deposit ⟨1, 100, "USD", "u-1"⟩
  faults := noFault
  before := .deployed []

/-- User 1, who has nothing, wants to withdraw 100.00 USD. -/
def hundredRefused : Served where
  id := 0
  call := .withdrawal ⟨1, 100, "USD", "u-1", "G"⟩
  faults := noFault
  before := .deployed []

/-- The day of a user who makes one call. -/
theorem oneDay_single (e : Served) (huser : e.call.userId = 1) :
    OneDay 1 (dayOf e.before.now) e.before [e] e.after :=
  .call e .nil huser rfl

end NexaFx
