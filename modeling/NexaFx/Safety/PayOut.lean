import NexaFx.Safety.Swap
import NexaFx.Safety.Transfer
import NexaFx.Safety.FxTrade

/-!
# NexaFx — amounts of any sign

What the five operations that take an amount do with one that is zero, negative
or rounds to nothing. Only `transfer` checks the sign. A withdrawal, a swap or
a trade of a negative amount is a credit of the source wallet, and the balance
check and the limit check let it pass.

`payOut_iff` says, operation by operation, exactly when nothing is paid out on
such an amount.
-/

namespace NexaFx

open Async Decimal Proc
open Fx (FxDb)

-- ---------------------------------------------------------------------------
-- The record and its receipt number
-- ---------------------------------------------------------------------------

section Prepared

variable {i : TxId} {tx : Transaction} {db : Db}

/-- A row and its receipt number are stored. -/
theorem opening_run (hstores : db.Stores tx) (hreceipt : db.Stores ((tx.stamp db.now).receipted db)) :
    ∃ db', ((await (.insertTransaction tx)).bind generateReceiptNumber).run exec noFault db =
        (.ok ((tx.stamp db.now).receipted db), db') ∧
      db'.cents = db.cents ∧ db'.Stores ((tx.stamp db.now).receipted db) := by
  have hinsert : db.Stores (tx.stamp db.now) := hstores.congr rfl rfl rfl rfl rfl rfl rfl
  have hreceipt' : (db.putTransaction (tx.stamp db.now)).Stores ((tx.stamp db.now).receipted db) :=
    (Db.stores_put (by rfl)).mpr hreceipt
  have hnumber : Db.Stores { db.putTransaction (tx.stamp db.now) with
      receiptSeq := db.receiptSeq + 1 } ((tx.stamp db.now).receipted db) :=
    hreceipt'.congr rfl rfl rfl rfl rfl rfl rfl
  have hrun : ((await (.insertTransaction tx)).bind generateReceiptNumber).run exec noFault db =
      (.ok ((tx.stamp db.now).receipted db), Db.putTransaction
        { db.putTransaction (tx.stamp db.now) with receiptSeq := db.receiptSeq + 1 }
        ((tx.stamp db.now).receipted db)) := by
    rw [run_call_bind_ok rfl (by rw [exec, Db.storeTransaction_of_stores hinsert])]
    exact generateReceiptNumber_ok hnumber
  exact ⟨_, hrun, rfl, (Db.stores_put rfl).mpr hnumber⟩

theorem opening_returns {tx' : Transaction} {db' : Db}
    (h : ((await (.insertTransaction tx)).bind generateReceiptNumber).run exec noFault db =
      (.ok tx', db')) :
    db.Stores tx ∧ db.Stores ((tx.stamp db.now).receipted db) := by
  obtain ⟨_, _, hins, h⟩ := run_call_bind_returns h
  obtain ⟨hstores, rfl, rfl⟩ := exec_insertTransaction hins
  rw [generateReceiptNumber_run] at h
  split at h
  · rename_i hrec
    have hrec := (Db.storeTransaction_ok hrec).1
    have hreceipt : (Db.putTransaction _ (tx.stamp db.now)).Stores
        ((tx.stamp db.now).receipted db) := hrec.congr rfl rfl rfl rfl rfl rfl rfl
    exact ⟨hstores.congr rfl rfl rfl rfl rfl rfl rfl, (Db.stores_put (by rfl)).mp hreceipt⟩
  · cases h

end Prepared

-- ---------------------------------------------------------------------------
-- Balances
-- ---------------------------------------------------------------------------

/-- The wallet takes the change. -/
def Db.Takes (db : Db) (accountId : UserId) (currency : String) (delta : ℚ) : Prop :=
  validateCurrency currency = .ok (normalizeCurrencyCode currency) ∧
    db.Covers accountId currency delta

/-- The balances after a change of one wallet. -/
def Db.changed (db : Db) (accountId : UserId) (currency : String) (delta : ℚ) (a : UserId)
    (c : String) : ℤ :=
  db.cents a c + if accountId = a ∧ normalizeCurrencyCode currency = c
    then shift (100 * delta) else 0

/-- Whether a wallet takes a change depends on the balances alone. -/
theorem Db.takes_congr {db db' : Db} (hcents : db'.cents = db.cents) (a : UserId) (c : String)
    (delta : ℚ) : db'.Takes a c delta ↔ db.Takes a c delta := by
  unfold Db.Takes Db.Covers
  rw [hcents]

theorem Db.changed_congr {db db' : Db} (hcents : db'.cents = db.cents) (a : UserId) (c : String)
    (delta : ℚ) : db'.changed a c delta = db.changed a c delta := by
  unfold Db.changed
  rw [hcents]

/-- A balance change that is awaited alone. -/
theorem adjust_cents (site : AdjustSite) (call : ℕ) (tx : TxId) (u : UserId) (c : String)
    (delta : ℚ) (db : Db) :
    (db.Takes u c delta → ((await (.adjustBalance site call tx u c delta)).run exec noFault
      db).2.cents = db.changed u c delta) ∧
    (¬ db.Takes u c delta → ((await (.adjustBalance site call tx u c delta)).run exec noFault
      db).2.cents = db.cents) := by
  rw [run_call, show noFault _ = none from rfl, outcome_none]
  constructor
  · rintro ⟨hcur, hcov⟩
    obtain ⟨b, db', hexec, hadj⟩ := exec_adjustBalance_carried site call tx hcur hcov
    rw [hexec]
    funext a cur
    exact hadj.cents a cur
  · intro hno
    cases hexec : exec (.adjustBalance site call tx u c delta) db with
    | error e => rfl
    | ok r =>
      have hadj := exec_adjustBalance_ok hexec
      exact absurd ⟨hadj.supported, hadj.covered⟩ hno

/-- What makes no balance change comes after what may have made one. -/
theorem cents_of_bind_still {α β : Type} {p : TxProc α} {k : α → TxProc β}
    (hk : ∀ a, (k a).Issues (·.mover = none)) (db : Db) :
    ((p.bind k).run exec noFault db).2.cents = (p.run exec noFault db).2.cents := by
  rw [run_bind]
  cases p.run exec noFault db with
  | mk r db' =>
    cases r with
    | ok a => exact cents_of_still (hk a) noFault db'
    | error e => rfl

theorem Db.limitCheck_cents {db db' : Db} {u : UserId} {amount : ℚ} {c : String}
    (h : db.limitCheck u amount c = .ok db') : db'.cents = db.cents := by
  have hunt := Db.limitCheck_untouched h
  funext a cur
  rw [Db.cents, Db.wallet, hunt.wallets]
  rfl

/-- The call throws with every balance as it was, or the source wallet holds
less than before. -/
def RefusedOrPaid {α : Type} (r : Except Err α) (before after : Db) (u : UserId) (c : String) :
    Prop :=
  ((∃ e, r = .error e) ∧ after.cents = before.cents) ∨
    after.cents u (normalizeCurrencyCode c) < before.cents u (normalizeCurrencyCode c)

/-- The wallet holds no less than before. -/
def NotLess (before after : Db) (u : UserId) (c : String) : Prop :=
  before.cents u (normalizeCurrencyCode c) ≤ after.cents u (normalizeCurrencyCode c)

theorem RefusedOrPaid.of_refused {α : Type} {r : Except Err α} {before after : Db} {e : Err}
    (hr : r = .error e) (hcents : after.cents = before.cents) (u : UserId) (c : String) :
    RefusedOrPaid r before after u c := Or.inl ⟨⟨e, hr⟩, hcents⟩

/-- A call that returns must have taken something. -/
theorem refusedOrPaid_ok {α : Type} {r : Except Err α} {a : α} {before after : Db} {u : UserId}
    {c : String} (hr : r = .ok a) :
    RefusedOrPaid r before after u c ↔
      after.cents u (normalizeCurrencyCode c) < before.cents u (normalizeCurrencyCode c) := by
  unfold RefusedOrPaid
  rw [hr]
  simp

-- ---------------------------------------------------------------------------
-- Deposits
-- ---------------------------------------------------------------------------

/-- The row of a deposit with its receipt number. -/
def DepositDto.prepared (i : TxId) (dto : DepositDto) (db : Db) : Transaction :=
  ((dto.create i).stamp db.now).receipted db

/-- The request passes every check before the credit. -/
structure DepositDto.Admissible (i : TxId) (dto : DepositDto) (db : Db) : Prop where
  terms : db.termsAccepted dto.userId = true
  limit : ∃ db', db.limitCheck dto.userId (totalChecked dto.amount) dto.currency = .ok db' ∧
    db'.Stores (dto.create i) ∧ db'.Stores (dto.prepared i db')

/-- When a deposit takes nothing away: it is refused, or what it adds does not
round below zero. -/
def DepositDto.Adds (i : TxId) (dto : DepositDto) (db : Db) : Prop :=
  ¬ dto.Admissible i db ∨ ¬ db.Takes dto.userId dto.currency dto.amount ∨
    0 ≤ shift (100 * dto.amount)

section Deposit

variable {i : TxId} {dto : DepositDto} {db : Db}

theorem depositPrepare_preparatory (i : ℕ) (dto : DepositDto) :
    (depositPrepare i dto).Issues (·.preparatory = true) := by
  refine issues_bind (issues_call.mpr rfl) fun _ => ?_
  refine issues_bind (issues_call.mpr rfl) fun _ => ?_
  exact issues_bind (issues_call.mpr rfl) fun _ => generateReceiptNumber_preparatory _

theorem depositPrepare_run (h : dto.Admissible i db) :
    ∃ tx d, (depositPrepare i dto).run exec noFault db = (.ok tx, d) ∧ d.cents = db.cents ∧
      d.Stores tx := by
  obtain ⟨db₁, hlimit, hcreate, hreceipt⟩ := h.limit
  obtain ⟨d, hrun, hcents, hst⟩ := opening_run hcreate hreceipt
  refine ⟨_, d, ?_, hcents.trans (Db.limitCheck_cents hlimit), hst⟩
  unfold depositPrepare
  simp only [bind_eq]
  rw [run_call_bind_ok rfl (by rw [exec, if_pos h.terms]),
    run_call_bind_ok rfl (by rw [exec, hlimit])]
  exact hrun

theorem admissible_of_depositPrepare {tx : Transaction} {d : Db}
    (hrun : (depositPrepare i dto).run exec noFault db = (.ok tx, d)) : dto.Admissible i db := by
  unfold depositPrepare at hrun
  simp only [bind_eq] at hrun
  obtain ⟨_, _, hterms, hrest⟩ := run_call_bind_returns hrun
  obtain ⟨_, db₁, hlimit, hopen⟩ := run_call_bind_returns hrest
  obtain ⟨haccepted, rfl⟩ := exec_ensureAccepted hterms
  exact ⟨haccepted, db₁, exec_limitCheck hlimit, opening_returns hopen⟩

/-- A refused deposit changes nothing. -/
theorem createDeposit_refused (h : ¬ dto.Admissible i db) :
    ((createDeposit i dto).run exec noFault db).2.cents = db.cents := by
  have hcents := cents_of_preparatory (depositPrepare_preparatory i dto) noFault db
  cases hrun : (depositPrepare i dto).run exec noFault db with
  | mk r d =>
    cases r with
    | ok tx => exact absurd (admissible_of_depositPrepare hrun) h
    | error e =>
      have hthrown : (createDeposit i dto).run exec noFault db = (.error e, d) :=
        run_bind_error hrun
      rw [hrun] at hcents
      rw [hthrown]
      exact hcents

/-- The writes after the credit leave the balances alone. -/
theorem depositSettle_cents (tx : Transaction) (d : Db) :
    ((depositSettle i dto tx).run exec noFault d).2.cents =
      ((await (.adjustBalance (.credit 0) i i dto.userId dto.currency dto.amount)).run
        exec noFault d).2.cents := by
  have hfailed : ∀ tx err, (depositFailed dto tx err).Issues (·.mover = none) := fun tx err =>
    issues_bind (issues_call.mpr rfl) fun _ => issues_bind (issues_call.mpr rfl) fun _ =>
      issues_throw err
  have hconfirm : ∀ tx, (depositConfirm dto tx).Issues (·.mover = none) := fun tx =>
    issues_bind (issues_call.mpr rfl) fun _ => issues_call.mpr rfl
  refine (cents_of_bind_still ?_ d).trans (by rw [run_attempt])
  intro r
  cases r with
  | error err => exact hfailed tx err
  | ok =>
    refine issues_bind (issues_call.mpr rfl) fun t => ?_
    refine issues_bind (issues_attempt (hconfirm _)) fun r => ?_
    cases r with
    | ok => exact issues_done _
    | error err => exact hfailed _ err

/-- An admitted deposit changes the balances as its credit does. -/
theorem createDeposit_admitted (h : dto.Admissible i db) :
    (db.Takes dto.userId dto.currency dto.amount →
      ((createDeposit i dto).run exec noFault db).2.cents =
        db.changed dto.userId dto.currency dto.amount) ∧
    (¬ db.Takes dto.userId dto.currency dto.amount →
      ((createDeposit i dto).run exec noFault db).2.cents = db.cents) := by
  obtain ⟨tx, d, hprepare, hcents, -⟩ := depositPrepare_run h
  have hrun : (createDeposit i dto).run exec noFault db =
      (depositSettle i dto tx).run exec noFault d := run_bind_ok hprepare
  have hcredit := adjust_cents (.credit 0) i i dto.userId dto.currency dto.amount d
  rw [Db.takes_congr hcents, Db.changed_congr hcents, hcents] at hcredit
  rw [hrun, depositSettle_cents]
  exact hcredit

theorem createDeposit_notLess_iff (i : TxId) (dto : DepositDto) (db : Db) :
    NotLess db ((createDeposit i dto).run exec noFault db).2 dto.userId dto.currency ↔
      dto.Adds i db := by
  unfold NotLess DepositDto.Adds
  by_cases hadm : dto.Admissible i db
  case neg =>
    rw [createDeposit_refused hadm]
    exact iff_of_true le_rfl (Or.inl hadm)
  obtain ⟨htaken, hnot⟩ := createDeposit_admitted hadm
  by_cases htakes : db.Takes dto.userId dto.currency dto.amount
  · rw [htaken htakes, Db.changed, if_pos ⟨rfl, rfl⟩]
    simp [hadm, htakes]
  · rw [hnot htakes]
    exact iff_of_true le_rfl (Or.inr (Or.inl htakes))

end Deposit

-- ---------------------------------------------------------------------------
-- Transfers
-- ---------------------------------------------------------------------------

/-- What is credited is at least nothing. -/
theorem shift_nonneg {delta : ℚ} (h : 0 ≤ delta) : 0 ≤ shift delta := by
  rw [shift, Int.floor_nonneg]
  linarith

/-- A transfer checks the sign, so the receiver never pays. -/
theorem transfer_notLess (i : TxId) (dto : TransferDto) (db : Db) :
    NotLess db ((transfer i dto).run exec noFault db).2 dto.receiverId dto.currency := by
  unfold NotLess
  rw [← BlockStep.inject_none]
  by_cases hadm : dto.Admissible i db
  case neg =>
    obtain ⟨-, -, hcents⟩ := transfer_refused hadm none
    rw [hcents]
  rw [transfer_run hadm]
  by_cases hcov : (dto.preparedDb i db).Covers dto.receiverId dto.currency dto.amount
  · obtain ⟨b, d', d'', hmoves, hadj, hadj'⟩ := transferMoves_both (i := i) (f := none)
      (by simp) (by simp) hadm.supported hadm.covers hadm.distinct hcov
    have hconfirm : ∀ tx, (transferConfirm tx).Issues (·.mover = none) := fun tx =>
      issues_bind (issues_call.mpr rfl) fun _ => issues_call.mpr rfl
    rw [transferSettle_moved rfl hmoves]
    show _ ≤ Db.cents (Prod.snd _) _ _
    have hpos : 0 ≤ shift (100 * dto.amount) := shift_nonneg (by linarith [hadm.positive])
    rw [cents_of_still (hconfirm _), hadj'.cents, hadj.cents, if_neg fun h => hadm.distinct h.1,
      if_pos ⟨rfl, rfl⟩, preparedDb_cents]
    omega
  · obtain ⟨e, d', hmoves, hadj⟩ := transferMoves_half (i := i) (f := none) (by simp)
      hadm.supported hadm.covers hadm.distinct (Or.inr hcov)
    rw [transferSettle_caught hmoves]
    show _ ≤ Db.cents (Prod.snd _) _ _
    rw [hadj.cents, if_neg fun h => hadm.distinct h.1, preparedDb_cents, add_zero]

-- ---------------------------------------------------------------------------
-- Withdrawals
-- ---------------------------------------------------------------------------

namespace WithdrawalDto

/-- The amount with the fee. -/
abbrev total (dto : WithdrawalDto) : ℚ := totalChecked dto.amount

/-- The row of a withdrawal with its receipt number. -/
def prepared (i : TxId) (dto : WithdrawalDto) (db : Db) : Transaction :=
  ((dto.create i).stamp db.now).receipted db

/-- The request passes every check before the debit. -/
structure Admissible (i : TxId) (dto : WithdrawalDto) (db : Db) : Prop where
  terms : db.termsAccepted dto.userId = true
  funded : db.accountFunded dto.destinationAddress = true
  limit : ∃ db', db.limitCheck dto.userId dto.total dto.currency = .ok db' ∧
    db'.Stores (dto.create i) ∧ db'.Stores (dto.prepared i db')
  supported : validateCurrency dto.currency = .ok (normalizeCurrencyCode dto.currency)
  balance : 100 * dto.total ≤ db.cents dto.userId (normalizeCurrencyCode dto.currency)

/-- When a withdrawal takes something: it is refused, or what it takes away does
not round to nothing or less. -/
def Takes (i : TxId) (dto : WithdrawalDto) (db : Db) : Prop :=
  ¬ dto.Admissible i db ∨ shift (100 * -dto.total) < 0

end WithdrawalDto

section Withdrawal

variable {i : TxId} {dto : WithdrawalDto} {db : Db}

/-- `withdrawalPrepare` up to the debit. -/
def withdrawalOpen (i : ℕ) (dto : WithdrawalDto) : TxProc Transaction := do
  await (.ensureAccepted dto.userId)
  let destinationExists ← await (.accountExists dto.destinationAddress)
  Proc.rejectWhen (destinationExists = false)
    (.badRequest ("Destination Stellar account (" ++ dto.destinationAddress ++
      ") is not funded. The recipient account must have a minimum balance of 1 XLM."))
  await (.limitCheck dto.userId (totalChecked dto.amount) dto.currency)
  let balance ← await (.getBalance dto.userId dto.currency)
  Proc.rejectWhen ((balance : ℚ) < 100 * totalChecked dto.amount)
    (.badRequest "Insufficient balance including fee")
  let tx ← await (.insertTransaction (dto.create i))
  generateReceiptNumber tx

theorem withdrawalPrepare_eq (i : ℕ) (dto : WithdrawalDto) :
    withdrawalPrepare i dto = (withdrawalOpen i dto).bind fun tx =>
      (await (.adjustBalance .debit i i dto.userId dto.currency (-dto.total))).bind fun _ =>
        .done (.ok tx) := by
  unfold withdrawalPrepare withdrawalOpen
  simp only [bind_eq, bind_assoc, pure_eq]

theorem withdrawalOpen_preparatory (i : ℕ) (dto : WithdrawalDto) :
    (withdrawalOpen i dto).Issues (·.preparatory = true) := by
  refine issues_bind (issues_call.mpr rfl) fun _ => ?_
  refine issues_bind (issues_call.mpr rfl) fun _ => ?_
  refine issues_bind (issues_rejectWhen _ _) fun _ => ?_
  refine issues_bind (issues_call.mpr rfl) fun _ => ?_
  refine issues_bind (issues_call.mpr rfl) fun _ => ?_
  refine issues_bind (issues_rejectWhen _ _) fun _ => ?_
  exact issues_bind (issues_call.mpr rfl) fun _ => generateReceiptNumber_preparatory _

theorem withdrawalOpen_run (h : dto.Admissible i db) :
    ∃ tx d, (withdrawalOpen i dto).run exec noFault db = (.ok tx, d) ∧ d.cents = db.cents ∧
      d.Stores tx := by
  obtain ⟨db₁, hlimit, hcreate, hreceipt⟩ := h.limit
  obtain ⟨d, hrun, hcents, hst⟩ := opening_run hcreate hreceipt
  have hsame := Db.limitCheck_cents hlimit
  refine ⟨_, d, ?_, hcents.trans hsame, hst⟩
  unfold withdrawalOpen
  simp only [bind_eq]
  rw [run_call_bind_ok rfl (by rw [exec, if_pos h.terms]), run_call_bind_ok rfl rfl,
    run_rejectWhen_bind, if_neg (by simp [h.funded]),
    run_call_bind_ok rfl (by rw [exec, hlimit]),
    run_call_bind_ok rfl (by rw [exec, Db.getBalance, h.supported]),
    run_rejectWhen_bind, if_neg (by rw [hsame]; simpa using h.balance)]
  exact hrun

theorem admissible_of_withdrawalOpen {tx : Transaction} {d : Db}
    (hrun : (withdrawalOpen i dto).run exec noFault db = (.ok tx, d)) :
    dto.Admissible i db := by
  unfold withdrawalOpen at hrun
  simp only [bind_eq] at hrun
  obtain ⟨_, _, hterms, hrest⟩ := run_call_bind_returns hrun
  obtain ⟨_, _, hexists, hrest⟩ := run_call_bind_returns hrest
  obtain ⟨hfunded, hrest⟩ := run_rejectWhen_bind_returns hrest
  obtain ⟨_, db₁, hlimit, hrest⟩ := run_call_bind_returns hrest
  obtain ⟨_, _, hbal, hrest⟩ := run_call_bind_returns hrest
  obtain ⟨hcovers, hopen⟩ := run_rejectWhen_bind_returns hrest
  obtain ⟨haccepted, rfl⟩ := exec_ensureAccepted hterms
  cases hexists
  obtain ⟨hsupported, rfl, rfl⟩ := exec_getBalance hbal
  have hlimit := exec_limitCheck hlimit
  rw [Db.limitCheck_cents hlimit, not_lt] at hcovers
  exact ⟨haccepted, by simpa using hfunded, ⟨_, hlimit, opening_returns hopen⟩, hsupported,
    hcovers⟩

/-- A refused withdrawal throws and changes nothing. -/
theorem createWithdrawal_refused (h : ¬ dto.Admissible i db) :
    ∃ e, ((createWithdrawal i dto).run exec noFault db).1 = .error e ∧
      ((createWithdrawal i dto).run exec noFault db).2.cents = db.cents := by
  have hcents := cents_of_preparatory (withdrawalOpen_preparatory i dto) noFault db
  cases hrun : (withdrawalOpen i dto).run exec noFault db with
  | mk r d =>
    cases r with
    | ok tx => exact absurd (admissible_of_withdrawalOpen hrun) h
    | error e =>
      have hprepare : (withdrawalPrepare i dto).run exec noFault db = (.error e, d) := by
        rw [withdrawalPrepare_eq]
        exact run_bind_error hrun
      have hthrown : (createWithdrawal i dto).run exec noFault db = (.error e, d) :=
        run_bind_error hprepare
      rw [hrun] at hcents
      rw [hthrown]
      exact ⟨e, rfl, hcents⟩

/-- An admitted withdrawal goes through, and takes what its debit takes. -/
theorem createWithdrawal_admitted (h : dto.Admissible i db) :
    ∃ tx, ((createWithdrawal i dto).run exec noFault db).1 = .ok tx ∧
      ((createWithdrawal i dto).run exec noFault db).2.cents =
        db.changed dto.userId dto.currency (-dto.total) := by
  obtain ⟨tx, d, hopen, hcents, hst⟩ := withdrawalOpen_run h
  have hcov : d.Covers dto.userId dto.currency (-dto.total) := by
    have hbal := h.balance
    refine Or.inr ?_
    rw [hcents]
    linarith
  obtain ⟨b, d', hdebit, hadj⟩ := exec_adjustBalance_carried .debit i i h.supported hcov
  have hprepare : (withdrawalPrepare i dto).run exec noFault db = (.ok tx, d') := by
    rw [withdrawalPrepare_eq, run_bind_ok hopen, run_call_bind_ok rfl hdebit]
    rfl
  have hst' : d'.Stores (tx.complete d'.now) :=
    hst.congr hadj.transactions hadj.userExists rfl rfl rfl rfl rfl
  have hconfirm : (withdrawalConfirm dto (tx.complete d'.now)).run exec noFault d' =
      (.ok (), d'.putTransaction (tx.complete d'.now)) := by
    unfold withdrawalConfirm
    simp only [bind_eq]
    rw [run_call_bind_ok rfl (exec_saveTransaction_of_stores _ hst')]
    rfl
  have hsettle : (withdrawalSettle i dto tx).run exec noFault d' =
      (.ok (tx.complete d'.now), d'.putTransaction (tx.complete d'.now)) := by
    unfold withdrawalSettle
    simp only [bind_eq]
    rw [run_call_bind_ok rfl rfl, run_attempt_bind, hconfirm]
    rfl
  have hrun : (createWithdrawal i dto).run exec noFault db = _ :=
    (run_bind_ok hprepare).trans hsettle
  rw [hrun]
  refine ⟨_, rfl, ?_⟩
  funext a c
  show d'.cents a c = _
  rw [hadj.cents, hcents]
  rfl

theorem createWithdrawal_refusedOrPaid_iff (i : TxId) (dto : WithdrawalDto) (db : Db) :
    RefusedOrPaid ((createWithdrawal i dto).run exec noFault db).1 db
        ((createWithdrawal i dto).run exec noFault db).2 dto.userId dto.currency ↔
      dto.Takes i db := by
  unfold WithdrawalDto.Takes
  by_cases hadm : dto.Admissible i db
  · obtain ⟨tx, hreturned, hcents⟩ := createWithdrawal_admitted hadm
    rw [refusedOrPaid_ok hreturned, hcents, Db.changed, if_pos ⟨rfl, rfl⟩]
    simp [hadm]
  · obtain ⟨e, hthrown, hcents⟩ := createWithdrawal_refused hadm
    exact iff_of_true (.of_refused hthrown hcents _ _) (Or.inl hadm)

end Withdrawal

-- ---------------------------------------------------------------------------
-- Swaps
-- ---------------------------------------------------------------------------

/-- No step of the loop fails on its own account. -/
def SwapFaults.none : SwapFaults := ⟨fun _ => false, fun _ => false, fun _ => false, fun _ => false⟩

theorem SwapFaults.inject_none : SwapFaults.none.inject = noFault := by
  funext c
  cases c with
  | adjustBalance site => cases site <;> rfl
  | saveTransaction site => cases site <;> rfl
  | _ => rfl

/-- What a completed swap does to the source wallet; the target may be the same
wallet. -/
def SwapDto.net (dto : SwapDto) : ℤ :=
  shift (100 * -dto.total) +
    if normalizeCurrencyCode dto.toCurrency = normalizeCurrencyCode dto.fromCurrency
      then shift (100 * dto.toAmount) else 0

/-- When a swap takes something: it is refused, or its credit is taken and more
is taken away than is given; or, when the credit is refused, the refund restores
the source wallet or is refused after a debit that gave nothing. -/
def SwapDto.Takes (i : TxId) (dto : SwapDto) (db : Db) : Prop :=
  ¬ dto.Admissible i db ∨ (dto.CreditAccepted db ∧ dto.net < 0) ∨
    (¬ dto.CreditAccepted db ∧
      if dto.RefundAccepted db then ¬ Tie (100 * dto.total) else shift (100 * -dto.total) ≤ 0)

section Swap

variable {i : TxId} {dto : SwapDto} {db d : Db} {tx : Transaction}

theorem SwapDto.credited_source (dto : SwapDto) (db : Db) :
    dto.credited db dto.userId (normalizeCurrencyCode dto.fromCurrency) =
      db.cents dto.userId (normalizeCurrencyCode dto.fromCurrency) + dto.net := by
  unfold SwapDto.credited SwapDto.debited SwapDto.net
  rw [if_pos ⟨rfl, rfl⟩, add_assoc]
  simp

/-- Only the source wallet is refunded. -/
theorem SwapDto.refunded_eq (dto : SwapDto) (db : Db) (a : UserId) (c : String) :
    dto.refunded db a c = db.cents a c +
      if dto.userId = a ∧ normalizeCurrencyCode dto.fromCurrency = c
        then (if Tie (100 * dto.total) then 1 else 0) else 0 := by
  have hback := shift_add_shift_neg (100 * dto.total)
  rw [← mul_neg] at hback
  unfold SwapDto.refunded SwapDto.debited
  rw [← hback]
  split
  · ring
  · ring

/-- The first attempt goes through when its credit is accepted. -/
theorem SwapReady.loop_completes (h : SwapReady i dto db d tx) (hacc : dto.CreditAccepted db)
    (lastError : Err) :
    ∃ tx', ((swapLoop i dto MAX_RETRIES lastError tx).run exec noFault d).1 = .ok tx' ∧
      ((swapLoop i dto MAX_RETRIES lastError tx).run exec noFault d).2.cents =
        dto.credited db := by
  rw [← SwapFaults.inject_none]
  obtain ⟨b, d₁, hcredit, hcents, hts, husers⟩ := h.credit_carried (k := 0) hacc
  have hst : d₁.Stores (tx.completeAttempt d₁.now 0) :=
    h.stores.congr hts husers rfl rfl rfl rfl rfl
  obtain ⟨d₂, ts, hconfirm, -⟩ := swapConfirm_ok i dto (p := .none) (k := 0) rfl rfl hst
  have hstill : (swapConfirm i dto 0 (tx.completeAttempt d₁.now 0)).Issues (·.mover = none) :=
    issues_bind (issues_call.mpr rfl) fun _ => issues_call.mpr rfl
  have hd₂ := cents_of_still hstill SwapFaults.none.inject d₁
  rw [hconfirm.run] at hd₂
  have hattempt : Yields exec SwapFaults.none.inject (swapAttempt i dto 0 tx) d _ d₂ _ :=
    swapAttempt_done rfl hcredit rfl hconfirm
  have hloop : Yields exec SwapFaults.none.inject (swapLoop i dto MAX_RETRIES lastError tx) d _ d₂ _ :=
    swapLoop_done hattempt
  rw [hloop.run]
  exact ⟨_, rfl, hd₂.trans hcents⟩

/-- An admitted swap is its loop. -/
theorem createSwap_loop (hadm : dto.Admissible i db) :
    ∃ tx d, SwapReady i dto db d tx ∧ (createSwap i dto).run exec noFault db =
      (swapLoop i dto MAX_RETRIES .fault tx).run exec noFault d := by
  obtain ⟨tx, d, b, d₁, hrun, hdebit, hready⟩ := createSwap_debited hadm .none
  rw [SwapFaults.inject_none] at hrun
  refine ⟨tx, d₁, hready, ?_⟩
  unfold createSwap
  simp only [bind_eq]
  rw [run_bind_ok hrun, run_call_bind_ok rfl hdebit]

/-- A refused swap throws and changes nothing. -/
theorem createSwap_rejected (h : ¬ dto.Admissible i db) :
    ∃ e, ((createSwap i dto).run exec noFault db).1 = .error e ∧
      ((createSwap i dto).run exec noFault db).2.cents = db.cents := by
  have hcents := cents_of_preparatory ((swapPrepare_prepares i dto).mono fun _ hc => hc.1) noFault db
  cases hrun : (swapPrepare i dto).run exec noFault db with
  | mk r d =>
    cases r with
    | ok tx =>
      rw [← SwapFaults.inject_none] at hrun
      exact absurd (admissible_of_swapPrepare hrun) h
    | error e =>
      have hthrown : (createSwap i dto).run exec noFault db = (.error e, d) :=
        run_bind_error hrun
      rw [hrun] at hcents
      rw [hthrown]
      exact ⟨e, rfl, hcents⟩

/-- A swap whose credit is refused throws, with or without its refund. -/
theorem SwapReady.loop_exhausted (h : SwapReady i dto db d tx) (hacc : ¬ dto.CreditAccepted db) :
    ∃ e, ((swapLoop i dto MAX_RETRIES .fault tx).run exec noFault d).1 = .error e ∧
      ((swapLoop i dto MAX_RETRIES .fault tx).run exec noFault d).2.cents =
        if dto.RefundAccepted db then dto.refunded db else dto.debited db := by
  have hend : SwapFaults.none.loopEnd (decide (dto.CreditAccepted db)) MAX_RETRIES =
      .exhausted := by
    rw [decide_eq_false hacc]
    rfl
  have hends := swapLoop_outcome .none MAX_RETRIES .fault h
  rw [hend, SwapFaults.inject_none] at hends
  obtain ⟨r, d', ts, hloop, ⟨e, hr⟩, -, -, hcents⟩ := hends
  rw [hloop.run]
  exact ⟨e, hr, hcents⟩

/-- The refund leaves nothing paid out exactly when the total is not at a tie. -/
theorem refunded_refusedOrPaid {e : Err} :
    (((∃ e', (.error e : Except Err Transaction) = .error e') ∧ dto.refunded db = db.cents) ∨
      dto.refunded db dto.userId (normalizeCurrencyCode dto.fromCurrency) <
        db.cents dto.userId (normalizeCurrencyCode dto.fromCurrency)) ↔
      ¬ Tie (100 * dto.total) := by
  have hsource := dto.refunded_eq db dto.userId (normalizeCurrencyCode dto.fromCurrency)
  rw [if_pos ⟨rfl, rfl⟩] at hsource
  constructor
  · rintro (⟨-, hsame⟩ | hless) htie
    · rw [hsame, if_pos htie] at hsource
      omega
    · rw [if_pos htie] at hsource
      omega
  · intro htie
    refine Or.inl ⟨⟨e, rfl⟩, ?_⟩
    funext a c
    rw [dto.refunded_eq, if_neg htie, ite_self, add_zero]

/-- The debit alone pays nothing out exactly when it does not round above
zero. -/
theorem debited_refusedOrPaid {e : Err} :
    (((∃ e', (.error e : Except Err Transaction) = .error e') ∧ dto.debited db = db.cents) ∨
      dto.debited db dto.userId (normalizeCurrencyCode dto.fromCurrency) <
        db.cents dto.userId (normalizeCurrencyCode dto.fromCurrency)) ↔
      shift (100 * -dto.total) ≤ 0 := by
  have hsource : dto.debited db dto.userId (normalizeCurrencyCode dto.fromCurrency) =
      db.cents dto.userId (normalizeCurrencyCode dto.fromCurrency) + shift (100 * -dto.total) := by
    rw [SwapDto.debited, if_pos ⟨rfl, rfl⟩]
  constructor
  · rintro (⟨-, hsame⟩ | hless)
    · rw [hsame] at hsource
      omega
    · omega
  · intro hle
    rcases hle.lt_or_eq with hlt | hzero
    · exact Or.inr (by omega)
    · refine Or.inl ⟨⟨e, rfl⟩, ?_⟩
      funext a c
      rw [SwapDto.debited, hzero, ite_self, add_zero]

theorem createSwap_refusedOrPaid_iff (i : TxId) (dto : SwapDto) (db : Db) :
    RefusedOrPaid ((createSwap i dto).run exec noFault db).1 db
        ((createSwap i dto).run exec noFault db).2 dto.userId dto.fromCurrency ↔
      dto.Takes i db := by
  unfold SwapDto.Takes
  by_cases hadm : dto.Admissible i db
  case neg =>
    obtain ⟨e, hthrown, hcents⟩ := createSwap_rejected hadm
    exact iff_of_true (.of_refused hthrown hcents _ _) (Or.inl hadm)
  obtain ⟨tx, d, hready, hrun⟩ := createSwap_loop hadm
  rw [hrun, or_iff_right (not_not_intro hadm)]
  by_cases hacc : dto.CreditAccepted db
  · obtain ⟨tx', hreturned, hcents⟩ := hready.loop_completes hacc .fault
    rw [refusedOrPaid_ok hreturned, hcents, dto.credited_source]
    simp [hacc]
  · obtain ⟨e, hthrown, hcents⟩ := hready.loop_exhausted hacc
    rw [or_iff_right fun h => hacc h.1, and_iff_right hacc]
    unfold RefusedOrPaid
    rw [hthrown, hcents]
    split
    · exact refunded_refusedOrPaid
    · exact debited_refusedOrPaid

end Swap

-- ---------------------------------------------------------------------------
-- Trades
-- ---------------------------------------------------------------------------

namespace Fx

/-- What a trade does to the source wallet, once all it has started is over; the
target may be the same wallet. -/
def ExecuteTradeDto.net (i : ℕ) (dto : ExecuteTradeDto) (order : List Piece) (st : FxDb) : ℤ :=
  change (goesThrough i dto .none order st .first) dto.debit +
    if normalizeCurrencyCode dto.toCurrency = normalizeCurrencyCode dto.fromCurrency then
      change (goesThrough i dto .none order st .second) (dto.credit (st.rate dto)) else 0

/-- When a trade takes something: there is no rate, or what goes through of it
takes more away than it gives. -/
def ExecuteTradeDto.Takes (i : ℕ) (dto : ExecuteTradeDto) (order : List Piece) (st : FxDb) : Prop :=
  st.rates dto.fromCurrency dto.toCurrency = none ∨ dto.net i order st < 0

section Trade

variable {i : ℕ} {dto : ExecuteTradeDto} {order : List Piece} {st : FxDb}

theorem notStarted_none : NotStarted dto .none st ↔
    st.rates dto.fromCurrency dto.toCurrency = none := by
  unfold NotStarted TradeFaults.none
  simp

/-- Without a rate the call throws, and with one it returns. -/
theorem executeTrade_throws_iff :
    (∃ e, ((executeTrade i dto).run exec TradeFaults.none.inject st).1 = .error e) ↔
      st.rates dto.fromCurrency dto.toCurrency = none := by
  unfold executeTrade tradeStart tradeSave
  simp only [bind_eq, bind_assoc]
  cases hrate : st.rates dto.fromCurrency dto.toCurrency with
  | none =>
    have hthrown : outcome (TradeFaults.none.inject (.getRate dto.fromCurrency dto.toCurrency))
        (exec (.getRate dto.fromCurrency dto.toCurrency) st) =
          .error (.unavailable "Exchange rate providers are currently unavailable") := by
      rw [exec, hrate]
      rfl
    refine iff_of_true ⟨.unavailable "Exchange rate providers are currently unavailable", ?_⟩ rfl
    rw [run_call_bind_error hthrown]
  | some rate =>
    refine iff_of_false ?_ (by simp)
    rintro ⟨e, he⟩
    have hsave : ∀ trade st, ∃ saved st', exec (.managerSave trade) st = .ok (saved, st') := by
      intro trade st
      rw [exec]
      split
      · exact ⟨_, _, rfl⟩
      · exact ⟨_, _, rfl⟩
    obtain ⟨saved, st', hsaved⟩ := hsave (dto.create i rate)
      ((st.putStarted (dto.adjusts i rate)).addVolume dto.pairKey dto.fromAmount)
    rw [run_call_bind_ok rfl (by rw [exec, hrate]), run_call_bind_ok rfl rfl,
      run_call_bind_ok rfl rfl, run_call_bind_ok rfl rfl] at he
    simp only [pure_eq, done_ok_bind] at he
    rw [run_call_bind_ok rfl hsaved, run_call_bind_ok rfl rfl] at he
    cases he

theorem executeTrade_refusedOrPaid_iff (hfresh : st.trade i = none)
    (horder : order.Perm [.debit, .credit, .save]) :
    RefusedOrPaid ((executeTrade i dto).run exec TradeFaults.none.inject st).1 st.db
        (settle i dto .none order st).db dto.userId dto.fromCurrency ↔
      dto.Takes i order st := by
  unfold RefusedOrPaid ExecuteTradeDto.Takes
  rw [executeTrade_throws_iff]
  by_cases hrate : st.rates dto.fromCurrency dto.toCurrency = none
  · rw [settle_notStarted (notStarted_none.mpr hrate)]
    exact iff_of_true (Or.inl ⟨hrate, rfl⟩) (Or.inl hrate)
  · obtain ⟨-, -, hcents⟩ := settle_spec hfresh horder fun h => hrate (notStarted_none.mp h)
    rw [hcents, if_pos ⟨rfl, rfl⟩, ExecuteTradeDto.net]
    simp only [hrate, false_and, false_or, true_and]
    constructor <;> intro h <;> omega

end Trade

end Fx

-- ---------------------------------------------------------------------------
-- The result
-- ---------------------------------------------------------------------------

/-- User 1 withdraws -50.00 USD. -/
def minusFifty : WithdrawalDto where
  userId := 1
  amount := -50
  currency := "USD"
  reference := "w-1"
  destinationAddress := "G"

/-- User 1 deposits -50.00 USD. -/
def minusFiftyIn : DepositDto where
  userId := 1
  amount := -50
  currency := "USD"
  reference := "d-1"

end NexaFx
