import NexaFx.Model.Transactions

/-!
# NexaFx — one transfer

What `transfer` does to the two wallets when it runs alone, for every choice of
the step of its `dataSource.transaction` block that fails, and for amounts with
any number of decimals.

The two `adjustBalance` calls commit on their own, so the block is not atomic:
what is undone when it fails is only the confirmation write.
-/

namespace NexaFx

open Async Decimal Proc

/-! ## Admission -/

/-- `tx` with the receipt number the sequence gives next. -/
def Transaction.receipted (tx : Transaction) (db : Db) : Transaction :=
  tx.withReceipt db.now (padStart (db.receiptSeq + 1))

/-- The row of a transfer with its receipt number. -/
def TransferDto.prepared (i : TxId) (dto : TransferDto) (db : Db) : Transaction :=
  ((dto.create i).stamp db.now).receipted db

/-- The request passes every check before the `dataSource.transaction` block. -/
structure TransferDto.Admissible (i : TxId) (dto : TransferDto) (db : Db) : Prop where
  terms : db.termsAccepted dto.senderId = true
  active : db.deactivated dto.senderId = false
  positive : 0 < dto.amount
  distinct : dto.senderId ≠ dto.receiverId
  supported : validateCurrency dto.currency = .ok (normalizeCurrencyCode dto.currency)
  balance : 100 * dto.amount ≤ db.cents dto.senderId (normalizeCurrencyCode dto.currency)
  stores : db.Stores (dto.create i)
  receipt : db.Stores (dto.prepared i db)

theorem generateReceiptNumber_run (tx : Transaction) (db : Db) :
    (generateReceiptNumber tx).run exec noFault db =
      match Db.storeTransaction { db with receiptSeq := db.receiptSeq + 1 } (tx.receipted db) with
      | .ok db' => (.ok (tx.receipted db), db')
      | .error e => (.error e, { db with receiptSeq := db.receiptSeq + 1 }) := by
  unfold generateReceiptNumber
  simp only [bind_eq]
  rw [run_attempt_bind, run_call]
  simp only [noFault, outcome_none, exec]
  rw [run_call_bind_ok rfl rfl, run_bind, run_call]
  simp only [noFault, outcome_none, exec, Transaction.receipted]
  cases Db.storeTransaction _ _ <;> rfl

theorem generateReceiptNumber_ok {tx : Transaction} {db : Db}
    (h : Db.Stores { db with receiptSeq := db.receiptSeq + 1 } (tx.receipted db)) :
    (generateReceiptNumber tx).run exec noFault db =
      (.ok (tx.receipted db),
        Db.putTransaction { db with receiptSeq := db.receiptSeq + 1 } (tx.receipted db)) := by
  rw [generateReceiptNumber_run, Db.storeTransaction_of_stores h]

/-- The database once the PENDING record is in place. -/
def TransferDto.preparedDb (i : TxId) (dto : TransferDto) (db : Db) : Db :=
  Db.putTransaction
    { db.putTransaction ((dto.create i).stamp db.now) with receiptSeq := db.receiptSeq + 1 }
    (dto.prepared i db)

theorem transferPrepare_run {i : TxId} {dto : TransferDto} {db : Db} (h : dto.Admissible i db) :
    (transferPrepare i dto).run exec noFault db =
      (.ok (dto.prepared i db), dto.preparedDb i db) := by
  have hinsert : db.Stores ((dto.create i).stamp db.now) :=
    h.stores.congr rfl rfl rfl rfl rfl rfl rfl
  have hreceipt : (db.putTransaction ((dto.create i).stamp db.now)).Stores (dto.prepared i db) :=
    (Db.stores_put (by rfl)).mpr h.receipt
  unfold transferPrepare
  simp only [bind_eq]
  rw [run_call_bind_ok rfl (by rw [exec, if_pos h.terms]), run_call_bind_ok rfl rfl,
    run_rejectWhen_bind, if_neg (by simp [h.active]),
    run_rejectWhen_bind, if_neg (by simpa using h.positive),
    run_rejectWhen_bind, if_neg h.distinct,
    run_call_bind_ok rfl (by rw [exec, Db.getBalance, h.supported]),
    run_rejectWhen_bind, if_neg (by simpa using h.balance),
    run_call_bind_ok rfl (by rw [exec, Db.storeTransaction_of_stores hinsert])]
  exact generateReceiptNumber_ok (hreceipt.congr rfl rfl rfl rfl rfl rfl rfl)

theorem admissible_of_transferPrepare {i : TxId} {dto : TransferDto} {db db' : Db}
    {tx : Transaction} (h : (transferPrepare i dto).run exec noFault db = (.ok tx, db')) :
    dto.Admissible i db := by
  unfold transferPrepare at h
  simp only [bind_eq] at h
  obtain ⟨_, _, hterms, h⟩ := run_call_bind_returns h
  obtain ⟨_, _, hactive, h⟩ := run_call_bind_returns h
  obtain ⟨hdeact, h⟩ := run_rejectWhen_bind_returns h
  obtain ⟨hpos, h⟩ := run_rejectWhen_bind_returns h
  obtain ⟨hdist, h⟩ := run_rejectWhen_bind_returns h
  obtain ⟨_, _, hbal, h⟩ := run_call_bind_returns h
  obtain ⟨hcovers, h⟩ := run_rejectWhen_bind_returns h
  obtain ⟨_, _, hins, h⟩ := run_call_bind_returns h
  obtain ⟨hterms, rfl⟩ := exec_ensureAccepted hterms
  cases hactive
  obtain ⟨hsupp, rfl, rfl⟩ := exec_getBalance hbal
  obtain ⟨hstores, rfl, rfl⟩ := exec_insertTransaction hins
  rw [generateReceiptNumber_run] at h
  split at h
  · rename_i hrec
    have hrec := (Db.storeTransaction_ok hrec).1
    have hreceipt : (Db.putTransaction _ ((dto.create i).stamp _)).Stores (dto.prepared i _) :=
      hrec.congr rfl rfl rfl rfl rfl rfl rfl
    exact ⟨hterms, by simpa using hdeact, not_le.mp hpos, hdist, hsupp, not_lt.mp hcovers,
      hstores.congr rfl rfl rfl rfl rfl rfl rfl, (Db.stores_put (by rfl)).mp hreceipt⟩
  · cases h

/-! ## Preparation moves no money -/

theorem generateReceiptNumber_preparatory (tx : Transaction) :
    (generateReceiptNumber tx).Issues (·.preparatory = true) := by
  refine issues_bind (issues_attempt (issues_call.mpr rfl)) fun _ => ?_
  refine issues_bind (issues_call.mpr rfl) fun _ => ?_
  exact issues_bind (issues_call.mpr rfl) fun _ => issues_done _

theorem transferPrepare_preparatory (i : ℕ) (dto : TransferDto) :
    (transferPrepare i dto).Issues (·.preparatory = true) := by
  refine issues_bind (issues_call.mpr rfl) fun _ => ?_
  refine issues_bind (issues_call.mpr rfl) fun _ => ?_
  refine issues_bind (issues_rejectWhen _ _) fun _ => ?_
  refine issues_bind (issues_rejectWhen _ _) fun _ => ?_
  refine issues_bind (issues_rejectWhen _ _) fun _ => ?_
  refine issues_bind (issues_call.mpr rfl) fun _ => ?_
  refine issues_bind (issues_rejectWhen _ _) fun _ => ?_
  refine issues_bind (issues_call.mpr rfl) fun _ => ?_
  exact generateReceiptNumber_preparatory _

/-- A call that makes no balance change leaves every balance as it was. -/
theorem cents_of_still {α : Type} {p : TxProc α} (hp : p.Issues (·.mover = none))
    (φ : Cmd → Option Err) (db : Db) : (p.run exec φ db).2.cents = db.cents := by
  refine run_inv (I := fun db' : Db => db'.cents = db.cents) hp ?_ rfl
  intro c hc s _ s' hexec hs
  have hw := (exec_wallets hexec hc).1
  rw [← hs]
  funext a cur
  rw [Db.cents, Db.wallet, hw]
  rfl

theorem cents_of_preparatory {α : Type} {p : TxProc α} (hp : p.Issues (·.preparatory = true))
    (φ : Cmd → Option Err) (db : Db) : (p.run exec φ db).2.cents = db.cents :=
  cents_of_still (hp.mono fun _ => Cmd.mover_of_preparatory) φ db

/-- A call that makes no limit check leaves the accumulators alone. -/
theorem sameTotals_of_issues {α : Type} {p : TxProc α} (hp : p.Issues (·.counts = false))
    (φ : Cmd → Option Err) (db : Db) : db.SameTotals (p.run exec φ db).2 :=
  run_inv (I := fun db' => db.SameTotals db') hp
    (fun _ hc _ _ _ hexec hs => hs.trans (exec_sameTotals hexec hc)) (.refl db)

/-- A row that is there when a call begins is there when it ends. -/
theorem transaction_isSome_of_run {α : Type} (p : TxProc α) (φ : Cmd → Option Err) {db : Db}
    {id : TxId} (hid : (db.transaction id).isSome = true) :
    ((p.run exec φ db).2.transaction id).isSome = true :=
  run_inv (I := fun db' : Db => (db'.transaction id).isSome = true) (issues_true p)
    (fun _ _ _ _ _ hexec hs => exec_transaction_isSome hexec hs) hid

/-! ## The block under a fault -/

/-- The awaited steps of the `dataSource.transaction` block. -/
inductive BlockStep where
  | debit
  | credit
  | managerSave
  | commit
  deriving DecidableEq

/-- The step `f` of the block fails. -/
def BlockStep.inject (f : Option BlockStep) : Cmd → Option Err
  | .adjustBalance .debit .. => if f = some .debit then some .fault else none
  | .adjustBalance (.credit _) .. => if f = some .credit then some .fault else none
  | .managerSave _ => if f = some .managerSave then some .fault else none
  | .commit _ => if f = some .commit then some .fault else none
  | _ => none

theorem BlockStep.inject_preparatory (f : Option BlockStep) {c : Cmd}
    (h : c.preparatory = true) : BlockStep.inject f c = noFault c := by
  cases c with
  | adjustBalance site => cases h
  | managerSave => cases h
  | commit => cases h
  | _ => rfl

theorem transferPrepare_inject (i : ℕ) (dto : TransferDto) (f : Option BlockStep) (db : Db) :
    (transferPrepare i dto).run exec (BlockStep.inject f) db =
      (transferPrepare i dto).run exec noFault db :=
  run_congr (transferPrepare_preparatory i dto) (fun _ => BlockStep.inject_preparatory f) db

section Block

variable {i : ℕ} {dto : TransferDto} {d : Db} {f : Option BlockStep}

theorem transferMoves_debit_fails (i : ℕ) (dto : TransferDto) (d : Db) :
    (transferMoves i dto).run exec (BlockStep.inject (some .debit)) d = (.error .fault, d) := by
  unfold transferMoves
  simp only [bind_eq]
  rw [run_call_bind_ok rfl rfl, run_call_bind_error rfl]

/-- The debit is carried out and the credit is not. -/
theorem transferMoves_half (hf : f ≠ some .debit)
    (hcur : validateCurrency dto.currency = .ok (normalizeCurrencyCode dto.currency))
    (hsend : d.Covers dto.senderId dto.currency (-dto.amount))
    (hdist : dto.senderId ≠ dto.receiverId)
    (hstop : f = some .credit ∨ ¬ d.Covers dto.receiverId dto.currency dto.amount) :
    ∃ e d', (transferMoves i dto).run exec (BlockStep.inject f) d = (.error e, d') ∧
      d.Adjusted i i dto.senderId dto.currency (-dto.amount) d' := by
  obtain ⟨b, d', hdebit, hadj⟩ := exec_adjustBalance_carried .debit i i hcur hsend
  -- the receiver's wallet is not the one that was debited
  have hrecv : d'.Covers dto.receiverId dto.currency dto.amount →
      d.Covers dto.receiverId dto.currency dto.amount := by
    unfold Db.Covers
    rw [hadj.cents, if_neg fun h => hdist h.1, add_zero]
    exact id
  have hcredit : ∃ e, outcome
      (BlockStep.inject f (.adjustBalance (.credit 0) i i dto.receiverId dto.currency dto.amount))
      (exec (.adjustBalance (.credit 0) i i dto.receiverId dto.currency dto.amount) d') =
        .error e := by
    by_cases hfc : f = some .credit
    · refine ⟨.fault, ?_⟩
      rw [BlockStep.inject, if_pos hfc, outcome_some]
    · rw [BlockStep.inject, if_neg hfc, outcome_none]
      exact exec_adjustBalance_refused _ _ _ fun h => hstop.resolve_left hfc (hrecv h)
  obtain ⟨e, he⟩ := hcredit
  refine ⟨e, d', ?_, hadj⟩
  unfold transferMoves
  simp only [bind_eq]
  rw [run_call_bind_ok rfl rfl, run_call_bind_ok (by rw [BlockStep.inject, if_neg hf]) hdebit,
    run_call, he]

/-- Both balance changes are carried out. -/
theorem transferMoves_both (hf : f ≠ some .debit) (hf' : f ≠ some .credit)
    (hcur : validateCurrency dto.currency = .ok (normalizeCurrencyCode dto.currency))
    (hsend : d.Covers dto.senderId dto.currency (-dto.amount))
    (hdist : dto.senderId ≠ dto.receiverId)
    (hrecv : d.Covers dto.receiverId dto.currency dto.amount) :
    ∃ b d' d'', (transferMoves i dto).run exec (BlockStep.inject f) d = (.ok b, d'') ∧
      d.Adjusted i i dto.senderId dto.currency (-dto.amount) d' ∧
      d'.Adjusted i i dto.receiverId dto.currency dto.amount d'' := by
  obtain ⟨b, d', hdebit, hadj⟩ := exec_adjustBalance_carried .debit i i hcur hsend
  have hrecv' : d'.Covers dto.receiverId dto.currency dto.amount := by
    unfold Db.Covers
    rw [hadj.cents, if_neg fun h => hdist h.1, add_zero]
    exact hrecv
  obtain ⟨b', d'', hcredit, hadj'⟩ := exec_adjustBalance_carried (.credit 0) i i hcur hrecv'
  refine ⟨b', d', d'', ?_, hadj, hadj'⟩
  unfold transferMoves
  simp only [bind_eq]
  rw [run_call_bind_ok rfl rfl, run_call_bind_ok (by rw [BlockStep.inject, if_neg hf]) hdebit,
    run_call, BlockStep.inject, if_neg hf', outcome_none, hcredit]

/-- The catch branch returns `tx` as it was. -/
theorem transferSettle_caught {tx : Transaction} {φ : Cmd → Option Err} {d' : Db} {e : Err}
    (h : (transferMoves i dto).run exec φ d = (.error e, d')) :
    (transferSettle i dto tx).run exec φ d = (.ok tx, d') := by
  unfold transferSettle
  simp only [bind_eq]
  rw [run_attempt_bind, h]
  rfl

/-- After both balance changes the returned `tx` says COMPLETED, whatever the
confirmation write does. -/
theorem transferSettle_moved {tx : Transaction} {φ : Cmd → Option Err} {d' : Db} {b : ℤ}
    (hnow : φ .now = none) (h : (transferMoves i dto).run exec φ d = (.ok b, d')) :
    (transferSettle i dto tx).run exec φ d =
      (.ok (tx.complete d'.now), ((transferConfirm (tx.complete d'.now)).run exec φ d').2) := by
  unfold transferSettle
  simp only [bind_eq]
  rw [run_attempt_bind, h]
  simp only
  rw [run_call_bind_ok hnow rfl, run_attempt_bind]
  rfl

theorem transferConfirm_fails {tx : Transaction} (hf : f = some .managerSave ∨ f = some .commit)
    (hst : d.Stores tx) : ((transferConfirm tx).run exec (BlockStep.inject f) d).2 = d := by
  unfold transferConfirm
  simp only [bind_eq]
  rcases hf with rfl | rfl
  · rw [run_call_bind_error rfl]
  · rw [run_call_bind_ok rfl (by rw [exec, Db.storeTransaction_of_stores hst]), run_call]
    rfl

theorem transferConfirm_ok {tx : Transaction} {φ : Cmd → Option Err}
    (hφ : φ (.managerSave tx) = none) (hφ' : φ (.commit [tx]) = none) (hst : d.Stores tx) :
    ((transferConfirm tx).run exec φ d).2 = d.putTransaction tx := by
  unfold transferConfirm
  simp only [bind_eq]
  rw [run_call_bind_ok hφ (by rw [exec, Db.storeTransaction_of_stores hst]), run_call, hφ',
    outcome_none, exec, Db.commit, Db.storeTransaction_of_stores hst]
  rfl

end Block

/-! ## All or nothing -/

/-- The wallet has gained `cents` hundredths. -/
def Db.Gained (before after : Db) (accountId : UserId) (currency : String) (cents : ℚ) : Prop :=
  (after.cents accountId currency : ℚ) = before.cents accountId currency + cents

/-- What a transfer that is all-or-nothing leaves behind: both wallets have
moved by the amount or neither has, so their sum is unchanged; and a returned
transaction says the status that is stored. -/
structure AllOrNothing (dto : TransferDto) (before : Db) (r : Except Err Transaction)
    (after : Db) : Prop where
  moved :
    (before.Gained after dto.senderId (normalizeCurrencyCode dto.currency) (-(100 * dto.amount)) ∧
      before.Gained after dto.receiverId (normalizeCurrencyCode dto.currency)
        (100 * dto.amount)) ∨
    (before.Gained after dto.senderId (normalizeCurrencyCode dto.currency) 0 ∧
      before.Gained after dto.receiverId (normalizeCurrencyCode dto.currency) 0)
  total :
    after.cents dto.senderId (normalizeCurrencyCode dto.currency) +
        after.cents dto.receiverId (normalizeCurrencyCode dto.currency) =
      before.cents dto.senderId (normalizeCurrencyCode dto.currency) +
        before.cents dto.receiverId (normalizeCurrencyCode dto.currency)
  status : ∀ tx, r = .ok tx → (after.transaction tx.id).map Transaction.status = some tx.status

/-- Nothing moved and the stored row is the returned one. -/
theorem AllOrNothing.of_unmoved {dto : TransferDto} {before after : Db}
    {r : Except Err Transaction} (hcents : after.cents = before.cents)
    (hrow : ∀ tx, r = .ok tx → after.transaction tx.id = some tx) :
    AllOrNothing dto before r after := by
  refine ⟨Or.inr ?_, by rw [hcents], ?_⟩
  · unfold Db.Gained
    rw [hcents, add_zero, add_zero]
    exact ⟨rfl, rfl⟩
  · intro tx htx
    rw [hrow tx htx]
    rfl

theorem shift_neg_cents {amount : ℚ} {n : ℤ} (hn : 100 * amount = n) :
    shift (100 * -amount) = -n := by
  rw [mul_neg, hn, ← Int.cast_neg, shift_intCast]

section Admitted

variable {i : TxId} {dto : TransferDto} {db : Db}

theorem transfer_run (h : dto.Admissible i db) (f : Option BlockStep) :
    (transfer i dto).run exec (BlockStep.inject f) db =
      (transferSettle i dto (dto.prepared i db)).run exec (BlockStep.inject f)
        (dto.preparedDb i db) := by
  have hprep := transferPrepare_inject i dto f db
  rw [transferPrepare_run h] at hprep
  exact run_bind_ok hprep

/-- A request that is refused changes no balance and returns nothing. -/
theorem transfer_refused (h : ¬ dto.Admissible i db) (f : Option BlockStep) :
    ∃ e, ((transfer i dto).run exec (BlockStep.inject f) db).1 = .error e ∧
      ((transfer i dto).run exec (BlockStep.inject f) db).2.cents = db.cents := by
  have hcents := cents_of_preparatory (transferPrepare_preparatory i dto) noFault db
  have hprep := transferPrepare_inject i dto f db
  cases hrun : (transferPrepare i dto).run exec noFault db with
  | mk r db' =>
    rw [hrun] at hcents hprep
    cases r with
    | ok tx => exact absurd (admissible_of_transferPrepare hrun) h
    | error e =>
      have := run_bind_error (k := transferSettle i dto) hprep
      exact ⟨e, congrArg Prod.fst this, (congrArg (Db.cents ∘ Prod.snd) this).trans hcents⟩

@[simp] theorem preparedDb_cents : (dto.preparedDb i db).cents = db.cents := rfl

theorem preparedDb_transaction :
    (dto.preparedDb i db).transaction i = some (dto.prepared i db) :=
  Table.get_put_self ..

/-- The sender's balance covers the debit. -/
theorem TransferDto.Admissible.covers (h : dto.Admissible i db) :
    (dto.preparedDb i db).Covers dto.senderId dto.currency (-dto.amount) := by
  have hbal := h.balance
  refine Or.inr ?_
  rw [preparedDb_cents]
  linarith

/-- The confirmation write meets no constraint of another row. -/
theorem TransferDto.Admissible.confirms (h : dto.Admissible i db) {d : Db} (t : Time)
    (hts : d.transactions = (dto.preparedDb i db).transactions)
    (husers : d.userExists = db.userExists) :
    d.Stores ((dto.prepared i db).complete t) := by
  have hstamped : (db.putTransaction ((dto.create i).stamp db.now)).Stores (dto.prepared i db) :=
    (Db.stores_put (by rfl)).mpr h.receipt
  have hprepared : ((db.putTransaction ((dto.create i).stamp db.now)).putTransaction
      (dto.prepared i db)).Stores (dto.prepared i db) :=
    (Db.stores_put (by rfl)).mpr hstamped
  exact hprepared.congr hts husers rfl rfl rfl rfl rfl

/-- A debit without the credit is neither all nor nothing. -/
theorem not_allOrNothing_of_half (h : dto.Admissible i db) {n : ℤ} (hn : 100 * dto.amount = n)
    {d' : Db} {r : Except Err Transaction}
    (hadj : (dto.preparedDb i db).Adjusted i i dto.senderId dto.currency (-dto.amount) d') :
    ¬ AllOrNothing dto db r d' := by
  intro hall
  have hpos := h.positive
  have hsend : d'.cents dto.senderId (normalizeCurrencyCode dto.currency) =
      db.cents dto.senderId (normalizeCurrencyCode dto.currency) - n := by
    rw [hadj.cents, if_pos ⟨rfl, rfl⟩, preparedDb_cents, shift_neg_cents hn]
    ring
  have hrecv : d'.cents dto.receiverId (normalizeCurrencyCode dto.currency) =
      db.cents dto.receiverId (normalizeCurrencyCode dto.currency) := by
    rw [hadj.cents, if_neg fun hr => h.distinct hr.1, preparedDb_cents, add_zero]
  have hnpos : (0 : ℚ) < n := by
    rw [← hn]
    linarith
  have htotal := hall.total
  rw [hsend, hrecv] at htotal
  have : n = 0 := by omega
  rw [this] at hnpos
  exact absurd hnpos (lt_irrefl _)

/-- The state after both balance changes. -/
theorem gained_of_both (h : dto.Admissible i db) {n : ℤ} (hn : 100 * dto.amount = n) {d' d'' : Db}
    (hadj : (dto.preparedDb i db).Adjusted i i dto.senderId dto.currency (-dto.amount) d')
    (hadj' : d'.Adjusted i i dto.receiverId dto.currency dto.amount d'') :
    d''.cents dto.senderId (normalizeCurrencyCode dto.currency) =
        db.cents dto.senderId (normalizeCurrencyCode dto.currency) - n ∧
      d''.cents dto.receiverId (normalizeCurrencyCode dto.currency) =
        db.cents dto.receiverId (normalizeCurrencyCode dto.currency) + n := by
  constructor
  · rw [hadj'.cents, if_neg fun hr => h.distinct hr.1.symm, hadj.cents, if_pos ⟨rfl, rfl⟩,
      preparedDb_cents, shift_neg_cents hn]
    ring
  · rw [hadj'.cents, if_pos ⟨rfl, rfl⟩, hadj.cents, if_neg fun hr => h.distinct hr.1,
      preparedDb_cents, hn, shift_intCast]
    ring

/-- **All or nothing.** With a whole number of hundredths, `transfer` is
all-or-nothing exactly when the request is refused before the block, the first
balance change is the step that fails, or no step fails and the receiver's
balance covers the credit. A failure after the first balance change leaves it
in place, and one after the in-memory status was set returns a COMPLETED
transaction that is stored as PENDING. -/
theorem transfer_allOrNothing_iff (i : TxId) (dto : TransferDto) (db : Db)
    (f : Option BlockStep) (hcents : ∃ n : ℤ, 100 * dto.amount = n) :
    AllOrNothing dto db ((transfer i dto).run exec (BlockStep.inject f) db).1
        ((transfer i dto).run exec (BlockStep.inject f) db).2 ↔
      ¬ dto.Admissible i db ∨ f = some .debit ∨
        (f = none ∧ db.Covers dto.receiverId dto.currency dto.amount) := by
  obtain ⟨n, hn⟩ := hcents
  by_cases hadm : dto.Admissible i db
  case neg =>
    obtain ⟨e, hr, hcents⟩ := transfer_refused hadm f
    refine iff_of_true (.of_unmoved hcents ?_) (Or.inl hadm)
    intro tx htx
    rw [hr] at htx
    cases htx
  rw [transfer_run hadm]
  by_cases hdebit : f = some .debit
  · subst hdebit
    rw [transferSettle_caught (transferMoves_debit_fails i dto _)]
    refine iff_of_true (.of_unmoved rfl ?_) (Or.inr (Or.inl rfl))
    intro tx htx
    cases htx
    exact preparedDb_transaction
  by_cases hstop : f = some .credit ∨
      ¬ (dto.preparedDb i db).Covers dto.receiverId dto.currency dto.amount
  · obtain ⟨e, d', hrun, hadj⟩ :=
      transferMoves_half (i := i) hdebit hadm.supported hadm.covers hadm.distinct hstop
    rw [transferSettle_caught hrun]
    refine iff_of_false (not_allOrNothing_of_half hadm hn hadj) ?_
    rintro (hno | hf | ⟨rfl, hcov⟩)
    · exact hno hadm
    · exact hdebit hf
    · exact hstop.elim (fun h => by cases h) (fun h => h hcov)
  · push Not at hstop
    obtain ⟨hcredit, hcov⟩ := hstop
    obtain ⟨b, d', d'', hrun, hadj, hadj'⟩ :=
      transferMoves_both (i := i) hdebit hcredit hadm.supported hadm.covers hadm.distinct hcov
    rw [transferSettle_moved rfl hrun]
    obtain ⟨hsend, hrecv⟩ := gained_of_both hadm hn hadj hadj'
    have hts : d''.transactions = (dto.preparedDb i db).transactions :=
      hadj'.transactions.trans hadj.transactions
    have hst : d''.Stores ((dto.prepared i db).complete d''.now) :=
      hadm.confirms _ hts (hadj'.userExists.trans hadj.userExists)
    by_cases hf : f = none
    · subst hf
      rw [transferConfirm_ok rfl rfl hst]
      refine iff_of_true ⟨Or.inl ?_, ?_, ?_⟩ (Or.inr (Or.inr ⟨rfl, hcov⟩))
      · unfold Db.Gained
        rw [Db.putTransaction_cents, Db.putTransaction_cents, hsend, hrecv, hn]
        push_cast
        exact ⟨by ring, rfl⟩
      · rw [Db.putTransaction_cents, Db.putTransaction_cents, hsend, hrecv]
        ring
      · intro tx htx
        cases htx
        rw [Db.transaction_put, if_pos rfl]
        rfl
    · have hconfirm : f = some .managerSave ∨ f = some .commit := by
        rcases f with _ | (_ | _ | _ | _) <;> simp_all
      rw [transferConfirm_fails hconfirm hst]
      refine iff_of_false ?_ ?_
      · intro hall
        -- the row is still the PENDING one
        have hrow : d''.transaction i = some (dto.prepared i db) := by
          rw [Db.transaction, hts, ← Db.transaction, preparedDb_transaction]
        have hstatus := hall.status _ rfl
        have hid : ((dto.prepared i db).complete d''.now).id = i := rfl
        rw [hid, hrow] at hstatus
        cases hstatus
      · rintro (hno | hd | ⟨hnone, -⟩)
        · exact hno hadm
        · exact hdebit hd
        · exact hf hnone

end Admitted

/-- Account 1 holds 100.00 USD and account 2 nothing. -/
def twoAccounts : Db := .deployed [{ Wallet.create 1 "USD" with balance := 10000 }]

/-- Account 1 sends 60.00 USD to account 2. -/
def sixtyDollars : TransferDto where
  senderId := 1
  receiverId := 2
  amount := 60
  currency := "USD"
  reference := "t-1"

theorem transfer_allOrNothing_sixty :
    AllOrNothing sixtyDollars twoAccounts
      ((transfer 0 sixtyDollars).run exec (BlockStep.inject (some .debit)) twoAccounts).1
      ((transfer 0 sixtyDollars).run exec (BlockStep.inject (some .debit)) twoAccounts).2 :=
  (transfer_allOrNothing_iff 0 sixtyDollars twoAccounts (some .debit)
    ⟨6000, by norm_num [sixtyDollars]⟩).mpr (Or.inr (Or.inl rfl))

/-- The credit fails: the sender has paid and the receiver has nothing. The
confirmation write fails: the caller is told COMPLETED, the row says PENDING. -/
theorem transfer_not_allOrNothing :
    ¬ AllOrNothing sixtyDollars twoAccounts
      ((transfer 0 sixtyDollars).run exec (BlockStep.inject (some .credit)) twoAccounts).1
      ((transfer 0 sixtyDollars).run exec (BlockStep.inject (some .credit)) twoAccounts).2 ∧
    ¬ AllOrNothing sixtyDollars twoAccounts
      ((transfer 0 sixtyDollars).run exec (BlockStep.inject (some .managerSave)) twoAccounts).1
      ((transfer 0 sixtyDollars).run exec (BlockStep.inject (some .managerSave)) twoAccounts).2 := by
  constructor
  · intro h
    have htotal := h.total
    revert htotal
    decide +kernel
  · intro h
    have hstatus := h.status ((sixtyDollars.prepared 0 twoAccounts).complete twoAccounts.now)
      (by decide +kernel)
    revert hstatus
    decide +kernel

/-! ## Conservation -/

/-- The two balances have the same sum as before, what one lost the other has
gained, and no other wallet has changed. -/
structure Conserves (dto : TransferDto) (before after : Db) : Prop where
  total :
    after.cents dto.senderId (normalizeCurrencyCode dto.currency) +
        after.cents dto.receiverId (normalizeCurrencyCode dto.currency) =
      before.cents dto.senderId (normalizeCurrencyCode dto.currency) +
        before.cents dto.receiverId (normalizeCurrencyCode dto.currency)
  debited :
    before.cents dto.senderId (normalizeCurrencyCode dto.currency) -
        after.cents dto.senderId (normalizeCurrencyCode dto.currency) =
      after.cents dto.receiverId (normalizeCurrencyCode dto.currency) -
        before.cents dto.receiverId (normalizeCurrencyCode dto.currency)
  others : ∀ a c, ¬ ((dto.senderId = a ∨ dto.receiverId = a) ∧
    normalizeCurrencyCode dto.currency = c) → after.cents a c = before.cents a c

theorem BlockStep.inject_none : BlockStep.inject none = noFault := by
  funext c
  cases c with
  | adjustBalance site => cases site <;> rfl
  | _ => rfl

/-- What a transfer that completes has done. -/
theorem transfer_completes {i : TxId} {dto : TransferDto} {db db' : Db} {tx : Transaction}
    (hrun : (transfer i dto).run exec noFault db = (.ok tx, db'))
    (hdone : (db'.transaction i).map Transaction.status = some .completed) :
    dto.senderId ≠ dto.receiverId ∧ ∀ a c, db'.cents a c = db.cents a c +
      (if dto.senderId = a ∧ normalizeCurrencyCode dto.currency = c
        then shift (-(100 * dto.amount)) else 0) +
      if dto.receiverId = a ∧ normalizeCurrencyCode dto.currency = c
        then shift (100 * dto.amount) else 0 := by
  have hadm : dto.Admissible i db := by
    obtain ⟨_, _, hprep, -⟩ := run_bind_returns hrun
    exact admissible_of_transferPrepare hprep
  rw [← BlockStep.inject_none, transfer_run hadm] at hrun
  refine ⟨hadm.distinct, ?_⟩
  by_cases hcov : (dto.preparedDb i db).Covers dto.receiverId dto.currency dto.amount
  · obtain ⟨b, d', d'', hmoves, hadj, hadj'⟩ := transferMoves_both (i := i)
      (f := none) (by simp) (by simp) hadm.supported hadm.covers hadm.distinct hcov
    have hts : d''.transactions = (dto.preparedDb i db).transactions :=
      hadj'.transactions.trans hadj.transactions
    have hst : d''.Stores ((dto.prepared i db).complete d''.now) :=
      hadm.confirms _ hts (hadj'.userExists.trans hadj.userExists)
    rw [transferSettle_moved rfl hmoves, transferConfirm_ok rfl rfl hst] at hrun
    cases hrun
    intro a c
    rw [Db.putTransaction_cents, hadj'.cents, hadj.cents, preparedDb_cents, mul_neg]
  · -- the credit is refused, and the row is left PENDING
    obtain ⟨e, d', hmoves, hadj⟩ := transferMoves_half (i := i)
      (f := none) (by simp) hadm.supported hadm.covers hadm.distinct (Or.inr hcov)
    rw [transferSettle_caught hmoves] at hrun
    cases hrun
    rw [Db.transaction, hadj.transactions, ← Db.transaction, preparedDb_transaction] at hdone
    cases hdone

/-- A transfer of 0.005 USD. -/
def halfCent : TransferDto := { sixtyDollars with amount := 5 / 1000 }

end NexaFx
