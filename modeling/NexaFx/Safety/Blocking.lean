import NexaFx.Model.Blocking
import NexaFx.Safety.PayOut

/-!
# NexaFx — a blocked user cannot move money

Of the five operations only `transfer`, and through it `createInternalTransfer`,
asks whether the user is deactivated, and none asks whether the account is
frozen. So a blocked user is turned away only where anybody would be
(`MoneyCall.TurnedAway`): by another check that comes before the first write.
`blocked_cannot_move_iff` says that this is exactly when.

Every operation starts with checks that only read (`Proc.Checks`). What comes
after them leaves a trace that stays: an accumulator that has grown, or the row
of the call.
-/

namespace NexaFx

open Async Decimal Proc

-- ---------------------------------------------------------------------------
-- Nothing has changed
-- ---------------------------------------------------------------------------

/-- Every balance, accumulator and transaction row is as it was. -/
structure Db.SameMoney (db db' : Db) : Prop where
  wallets : db'.wallets = db.wallets
  totals : db.SameTotals db'
  transactions : db'.transactions = db.transactions

theorem Db.SameMoney.refl (db : Db) : db.SameMoney db := ⟨rfl, .refl db, rfl⟩

theorem Db.SameMoney.trans {db db' db'' : Db} (h : db.SameMoney db') (h' : db'.SameMoney db'') :
    db.SameMoney db'' :=
  ⟨h'.wallets.trans h.wallets, h.totals.trans h'.totals, h'.transactions.trans h.transactions⟩

theorem Db.SameMoney.transaction {db db' : Db} (h : db.SameMoney db') (id : TxId) :
    db'.transaction id = db.transaction id := by
  rw [Db.transaction, h.transactions, ← Db.transaction]

/-- The call throws and changes nothing. -/
def Refused {α : Type} (φ : Cmd → Option Err) (p : TxProc α) (db : Db) : Prop :=
  ∃ e db', p.run exec φ db = (.error e, db') ∧ db.SameMoney db'

/-- The call is refused if not `A`, whatever fails on the way, and only then. -/
structure AdmittedIff {α : Type} (p : TxProc α) (db : Db) (A : Prop) : Prop where
  admitted : A → ¬ Refused noFault p db
  refused : ¬ A → ∀ φ, Refused φ p db

theorem AdmittedIff.iff {α : Type} {p : TxProc α} {db : Db} {A B : Prop}
    (h : AdmittedIff p db A) (hAB : A ↔ B) : AdmittedIff p db B :=
  propext hAB ▸ h

-- ---------------------------------------------------------------------------
-- The checks
-- ---------------------------------------------------------------------------

section Guards

variable {db : Db} {A : Prop}

theorem checks_ensureAccepted_bind {u : UserId} {k : Unit → TxProc Unit}
    (hk : Checks exec (k ()) db A) :
    Checks exec ((await (.ensureAccepted u)).bind k) db (db.termsAccepted u = true ∧ A) := by
  by_cases hterms : db.termsAccepted u = true
  · exact (checks_read_bind (by rw [exec, if_pos hterms]) hk).iff (and_iff_right hterms).symm
  · exact (checks_refused_bind (by rw [exec, if_neg hterms])).iff
      ⟨False.elim, fun h => hterms h.1⟩

/-- The wallet covers the amount. -/
def Db.Affords (db : Db) (u : UserId) (currency : String) (amount : ℚ) : Prop :=
  validateCurrency currency = .ok (normalizeCurrencyCode currency) ∧
    100 * amount ≤ db.cents u (normalizeCurrencyCode currency)

/-- The balance check of the three operations. -/
def balanceCheck (u : UserId) (currency : String) (amount : ℚ) (message : String) :
    TxProc Unit := do
  let balance ← await (.getBalance u currency)
  Proc.rejectWhen ((balance : ℚ) < 100 * amount) (.badRequest message)
  return ()

theorem checks_balanceCheck (db : Db) (u : UserId) (currency : String) (amount : ℚ)
    (message : String) :
    Checks exec (balanceCheck u currency amount message) db (db.Affords u currency amount) := by
  unfold balanceCheck
  simp only [bind_eq]
  cases hexec : exec (.getBalance u currency) db with
  | error e =>
    refine (checks_refused_bind hexec).iff ⟨False.elim, fun h => ?_⟩
    rw [exec, Db.getBalance, h.1] at hexec
    cases hexec
  | ok r =>
    obtain ⟨b, db'⟩ := r
    obtain ⟨hsupp, rfl, rfl⟩ := exec_getBalance hexec
    refine (checks_read_bind hexec (checks_rejectWhen_bind checks_done)).iff ?_
    rw [Db.Affords, not_lt, and_true]
    exact (and_iff_right hsupp).symm

end Guards

-- ---------------------------------------------------------------------------
-- Checks, and then the row
-- ---------------------------------------------------------------------------

section Stored

variable {α : Type} {db : Db} {A : Prop} {guard : TxProc Unit} {tx : Transaction}
  {k : Transaction → TxProc α}

theorem insert_refused (hno : ¬ db.Stores tx) (φ : Cmd → Option Err) :
    ∃ e, ((await (.insertTransaction tx)).bind k).run exec φ db = (.error e, db) := by
  have hstamp : ¬ db.Stores (tx.stamp db.now) := fun h =>
    hno (h.congr rfl rfl rfl rfl rfl rfl rfl)
  obtain ⟨e, he⟩ := Db.storeTransaction_of_not_stores hstamp
  cases hφ : φ (.insertTransaction tx) with
  | some e' => exact ⟨e', run_call_bind_error (by rw [hφ, outcome_some])⟩
  | none =>
    refine ⟨e, run_call_bind_error ?_⟩
    rw [hφ, outcome_none, exec, he]

/-- The row is stored, and stays. -/
theorem insert_stored (hstores : db.Stores tx) :
    ((((await (.insertTransaction tx)).bind k).run exec noFault db).2.transaction tx.id).isSome =
      true := by
  have hstamp : db.Stores (tx.stamp db.now) := hstores.congr rfl rfl rfl rfl rfl rfl rfl
  rw [run_call_bind_ok rfl (by rw [exec, Db.storeTransaction_of_stores hstamp])]
  refine transaction_isSome_of_run _ _ ?_
  rw [Db.transaction_put, if_pos (by rfl)]
  rfl

/-- A call that passes its checks stores its row. -/
theorem stored_of_checks (hguard : Checks exec guard db A) (hA : A) (hstores : db.Stores tx) :
    (((guard.bind fun _ => (await (.insertTransaction tx)).bind k).run exec noFault db).2.transaction
      tx.id).isSome = true := by
  rw [run_bind_ok (hguard.passes hA)]
  exact insert_stored hstores

/-- One that does not changes nothing. -/
theorem refused_of_checks (hguard : Checks exec guard db A) (hno : ¬ (A ∧ db.Stores tx))
    (φ : Cmd → Option Err) :
    Refused φ (guard.bind fun _ => (await (.insertTransaction tx)).bind k) db := by
  refine hguard.run_bind_refused (.refl db) fun hA => ?_
  obtain ⟨e, hrun⟩ := insert_refused (k := k) (fun h => hno ⟨hA, h⟩) φ
  exact ⟨e, db, hrun, .refl db⟩

/-- A stored row is a change. -/
theorem not_refused_of_stored {p : TxProc α} {id : TxId} (hfresh : db.transaction id = none)
    (hstored : ((p.run exec noFault db).2.transaction id).isSome = true) :
    ¬ Refused noFault p db := by
  rintro ⟨e, db', hrun, hsame⟩
  rw [hrun, hsame.transaction, hfresh] at hstored
  cases hstored

/-- A call that checks and then stores its row is refused exactly when a check
fails or the row cannot be stored. -/
theorem stores_admittedIff (hguard : Checks exec guard db A)
    (hfresh : db.transaction tx.id = none) :
    AdmittedIff (guard.bind fun _ => (await (.insertTransaction tx)).bind k) db
      (A ∧ db.Stores tx) :=
  ⟨fun h => not_refused_of_stored hfresh (stored_of_checks hguard h.1 h.2),
    refused_of_checks hguard⟩

end Stored

-- ---------------------------------------------------------------------------
-- Checks, the limit, and then the row
-- ---------------------------------------------------------------------------

/-- The limit check takes the amount. -/
def Db.WithinLimits (db : Db) (u : UserId) (amount : ℚ) (currency : String) : Prop :=
  ∃ db', db.limitCheck u amount currency = .ok db'

section Counted

variable {α : Type} {db db' : Db} {A : Prop} {guard : TxProc Unit} {tx : Transaction}
  {k : Transaction → TxProc α} {u : UserId} {amount : ℚ} {currency message : String}

/-- The limit check changes the accumulators, unless the amount is worth nothing. -/
theorem Db.sameTotals_limitCheck_iff (h : db.limitCheck u amount currency = .ok db') :
    db.SameTotals db' ↔ db.toUsd amount currency = some 0 := by
  obtain ⟨amountUsd, husd, rfl⟩ := Db.limitCheck_ok h
  rw [husd, Option.some_inj]
  constructor
  · intro hsame
    have hday := congrFun (congrFun hsame.daily u) (dayOf db.now)
    simp only [Function.update_self] at hday
    linarith
  · rintro rfl
    constructor <;> simp

theorem Db.sameMoney_limitCheck (h : db.limitCheck u amount currency = .ok db')
    (husd : db.toUsd amount currency = some 0) : db.SameMoney db' :=
  ⟨(Db.limitCheck_untouched h).wallets, (Db.sameTotals_limitCheck_iff h).mpr husd,
    (Db.limitCheck_untouched h).transactions⟩

theorem Db.affords_limitCheck (h : db.limitCheck u amount currency = .ok db') :
    db'.Affords u currency amount ↔ db.Affords u currency amount := by
  unfold Db.Affords
  rw [Db.limitCheck_cents h]

theorem Db.stores_limitCheck (h : db.limitCheck u amount currency = .ok db') :
    db'.Stores tx ↔ db.Stores tx := by
  have hunt := Db.limitCheck_untouched h
  exact ⟨fun hs => hs.congr hunt.transactions.symm hunt.users.symm rfl rfl rfl rfl rfl,
    fun hs => hs.congr hunt.transactions hunt.users rfl rfl rfl rfl rfl⟩

/-- What `createWithdrawal` and `createSwap` have in common. -/
def counted (guard : TxProc Unit) (u : UserId) (amount : ℚ) (currency message : String)
    (tx : Transaction) (k : Transaction → TxProc α) : TxProc α :=
  guard.bind fun _ => (await (.limitCheck u amount currency)).bind fun _ =>
    (balanceCheck u currency amount message).bind fun _ =>
      (await (.insertTransaction tx)).bind k

/-- A call that checks, counts the amount and then stores its row is refused
exactly when a check before the limit fails, or the limit is exceeded, or what
is counted is nothing and the balance does not cover it or the row cannot be
stored. -/
theorem counted_admittedIff (hguard : Checks exec guard db A)
    (hfresh : db.transaction tx.id = none) (hk : ∀ tx, (k tx).Issues (·.counts = false)) :
    AdmittedIff (counted guard u amount currency message tx k) db
      (A ∧ db.WithinLimits u amount currency ∧
        (db.toUsd amount currency = some 0 → db.Affords u currency amount ∧ db.Stores tx)) := by
  unfold counted
  constructor
  · rintro ⟨hA, ⟨db₁, hlimit⟩, hthen⟩
    have hrun : ∀ q : TxProc α, (guard.bind fun _ =>
        (await (.limitCheck u amount currency)).bind fun _ => q).run exec noFault db =
          q.run exec noFault db₁ := fun q => by
      rw [run_bind_ok (hguard.passes hA), run_call_bind_ok rfl (by rw [exec, hlimit])]
    by_cases husd : db.toUsd amount currency = some 0
    · obtain ⟨haffords, hstores⟩ := hthen husd
      refine not_refused_of_stored hfresh ?_
      rw [hrun]
      exact stored_of_checks (checks_balanceCheck db₁ u currency amount message)
        ((Db.affords_limitCheck hlimit).mpr haffords) ((Db.stores_limitCheck hlimit).mpr hstores)
    · rintro ⟨e, d, hcall, hsame⟩
      rw [hrun] at hcall
      -- what is counted stays counted
      have hrest := sameTotals_of_issues (p := (balanceCheck u currency amount message).bind
        fun _ => (await (.insertTransaction tx)).bind k) ?_ noFault db₁
      · rw [hcall] at hrest
        refine husd ((Db.sameTotals_limitCheck_iff hlimit).mp ?_)
        exact ⟨hrest.daily.symm.trans hsame.totals.daily,
          hrest.monthly.symm.trans hsame.totals.monthly⟩
      · refine issues_bind ?_ fun _ => issues_bind (issues_call.mpr rfl) hk
        exact issues_bind (issues_call.mpr rfl) fun _ =>
          issues_bind (issues_rejectWhen _ _) fun _ => issues_done _
  · intro hno φ
    refine hguard.run_bind_refused (.refl db) fun hA => ?_
    cases hout : outcome (φ (.limitCheck u amount currency))
        (exec (.limitCheck u amount currency) db) with
    | error e => exact ⟨e, db, run_call_bind_error hout, .refl db⟩
    | ok r =>
      obtain ⟨a, db₁⟩ := r
      obtain ⟨hφ, hexec⟩ := outcome_eq_ok hout
      have hlimit := exec_limitCheck hexec
      have husd : db.toUsd amount currency = some 0 := by
        by_contra hne
        exact hno ⟨hA, ⟨db₁, hlimit⟩, fun h => absurd h hne⟩
      have hstop : ¬ (db₁.Affords u currency amount ∧ db₁.Stores tx) := by
        rw [Db.affords_limitCheck hlimit, Db.stores_limitCheck hlimit]
        exact fun h => hno ⟨hA, ⟨db₁, hlimit⟩, fun _ => h⟩
      obtain ⟨e, d, hrun, hsame⟩ := refused_of_checks (k := k)
        (checks_balanceCheck db₁ u currency amount message) hstop φ
      rw [run_call_bind_ok hφ hexec]
      exact ⟨e, d, hrun, (Db.sameMoney_limitCheck hlimit husd).trans hsame⟩

end Counted

-- ---------------------------------------------------------------------------
-- Each operation
-- ---------------------------------------------------------------------------

/-- The request passes every check of `transfer` and its row can be stored. -/
structure TransferDto.Passes (i : TxId) (dto : TransferDto) (db : Db) : Prop where
  terms : db.termsAccepted dto.senderId = true
  active : db.deactivated dto.senderId = false
  positive : 0 < dto.amount
  distinct : dto.senderId ≠ dto.receiverId
  affords : db.Affords dto.senderId dto.currency dto.amount
  stores : db.Stores (dto.create i)

/-- The request passes the checks of `createWithdrawal` up to the limit, and
then something is counted or its row can be stored. -/
structure WithdrawalDto.Passes (i : TxId) (dto : WithdrawalDto) (db : Db) : Prop where
  terms : db.termsAccepted dto.userId = true
  funded : db.accountFunded dto.destinationAddress = true
  limit : db.WithinLimits dto.userId dto.total dto.currency
  stores : db.toUsd dto.total dto.currency = some 0 →
    db.Affords dto.userId dto.currency dto.total ∧ db.Stores (dto.create i)

/-- The same for `createSwap`. -/
structure SwapDto.Passes (i : TxId) (dto : SwapDto) (db : Db) : Prop where
  terms : db.termsAccepted dto.userId = true
  limit : db.WithinLimits dto.userId dto.total dto.fromCurrency
  stores : db.toUsd dto.total dto.fromCurrency = some 0 →
    db.Affords dto.userId dto.fromCurrency dto.total ∧ db.Stores (dto.create i)

section Operations

variable {i : TxId} {db : Db}

/-- `transfer` up to the insert. -/
def transferChecks (dto : TransferDto) : TxProc Unit := do
  await (.ensureAccepted dto.senderId)
  let isDeactivated ← await (.isUserDeactivated dto.senderId)
  Proc.rejectWhen (isDeactivated = true)
    (.forbidden "Account has been deactivated. Cannot perform transactions.")
  Proc.rejectWhen (dto.amount ≤ 0) (.badRequest "Transfer amount must be positive")
  Proc.rejectWhen (dto.senderId = dto.receiverId)
    (.badRequest "Sender and receiver must differ")
  balanceCheck dto.senderId dto.currency dto.amount "Insufficient balance"

theorem transfer_eq (i : ℕ) (dto : TransferDto) :
    transfer i dto = (transferChecks dto).bind fun _ =>
      (await (.insertTransaction (dto.create i))).bind fun tx =>
        (generateReceiptNumber tx).bind (transferSettle i dto) := by
  unfold transfer transferPrepare transferChecks balanceCheck
  simp only [bind_eq, bind_assoc, pure_eq, done_ok_bind]

theorem checks_transferChecks (dto : TransferDto) (db : Db) :
    Checks exec (transferChecks dto) db
      (db.termsAccepted dto.senderId = true ∧ db.deactivated dto.senderId = false ∧
        0 < dto.amount ∧ dto.senderId ≠ dto.receiverId ∧
        db.Affords dto.senderId dto.currency dto.amount) := by
  unfold transferChecks
  simp only [bind_eq]
  refine (checks_ensureAccepted_bind (checks_read_bind rfl (checks_rejectWhen_bind
    (checks_rejectWhen_bind (checks_rejectWhen_bind (checks_balanceCheck ..)))))).iff ?_
  rw [Bool.not_eq_true, not_le]

theorem transfer_admittedIff (dto : TransferDto) (hfresh : db.transaction i = none) :
    AdmittedIff (transfer i dto) db (dto.Passes i db) := by
  rw [transfer_eq]
  refine (stores_admittedIff (checks_transferChecks dto db) hfresh).iff ?_
  constructor
  · rintro ⟨⟨hterms, hactive, hpos, hdist, haffords⟩, hstores⟩
    exact ⟨hterms, hactive, hpos, hdist, haffords, hstores⟩
  · intro h
    exact ⟨⟨h.terms, h.active, h.positive, h.distinct, h.affords⟩, h.stores⟩

/-- `createWithdrawal` up to the limit check. -/
def withdrawalChecks (dto : WithdrawalDto) : TxProc Unit := do
  await (.ensureAccepted dto.userId)
  let destinationExists ← await (.accountExists dto.destinationAddress)
  Proc.rejectWhen (destinationExists = false)
    (.badRequest ("Destination Stellar account (" ++ dto.destinationAddress ++
      ") is not funded. The recipient account must have a minimum balance of 1 XLM."))
  return ()

theorem createWithdrawal_eq (i : ℕ) (dto : WithdrawalDto) :
    createWithdrawal i dto = counted (withdrawalChecks dto) dto.userId dto.total dto.currency
      "Insufficient balance including fee" (dto.create i) fun tx =>
        (generateReceiptNumber tx).bind fun tx =>
          (await (.adjustBalance .debit i i dto.userId dto.currency (-dto.total))).bind fun _ =>
            withdrawalSettle i dto tx := by
  unfold createWithdrawal withdrawalPrepare withdrawalChecks counted balanceCheck
  simp only [bind_eq, bind_assoc, pure_eq, done_ok_bind]

/-- What follows the receipt number makes no limit check. -/
theorem withdrawalSettle_uncounted (i : ℕ) (dto : WithdrawalDto) (tx : Transaction) :
    (withdrawalSettle i dto tx).Issues (·.counts = false) := by
  refine issues_bind (issues_call.mpr rfl) fun t => ?_
  refine issues_bind (issues_attempt (issues_bind (issues_call.mpr rfl) fun _ =>
    issues_call.mpr rfl)) fun r => ?_
  cases r with
  | ok => exact issues_done _
  | error err =>
    exact issues_bind (issues_call.mpr rfl) fun _ => issues_bind (issues_call.mpr rfl) fun _ =>
      issues_bind (issues_call.mpr rfl) fun _ => issues_throw err

theorem generateReceiptNumber_uncounted (tx : Transaction) :
    (generateReceiptNumber tx).Issues (·.counts = false) := by
  refine issues_bind (issues_attempt (issues_call.mpr rfl)) fun _ => ?_
  refine issues_bind (issues_call.mpr rfl) fun _ => ?_
  exact issues_bind (issues_call.mpr rfl) fun _ => issues_done _

theorem checks_withdrawalChecks (dto : WithdrawalDto) (db : Db) :
    Checks exec (withdrawalChecks dto) db
      (db.termsAccepted dto.userId = true ∧ db.accountFunded dto.destinationAddress = true) := by
  unfold withdrawalChecks
  simp only [bind_eq]
  refine (checks_ensureAccepted_bind (checks_read_bind rfl
    (checks_rejectWhen_bind checks_done))).iff ?_
  rw [Bool.not_eq_false, and_true]

theorem createWithdrawal_admittedIff (dto : WithdrawalDto) (hfresh : db.transaction i = none) :
    AdmittedIff (createWithdrawal i dto) db (dto.Passes i db) := by
  rw [createWithdrawal_eq]
  refine (counted_admittedIff (checks_withdrawalChecks dto db) hfresh ?_).iff ?_
  · intro tx
    refine issues_bind (generateReceiptNumber_uncounted tx) fun _ => ?_
    exact issues_bind (issues_call.mpr rfl) fun _ => withdrawalSettle_uncounted i dto _
  · constructor
    · rintro ⟨⟨hterms, hfunded⟩, hlimit, hstores⟩
      exact ⟨hterms, hfunded, hlimit, hstores⟩
    · intro h
      exact ⟨⟨h.terms, h.funded⟩, h.limit, h.stores⟩

/-- `createSwap` up to the limit check. -/
def swapChecks (dto : SwapDto) : TxProc Unit := do
  await (.ensureAccepted dto.userId)
  return ()

theorem checks_swapChecks (dto : SwapDto) (db : Db) :
    Checks exec (swapChecks dto) db (db.termsAccepted dto.userId = true) := by
  unfold swapChecks
  simp only [bind_eq]
  refine (checks_ensureAccepted_bind checks_done).iff ?_
  rw [and_true]

theorem createSwap_eq (i : ℕ) (dto : SwapDto) :
    createSwap i dto = counted (swapChecks dto) dto.userId dto.total dto.fromCurrency
      "Insufficient balance including fee" (dto.create i) fun tx =>
        (await (.adjustBalance .debit i i dto.userId dto.fromCurrency (-dto.total))).bind fun _ =>
          swapLoop i dto MAX_RETRIES .fault tx := by
  unfold createSwap swapPrepare swapChecks counted balanceCheck
  simp only [bind_eq, bind_assoc, pure_eq, done_ok_bind]

theorem swapLoop_uncounted (i : ℕ) (dto : SwapDto) (left : ℕ) (lastError : Err)
    (tx : Transaction) : (swapLoop i dto left lastError tx).Issues (·.counts = false) := by
  induction left generalizing lastError tx with
  | zero =>
    exact issues_bind (issues_call.mpr rfl) fun _ => issues_bind (issues_call.mpr rfl) fun _ =>
      issues_bind (issues_call.mpr rfl) fun _ => issues_throw lastError
  | succ left ih =>
    refine issues_bind ?_ fun r => ?_
    · refine issues_bind (issues_attempt (issues_call.mpr rfl)) fun r => ?_
      cases r with
      | error err => exact issues_done _
      | ok =>
        refine issues_bind (issues_call.mpr rfl) fun t => ?_
        refine issues_bind (issues_attempt (issues_bind (issues_call.mpr rfl) fun _ =>
          issues_call.mpr rfl)) fun r => ?_
        cases r with
        | ok => exact issues_done _
        | error err => exact issues_done _
    · cases r with
      | ok => exact issues_done _
      | error res => exact issues_bind (issues_call.mpr rfl) fun _ => ih _ _

theorem createSwap_admittedIff (dto : SwapDto) (hfresh : db.transaction i = none) :
    AdmittedIff (createSwap i dto) db (dto.Passes i db) := by
  rw [createSwap_eq]
  refine (counted_admittedIff (checks_swapChecks dto db) hfresh ?_).iff ?_
  · exact fun tx => issues_bind (issues_call.mpr rfl) fun _ => swapLoop_uncounted i dto _ _ tx
  · exact ⟨fun ⟨hterms, hlimit, hstores⟩ => ⟨hterms, hlimit, hstores⟩,
      fun h => ⟨h.terms, h.limit, h.stores⟩⟩

end Operations

-- ---------------------------------------------------------------------------
-- The two services together
-- ---------------------------------------------------------------------------

/-- Every balance, accumulator and row is as it was, and no balance change is
under way that was not. -/
structure Fx.FxDb.Unmoved (st st' : Fx.FxDb) : Prop where
  money : st.db.SameMoney st'.db
  trades : st'.trades = st.trades
  started : st'.started = st.started

theorem Fx.FxDb.Unmoved.refl (st : Fx.FxDb) : st.Unmoved st := ⟨.refl st.db, rfl, rfl⟩

/-- The call throws and changes nothing, whatever fails on the way. -/
def Platform.Rejects (p : Platform) (i : ℕ) (call : MoneyCall) : Prop :=
  ∀ φ, ∃ e st', p.make i call φ = (.error e, st') ∧ p.fx.Unmoved st'

/-- A user who is blocked cannot make the call. -/
def Platform.BlockedCannotMove (p : Platform) (i : ℕ) (call : MoneyCall) : Prop :=
  p.Blocked call.userId → p.Rejects i call

/-- The call passes what is checked before the first write. No registry is asked
but for the deactivation of the sender of a transfer. -/
def MoneyCall.Passes (i : ℕ) (p : Platform) : MoneyCall → Prop
  | transfer dto => dto.Passes i p.fx.db
  | internalTransfer dto => ∃ receiverId, p.userByEmail dto.recipientEmail = some receiverId ∧
      (dto.toTransfer receiverId p.fx.db.now).Passes i p.fx.db
  | withdrawal dto => dto.Passes i p.fx.db
  | swap dto => dto.Passes i p.fx.db
  | trade dto => (p.fx.rates dto.fromCurrency dto.toCurrency).isSome = true

section Together

variable {i : ℕ} {p : Platform} {users : String → Option UserId} {st : Fx.FxDb}

/-- A call of the transaction service changes its own part of the database. -/
theorem run_tx {α : Type} (q : TxProc α) (φ : MoneyCmd → Option Err) :
    (q.embed .tx (fun _ a => a) fun _ => () : MoneyProc Unit).run (MoneyCmd.exec users) φ st =
      ((q.run exec (fun c => φ (.tx c)) st.db).1.map fun _ => (),
        { st with db := (q.run exec (fun c => φ (.tx c)) st.db).2 }) := by
  refine run_embed Fx.FxDb.db (fun st db => { st with db := db })
    (fun _ => rfl) (fun _ _ => rfl) (fun _ _ _ => rfl) ?_ q φ st
  intro c t
  rw [MoneyCmd.exec]
  cases exec c t.db <;> rfl

theorem run_fx {α : Type} (q : Fx.FxProc α) (φ : MoneyCmd → Option Err) :
    (q.embed .fx (fun _ a => a) fun _ => () : MoneyProc Unit).run (MoneyCmd.exec users) φ st =
      ((q.run Fx.exec (fun c => φ (.fx c)) st).1.map fun _ => (),
        (q.run Fx.exec (fun c => φ (.fx c)) st).2) := by
  refine run_embed (fun st => st) (fun _ st => st)
    (fun _ => rfl) (fun _ _ => rfl) (fun _ _ _ => rfl) ?_ q φ st
  intro c t
  rw [MoneyCmd.exec]

/-- A refusal of the transaction service. -/
theorem refused_tx {α : Type} {q : TxProc α} {φ : MoneyCmd → Option Err} :
    (∃ e st', (q.embed .tx (fun _ a => a) fun _ => () : MoneyProc Unit).run (MoneyCmd.exec users)
      φ st = (.error e, st') ∧ st.Unmoved st') ↔ Refused (fun c => φ (.tx c)) q st.db := by
  rw [run_tx]
  constructor
  · rintro ⟨e, st', hrun, hsame⟩
    obtain ⟨hr, rfl⟩ := Prod.mk.inj hrun
    cases hq : (q.run exec (fun c => φ (.tx c)) st.db).1 with
    | ok a =>
      rw [hq] at hr
      cases hr
    | error e' => exact ⟨e', _, Prod.ext hq rfl, hsame.money⟩
  · rintro ⟨e, db', hrun, hsame⟩
    rw [hrun]
    exact ⟨e, _, rfl, hsame, rfl, rfl⟩

theorem rejects_tx_iff {α : Type} {q : TxProc α} {A : Prop} (h : AdmittedIff q st.db A) :
    (∀ φ, ∃ e st', (q.embed .tx (fun _ a => a) fun _ => () : MoneyProc Unit).run
      (MoneyCmd.exec users) φ st = (.error e, st') ∧ st.Unmoved st') ↔ ¬ A := by
  constructor
  · exact fun hrejects hA => h.admitted hA (refused_tx.mp (hrejects noFault))
  · exact fun hA φ => refused_tx.mpr (h.refused hA _)

theorem internalTransfer_rejects_iff (dto : InternalTransferDto)
    (hfresh : p.fx.db.transaction i = none) :
    p.Rejects i (.internalTransfer dto) ↔ ¬ MoneyCall.Passes i p (.internalTransfer dto) := by
  unfold Platform.Rejects Platform.make MoneyCall.prog createInternalTransfer
  simp only [bind_eq, MoneyCall.Passes]
  have hfind : MoneyCmd.exec p.userByEmail (.findByEmail dto.recipientEmail) p.fx =
      .ok (p.userByEmail dto.recipientEmail, p.fx) := rfl
  have hnow : MoneyCmd.exec p.userByEmail (.tx .now) p.fx = .ok (p.fx.db.now, p.fx) := rfl
  cases huser : p.userByEmail dto.recipientEmail with
  | none =>
    rw [huser] at hfind
    refine iff_of_true (fun φ => ?_) (by simp)
    cases hφ : φ (.findByEmail dto.recipientEmail) with
    | some e => exact ⟨e, p.fx, run_call_bind_error (by rw [hφ, outcome_some]), .refl _⟩
    | none =>
      rw [run_call_bind_ok hφ hfind]
      exact ⟨_, p.fx, rfl, .refl _⟩
  | some receiverId =>
    rw [huser] at hfind
    have hadmitted := transfer_admittedIff (dto.toTransfer receiverId p.fx.db.now) hfresh
    constructor
    · rintro hrejects ⟨_, hsome, hpasses⟩
      cases hsome
      obtain ⟨e, st', hrun, hsame⟩ := hrejects noFault
      rw [run_call_bind_ok rfl hfind, run_call_bind_ok rfl hnow] at hrun
      exact hadmitted.admitted hpasses (refused_tx.mp ⟨e, st', hrun, hsame⟩)
    · intro hno φ
      cases hφ : φ (.findByEmail dto.recipientEmail) with
      | some e => exact ⟨e, p.fx, run_call_bind_error (by rw [hφ, outcome_some]), .refl _⟩
      | none =>
        rw [run_call_bind_ok hφ hfind]
        cases hφ' : φ (.tx .now) with
        | some e => exact ⟨e, p.fx, run_call_bind_error (by rw [hφ', outcome_some]), .refl _⟩
        | none =>
          rw [run_call_bind_ok hφ' hnow]
          exact refused_tx.mpr (hadmitted.refused (fun h => hno ⟨_, rfl, h⟩) _)

theorem trade_rejects_iff (dto : Fx.ExecuteTradeDto) :
    p.Rejects i (.trade dto) ↔ ¬ MoneyCall.Passes i p (.trade dto) := by
  unfold Platform.Rejects Platform.make MoneyCall.prog MoneyCall.Passes
  simp only [run_fx]
  rw [Bool.not_eq_true, Option.isSome_eq_false_iff, Option.isNone_iff_eq_none]
  constructor
  · intro hrejects
    obtain ⟨e, st', hrun, -⟩ := hrejects fun c => match c with
      | .fx c => Fx.TradeFaults.none.inject c
      | _ => none
    rw [← Fx.executeTrade_throws_iff (i := i)]
    cases hr : ((Fx.executeTrade i dto).run Fx.exec Fx.TradeFaults.none.inject p.fx).1 with
    | error e => exact ⟨e, rfl⟩
    | ok a =>
      rw [hr] at hrun
      cases hrun
  · intro hrate φ
    obtain ⟨e, hout⟩ : ∃ e, outcome (φ (.fx (.getRate dto.fromCurrency dto.toCurrency)))
        (Fx.exec (.getRate dto.fromCurrency dto.toCurrency) p.fx) = .error e := by
      rw [Fx.exec, hrate]
      cases φ (.fx (.getRate dto.fromCurrency dto.toCurrency)) with
      | some e => exact ⟨e, rfl⟩
      | none => exact ⟨_, rfl⟩
    have hrun : (Fx.executeTrade i dto).run Fx.exec (fun c => φ (.fx c)) p.fx = (.error e, p.fx) := by
      unfold Fx.executeTrade Fx.tradeStart
      simp only [bind_eq, bind_assoc]
      exact run_call_bind_error hout
    rw [hrun]
    exact ⟨e, p.fx, rfl, .refl _⟩

/-- The call is turned away by a check that turns anybody away, exactly if it
does not pass. -/
theorem rejects_iff (hfresh : p.fx.db.transaction i = none) (call : MoneyCall) :
    p.Rejects i call ↔ ¬ call.Passes i p := by
  cases call with
  | transfer dto => exact rejects_tx_iff (transfer_admittedIff dto hfresh)
  | internalTransfer dto => exact internalTransfer_rejects_iff dto hfresh
  | withdrawal dto => exact rejects_tx_iff (createWithdrawal_admittedIff dto hfresh)
  | swap dto => exact rejects_tx_iff (createSwap_admittedIff dto hfresh)
  | trade dto => exact trade_rejects_iff dto

/-- **A blocked user cannot make a call exactly when nobody could make it.** -/
theorem blocked_cannot_move_iff (hfresh : p.fx.db.transaction i = none) (call : MoneyCall) :
    p.BlockedCannotMove i call ↔ (p.Blocked call.userId → ¬ call.Passes i p) := by
  unfold Platform.BlockedCannotMove
  rw [rejects_iff hfresh]

end Together

/-- User 1 has 100.00 USD. -/
def blockedMarket (deactivations : List UserDeactivation) : Fx.FxDb :=
  { Fx.market 10000 with
    db := { (Fx.market 10000).db with deactivated := isUserDeactivated deactivations } }

/-- User 1 is blocked by the given rows. -/
def blocking (deactivations : List UserDeactivation) (freezes : List AccountFreeze) : Platform where
  fx := blockedMarket deactivations
  deactivations := deactivations
  freezes := freezes
  userByEmail := fun _ => none
  registered := rfl

/-- User 1 withdraws 40.00 USD. -/
def fortyOut : WithdrawalDto where
  userId := 1
  amount := 40
  currency := "USD"
  reference := "b-1"
  destinationAddress := "G"

/-- A deactivated user cannot make a transfer. -/
theorem deactivated_cannot_transfer :
    (blocking [⟨1, true⟩] []).BlockedCannotMove 0 (.transfer sixtyDollars) := by
  have hdeactivated : (blocking [⟨1, true⟩] []).fx.db.deactivated 1 = true := by decide +kernel
  refine (blocked_cannot_move_iff (i := 0) (by decide +kernel) (.transfer sixtyDollars)).mpr ?_
  intro _ hpasses
  exact Bool.noConfusion (hdeactivated.symm.trans hpasses.active)

/-- A frozen user sends 60.00 USD, and a deactivated one withdraws 40.00 USD. -/
theorem blocked_moves_money :
    (isAccountFrozen (blocking [] [⟨1, true⟩]).freezes 1 = true ∧
      ((blocking [] [⟨1, true⟩]).make 0 (.transfer sixtyDollars) noFault).2.db.cents 1 "USD" = 4000 ∧
      ¬ (blocking [] [⟨1, true⟩]).BlockedCannotMove 0 (.transfer sixtyDollars)) ∧
    (isUserDeactivated (blocking [⟨1, true⟩] []).deactivations 1 = true ∧
      ((blocking [⟨1, true⟩] []).make 0 (.withdrawal fortyOut) noFault).2.db.cents 1 "USD" =
        5996 ∧
      ¬ (blocking [⟨1, true⟩] []).BlockedCannotMove 0 (.withdrawal fortyOut)) := by
  have hreturns : ∀ {p : Platform} {call : MoneyCall} (_ : p.Blocked call.userId)
      (_ : (p.make 0 call noFault).1.isOk = true), ¬ p.BlockedCannotMove 0 call := by
    intro p call hblocked hok hcannot
    obtain ⟨e, st', hrun, -⟩ := hcannot hblocked noFault
    rw [hrun] at hok
    cases hok
  refine ⟨⟨by decide +kernel, by decide +kernel, hreturns (Or.inr ?_) ?_⟩,
    by decide +kernel, by decide +kernel, hreturns (Or.inl ?_) ?_⟩ <;> decide +kernel

end NexaFx
