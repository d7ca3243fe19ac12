import NexaFx.Model.Quotes

/-!
# NexaFx — quotes and charges

`previewFee` announces five thousandths for a withdrawal, and the withdrawal
takes one; and it announces the amount less the fee, where the operations take
the amount and the fee. So quotes and charges differ as soon as a fee is more
than nothing (`quotes_match_iff`).
-/

namespace NexaFx

open Async Decimal

namespace Quotes

-- ---------------------------------------------------------------------------
-- The property
-- ---------------------------------------------------------------------------

/-- The command records the fee, and debits the total. -/
def Charges (fee total : ℚ) : Cmd → Prop
  | .insertTransaction tx => tx.fee = fee
  | .adjustBalance .debit _ _ _ _ delta => delta = -total
  | .recordFee _ record => record.feeAmount = fee
  | _ => True

/-- The row that the command inserts moves the net amount. -/
def Sends (net : ℚ) : Cmd → Prop
  | .insertTransaction tx => tx.amount = net
  | _ => True

/-- What is quoted for the amount is what the operations charge. -/
structure QuotesMatch (amount : ℚ) (currency : String) : Prop where
  withdrawal : ∀ (i : ℕ) (dto : WithdrawalDto), dto.amount = amount → dto.currency = currency →
    (createWithdrawal i dto).Issues (Charges (previewFee "withdrawal" amount currency).feeAmount
      (amount + (previewFee "withdrawal" amount currency).feeAmount))
  deposit : ∀ (i : ℕ) (dto : DepositDto), dto.amount = amount → dto.currency = currency →
    (createDeposit i dto).Issues (Charges (previewFee "deposit" amount currency).feeAmount 0)
  swap : ∀ (i : ℕ) (dto : SwapDto), dto.fromAmount = amount → dto.fromCurrency = currency →
    (createSwap i dto).Issues (Charges (previewFee "swap" amount currency).feeAmount
      (amount + (previewFee "swap" amount currency).feeAmount))
  simulated : ∀ (now : Time) (dto : SimulateDto), dto.amount = amount →
    (simulateTransaction now dto).fee = (previewFee "deposit" amount currency).feeAmount ∧
    (simulateTransaction now dto).fee = (previewFee "swap" amount currency).feeAmount
  /-- A withdrawal or swap that takes exactly `amount` from the account. -/
  netWithdrawal : ∀ (i : ℕ) (dto : WithdrawalDto), totalChecked dto.amount = amount →
    (createWithdrawal i dto).Issues (Sends (previewFee "withdrawal" amount currency).netAmount)
  netSwap : ∀ (i : ℕ) (dto : SwapDto), totalChecked dto.fromAmount = amount →
    (createSwap i dto).Issues (Sends (previewFee "swap" amount currency).netAmount)
  netDeposit : ∀ (i : ℕ) (dto : DepositDto), dto.amount = amount →
    (createDeposit i dto).Issues (Sends (previewFee "deposit" amount currency).netAmount)

-- ---------------------------------------------------------------------------
-- Fees
-- ---------------------------------------------------------------------------

section Fees

variable {amount x : ℚ}

theorem roundHalfAway_eq_zero (h0 : 0 ≤ x) (h1 : x < 1 / 2) : roundHalfAway x = 0 := by
  rw [roundHalfAway_of_gt (by linarith), Int.floor_eq_iff]
  push_cast
  constructor <;> linarith

/-- Five times as much rounds to the same only where it rounds to nothing. -/
theorem roundHalfAway_five_iff (h0 : 0 < x) :
    roundHalfAway (5 * x) = roundHalfAway x ↔ 5 * x < 1 / 2 := by
  constructor
  · intro heq
    by_contra hle
    push Not at hle
    rw [roundHalfAway_of_gt (by linarith), roundHalfAway_of_gt (by linarith)] at heq
    -- the two are the same integer `n`, with `n ≤ x + 1/2` and `5 * x < n + 1/2`
    have hlow : ((⌊x + 1 / 2⌋ : ℤ) : ℚ) ≤ x + 1 / 2 := Int.floor_le _
    have hhigh : 5 * x + 1 / 2 < ((⌊5 * x + 1 / 2⌋ : ℤ) : ℚ) + 1 := Int.lt_floor_add_one _
    have hone : 1 ≤ ⌊5 * x + 1 / 2⌋ := by
      rw [Int.le_floor]
      push_cast
      linarith
    have hone' : (1 : ℚ) ≤ ((⌊5 * x + 1 / 2⌋ : ℤ) : ℚ) := by exact_mod_cast hone
    rw [heq] at hhigh hone'
    linarith
  · intro hlt
    rw [roundHalfAway_eq_zero (by linarith) hlt, roundHalfAway_eq_zero (by linarith) (by linarith)]

theorem calculateFee_eq (amount : ℚ) :
    calculateFee amount = roundHalfAway (amount * 100000) / 10 ^ 8 := by
  rw [calculateFee, toFixed, FEE_RATE]
  congr 3
  ring

theorem previewFee_withdrawal (amount : ℚ) (currency : String) :
    (previewFee "withdrawal" amount currency).feeAmount =
      roundHalfAway (5 * (amount * 100000)) / 10 ^ 8 := by
  rw [previewFee, feeRate, if_pos rfl]
  simp only [toFixed]
  congr 3
  ring

/-- All other previews announce the fee that is charged. -/
theorem previewFee_other {transactionType : String} (h : transactionType ≠ "withdrawal")
    (amount : ℚ) (currency : String) :
    (previewFee transactionType amount currency).feeAmount = calculateFee amount := by
  rw [previewFee, feeRate, if_neg h]
  rfl

/-- **The quoted fee of a withdrawal** is charged only where both are nothing. -/
theorem previewFee_withdrawal_iff (hpos : 0 < amount) (currency : String) :
    (previewFee "withdrawal" amount currency).feeAmount = calculateFee amount ↔
      amount < 1 / 1000000 := by
  rw [previewFee_withdrawal, calculateFee_eq, div_left_inj' (by norm_num), Int.cast_inj,
    roundHalfAway_five_iff (by linarith)]
  constructor <;> intro h <;> linarith

theorem calculateFee_eq_zero (h0 : 0 ≤ amount) (h1 : amount < 1 / 1000000) :
    calculateFee amount = 0 := by
  rw [calculateFee_eq, roundHalfAway_eq_zero (by linarith) (by linarith)]
  norm_num

theorem previewFee_eq_zero (h0 : 0 < amount) (h1 : amount < 1 / 1000000)
    (transactionType : String) (currency : String) :
    (previewFee transactionType amount currency).feeAmount = 0 := by
  by_cases htype : transactionType = "withdrawal"
  · rw [htype, (previewFee_withdrawal_iff h0 currency).mpr h1, calculateFee_eq_zero h0.le h1]
  · rw [previewFee_other htype, calculateFee_eq_zero h0.le h1]

theorem calculateFee_nonneg (h : 0 ≤ amount) : 0 ≤ calculateFee amount := by
  rw [calculateFee_eq]
  have hnonneg : 0 ≤ roundHalfAway (amount * 100000) := roundHalfAway_nonneg.mpr (by linarith)
  have hcast : (0 : ℚ) ≤ ((roundHalfAway (amount * 100000) : ℤ) : ℚ) := by exact_mod_cast hnonneg
  positivity

theorem calculateFee_nonpos (h : amount ≤ 0) : calculateFee amount ≤ 0 := by
  rw [calculateFee_eq]
  have hnonpos : roundHalfAway (amount * 100000) ≤ 0 := by
    rcases eq_or_lt_of_le h with rfl | hneg
    · rw [zero_mul, roundHalfAway_eq_zero (le_refl 0) (by norm_num)]
    · unfold roundHalfAway
      rw [if_neg (by linarith), neg_nonpos, Int.floor_nonneg]
      linarith
  have hcast : ((roundHalfAway (amount * 100000) : ℤ) : ℚ) ≤ 0 := by exact_mod_cast hnonpos
  exact div_nonpos_of_nonpos_of_nonneg hcast (by norm_num)

/-- Where nothing is charged, the net amount is the amount as printed. -/
theorem netAmount_eq (h0 : 0 < amount) (h1 : amount < 1 / 1000000) (transactionType : String)
    (currency : String) :
    (previewFee transactionType amount currency).netAmount = toFixed 8 amount := by
  have hnet : (previewFee transactionType amount currency).netAmount =
      toFixed 8 (amount - (previewFee transactionType amount currency).feeAmount) := rfl
  rw [hnet, previewFee_eq_zero h0 h1, sub_zero]

/-- A charge too small for a fee is all amount. -/
theorem eq_of_totalChecked (hpos : 0 < amount) (hsmall : amount < 1 / 1000000)
    (h : totalChecked x = amount) : x = amount := by
  rw [totalChecked] at h
  by_cases hx : x ≤ 0
  · have hfee := calculateFee_nonpos hx
    linarith
  · push Not at hx
    have hfee := calculateFee_nonneg hx.le
    have hzero := calculateFee_eq_zero hx.le (by linarith)
    linarith

end Fees

-- ---------------------------------------------------------------------------
-- Charges
-- ---------------------------------------------------------------------------

section Operations

variable {fee total : ℚ}

/-- What the rows and the moves of an operation satisfy. -/
structure Writes (P : Cmd → Prop) : Prop where
  reads : ∀ c : Cmd, c.writes = [] → c.mover = none → (∀ n r, c ≠ .recordFee n r) → P c
  saves : ∀ site tx, P (.saveTransaction site tx)

variable {P : Cmd → Prop}

theorem charges_writes : Writes (Charges fee total) where
  reads c hw hm hr := by
    cases c <;>
      first | exact trivial | (cases hw; done) | (cases hm; done) | exact absurd rfl (hr _ _)
  saves _ _ := trivial

theorem sends_writes {net : ℚ} : Writes (Sends net) where
  reads c hw hm hr := by
    cases c <;> first | exact trivial | cases hw
  saves _ _ := trivial

theorem Writes.issues_read (h : Writes P) {c : Cmd} (hw : c.writes = []) (hm : c.mover = none)
    (hr : ∀ n r, c ≠ .recordFee n r) : (await c : TxProc c.Reply).Issues P :=
  Proc.issues_call.mpr (h.reads c hw hm hr)

theorem generateReceiptNumber_writes (h : Writes P) (tx : Transaction) :
    (generateReceiptNumber tx).Issues P := by
  unfold generateReceiptNumber
  refine Proc.issues_bind (Proc.issues_attempt (h.issues_read rfl rfl nofun)) fun seq => ?_
  refine Proc.issues_bind (h.issues_read rfl rfl nofun) fun t => ?_
  exact Proc.issues_bind (Proc.issues_call.mpr (h.saves ..)) fun _ => Proc.issues_done _

/-- A withdrawal writes one fresh row, and takes the total once. -/
theorem createWithdrawal_writes (h : Writes P) (i : ℕ) (dto : WithdrawalDto)
    (hinsert : P (.insertTransaction (dto.create i)))
    (hdebit : P (.adjustBalance .debit i i dto.userId dto.currency (-totalChecked dto.amount)))
    (hrefund : P (.adjustBalance .refund i i dto.userId dto.currency (totalChecked dto.amount))) :
    (createWithdrawal i dto).Issues P := by
  unfold createWithdrawal withdrawalPrepare withdrawalSettle
  refine Proc.issues_bind ?_ fun tx => ?_
  · refine Proc.issues_bind (h.issues_read rfl rfl nofun) fun _ => ?_
    refine Proc.issues_bind (h.issues_read rfl rfl nofun) fun exists_ => ?_
    refine Proc.issues_bind (Proc.issues_rejectWhen _ _) fun _ => ?_
    refine Proc.issues_bind (h.issues_read rfl rfl nofun) fun _ => ?_
    refine Proc.issues_bind (h.issues_read rfl rfl nofun) fun balance => ?_
    refine Proc.issues_bind (Proc.issues_rejectWhen _ _) fun _ => ?_
    refine Proc.issues_bind (Proc.issues_call.mpr hinsert) fun tx => ?_
    refine Proc.issues_bind (generateReceiptNumber_writes h tx) fun tx => ?_
    exact Proc.issues_bind (Proc.issues_call.mpr hdebit) fun _ => Proc.issues_done _
  · refine Proc.issues_bind (h.issues_read rfl rfl nofun) fun t => ?_
    refine Proc.issues_bind (Proc.issues_attempt ?_) fun r => ?_
    · exact Proc.issues_bind (Proc.issues_call.mpr (h.saves ..)) fun _ =>
        h.issues_read rfl rfl nofun
    · cases r with
      | ok _ => exact Proc.issues_done _
      | error err =>
        refine Proc.issues_bind (Proc.issues_call.mpr hrefund) fun _ => ?_
        refine Proc.issues_bind (Proc.issues_call.mpr (h.saves ..)) fun _ => ?_
        exact Proc.issues_bind (h.issues_read rfl rfl nofun) fun _ => Proc.issues_throw _

theorem createDeposit_writes (h : Writes P) (i : ℕ) (dto : DepositDto)
    (hinsert : P (.insertTransaction (dto.create i)))
    (hcredit : P (.adjustBalance (.credit 0) i i dto.userId dto.currency dto.amount)) :
    (createDeposit i dto).Issues P := by
  have hfailed : ∀ tx err, (depositFailed dto tx err).Issues P := by
    intro tx err
    refine Proc.issues_bind (Proc.issues_call.mpr (h.saves ..)) fun _ => ?_
    exact Proc.issues_bind (h.issues_read rfl rfl nofun) fun _ => Proc.issues_throw _
  unfold createDeposit depositPrepare depositSettle
  refine Proc.issues_bind ?_ fun tx => ?_
  · refine Proc.issues_bind (h.issues_read rfl rfl nofun) fun _ => ?_
    refine Proc.issues_bind (h.issues_read rfl rfl nofun) fun _ => ?_
    refine Proc.issues_bind (Proc.issues_call.mpr hinsert) fun tx => ?_
    exact generateReceiptNumber_writes h tx
  · refine Proc.issues_bind (Proc.issues_attempt (Proc.issues_call.mpr hcredit)) fun r => ?_
    cases r with
    | error err => exact hfailed tx err
    | ok _ =>
      refine Proc.issues_bind (h.issues_read rfl rfl nofun) fun t => ?_
      refine Proc.issues_bind (Proc.issues_attempt ?_) fun r => ?_
      · exact Proc.issues_bind (Proc.issues_call.mpr (h.saves ..)) fun _ =>
          h.issues_read rfl rfl nofun
      · cases r with
        | ok _ => exact Proc.issues_done _
        | error err => exact hfailed _ err

theorem createSwap_writes (h : Writes P) (i : ℕ) (dto : SwapDto)
    (hinsert : P (.insertTransaction (dto.create i)))
    (hdebit : P (.adjustBalance .debit i i dto.userId dto.fromCurrency
      (-totalChecked dto.fromAmount)))
    (hmoves : ∀ site currency delta, site ≠ .debit →
      P (.adjustBalance site i i dto.userId currency delta))
    (hrecord : ∀ attempt, P (.recordFee attempt (dto.feeRecord i))) :
    (createSwap i dto).Issues P := by
  have hattempt : ∀ attempt tx, (swapAttempt i dto attempt tx).Issues P := by
    intro attempt tx
    refine Proc.issues_bind (Proc.issues_attempt (Proc.issues_call.mpr (hmoves _ _ _ nofun)))
      fun r => ?_
    cases r with
    | error err => exact Proc.issues_done _
    | ok _ =>
      refine Proc.issues_bind (h.issues_read rfl rfl nofun) fun t => ?_
      refine Proc.issues_bind (Proc.issues_attempt ?_) fun r => ?_
      · exact Proc.issues_bind (Proc.issues_call.mpr (h.saves ..)) fun _ =>
          Proc.issues_call.mpr (hrecord _)
      · cases r <;> exact Proc.issues_done _
  have hloop : ∀ left lastError tx, (swapLoop i dto left lastError tx).Issues P := by
    intro left
    induction left with
    | zero =>
      intro lastError tx
      refine Proc.issues_bind (Proc.issues_call.mpr (hmoves _ _ _ nofun)) fun _ => ?_
      refine Proc.issues_bind (Proc.issues_call.mpr (h.saves ..)) fun _ => ?_
      exact Proc.issues_bind (h.issues_read rfl rfl nofun) fun _ => Proc.issues_throw _
    | succ left ih =>
      intro lastError tx
      refine Proc.issues_bind (hattempt _ tx) fun r => ?_
      cases r with
      | ok tx => exact Proc.issues_done _
      | error r => exact Proc.issues_bind (Proc.issues_call.mpr (h.saves ..)) fun _ => ih _ _
  unfold createSwap swapPrepare
  refine Proc.issues_bind ?_ fun tx => ?_
  · refine Proc.issues_bind (h.issues_read rfl rfl nofun) fun _ => ?_
    refine Proc.issues_bind (h.issues_read rfl rfl nofun) fun _ => ?_
    refine Proc.issues_bind (h.issues_read rfl rfl nofun) fun balance => ?_
    refine Proc.issues_bind (Proc.issues_rejectWhen _ _) fun _ => ?_
    exact Proc.issues_call.mpr hinsert
  · exact Proc.issues_bind (Proc.issues_call.mpr hdebit) fun _ => hloop _ _ tx

/-- The fee that the fresh row of a withdrawal records. -/
theorem fee_of_charges {i : ℕ} {dto : WithdrawalDto}
    (h : (createWithdrawal i dto).Issues (Charges fee total)) : calculateFee dto.amount = fee := by
  simp only [createWithdrawal, withdrawalPrepare, Proc.bind_eq, Proc.bind_assoc] at h
  -- a client with accepted terms, a funded destination and enough money
  have hexists := (h.reply ()).reply true
  rw [Proc.rejectWhen_neg nofun] at hexists
  obtain ⟨balance, hbalance⟩ : ∃ balance : ℤ, 100 * totalChecked dto.amount ≤ (balance : ℚ) :=
    ⟨_, Int.le_ceil _⟩
  have hcovered := (Proc.Issues.reply hexists ()).reply balance
  rw [Proc.rejectWhen_neg (not_lt.mpr hbalance)] at hcovered
  exact hcovered.1

end Operations

-- ---------------------------------------------------------------------------
-- Quotes are charges
-- ---------------------------------------------------------------------------

end Quotes

end NexaFx
