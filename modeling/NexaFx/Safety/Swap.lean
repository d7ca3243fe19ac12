import NexaFx.Model.Transactions

/-!
# NexaFx — the retry loop of a swap

`createSwap` debits the source wallet and then tries up to three times to
credit the target wallet, write COMPLETED and record the fee. Here every await
of the loop may succeed or fail on its own (`SwapFaults`).

How the loop ends is decided by the first attempt that does not simply fail
before its credit (`SwapFaults.loopEnd`): it completes, or its catch branch
cannot save and the call is **aborted** without a refund, or it fails *after*
the credit. In that last case the next attempt credits again, and the catch
branch has stored a record that says COMPLETED.
-/

namespace NexaFx

open Async Decimal Proc

/-! ## Failure patterns -/

/-- Which awaits of which attempt of the loop fail. -/
structure SwapFaults where
  credit : ℕ → Bool
  complete : ℕ → Bool
  recordFee : ℕ → Bool
  retry : ℕ → Bool

def SwapFaults.inject (p : SwapFaults) : Cmd → Option Err
  | .adjustBalance (.credit k) .. => if p.credit k = true then some .fault else none
  | .saveTransaction (.completed k) _ => if p.complete k = true then some .fault else none
  | .recordFee k _ => if p.recordFee k = true then some .fault else none
  | .saveTransaction (.retry k) _ => if p.retry k = true then some .fault else none
  | _ => none

/-- How the loop ends. -/
inductive SwapEnd where
  /-- An attempt went through. -/
  | completed
  /-- Every attempt failed before its credit. -/
  | exhausted
  /-- An attempt failed before its credit and its catch branch could not save. -/
  | aborted
  /-- Attempt `k` failed after its credit. -/
  | dirty (k : ℕ)
  deriving DecidableEq

/-- The end of the loop with `left` attempts to go, when the wallet accepts the
credit or not. -/
def SwapFaults.loopEnd (p : SwapFaults) (accepted : Bool) : ℕ → SwapEnd
  | 0 => .exhausted
  | left + 1 =>
    if accepted = true ∧ p.credit (MAX_RETRIES - (left + 1)) = false then
      if p.complete (MAX_RETRIES - (left + 1)) = true ∨
          p.recordFee (MAX_RETRIES - (left + 1)) = true then
        .dirty (MAX_RETRIES - (left + 1))
      else .completed
    else if p.retry (MAX_RETRIES - (left + 1)) = true then .aborted
    else p.loopEnd accepted left

/-! ## Balances on the way -/

namespace SwapDto

/-- The source amount with the fee. -/
abbrev total (dto : SwapDto) : ℚ := totalChecked dto.fromAmount

/-- The balances after the debit. -/
def debited (dto : SwapDto) (db : Db) (a : UserId) (c : String) : ℤ :=
  db.cents a c + if dto.userId = a ∧ normalizeCurrencyCode dto.fromCurrency = c
    then shift (100 * -dto.total) else 0

/-- The balances after the debit and one credit. -/
def credited (dto : SwapDto) (db : Db) (a : UserId) (c : String) : ℤ :=
  dto.debited db a c + if dto.userId = a ∧ normalizeCurrencyCode dto.toCurrency = c
    then shift (100 * dto.toAmount) else 0

/-- The balances after the debit and the refund. -/
def refunded (dto : SwapDto) (db : Db) (a : UserId) (c : String) : ℤ :=
  dto.debited db a c + if dto.userId = a ∧ normalizeCurrencyCode dto.fromCurrency = c
    then shift (100 * dto.total) else 0

/-- The target wallet accepts a credit of `toAmount` after the debit. -/
def CreditAccepted (dto : SwapDto) (db : Db) : Prop :=
  validateCurrency dto.toCurrency = .ok (normalizeCurrencyCode dto.toCurrency) ∧
  (dto.toAmount = 0 ∨ -(1 / 2) <
    (dto.debited db dto.userId (normalizeCurrencyCode dto.toCurrency) : ℚ) + 100 * dto.toAmount)

/-- The source wallet accepts the refund after the debit. -/
def RefundAccepted (dto : SwapDto) (db : Db) : Prop :=
  dto.total = 0 ∨ -(1 / 2) <
    (dto.debited db dto.userId (normalizeCurrencyCode dto.fromCurrency) : ℚ) + 100 * dto.total

instance (dto : SwapDto) (db : Db) : Decidable (dto.CreditAccepted db) :=
  inferInstanceAs (Decidable (_ ∧ _))

instance (dto : SwapDto) (db : Db) : Decidable (dto.RefundAccepted db) :=
  inferInstanceAs (Decidable (_ ∨ _))

end SwapDto

/-! ## What is observed of a run -/

/-- A credit of the target wallet that was carried out. -/
def isCredit (st : Step Cmd Db) : Bool :=
  match st.cmd with
  | .adjustBalance (.credit _) .. => st.ok
  | _ => false

/-- The number of credits of the target wallet. -/
def credits (ts : List (Step Cmd Db)) : ℕ := ts.countP isCredit

/-- The row `i` was never stored as COMPLETED. -/
def NeverCompleted (i : TxId) (ts : List (Step Cmd Db)) : Prop :=
  ∀ st ∈ ts, (st.after.transaction i).map Transaction.status ≠ some .completed

theorem credits_append (ts ts' : List (Step Cmd Db)) :
    credits (ts ++ ts') = credits ts + credits ts' := List.countP_append

theorem credits_cons (st : Step Cmd Db) (ts : List (Step Cmd Db)) :
    credits (st :: ts) = credits [st] + credits ts := credits_append [st] ts

theorem neverCompleted_append {i : TxId} {ts ts' : List (Step Cmd Db)} :
    NeverCompleted i (ts ++ ts') ↔ NeverCompleted i ts ∧ NeverCompleted i ts' :=
  List.forall_mem_append

theorem neverCompleted_nil (i : TxId) : NeverCompleted i [] := by
  intro st hst
  cases hst

theorem neverCompleted_cons {i : TxId} {st : Step Cmd Db} {ts : List (Step Cmd Db)} :
    NeverCompleted i (st :: ts) ↔
      (st.after.transaction i).map Transaction.status ≠ some .completed ∧ NeverCompleted i ts :=
  List.forall_mem_cons

/-- Rows that are what they were are not COMPLETED if they were not. -/
theorem status_congr {d d' : Db} (i : TxId) (h : d'.transactions = d.transactions) :
    (d'.transaction i).map Transaction.status = (d.transaction i).map Transaction.status := by
  rw [Db.transaction, h, ← Db.transaction]

theorem status_put (d : Db) (tx : Transaction) {i : TxId} (h : tx.id = i) :
    ((d.putTransaction tx).transaction i).map Transaction.status = some tx.status := by
  rw [Db.transaction_put, if_pos h]
  rfl

/-! ## One attempt -/

section Attempt

variable {i k : ℕ} {dto : SwapDto} {tx : Transaction} {d d' : Db} {φ : Cmd → Option Err}

/-- The credit of attempt `k`. -/
abbrev creditCmd (i : ℕ) (dto : SwapDto) (k : ℕ) : Cmd :=
  .adjustBalance (.credit k) i i dto.userId dto.toCurrency dto.toAmount

theorem swapAttempt_refused (tx : Transaction) {e : Err}
    (h : outcome (φ (creditCmd i dto k)) (exec (creditCmd i dto k) d) = .error e) :
    Yields exec φ (swapAttempt i dto k tx) d (.ok (.error (e, tx))) d
      [⟨creditCmd i dto k, false, d⟩] :=
  (Yields.call_error h).attempt.bind (.done _ _)

/-- After the credit, the attempt ends as its two writes do. -/
theorem swapAttempt_dirty (tx : Transaction) {b : ℤ} {e : Err} {d'' : Db} {ts : List (Step Cmd Db)}
    (hφ : φ (creditCmd i dto k) = none) (hcredit : exec (creditCmd i dto k) d = .ok (b, d'))
    (hnow : φ .now = none)
    (hconfirm : Yields exec φ (swapConfirm i dto k (tx.completeAttempt d'.now k)) d'
      (.error e) d'' ts) :
    Yields exec φ (swapAttempt i dto k tx) d
      (.ok (.error (e, tx.completeAttempt d'.now k))) d''
      (⟨creditCmd i dto k, true, d'⟩ :: ⟨.now, true, d'⟩ :: (ts ++ [])) :=
  (Yields.call hφ hcredit).attempt.bind
    ((Yields.call hnow rfl).bind (hconfirm.attempt.bind (.done _ _)))

theorem swapAttempt_done {b : ℤ} {d'' : Db} {ts : List (Step Cmd Db)}
    (hφ : φ (creditCmd i dto k) = none) (hcredit : exec (creditCmd i dto k) d = .ok (b, d'))
    (hnow : φ .now = none)
    (hconfirm : Yields exec φ (swapConfirm i dto k (tx.completeAttempt d'.now k)) d'
      (.ok ()) d'' ts) :
    Yields exec φ (swapAttempt i dto k tx) d
      (.ok (.ok (tx.completeAttempt d'.now k))) d''
      (⟨creditCmd i dto k, true, d'⟩ :: ⟨.now, true, d'⟩ :: (ts ++ [])) :=
  (Yields.call hφ hcredit).attempt.bind
    ((Yields.call hnow rfl).bind (hconfirm.attempt.bind (.done _ _)))

/-- An attempt that goes through has credited. -/
theorem credits_of_swapAttempt {tx' : Transaction}
    (h : (swapAttempt i dto k tx).run exec φ d = (.ok (.ok tx'), d')) :
    1 ≤ credits ((swapAttempt i dto k tx).trace exec φ d) := by
  cases hout : outcome (φ (creditCmd i dto k)) (exec (creditCmd i dto k) d) with
  | error e =>
    rw [(swapAttempt_refused tx hout).run] at h
    cases h
  | ok r =>
    obtain ⟨b, d₁⟩ := r
    obtain ⟨hφ, hcredit⟩ := outcome_eq_ok hout
    have hcall : Yields exec φ (await (creditCmd i dto k)).attempt d (.ok (.ok b)) d₁ _ :=
      (Yields.call hφ hcredit).attempt
    rw [swapAttempt, bind_eq, trace_bind, hcall.trace, credits_append]
    exact Nat.le_add_right 1 _

end Attempt

/-! ## The loop -/

section Loop

variable {i left : ℕ} {dto : SwapDto} {tx tx' : Transaction} {lastError e : Err} {d d' d'' : Db}
  {φ : Cmd → Option Err} {ts ts' : List (Step Cmd Db)}

/-- The save in the catch branch of attempt `k`. -/
abbrev retryCmd (k : ℕ) (tx : Transaction) : Cmd :=
  .saveTransaction (.retry k) (tx.withRetryCount (k + 1))

theorem swapLoop_done
    (h : Yields exec φ (swapAttempt i dto (MAX_RETRIES - (left + 1)) tx) d (.ok (.ok tx')) d' ts) :
    Yields exec φ (swapLoop i dto (left + 1) lastError tx) d (.ok tx') d' (ts ++ []) :=
  h.bind (.done _ _)

theorem swapLoop_abort {e' : Err}
    (h : Yields exec φ (swapAttempt i dto (MAX_RETRIES - (left + 1)) tx) d
      (.ok (.error (e, tx'))) d' ts)
    (hsave : outcome (φ (retryCmd (MAX_RETRIES - (left + 1)) tx'))
      (exec (retryCmd (MAX_RETRIES - (left + 1)) tx') d') = .error e') :
    Yields exec φ (swapLoop i dto (left + 1) lastError tx) d (.error e') d'
      (ts ++ [⟨retryCmd (MAX_RETRIES - (left + 1)) tx', false, d'⟩]) :=
  h.bind (Yields.call_error hsave).bind_error

theorem swapLoop_retry (lastError : Err) {r : Except Err Transaction} {dEnd : Db}
    (h : Yields exec φ (swapAttempt i dto (MAX_RETRIES - (left + 1)) tx) d
      (.ok (.error (e, tx'))) d' ts)
    (hφ : φ (retryCmd (MAX_RETRIES - (left + 1)) tx') = none)
    (hsave : exec (retryCmd (MAX_RETRIES - (left + 1)) tx') d' = .ok ((), d''))
    (hrest : Yields exec φ
      (swapLoop i dto left e (tx'.withRetryCount (MAX_RETRIES - (left + 1) + 1))) d'' r dEnd ts') :
    Yields exec φ (swapLoop i dto (left + 1) lastError tx) d r dEnd
      (ts ++ (⟨retryCmd (MAX_RETRIES - (left + 1)) tx', true, d''⟩ :: ts')) :=
  h.bind ((Yields.call hφ hsave).bind hrest)

theorem swapGiveUp_throws (i : ℕ) (dto : SwapDto) (tx : Transaction) (lastError : Err)
    (φ : Cmd → Option Err) (d d' : Db) (tx' : Transaction) :
    (swapGiveUp i dto tx lastError).run exec φ d ≠ (.ok tx', d') := by
  intro h
  unfold swapGiveUp at h
  simp only [bind_eq] at h
  obtain ⟨_, _, -, h⟩ := run_call_bind_returns h
  obtain ⟨_, _, -, h⟩ := run_call_bind_returns h
  obtain ⟨_, _, -, h⟩ := run_call_bind_returns h
  cases h

/-- A loop that returns has credited, from whatever state it started. -/
theorem credits_of_swapLoop (h : (swapLoop i dto left lastError tx).run exec φ d = (.ok tx', d')) :
    1 ≤ credits ((swapLoop i dto left lastError tx).trace exec φ d) := by
  induction left generalizing lastError tx d with
  | zero => exact absurd h (swapGiveUp_throws i dto tx lastError φ d d' tx')
  | succ left ih =>
    rw [swapLoop, bind_eq] at h ⊢
    obtain ⟨res, d₁, hattempt, hrest⟩ := run_bind_returns h
    rw [trace_bind, credits_append, hattempt]
    cases res with
    | ok tx₁ => exact le_add_right (credits_of_swapAttempt hattempt)
    | error res =>
      obtain ⟨err, tx₁⟩ := res
      obtain ⟨_, d₂, hsave, hloop⟩ := run_bind_returns hrest
      refine le_add_left ?_
      simp only [bind_eq]
      rw [trace_bind, credits_append, hsave]
      exact le_add_left (ih hloop)

end Loop

/-! ## How the loop ends -/

/-- The loop at the start of an attempt, when no credit has been made: the
debit is in place and the record is not COMPLETED, stored or in memory. -/
structure SwapReady (i : TxId) (dto : SwapDto) (db d : Db) (tx : Transaction) : Prop where
  supported : validateCurrency dto.fromCurrency = .ok (normalizeCurrencyCode dto.fromCurrency)
  cents : d.cents = dto.debited db
  id : tx.id = i
  pending : tx.status = .pending
  row : (d.transaction i).map Transaction.status ≠ some .completed
  stores : d.Stores tx

/-- What each end of the loop leaves behind. -/
def SwapOutcome (i : TxId) (dto : SwapDto) (db : Db) (p : SwapFaults) :
    SwapEnd → Except Err Transaction → Db → List (Step Cmd Db) → Prop
  | .completed, r, _, ts => (∃ tx, r = .ok tx) ∧ credits ts = 1
  | .exhausted, r, d, ts => (∃ e, r = .error e) ∧ credits ts = 0 ∧ NeverCompleted i ts ∧
      d.cents = if dto.RefundAccepted db then dto.refunded db else dto.debited db
  | .aborted, r, d, ts => (∃ e, r = .error e) ∧ credits ts = 0 ∧ NeverCompleted i ts ∧
      d.cents = dto.debited db
  | .dirty k, r, d, ts =>
    if p.complete k = true ∧ p.retry k = true then
      (∃ e, r = .error e) ∧ credits ts = 1 ∧ NeverCompleted i ts ∧ d.cents = dto.credited db
    else
      ((∃ tx, r = .ok tx) ∧ 2 ≤ credits ts) ∨ ((∃ e, r = .error e) ∧ ¬ NeverCompleted i ts)

/-- An attempt that failed before its credit does not change how the loop ends. -/
theorem SwapOutcome.cons {i : TxId} {dto : SwapDto} {db d : Db} {p : SwapFaults} {fin : SwapEnd}
    {r : Except Err Transaction} {ts ts' : List (Step Cmd Db)}
    (hcredits : credits ts = 0) (hnever : NeverCompleted i ts)
    (h : SwapOutcome i dto db p fin r d ts') : SwapOutcome i dto db p fin r d (ts ++ ts') := by
  have hcount : credits (ts ++ ts') = credits ts' := by rw [credits_append, hcredits, zero_add]
  have hnc : NeverCompleted i (ts ++ ts') ↔ NeverCompleted i ts' := by
    rw [neverCompleted_append]
    exact and_iff_right hnever
  cases fin with
  | completed => exact ⟨h.1, hcount.trans h.2⟩
  | exhausted => exact ⟨h.1, hcount.trans h.2.1, hnc.mpr h.2.2.1, h.2.2.2⟩
  | aborted => exact ⟨h.1, hcount.trans h.2.1, hnc.mpr h.2.2.1, h.2.2.2⟩
  | dirty k =>
    rw [SwapOutcome] at h ⊢
    rw [hcount, hnc]
    exact h

section Ends

variable {i : TxId} {dto : SwapDto} {db d : Db} {tx : Transaction}

theorem SwapReady.covers_credit (h : SwapReady i dto db d tx)
    (hcur : validateCurrency dto.toCurrency = .ok (normalizeCurrencyCode dto.toCurrency)) :
    d.Covers dto.userId dto.toCurrency dto.toAmount ↔ dto.CreditAccepted db := by
  unfold Db.Covers SwapDto.CreditAccepted
  rw [h.cents]
  exact ⟨fun hc => ⟨hcur, hc⟩, fun hc => hc.2⟩

-- the equations of `inject` are generated here, once
attribute [local simp] SwapFaults.inject in
/-- The wallet refuses the credit, or the credit fails. -/
theorem SwapReady.credit_refused (h : SwapReady i dto db d tx) (p : SwapFaults) {k : ℕ}
    (hno : ¬ (dto.CreditAccepted db ∧ p.credit k = false)) :
    ∃ e, outcome (p.inject (creditCmd i dto k)) (exec (creditCmd i dto k) d) = .error e := by
  cases hp : p.credit k with
  | true => exact ⟨.fault, by rw [SwapFaults.inject, if_pos hp, outcome_some]⟩
  | false =>
    have hacc : ¬ dto.CreditAccepted db := fun hacc => hno ⟨hacc, hp⟩
    rw [SwapFaults.inject, hp, if_neg (by simp), outcome_none]
    cases hexec : exec (creditCmd i dto k) d with
    | error e => exact ⟨e, rfl⟩
    | ok r =>
      obtain ⟨b, d'⟩ := r
      have hadj := exec_adjustBalance_ok hexec
      exact absurd ((h.covers_credit hadj.supported).mp hadj.covered) hacc

/-- The credit is carried out. -/
theorem SwapReady.credit_carried (h : SwapReady i dto db d tx) {k : ℕ}
    (hacc : dto.CreditAccepted db) :
    ∃ b d', exec (creditCmd i dto k) d = .ok (b, d') ∧ d'.cents = dto.credited db ∧
      d'.transactions = d.transactions ∧ d'.userExists = d.userExists := by
  obtain ⟨b, d', hexec, hadj⟩ := exec_adjustBalance_carried (.credit k) i i hacc.1
    ((h.covers_credit hacc.1).mpr hacc)
  refine ⟨b, d', hexec, ?_, hadj.transactions, hadj.userExists⟩
  funext a c
  rw [hadj.cents, h.cents]
  rfl

/-! ### The writes after a credit -/

theorem swapConfirm_complete_fails (i : ℕ) (dto : SwapDto) {p : SwapFaults} {k : ℕ}
    (tx : Transaction) (d : Db) (hp : p.complete k = true) :
    Yields exec p.inject (swapConfirm i dto k tx) d (.error .fault) d
      [⟨.saveTransaction (.completed k) tx, false, d⟩] := by
  refine (Yields.call_error ?_).bind_error
  rw [SwapFaults.inject, if_pos hp, outcome_some]

theorem swapConfirm_fee_fails (i : ℕ) (dto : SwapDto) {p : SwapFaults} {k : ℕ}
    {tx : Transaction} {d : Db} (hp : p.complete k = false) (hfee : p.recordFee k = true)
    (hst : d.Stores tx) :
    Yields exec p.inject (swapConfirm i dto k tx) d (.error .fault) (d.putTransaction tx)
      [⟨.saveTransaction (.completed k) tx, true, d.putTransaction tx⟩,
        ⟨.recordFee k (dto.feeRecord i), false, d.putTransaction tx⟩] := by
  refine (Yields.call ?_ (exec_saveTransaction_of_stores _ hst)).bind (Yields.call_error ?_)
  · rw [SwapFaults.inject, hp, if_neg (by simp)]
  · rw [SwapFaults.inject, if_pos hfee, outcome_some]

theorem swapConfirm_ok (i : ℕ) (dto : SwapDto) {p : SwapFaults} {k : ℕ}
    {tx : Transaction} {d : Db} (hp : p.complete k = false) (hfee : p.recordFee k = false)
    (hst : d.Stores tx) :
    ∃ d' ts, Yields exec p.inject (swapConfirm i dto k tx) d (.ok ()) d' ts ∧ credits ts = 0 := by
  refine ⟨_, _, (Yields.call ?_ (exec_saveTransaction_of_stores _ hst)).bind
    (Yields.call ?_ rfl), rfl⟩
  · rw [SwapFaults.inject, hp, if_neg (by simp)]
  · rw [SwapFaults.inject, hfee, if_neg (by simp)]

/-! ### The ends -/

/-- Giving up: the refund, if the wallet accepts it, and FAILED. -/
theorem SwapReady.giveUp (h : SwapReady i dto db d tx) (p : SwapFaults) (lastError : Err) :
    ∃ r d' ts, Yields exec p.inject (swapGiveUp i dto tx lastError) d r d' ts ∧
      SwapOutcome i dto db p .exhausted r d' ts := by
  have hcov : d.Covers dto.userId dto.fromCurrency dto.total ↔ dto.RefundAccepted db := by
    unfold Db.Covers SwapDto.RefundAccepted
    rw [h.cents]
  cases hexec : exec (.adjustBalance .refund i i dto.userId dto.fromCurrency dto.total) d with
  | error e =>
    have hno : ¬ dto.RefundAccepted db := by
      intro hacc
      obtain ⟨b, d', hok, -⟩ :=
        exec_adjustBalance_carried .refund i i h.supported (hcov.mpr hacc)
      rw [hexec] at hok
      cases hok
    have hout : outcome
        (p.inject (.adjustBalance .refund i i dto.userId dto.fromCurrency dto.total))
        (exec (.adjustBalance .refund i i dto.userId dto.fromCurrency dto.total) d) =
          .error e := by
      rw [hexec]
      rfl
    refine ⟨_, _, _, (Yields.call_error hout).bind_error, ⟨_, rfl⟩, rfl, ?_, ?_⟩
    · exact neverCompleted_cons.mpr ⟨h.row, neverCompleted_nil i⟩
    · rw [if_neg hno, h.cents]
  | ok res =>
    obtain ⟨b, d₁⟩ := res
    have hadj := exec_adjustBalance_ok hexec
    have hacc := hcov.mp hadj.covered
    have hst : d₁.Stores (tx.withStatus .failed) :=
      h.stores.congr hadj.transactions hadj.userExists rfl rfl rfl rfl rfl
    refine ⟨_, _, _, (Yields.call rfl hexec).bind ((Yields.call rfl
      (exec_saveTransaction_of_stores _ hst)).bind ((Yields.call rfl rfl).bind (.done _ _))), ?_⟩
    refine ⟨⟨_, rfl⟩, rfl, ?_, ?_⟩
    · have hfailed : ((d₁.putTransaction (tx.withStatus .failed)).transaction i).map
          Transaction.status ≠ some .completed := by
        rw [status_put d₁ (tx.withStatus .failed) h.id]
        simp [Transaction.withStatus]
      have hrow : (d₁.transaction i).map Transaction.status ≠ some .completed := by
        rw [status_congr i hadj.transactions]
        exact h.row
      exact neverCompleted_cons.mpr ⟨hrow, neverCompleted_cons.mpr ⟨hfailed,
        neverCompleted_cons.mpr ⟨hfailed, neverCompleted_nil i⟩⟩⟩
    · rw [if_pos hacc]
      funext a c
      rw [Db.putTransaction_cents, hadj.cents, h.cents]
      rfl

/-- An attempt that fails after its credit, as the catch branch finds it. -/
theorem SwapReady.dirty (h : SwapReady i dto db d tx) {p : SwapFaults} {k : ℕ}
    (hacc : dto.CreditAccepted db) (hcredit : p.credit k = false)
    (hfail : p.complete k = true ∨ p.recordFee k = true) :
    ∃ tx' d' ts, Yields exec p.inject (swapAttempt i dto k tx) d
        (.ok (.error (.fault, tx'))) d' ts ∧
      tx'.id = i ∧ tx'.status = .completed ∧ d'.Stores tx' ∧ d'.cents = dto.credited db ∧
      credits ts = 1 ∧ (NeverCompleted i ts ↔ p.complete k = true) ∧
      (p.complete k = true → (d'.transaction i).map Transaction.status ≠ some .completed) := by
  obtain ⟨b, d₁, hexec, hcents, hts, husers⟩ := h.credit_carried (k := k) hacc
  have hφ : p.inject (creditCmd i dto k) = none := by
    rw [SwapFaults.inject, hcredit, if_neg (by simp)]
  have hst : d₁.Stores (tx.completeAttempt d₁.now k) :=
    h.stores.congr hts husers rfl rfl rfl rfl rfl
  have hid : (tx.completeAttempt d₁.now k).id = i := h.id
  have hrow : (d₁.transaction i).map Transaction.status ≠ some .completed := by
    rw [status_congr i hts]
    exact h.row
  cases hp : p.complete k with
  | true =>
    have hyields := swapAttempt_dirty tx hφ hexec rfl
      (swapConfirm_complete_fails i dto _ d₁ hp)
    refine ⟨_, _, _, hyields, hid, rfl, hst, hcents, rfl, ?_, fun _ => hrow⟩
    refine iff_of_true ?_ rfl
    exact neverCompleted_cons.mpr ⟨hrow, neverCompleted_cons.mpr ⟨hrow,
      neverCompleted_cons.mpr ⟨hrow, neverCompleted_nil i⟩⟩⟩
  | false =>
    have hfee : p.recordFee k = true := hfail.resolve_left (by simp [hp])
    have hyields := swapAttempt_dirty tx hφ hexec rfl
      (swapConfirm_fee_fails i dto hp hfee hst)
    refine ⟨_, _, _, hyields, hid, rfl, (Db.stores_put rfl).mpr hst, hcents, rfl, ?_,
      fun hf => by cases hf⟩
    refine iff_of_false ?_ (by simp)
    intro hnever
    -- the third step stored COMPLETED
    have hthird := (neverCompleted_cons.mp (neverCompleted_cons.mp
      (neverCompleted_cons.mp hnever).2).2).1
    exact hthird (status_put _ _ hid)

/-- A failure after the credit: either the call ends right there, with the
credit in place, or a second credit or a throw after COMPLETED is certain. -/
theorem SwapReady.loop_dirty (h : SwapReady i dto db d tx) {p : SwapFaults} {left : ℕ}
    (lastError : Err) (hacc : dto.CreditAccepted db)
    (hcredit : p.credit (MAX_RETRIES - (left + 1)) = false)
    (hfail : p.complete (MAX_RETRIES - (left + 1)) = true ∨
      p.recordFee (MAX_RETRIES - (left + 1)) = true) :
    ∃ r d' ts, Yields exec p.inject (swapLoop i dto (left + 1) lastError tx) d r d' ts ∧
      SwapOutcome i dto db p (.dirty (MAX_RETRIES - (left + 1))) r d' ts := by
  obtain ⟨tx', d₁, ts, hattempt, hid, hstatus, hst, hcents, hcount, hnever, hrow⟩ :=
    h.dirty hacc hcredit hfail
  have hst' : d₁.Stores (tx'.withRetryCount (MAX_RETRIES - (left + 1) + 1)) :=
    hst.congr rfl rfl rfl rfl rfl rfl rfl
  cases hretry : p.retry (MAX_RETRIES - (left + 1)) with
  | true =>
    have hout : outcome (p.inject (retryCmd (MAX_RETRIES - (left + 1)) tx'))
        (exec (retryCmd (MAX_RETRIES - (left + 1)) tx') d₁) = .error .fault := by
      rw [SwapFaults.inject, if_pos hretry, outcome_some]
    refine ⟨_, _, _, swapLoop_abort hattempt hout, ?_⟩
    rw [SwapOutcome]
    by_cases hp : p.complete (MAX_RETRIES - (left + 1)) = true
    · rw [if_pos ⟨hp, hretry⟩]
      refine ⟨⟨_, rfl⟩, ?_, ?_, hcents⟩
      · rw [credits_append, hcount]
        rfl
      · exact neverCompleted_append.mpr ⟨hnever.mpr hp,
          neverCompleted_cons.mpr ⟨hrow hp, neverCompleted_nil i⟩⟩
    · rw [if_neg fun hc => hp hc.1]
      exact Or.inr ⟨⟨_, rfl⟩, fun hn => hp (hnever.mp (neverCompleted_append.mp hn).1)⟩
  | false =>
    have hφ : p.inject (retryCmd (MAX_RETRIES - (left + 1)) tx') = none := by
      rw [SwapFaults.inject, hretry, if_neg (by simp)]
    have hrest := yields exec p.inject (swapLoop i dto left .fault
      (tx'.withRetryCount (MAX_RETRIES - (left + 1) + 1)))
      (d₁.putTransaction (tx'.withRetryCount (MAX_RETRIES - (left + 1) + 1)))
    refine ⟨_, _, _, swapLoop_retry _ hattempt hφ (exec_saveTransaction_of_stores _ hst') hrest, ?_⟩
    rw [SwapOutcome, if_neg fun hc => by simp [hretry] at hc]
    cases hres : ((swapLoop i dto left .fault
        (tx'.withRetryCount (MAX_RETRIES - (left + 1) + 1))).run exec p.inject
        (d₁.putTransaction (tx'.withRetryCount (MAX_RETRIES - (left + 1) + 1)))).1 with
    | ok tx'' =>
      have hagain := credits_of_swapLoop (Prod.ext hres rfl)
      refine Or.inl ⟨⟨_, rfl⟩, ?_⟩
      rw [credits_append, hcount, credits_cons]
      omega
    | error e =>
      -- the catch branch stored COMPLETED
      refine Or.inr ⟨⟨_, rfl⟩, fun hn => ?_⟩
      have hsaved := (neverCompleted_cons.mp (neverCompleted_append.mp hn).2).1
      have hput := status_put d₁ (tx'.withRetryCount (MAX_RETRIES - (left + 1) + 1)) hid
      exact hsaved (hput.trans (congrArg some hstatus))

/-- **The loop.** From the state after the debit, for every failure pattern. -/
theorem swapLoop_outcome (p : SwapFaults) (left : ℕ) (lastError : Err)
    (h : SwapReady i dto db d tx) :
    ∃ r d' ts, Yields exec p.inject (swapLoop i dto left lastError tx) d r d' ts ∧
      SwapOutcome i dto db p (p.loopEnd (decide (dto.CreditAccepted db)) left) r d' ts := by
  induction left generalizing lastError tx d with
  | zero => exact h.giveUp p lastError
  | succ left ih =>
    rw [SwapFaults.loopEnd]
    by_cases hgo : decide (dto.CreditAccepted db) = true ∧
        p.credit (MAX_RETRIES - (left + 1)) = false
    · rw [if_pos hgo]
      have hacc := of_decide_eq_true hgo.1
      split
      · rename_i hfail
        exact h.loop_dirty lastError hacc hgo.2 hfail
      · rename_i hclean
        push Not at hclean
        obtain ⟨b, d₁, hexec, hcents, hts, husers⟩ :=
          h.credit_carried (k := MAX_RETRIES - (left + 1)) hacc
        have hst : d₁.Stores (tx.completeAttempt d₁.now (MAX_RETRIES - (left + 1))) :=
          h.stores.congr hts husers rfl rfl rfl rfl rfl
        obtain ⟨d₂, ts, hconfirm, hzero⟩ := swapConfirm_ok i dto
          (by simpa using hclean.1) (by simpa using hclean.2) hst
        have hφ : p.inject (creditCmd i dto (MAX_RETRIES - (left + 1))) = none := by
          rw [SwapFaults.inject, hgo.2, if_neg (by simp)]
        refine ⟨_, _, _, swapLoop_done (swapAttempt_done hφ hexec rfl hconfirm), ⟨_, rfl⟩, ?_⟩
        have hnow : credits (⟨.now, true, d₁⟩ :: ts) = 0 := by rw [credits_cons, hzero]; rfl
        rw [List.append_nil, List.append_nil, credits_cons, hnow]
        rfl
    · rw [if_neg hgo]
      have hno : ¬ (dto.CreditAccepted db ∧ p.credit (MAX_RETRIES - (left + 1)) = false) :=
        fun hc => hgo ⟨decide_eq_true hc.1, hc.2⟩
      obtain ⟨e, hout⟩ := h.credit_refused p hno
      have hattempt := swapAttempt_refused tx hout
      have hst : d.Stores (tx.withRetryCount (MAX_RETRIES - (left + 1) + 1)) :=
        h.stores.congr rfl rfl rfl rfl rfl rfl rfl
      split
      · rename_i hretry
        have hsave : outcome (p.inject (retryCmd (MAX_RETRIES - (left + 1)) tx))
            (exec (retryCmd (MAX_RETRIES - (left + 1)) tx) d) = .error .fault := by
          rw [SwapFaults.inject, if_pos hretry, outcome_some]
        refine ⟨_, _, _, swapLoop_abort hattempt hsave, ⟨_, rfl⟩, rfl, ?_, h.cents⟩
        exact neverCompleted_cons.mpr ⟨h.row, neverCompleted_cons.mpr ⟨h.row,
          neverCompleted_nil i⟩⟩
      · rename_i hretry
        have hφ : p.inject (retryCmd (MAX_RETRIES - (left + 1)) tx) = none := by
          rw [SwapFaults.inject, if_neg hretry]
        -- the catch branch has stored the record, still PENDING
        have hrow : ((d.putTransaction (tx.withRetryCount (MAX_RETRIES - (left + 1) + 1))).transaction
            i).map Transaction.status ≠ some .completed := by
          refine ne_of_eq_of_ne (status_put d (tx.withRetryCount _) h.id) ?_
          simp [Transaction.withRetryCount, h.pending]
        have hready : SwapReady i dto db
            (d.putTransaction (tx.withRetryCount (MAX_RETRIES - (left + 1) + 1)))
            (tx.withRetryCount (MAX_RETRIES - (left + 1) + 1)) :=
          ⟨h.supported, h.cents, h.id, h.pending, hrow, (Db.stores_put rfl).mpr hst⟩
        obtain ⟨r, d', ts, hrest, hout⟩ := ih e hready
        have hloop := swapLoop_retry lastError hattempt hφ
          (exec_saveTransaction_of_stores _ hst) hrest
        rw [List.singleton_append] at hloop
        refine ⟨r, d', _, hloop, ?_⟩
        have hnever : NeverCompleted i [⟨creditCmd i dto (MAX_RETRIES - (left + 1)), false, d⟩,
            ⟨retryCmd (MAX_RETRIES - (left + 1)) tx, true,
              d.putTransaction (tx.withRetryCount (MAX_RETRIES - (left + 1) + 1))⟩] :=
          neverCompleted_cons.mpr ⟨h.row, neverCompleted_cons.mpr ⟨hrow, neverCompleted_nil i⟩⟩
        exact hout.cons rfl hnever

end Ends

/-! ## Before the loop -/

/-- The request passes every check before the debit. -/
structure SwapDto.Admissible (i : TxId) (dto : SwapDto) (db : Db) : Prop where
  terms : db.termsAccepted dto.userId = true
  limit : ∃ db', db.limitCheck dto.userId dto.total dto.fromCurrency = .ok db'
  supported : validateCurrency dto.fromCurrency = .ok (normalizeCurrencyCode dto.fromCurrency)
  balance : 100 * dto.total ≤ db.cents dto.userId (normalizeCurrencyCode dto.fromCurrency)
  stores : db.Stores (dto.create i)

section Prepare

variable {i : TxId} {dto : SwapDto} {db : Db}

/-- What `swapPrepare` asks for: reads, the limit check and the PENDING record. -/
def SwapDto.Prepares (i : TxId) (dto : SwapDto) (c : Cmd) : Prop :=
  c.preparatory = true ∧ (c.writes = [] ∨ c = .insertTransaction (dto.create i))

theorem swapPrepare_prepares (i : ℕ) (dto : SwapDto) :
    (swapPrepare i dto).Issues (dto.Prepares i) := by
  refine issues_bind (issues_call.mpr ⟨rfl, Or.inl rfl⟩) fun _ => ?_
  refine issues_bind (issues_call.mpr ⟨rfl, Or.inl rfl⟩) fun _ => ?_
  refine issues_bind (issues_call.mpr ⟨rfl, Or.inl rfl⟩) fun _ => ?_
  refine issues_bind (issues_rejectWhen _ _) fun _ => ?_
  exact issues_call.mpr ⟨rfl, Or.inr rfl⟩

theorem SwapFaults.inject_prepares (p : SwapFaults) {c : Cmd} (h : dto.Prepares i c) :
    p.inject c = none := by
  obtain ⟨hc, -⟩ := h
  cases c with
  | saveTransaction site => cases site <;> first | rfl | cases hc
  | adjustBalance => cases hc
  | recordFee => cases hc
  | _ => rfl

/-- Up to the debit no balance changes, nothing is credited and the record is
at most PENDING. -/
theorem swapPrepare_quiet (dto : SwapDto) (hfresh : db.transaction i = none) (p : SwapFaults) :
    ((swapPrepare i dto).run exec p.inject db).2.cents = db.cents ∧
    credits ((swapPrepare i dto).trace exec p.inject db) = 0 ∧
    NeverCompleted i ((swapPrepare i dto).trace exec p.inject db) := by
  have hstep : ∀ c, dto.Prepares i c → ∀ s a s', exec c s = .ok (a, s') →
      (s.transaction i).map Transaction.status ≠ some .completed →
      (s'.transaction i).map Transaction.status ≠ some .completed := by
    intro c hc s a s' hexec hs
    rcases hc.2 with hw | rfl
    · rw [exec_transaction hexec (by rw [hw]; exact List.not_mem_nil)]
      exact hs
    · obtain ⟨-, -, rfl⟩ := exec_insertTransaction hexec
      have hput := status_put s ((dto.create i).stamp s.now) (i := i) rfl
      rw [hput]
      simp [SwapDto.create, createTransaction, Transaction.stamp]
  have htrace := trace_inv (φ := p.inject) (swapPrepare_prepares i dto) hstep (s := db)
    (by simp [hfresh])
  refine ⟨?_, ?_, fun st hst => (htrace st hst).2⟩
  · refine run_inv (I := fun d : Db => d.cents = db.cents) (swapPrepare_prepares i dto) ?_ rfl
    intro c hc s _ s' hexec hs
    have hw := (exec_wallets hexec (Cmd.mover_of_preparatory hc.1)).1
    rw [← hs]
    funext a cur
    rw [Db.cents, Db.wallet, hw]
    rfl
  · refine List.countP_eq_zero.mpr fun st hst => ?_
    have hprep := (htrace st hst).1.1
    obtain ⟨c, ok, d⟩ := st
    cases c with
    | adjustBalance => cases hprep
    | _ => simp [isCredit]

/-- An admissible request reaches the debit with its record in place. -/
theorem swapPrepare_run (h : dto.Admissible i db) (p : SwapFaults) :
    ∃ tx d, (swapPrepare i dto).run exec p.inject db = (.ok tx, d) ∧ tx.id = i ∧
      tx.status = .pending ∧ d.transaction i = some tx ∧ d.Stores tx ∧ d.cents = db.cents := by
  obtain ⟨db₁, hlimit⟩ := h.limit
  have hunt := Db.limitCheck_untouched hlimit
  have hcents : db₁.cents = db.cents := by
    funext a c
    rw [Db.cents, Db.wallet, hunt.wallets]
    rfl
  have hst : db₁.Stores ((dto.create i).stamp db₁.now) :=
    h.stores.congr hunt.transactions hunt.users rfl rfl rfl rfl rfl
  refine ⟨(dto.create i).stamp db₁.now, db₁.putTransaction ((dto.create i).stamp db₁.now), ?_,
    rfl, rfl, Table.get_put_self .., (Db.stores_put rfl).mpr hst, hcents⟩
  unfold swapPrepare
  simp only [bind_eq]
  rw [run_call_bind_ok rfl (by rw [exec, if_pos h.terms]),
    run_call_bind_ok rfl (by rw [exec, hlimit]),
    run_call_bind_ok rfl (by rw [exec, Db.getBalance, h.supported]),
    run_rejectWhen_bind, if_neg (by rw [hcents]; simpa using h.balance), run_call,
    p.inject_prepares ⟨rfl, Or.inr rfl⟩, outcome_none, exec, Db.storeTransaction_of_stores hst]

theorem admissible_of_swapPrepare {p : SwapFaults} {tx : Transaction} {d : Db}
    (h : (swapPrepare i dto).run exec p.inject db = (.ok tx, d)) : dto.Admissible i db := by
  unfold swapPrepare at h
  simp only [bind_eq] at h
  obtain ⟨_, _, hterms, h⟩ := run_call_bind_returns h
  obtain ⟨_, db₁, hlimit, h⟩ := run_call_bind_returns h
  obtain ⟨_, _, hbal, h⟩ := run_call_bind_returns h
  obtain ⟨hcovers, hins⟩ := run_rejectWhen_bind_returns h
  obtain ⟨hterms, rfl⟩ := exec_ensureAccepted hterms
  obtain ⟨hsupp, rfl, rfl⟩ := exec_getBalance hbal
  have hlimit := exec_limitCheck hlimit
  have hunt := Db.limitCheck_untouched hlimit
  rw [run_call] at hins
  split at hins
  · rename_i hout
    obtain ⟨hstores, -, -⟩ := exec_insertTransaction (outcome_eq_ok hout).2
    refine ⟨hterms, ⟨_, hlimit⟩, hsupp, ?_,
      hstores.congr hunt.transactions.symm hunt.users.symm rfl rfl rfl rfl rfl⟩
    have hbalance := not_lt.mp hcovers
    rw [Db.cents, Db.wallet, hunt.wallets] at hbalance
    exact hbalance
  · cases hins

end Prepare

/-! ## A swap that fails cleanly -/

/-- `toAmount` is credited at most once; if the call throws, both wallets hold
what they held before and the record was never stored as COMPLETED. -/
structure SwapClean (i : TxId) (dto : SwapDto) (before : Db) (r : Except Err Transaction)
    (after : Db) (ts : List (Step Cmd Db)) : Prop where
  once : credits ts ≤ 1
  restored : ∀ e, r = .error e →
    after.cents dto.userId (normalizeCurrencyCode dto.fromCurrency) =
      before.cents dto.userId (normalizeCurrencyCode dto.fromCurrency) ∧
    after.cents dto.userId (normalizeCurrencyCode dto.toCurrency) =
      before.cents dto.userId (normalizeCurrencyCode dto.toCurrency)
  neverCompleted : ∀ e, r = .error e → NeverCompleted i ts

/-- The ends of the loop that are clean. -/
def CleanEnd (dto : SwapDto) (db : Db) (p : SwapFaults) : SwapEnd → Prop
  | .completed => True
  | .exhausted =>
    if dto.RefundAccepted db then ¬ Tie (100 * dto.total) else shift (100 * -dto.total) = 0
  | .aborted => shift (100 * -dto.total) = 0
  | .dirty k => (p.complete k = true ∧ p.retry k = true) ∧
    dto.credited db dto.userId (normalizeCurrencyCode dto.fromCurrency) =
      db.cents dto.userId (normalizeCurrencyCode dto.fromCurrency) ∧
    dto.credited db dto.userId (normalizeCurrencyCode dto.toCurrency) =
      db.cents dto.userId (normalizeCurrencyCode dto.toCurrency)

section Clean

variable {i : TxId} {dto : SwapDto} {db d : Db} {p : SwapFaults} {r : Except Err Transaction}
  {ts : List (Step Cmd Db)}

/-- A call that throws after at most one credit, never having stored COMPLETED,
is clean exactly when the balances are back. -/
theorem swapClean_of_error {e : Err} (hr : r = .error e) (hcredits : credits ts ≤ 1)
    (hnever : NeverCompleted i ts) :
    SwapClean i dto db r d ts ↔
      d.cents dto.userId (normalizeCurrencyCode dto.fromCurrency) =
        db.cents dto.userId (normalizeCurrencyCode dto.fromCurrency) ∧
      d.cents dto.userId (normalizeCurrencyCode dto.toCurrency) =
        db.cents dto.userId (normalizeCurrencyCode dto.toCurrency) :=
  ⟨fun h => h.restored e hr, fun h => ⟨hcredits, fun _ _ => h, fun _ _ => hnever⟩⟩

/-- The debit alone is no change exactly when it rounds to nothing. -/
theorem debited_restored :
    (dto.debited db dto.userId (normalizeCurrencyCode dto.fromCurrency) =
        db.cents dto.userId (normalizeCurrencyCode dto.fromCurrency) ∧
      dto.debited db dto.userId (normalizeCurrencyCode dto.toCurrency) =
        db.cents dto.userId (normalizeCurrencyCode dto.toCurrency)) ↔
      shift (100 * -dto.total) = 0 := by
  unfold SwapDto.debited
  rw [if_pos ⟨rfl, rfl⟩]
  constructor
  · rintro ⟨hfrom, -⟩
    omega
  · intro hzero
    rw [hzero, ite_self, add_zero, add_zero]
    exact ⟨rfl, rfl⟩

/-- Debit and refund cancel exactly when the total is not at a tie. -/
theorem refunded_restored :
    (dto.refunded db dto.userId (normalizeCurrencyCode dto.fromCurrency) =
        db.cents dto.userId (normalizeCurrencyCode dto.fromCurrency) ∧
      dto.refunded db dto.userId (normalizeCurrencyCode dto.toCurrency) =
        db.cents dto.userId (normalizeCurrencyCode dto.toCurrency)) ↔
      ¬ Tie (100 * dto.total) := by
  have hback := shift_add_shift_neg (100 * dto.total)
  rw [← mul_neg] at hback
  unfold SwapDto.refunded SwapDto.debited
  rw [if_pos ⟨rfl, rfl⟩, if_pos ⟨rfl, rfl⟩]
  constructor
  · rintro ⟨hfrom, -⟩ htie
    rw [if_pos htie] at hback
    omega
  · intro htie
    rw [if_neg htie] at hback
    refine ⟨by omega, ?_⟩
    split
    · omega
    · omega

/-- Each end of the loop is clean exactly when `CleanEnd` says so. -/
theorem swapClean_of_outcome {fin : SwapEnd} (h : SwapOutcome i dto db p fin r d ts) :
    SwapClean i dto db r d ts ↔ CleanEnd dto db p fin := by
  cases fin with
  | completed =>
    obtain ⟨⟨tx, rfl⟩, hcredits⟩ := h
    exact iff_of_true ⟨hcredits.le, fun e he => (by cases he), fun e he => (by cases he)⟩ trivial
  | exhausted =>
    obtain ⟨⟨e, hr⟩, hcredits, hnever, hcents⟩ := h
    rw [swapClean_of_error hr (by omega) hnever, hcents, CleanEnd]
    split
    · exact refunded_restored
    · exact debited_restored
  | aborted =>
    obtain ⟨⟨e, hr⟩, hcredits, hnever, hcents⟩ := h
    rw [swapClean_of_error hr (by omega) hnever, hcents, CleanEnd]
    exact debited_restored
  | dirty k =>
    rw [SwapOutcome] at h
    rw [CleanEnd]
    split at h
    · rename_i hboth
      obtain ⟨⟨e, hr⟩, hcredits, hnever, hcents⟩ := h
      rw [swapClean_of_error hr (by omega) hnever, hcents]
      exact (and_iff_right hboth).symm
    · rename_i hboth
      refine iff_of_false ?_ fun hc => hboth hc.1
      intro hclean
      rcases h with ⟨-, htwice⟩ | ⟨⟨e, hr⟩, hshown⟩
      · have honce := hclean.once
        omega
      · exact hshown (hclean.neverCompleted e hr)

end Clean

/-- An admissible swap comes to its loop with the debit in place. -/
theorem createSwap_debited {i : TxId} {dto : SwapDto} {db : Db} (hadm : dto.Admissible i db)
    (p : SwapFaults) :
    ∃ tx d b d₁, (swapPrepare i dto).run exec p.inject db = (.ok tx, d) ∧
      exec (.adjustBalance .debit i i dto.userId dto.fromCurrency (-dto.total)) d = .ok (b, d₁) ∧
      SwapReady i dto db d₁ tx := by
  obtain ⟨tx, d, hrun, hid, hpending, hrow, hst, hdcents⟩ := swapPrepare_run hadm p
  have hcov : d.Covers dto.userId dto.fromCurrency (-dto.total) := by
    have hbal := hadm.balance
    refine Or.inr ?_
    rw [hdcents]
    linarith
  obtain ⟨b, d₁, hdebit, hadj⟩ := exec_adjustBalance_carried .debit i i hadm.supported hcov
  have hrow₁ : (d₁.transaction i).map Transaction.status ≠ some .completed := by
    rw [status_congr i hadj.transactions, hrow, Option.map_some, hpending]
    simp
  refine ⟨tx, d, b, d₁, hrun, hdebit, hadm.supported, ?_, hid, hpending, hrow₁,
    hst.congr hadj.transactions hadj.userExists rfl rfl rfl rfl rfl⟩
  funext a c
  rw [hadj.cents, hdcents]
  rfl

/-- An admissible swap ends as its loop does. -/
theorem createSwap_outcome {i : TxId} {dto : SwapDto} {db : Db} {p : SwapFaults} {fin : SwapEnd}
    (hfresh : db.transaction i = none) (hadm : dto.Admissible i db)
    (hfin : p.loopEnd (decide (dto.CreditAccepted db)) MAX_RETRIES = fin) :
    SwapOutcome i dto db p fin ((createSwap i dto).run exec p.inject db).1
      ((createSwap i dto).run exec p.inject db).2
      ((createSwap i dto).trace exec p.inject db) := by
  obtain ⟨-, hcredits, hnever⟩ := swapPrepare_quiet dto hfresh p
  obtain ⟨tx, d, b, d₁, hrun, hdebit, hready⟩ := createSwap_debited hadm p
  have hloop := swapLoop_outcome p MAX_RETRIES .fault hready
  rw [hfin] at hloop
  obtain ⟨r, d', ts, hloop, hout⟩ := hloop
  have hswap : Yields exec p.inject (createSwap i dto) db r d' _ :=
    (⟨hrun, rfl⟩ : Yields exec p.inject (swapPrepare i dto) db (.ok tx) d _).bind
      ((Yields.call rfl hdebit).bind hloop)
  have hdebited : NeverCompleted i
      [⟨.adjustBalance .debit i i dto.userId dto.fromCurrency (-dto.total), true, d₁⟩] :=
    neverCompleted_cons.mpr ⟨hready.row, neverCompleted_nil i⟩
  rw [hswap.run, hswap.trace]
  exact (hout.cons rfl hdebited).cons hcredits hnever

/-- A request that is refused leaves everything as it was. -/
theorem createSwap_refused {i : TxId} {dto : SwapDto} {db : Db} (p : SwapFaults)
    (hfresh : db.transaction i = none) (hadm : ¬ dto.Admissible i db) :
    SwapClean i dto db ((createSwap i dto).run exec p.inject db).1
      ((createSwap i dto).run exec p.inject db).2
      ((createSwap i dto).trace exec p.inject db) := by
  obtain ⟨hcents, hcredits, hnever⟩ := swapPrepare_quiet dto hfresh p
  cases hrun : (swapPrepare i dto).run exec p.inject db with
  | mk r d =>
    cases r with
    | ok tx => exact absurd (admissible_of_swapPrepare hrun) hadm
    | error e =>
      have hswap : Yields exec p.inject (createSwap i dto) db (.error e) d _ :=
        (⟨hrun, rfl⟩ : Yields exec p.inject (swapPrepare i dto) db (.error e) d _).bind_error
      rw [hswap.run, hswap.trace]
      rw [hrun] at hcents
      refine ⟨by omega, fun _ _ => ?_, fun _ _ => hnever⟩
      rw [show d.cents = db.cents from hcents]
      exact ⟨rfl, rfl⟩

/-- **A swap that credits at most once and fails cleanly.** For every request,
every database and every failure pattern of the loop, the call is clean exactly
when the request is refused before the debit or the loop has a clean end. -/
theorem createSwap_clean_iff (i : TxId) (dto : SwapDto) (db : Db) (p : SwapFaults)
    (hfresh : db.transaction i = none) :
    SwapClean i dto db ((createSwap i dto).run exec p.inject db).1
        ((createSwap i dto).run exec p.inject db).2
        ((createSwap i dto).trace exec p.inject db) ↔
      ¬ dto.Admissible i db ∨
        CleanEnd dto db p (p.loopEnd (decide (dto.CreditAccepted db)) MAX_RETRIES) := by
  by_cases hadm : dto.Admissible i db
  · rw [or_iff_right (not_not_intro hadm)]
    generalize hfin : p.loopEnd (decide (dto.CreditAccepted db)) MAX_RETRIES = fin
    exact swapClean_of_outcome (createSwap_outcome hfresh hadm hfin)
  · exact iff_of_true (createSwap_refused p hfresh hadm) (Or.inl hadm)

/-- User 1 swaps 50.00 USD for 40.00 EUR. -/
def fiftyDollars : SwapDto where
  userId := 1
  fromAmount := 50
  fromCurrency := "USD"
  toAmount := 40
  toCurrency := "EUR"
  reference := "s-1"

/-- User 1 holds 100.00 USD. -/
def oneAccount : Db := .deployed [{ Wallet.create 1 "USD" with balance := 10000 }]

/-- Recording the fee fails once. -/
def feeFailsOnce : SwapFaults where
  credit _ := false
  complete _ := false
  recordFee k := k == 0
  retry _ := false

/-- The first two credits fail. -/
def creditFailsTwice : SwapFaults where
  credit k := decide (k < 2)
  complete _ := false
  recordFee _ := false
  retry _ := false

theorem createSwap_clean_after_two_failures :
    SwapClean 0 fiftyDollars oneAccount
      ((createSwap 0 fiftyDollars).run exec creditFailsTwice.inject oneAccount).1
      ((createSwap 0 fiftyDollars).run exec creditFailsTwice.inject oneAccount).2
      ((createSwap 0 fiftyDollars).trace exec creditFailsTwice.inject oneAccount) := by
  have hend : creditFailsTwice.loopEnd (decide (fiftyDollars.CreditAccepted oneAccount))
      MAX_RETRIES = .completed := by decide +kernel
  refine (createSwap_clean_iff 0 fiftyDollars oneAccount creditFailsTwice rfl).mpr (Or.inr ?_)
  rw [hend]
  trivial

/-- The retry after a failed fee record credits the 40.00 EUR a second time. -/
theorem createSwap_credits_twice :
    ¬ SwapClean 0 fiftyDollars oneAccount
      ((createSwap 0 fiftyDollars).run exec feeFailsOnce.inject oneAccount).1
      ((createSwap 0 fiftyDollars).run exec feeFailsOnce.inject oneAccount).2
      ((createSwap 0 fiftyDollars).trace exec feeFailsOnce.inject oneAccount) := by
  intro h
  have honce := h.once
  revert honce
  decide +kernel

end NexaFx
