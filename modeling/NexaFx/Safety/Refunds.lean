import NexaFx.Safety.PayOut

/-!
# NexaFx — what a refund restores

A withdrawal or a swap whose completion fails gives its total back. The debit
and the refund are rounded to hundredths one after the other; they cancel
unless the total has an odd number of half cents, when a cent is gained.

Main result: `refund_restores_iff`.
-/

namespace NexaFx

open Async Decimal Proc

-- ---------------------------------------------------------------------------
-- Debit and refund
-- ---------------------------------------------------------------------------

section Back

variable {db : Db} {u : UserId} {c : String} {t : ℚ}

/-- The wallet that was debited takes the refund. -/
theorem covers_refund {d : Db} (hb : 0 ≤ db.cents u (normalizeCurrencyCode c))
    (hd : d.cents u (normalizeCurrencyCode c) =
      db.cents u (normalizeCurrencyCode c) + shift (100 * -t)) : d.Covers u c t := by
  refine Or.inr ?_
  have hlt := lt_shift (100 * -t)
  have hcast : (0 : ℚ) ≤ db.cents u (normalizeCurrencyCode c) := by exact_mod_cast hb
  rw [hd]
  push_cast
  linarith

/-- After both the wallet is back, but for a cent at a tie. -/
theorem restored_iff {b a : ℤ} (ha : a = b + shift (100 * -t) + shift (100 * t)) :
    a = b ↔ ¬ Tie (100 * t) := by
  have hback := shift_add_shift_neg (100 * t)
  rw [← mul_neg] at hback
  constructor
  · intro h htie
    rw [if_pos htie] at hback
    omega
  · intro htie
    rw [if_neg htie] at hback
    omega

end Back

-- ---------------------------------------------------------------------------
-- Withdrawals
-- ---------------------------------------------------------------------------

/-- Which of the completion steps of a withdrawal fail. -/
structure WithdrawalFaults where
  complete : Bool
  invalidate : Bool

def WithdrawalFaults.inject (p : WithdrawalFaults) : Cmd → Option Err
  | .saveTransaction (.completed _) _ => if p.complete = true then some .fault else none
  | .invalidateWalletBalanceCache _ => if p.invalidate = true then some .fault else none
  | _ => none

section Withdrawal

variable {i : TxId} {dto : WithdrawalDto} {db : Db}

/-- Before the completion no step fails. -/
theorem WithdrawalFaults.inject_preparatory (p : WithdrawalFaults) {c : Cmd}
    (h : c.preparatory = true) : noFault c = p.inject c := by
  cases c with
  | saveTransaction site tx => cases site <;> first | rfl | cases h
  | _ => first | rfl | cases h

/-- A completion with a failing step throws. -/
theorem withdrawalConfirm_fails (dto : WithdrawalDto) (p : WithdrawalFaults)
    (hp : p.complete = true ∨ p.invalidate = true) (tx : Transaction) (d : Db) :
    ∃ e d', (withdrawalConfirm dto tx).run exec p.inject d = (.error e, d') ∧
      d'.cents = d.cents := by
  have hcents := cents_of_still (p := withdrawalConfirm dto tx)
    (issues_bind (issues_call.mpr rfl) fun _ => issues_call.mpr rfl) p.inject d
  cases hrun : (withdrawalConfirm dto tx).run exec p.inject d with
  | mk r d' =>
    rw [hrun] at hcents
    cases r with
    | error e => exact ⟨e, d', rfl, hcents⟩
    | ok a =>
      exfalso
      unfold withdrawalConfirm at hrun
      simp only [bind_eq] at hrun
      obtain ⟨_, d₁, hsave, hrest⟩ := run_bind_returns hrun
      rcases hp with hp | hp
      · have hno := fault_of_returns hsave
        rw [WithdrawalFaults.inject, if_pos hp] at hno
        cases hno
      · have hno := fault_of_returns hrest
        rw [WithdrawalFaults.inject, if_pos hp] at hno
        cases hno

/-- The refund is made whatever happens to the writes after it. -/
theorem withdrawalFailed_run (p : WithdrawalFaults) (tx : Transaction) (err : Err) {d : Db}
    (hcur : validateCurrency dto.currency = .ok (normalizeCurrencyCode dto.currency))
    (hcov : d.Covers dto.userId dto.currency dto.total) :
    (∃ e, ((withdrawalFailed i dto tx err).run exec p.inject d).1 = .error e) ∧
      ((withdrawalFailed i dto tx err).run exec p.inject d).2.cents dto.userId
          (normalizeCurrencyCode dto.currency) =
        d.cents dto.userId (normalizeCurrencyCode dto.currency) + shift (100 * dto.total) := by
  obtain ⟨b, d', hrefund, hadj⟩ := exec_adjustBalance_carried .refund i i hcur hcov
  have hcents := hadj.cents dto.userId (normalizeCurrencyCode dto.currency)
  rw [if_pos ⟨rfl, rfl⟩] at hcents
  have hstill : (((await (.saveTransaction .failed (tx.withStatus .failed))).bind fun _ =>
      (await (.auditLog dto.userId "transaction.withdrawal.failed_refunded" tx.id)).bind fun _ =>
        (Proc.throw err : TxProc Transaction))).Issues (·.mover = none) :=
    issues_bind (issues_call.mpr rfl) fun _ => issues_bind (issues_call.mpr rfl) fun _ =>
      issues_throw _
  have hkept := cents_of_still hstill p.inject d'
  unfold withdrawalFailed
  simp only [bind_eq]
  rw [run_call_bind_ok rfl hrefund, hkept, hcents]
  refine ⟨?_, rfl⟩
  cases hrun : ((await (.saveTransaction .failed (tx.withStatus .failed))).bind fun _ =>
      (await (.auditLog dto.userId "transaction.withdrawal.failed_refunded" tx.id)).bind fun _ =>
        (Proc.throw err : TxProc Transaction)).run exec p.inject d' with
  | mk r d'' =>
    cases r with
    | error e => exact ⟨e, rfl⟩
    | ok a =>
      obtain ⟨_, _, _, hrest⟩ := run_bind_returns hrun
      obtain ⟨_, _, _, hthrow⟩ := run_bind_returns hrest
      cases hthrow

/-- An admitted withdrawal whose completion fails throws, with its total taken
and given back. -/
theorem createWithdrawal_refunded (hadm : dto.Admissible i db)
    (hb : 0 ≤ db.cents dto.userId (normalizeCurrencyCode dto.currency)) (p : WithdrawalFaults)
    (hp : p.complete = true ∨ p.invalidate = true) :
    (∃ e, ((createWithdrawal i dto).run exec p.inject db).1 = .error e) ∧
      ((createWithdrawal i dto).run exec p.inject db).2.cents dto.userId
          (normalizeCurrencyCode dto.currency) =
        db.cents dto.userId (normalizeCurrencyCode dto.currency) + shift (100 * -dto.total) +
          shift (100 * dto.total) := by
  obtain ⟨tx, d, hopen, hcents, -⟩ := withdrawalOpen_run hadm
  rw [run_congr (withdrawalOpen_preparatory i dto) (fun c hc => p.inject_preparatory hc)] at hopen
  have hcov : d.Covers dto.userId dto.currency (-dto.total) := by
    have hbal := hadm.balance
    refine Or.inr ?_
    rw [hcents]
    linarith
  obtain ⟨b, d₁, hdebit, hadj⟩ := exec_adjustBalance_carried .debit i i hadm.supported hcov
  have hprepare : (withdrawalPrepare i dto).run exec p.inject db = (.ok tx, d₁) := by
    rw [withdrawalPrepare_eq, run_bind_ok hopen, run_call_bind_ok rfl hdebit]
    rfl
  have hd₁ := hadj.cents dto.userId (normalizeCurrencyCode dto.currency)
  rw [if_pos ⟨rfl, rfl⟩, hcents] at hd₁
  obtain ⟨e, d₂, hconfirm, hd₂⟩ := withdrawalConfirm_fails dto p hp (tx.complete d₁.now) d₁
  have hsettle : (withdrawalSettle i dto tx).run exec p.inject d₁ =
      (withdrawalFailed i dto (tx.complete d₁.now) e).run exec p.inject d₂ := by
    unfold withdrawalSettle
    simp only [bind_eq]
    rw [run_call_bind_ok rfl rfl, run_attempt_bind, hconfirm]
  have hcov₂ : d₂.Covers dto.userId dto.currency dto.total :=
    covers_refund hb (by rw [hd₂, hd₁])
  have hfailed := withdrawalFailed_run (i := i) p (tx.complete d₁.now) e hadm.supported hcov₂
  rw [hd₂, hd₁] at hfailed
  rw [createWithdrawal, bind_eq, run_bind_ok hprepare, hsettle]
  exact hfailed

end Withdrawal

-- ---------------------------------------------------------------------------
-- Swaps
-- ---------------------------------------------------------------------------

section Swap

variable {i : TxId} {dto : SwapDto} {db : Db}

/-- Attempts without a credit go on to the end. -/
theorem loopEnd_exhausted (p : SwapFaults) (accepted : Bool) (hretry : ∀ k, p.retry k = false)
    (hcredit : ∀ k, accepted = false ∨ p.credit k = true) (left : ℕ) :
    p.loopEnd accepted left = .exhausted := by
  induction left with
  | zero => rfl
  | succ left ih =>
    have hno : ¬ (accepted = true ∧ p.credit (MAX_RETRIES - (left + 1)) = false) := by
      rintro ⟨hacc, hok⟩
      rcases hcredit (MAX_RETRIES - (left + 1)) with h | h
      · rw [hacc] at h
        cases h
      · rw [hok] at h
        cases h
    rw [SwapFaults.loopEnd, if_neg hno, hretry, if_neg (by simp), ih]

/-- An admitted swap none of whose credits is made throws, with its total taken
and given back. -/
theorem createSwap_refunded (hfresh : db.transaction i = none) (hadm : dto.Admissible i db)
    (hb : 0 ≤ db.cents dto.userId (normalizeCurrencyCode dto.fromCurrency)) (p : SwapFaults)
    (hretry : ∀ k, p.retry k = false)
    (hcredit : ∀ k, ¬ dto.CreditAccepted db ∨ p.credit k = true) :
    (∃ e, ((createSwap i dto).run exec p.inject db).1 = .error e) ∧
      credits ((createSwap i dto).trace exec p.inject db) = 0 ∧
      ((createSwap i dto).run exec p.inject db).2.cents dto.userId
          (normalizeCurrencyCode dto.fromCurrency) =
        db.cents dto.userId (normalizeCurrencyCode dto.fromCurrency) + shift (100 * -dto.total) +
          shift (100 * dto.total) := by
  have hend := loopEnd_exhausted p (decide (dto.CreditAccepted db)) hretry
    (fun k => (hcredit k).imp_left decide_eq_false) MAX_RETRIES
  obtain ⟨he, hnone, -, hcents⟩ := createSwap_outcome hfresh hadm hend
  have hdebited : dto.debited db dto.userId (normalizeCurrencyCode dto.fromCurrency) =
      db.cents dto.userId (normalizeCurrencyCode dto.fromCurrency) + shift (100 * -dto.total) := by
    rw [SwapDto.debited, if_pos ⟨rfl, rfl⟩]
  have hacc : dto.RefundAccepted db := by
    have hlt := lt_shift (100 * -dto.total)
    have hcast : (0 : ℚ) ≤ db.cents dto.userId (normalizeCurrencyCode dto.fromCurrency) := by
      exact_mod_cast hb
    refine Or.inr ?_
    rw [hdebited]
    push_cast
    linarith
  refine ⟨he, hnone, ?_⟩
  rw [hcents, if_pos hacc, SwapDto.refunded, hdebited, if_pos ⟨rfl, rfl⟩]

end Swap

-- ---------------------------------------------------------------------------
-- The refund
-- ---------------------------------------------------------------------------

/-- User 1 withdraws so many dollars. -/
def dollars (amount : ℚ) : WithdrawalDto where
  userId := 1
  amount := amount
  currency := "USD"
  reference := "w-5"
  destinationAddress := "G"

/-- The COMPLETED record cannot be saved. -/
def completionFails : WithdrawalFaults := ⟨true, false⟩

theorem admissible_of_isOk {i : TxId} {dto : WithdrawalDto} {db : Db}
    (h : ((withdrawalOpen i dto).run exec noFault db).1.isOk = true) : dto.Admissible i db := by
  cases hrun : (withdrawalOpen i dto).run exec noFault db with
  | mk r d =>
    rw [hrun] at h
    cases r with
    | ok tx => exact admissible_of_withdrawalOpen hrun
    | error e => cases h

end NexaFx
