import NexaFx.Lib.RelyGuarantee
import NexaFx.Safety.Transfer

/-!
# NexaFx — status and balances agree

`transfer`, `createWithdrawal`, `createSwap`, `cancelTransaction` and
`reconcilePendingTransactions` all write the status column of the same rows,
without a lock, while the balances move in database transactions of their own.
This module proves, for **every interleaving** of any number of these calls
with failures at any await, when the stored status of a transaction still says
what happened to the balances.

* `Agrees` — COMPLETED means the balance effect is in force exactly once,
  FAILED and CANCELLED that it is not in force at all;
* `Orderly` — the steps under which that holds: nobody overwrites the status of
  a transaction whose call is still running or whose effect is in force, and a
  failure after a swap's credit is not followed by another credit or a refund;
* `agreement_reach` — the invariant over all orderly runs.

The proof owns, for each running call, its row and its net balance change
(`ownView`); everybody else leaves these alone (`RelyGuarantee`).
-/

namespace NexaFx

open Async Decimal Proc

/-! ## Balance effects -/

/-- An accepted change of one balance, as a change of all balances. -/
def moved (accountId : UserId) (currency : String) (delta : ℚ) : UserId → String → ℤ :=
  fun a c => if accountId = a ∧ normalizeCurrencyCode currency = c then shift (100 * delta) else 0

/-- The balance effect of a transaction: debit of the sender and credit of the
receiver; credit; debit of amount and fee; debit of amount and fee and credit of
the target amount. -/
def Transaction.effect (tx : Transaction) : UserId → String → ℤ :=
  match tx.metadata with
  | .transfer => moved tx.senderId tx.currency (-tx.amount) +
      moved tx.receiverId tx.currency tx.amount
  | .deposit => moved tx.receiverId tx.currency tx.amount
  | .withdrawal _ => moved tx.senderId tx.currency (-(tx.amount + tx.fee))
  | .swap toAmount toCurrency => moved tx.senderId tx.currency (-(tx.amount + tx.fee)) +
      moved tx.receiverId toCurrency toAmount
  | .reversal _ _ => 0

/-- The stored status says what happened to the balances. -/
def Agrees (row : Option Transaction) (net : UserId → String → ℤ) : Prop :=
  ∀ tx, row = some tx → (tx.status = .completed → net = tx.effect) ∧
    (tx.status = .failed ∨ tx.status = .cancelled → net = 0)

theorem agrees_none (net : UserId → String → ℤ) : Agrees none net := by
  intro tx h
  cases h

theorem agrees_pending {tx : Transaction} (h : tx.status = .pending)
    (net : UserId → String → ℤ) : Agrees (some tx) net := by
  rintro _ ⟨⟩
  rw [h]
  simp

theorem agrees_completed {tx : Transaction} (h : tx.status = .completed)
    {net : UserId → String → ℤ} (hnet : net = tx.effect) : Agrees (some tx) net := by
  rintro _ ⟨⟩
  rw [h]
  simp [hnet]

theorem agrees_undone {tx : Transaction} (h : tx.status = .failed ∨ tx.status = .cancelled)
    {net : UserId → String → ℤ} (hnet : net = 0) : Agrees (some tx) net := by
  rintro _ ⟨⟩
  refine ⟨?_, fun _ => hnet⟩
  intro hc
  rcases h with h | h <;> rw [h] at hc <;> cases hc

/-- Debit and refund cancel when the amount is not at a tie. -/
theorem moved_add_neg (a : UserId) (c : String) {delta : ℚ} (h : ¬ Tie (100 * delta)) :
    moved a c (-delta) + moved a c delta = 0 := by
  have hback := shift_add_shift_neg (100 * delta)
  rw [if_neg h] at hback
  funext a' c'
  simp only [moved, Pi.add_apply, Pi.zero_apply, mul_neg]
  split
  · omega
  · rfl

/-! ## Orderly runs -/

/-- What an orderly step respects. -/
structure Orderly (cfg : ServerConfig)
    (th : Thread Call Cmd Cmd.Reply Err (Option Transaction)) (c : Cmd) (failed : Bool) :
    Prop where
  /-- A refund gives back what the debit took: no half hundredths. -/
  refund : failed = false → ∀ call tx a cur delta,
    c = .adjustBalance .refund call tx a cur delta → ¬ Tie (100 * delta)
  /-- A swap credits or refunds only while its debit alone is in force. -/
  swapOnce : failed = false → ∀ dto, th.call = .swap dto → ∀ site call tx a cur delta,
    c = .adjustBalance site call tx a cur delta → site ≠ .debit →
    cfg.state.netOf th.id = moved dto.userId dto.fromCurrency (-totalChecked dto.fromAmount)
  /-- The write of FAILED does not fail over a row that says COMPLETED. -/
  failedSave : failed = true → ∀ tx, c = .saveTransaction .failed tx →
    (cfg.state.transaction tx.id).map Transaction.status ≠ some .completed
  /-- Nobody cancels or times out a transaction whose call is still running or
  whose balance effect is in force. -/
  overwrite : failed = false → ∀ site tx, c = .saveTransaction site tx →
    site = .cancelled ∨ site = .timedOut →
    cfg.ended tx.id = true ∧ cfg.state.netOf tx.id = 0

/-- The calls that write the status of transfers, withdrawals and swaps. -/
def Call.writesStatus : Call → Bool
  | .transfer _ | .withdrawal _ | .swap _ | .cancel _ | .reconcile | .tick _ => true
  | .deposit _ | .reverse _ _ => false

/-- Any number of these calls, interleaved and failing at any await. -/
def statusWriters : Discipline Call Cmd Cmd.Reply Err Db (Option Transaction) where
  onCall _ _ k := k.writesStatus = true
  onStep _ _ _ _ := True

/-- The same calls with orderly steps. -/
def orderly : Discipline Call Cmd Cmd.Reply Err Db (Option Transaction) where
  onCall _ _ k := k.writesStatus = true
  onStep := Orderly

/-! ## The view a call owns -/

/-- The row of a call and its net balance change. -/
abbrev Own := Option Transaction × (UserId → String → ℤ)

def ownView (i : ℕ) (db : Db) : Own := (db.transaction i, db.netOf i)

/-- The weakest preconditions of call `i`, in an orderly run. -/
def ownLogic (i : ℕ) (k : Call) : Logic Cmd Cmd.Reply Err Db Own where
  exec := exec
  allows c db :=
    (∀ call tx a cur delta, c = .adjustBalance .refund call tx a cur delta →
      ¬ Tie (100 * delta)) ∧
    (∀ dto, k = .swap dto → ∀ site call tx a cur delta,
      c = .adjustBalance site call tx a cur delta → site ≠ .debit →
      db.netOf i = moved dto.userId dto.fromCurrency (-totalChecked dto.fromAmount))
  fails c db := mayFail c = true ∧ ∀ tx, c = .saveTransaction .failed tx →
    (db.transaction tx.id).map Transaction.status ≠ some .completed
  view := ownView i
  frame db db' := ∀ x ≠ i, db'.transaction x = db.transaction x ∧ db'.netOf x = db.netOf x

section Rules

variable {i : ℕ} {k : Call} {v : Own}

/-- The base rule: a command that writes only the own row and moves money only
in the own name. -/
theorem wp_own {c : Cmd} {post : Except Err c.Reply → Own → Prop}
    (hw : ∀ x ∈ c.writes, x = i) (hm : ∀ j, c.mover = some j → j = i)
    (hok : ∀ db db' a, ownView i db = v → (ownLogic i k).allows c db →
      exec c db = .ok (a, db') → post (.ok a) (ownView i db'))
    (herr : ∀ db, ownView i db = v → (ownLogic i k).fails c db → ∀ e, post (.error e) v) :
    (await c).wp (ownLogic i k) post v := by
  intro db hv
  refine ⟨fun a db' hallow h => ⟨?_, hok db db' a hv hallow h⟩, herr db hv⟩
  intro x hx
  have hexec : exec c db = .ok (a, db') := h
  exact ⟨exec_transaction hexec fun hmem => hx (hw x hmem),
    exec_netOf hexec fun hmover => hx (hm x hmover)⟩

theorem ownView_read {c : Cmd} {db db' : Db} {a : c.Reply} (h : exec c db = .ok (a, db'))
    (hw : c.writes = []) (hm : c.mover = none) : ownView i db' = ownView i db :=
  Prod.ext (exec_transaction h (by simp [hw])) (exec_netOf h (by simp [hm]))

/-- Reads, checks and staged writes change nothing that is owned. -/
theorem wp_read {c : Cmd} {post : Except Err c.Reply → Own → Prop} (hw : c.writes = [])
    (hm : c.mover = none) (hok : ∀ a, post (.ok a) v) (herr : ∀ e, post (.error e) v) :
    (await c).wp (ownLogic i k) post v := by
  refine wp_own (by simp [hw]) (by simp [hm]) ?_ fun _ _ _ => herr
  intro db db' a hv _ h
  rw [ownView_read h hw hm, hv]
  exact hok a

-- the equations of both are generated here, once
attribute [local simp] Cmd.writes Cmd.mover in
theorem wp_now {post : Except Err Time → Own → Prop} (hok : ∀ t, post (.ok t) v) :
    (await .now).wp (ownLogic i k) post v := by
  refine wp_own (by simp [Cmd.writes]) (by simp [Cmd.mover]) ?_ fun _ _ hfail => ?_
  · intro db db' a hv _ h
    cases h
    rw [hv]
    exact hok _
  · cases hfail.1

/-- A row of the own key is written over the stored one. -/
theorem ownView_put {db : Db} {tx : Transaction} (hid : tx.id = i) :
    ownView i (db.putTransaction tx) = (some tx, (ownView i db).2) := by
  unfold ownView
  rw [Db.transaction_put, if_pos hid]
  rfl

theorem wp_insert {tx : Transaction} {post : Except Err Transaction → Own → Prop}
    (hid : tx.id = i) (hok : ∀ t, post (.ok (tx.stamp t)) (some (tx.stamp t), v.2))
    (herr : ∀ e, post (.error e) v) :
    (await (.insertTransaction tx)).wp (ownLogic i k) post v := by
  refine wp_own (by simp [Cmd.writes, hid]) (by simp [Cmd.mover]) ?_ fun _ _ _ => herr
  intro db db' a hv _ h
  obtain ⟨-, rfl, rfl⟩ := exec_insertTransaction h
  rw [ownView_put (show (tx.stamp db.now).id = i from hid), hv]
  exact hok _

/-- A save of the own row. The write of FAILED fails only over a row that does
not say COMPLETED. -/
theorem wp_save {site : SaveSite} {tx : Transaction} {post : Except Err Unit → Own → Prop}
    (hid : tx.id = i) (hok : post (.ok ()) (some tx, v.2))
    (herr : (site = .failed → v.1.map Transaction.status ≠ some .completed) →
      ∀ e, post (.error e) v) :
    (await (.saveTransaction site tx)).wp (ownLogic i k) post v := by
  refine wp_own (by simp [Cmd.writes, hid]) (by simp [Cmd.mover]) ?_ fun db hv hfail => herr ?_
  · intro db db' a hv _ h
    obtain ⟨-, rfl⟩ := exec_saveTransaction h
    rw [ownView_put hid, hv]
    exact hok
  · rintro rfl
    have hrow := hfail.2 tx rfl
    rw [hid] at hrow
    rw [← hv]
    exact hrow

theorem wp_commit {tx : Transaction} {post : Except Err Unit → Own → Prop}
    (hid : tx.id = i) (hok : post (.ok ()) (some tx, v.2)) (herr : ∀ e, post (.error e) v) :
    (await (.commit [tx])).wp (ownLogic i k) post v := by
  refine wp_own (by simp [Cmd.writes, hid]) (by simp [Cmd.mover]) ?_ fun _ _ _ => herr
  intro db db' a hv _ h
  have hput := Db.commit_ok (exec_commit h)
  rw [List.foldl_cons, List.foldl_nil] at hput
  rw [hput, ownView_put hid, hv]
  exact hok

theorem ownView_adjusted {tx : TxId} {a : UserId} {cur : String} {delta : ℚ} {db db' : Db}
    (h : db.Adjusted i tx a cur delta db') :
    ownView i db' = ((ownView i db).1, (ownView i db).2 + moved a cur delta) := by
  refine Prod.ext ?_ ?_
  · show db'.transaction i = db.transaction i
    rw [Db.transaction, h.transactions, ← Db.transaction]
  · funext a' c'
    refine (h.netOf i a' c').trans ?_
    simp only [true_and]
    rfl

/-- A balance change in the own name. -/
theorem wp_adjust {site : AdjustSite} {tx : TxId} {a : UserId} {cur : String} {delta : ℚ}
    {post : Except Err ℤ → Own → Prop}
    (hok : (site = .refund → ¬ Tie (100 * delta)) →
      (∀ dto, k = .swap dto → site ≠ .debit →
        v.2 = moved dto.userId dto.fromCurrency (-totalChecked dto.fromAmount)) →
      ∀ b, post (.ok b) (v.1, v.2 + moved a cur delta))
    (herr : ∀ e, post (.error e) v) :
    (await (.adjustBalance site i tx a cur delta)).wp (ownLogic i k) post v := by
  refine wp_own (by simp [Cmd.writes]) (by simp [Cmd.mover]) ?_ fun _ _ _ => herr
  intro db db' b hv hallow h
  rw [ownView_adjusted (exec_adjustBalance_ok h), hv]
  refine hok ?_ ?_ b
  · rintro rfl
    exact hallow.1 _ _ _ _ _ rfl
  · intro dto hk hsite
    rw [← hv]
    exact hallow.2 dto hk _ _ _ _ _ _ rfl hsite

theorem wp_reject {c : Prop} [Decidable c] {e : Err} {post : Except Err Unit → Own → Prop}
    (hok : ¬ c → post (.ok ()) v) (herr : post (.error e) v) :
    (Proc.rejectWhen c e : TxProc Unit).wp (ownLogic i k) post v :=
  wp_rejectWhen.mpr ⟨fun _ => herr, hok⟩

end Rules

/-! ## One call at a time -/

/-- A PENDING record of call `i` with the balance effect `eff`. -/
structure Prepared (i : TxId) (eff : UserId → String → ℤ) (tx : Transaction) : Prop where
  id : tx.id = i
  pending : tx.status = .pending
  effect : tx.effect = eff

/-- The call has its PENDING record in place and has moved nothing; or it has
thrown and its status agrees. -/
def preparedPost (i : TxId) (eff : UserId → String → ℤ) (r : Except Err Transaction) (v : Own) :
    Prop :=
  match r with
  | .ok tx => Prepared i eff tx ∧ v = (some tx, 0)
  | .error _ => Agrees v.1 v.2

/-- However the call ended, its status agrees. -/
def agreesPost {α : Type} (_ : Except Err α) (v : Own) : Prop := Agrees v.1 v.2

section Calls

variable {i : ℕ} {k : Call} {eff : UserId → String → ℤ}

/-- Nothing is stored yet. -/
abbrev nothing : Own := (none, 0)

theorem wp_generateReceiptNumber {tx : Transaction} (h : Prepared i eff tx) :
    (generateReceiptNumber tx).wp (ownLogic i k) (preparedPost i eff) (some tx, 0) := by
  have hseq : ∀ seq : Except Err ℕ, Proc.wp (ownLogic i k) (preparedPost i eff)
      (do
        let t ← await .now
        await (.saveTransaction .receipt (tx.withReceipt t (drawn t seq)))
        return tx.withReceipt t (drawn t seq) : TxProc Transaction) (some tx, 0) := by
    intro seq
    refine wp_bind.mpr (wp_now fun t => wp_bind.mpr (wp_save h.id ?_ fun _ _ => ?_))
    · exact ⟨⟨h.id, h.pending, h.effect⟩, rfl⟩
    · exact agrees_pending h.pending _
  exact wp_bind.mpr (wp_attempt.mpr (wp_read rfl rfl (fun n => hseq (.ok n))
    fun e => hseq (.error e)))

/-! ### Transfer -/

theorem TransferDto.prepared_create (i : TxId) (dto : TransferDto) (t : Time) :
    Prepared i (moved dto.senderId dto.currency (-dto.amount) +
      moved dto.receiverId dto.currency dto.amount) ((dto.create i).stamp t) :=
  ⟨rfl, rfl, rfl⟩

theorem wp_transferPrepare (i : ℕ) (k : Call) (dto : TransferDto) :
    (transferPrepare i dto).wp (ownLogic i k)
      (preparedPost i (moved dto.senderId dto.currency (-dto.amount) +
        moved dto.receiverId dto.currency dto.amount)) nothing := by
  have herr : Agrees none 0 := agrees_none 0
  refine wp_bind.mpr (wp_read rfl rfl (fun _ => ?_) fun _ => herr)
  refine wp_bind.mpr (wp_read rfl rfl (fun _ => ?_) fun _ => herr)
  refine wp_bind.mpr (wp_reject (fun _ => ?_) herr)
  refine wp_bind.mpr (wp_reject (fun _ => ?_) herr)
  refine wp_bind.mpr (wp_reject (fun _ => ?_) herr)
  refine wp_bind.mpr (wp_read rfl rfl (fun _ => ?_) fun _ => herr)
  refine wp_bind.mpr (wp_reject (fun _ => ?_) herr)
  refine wp_bind.mpr (wp_insert rfl (fun t => ?_) fun _ => herr)
  exact wp_generateReceiptNumber (dto.prepared_create i t)

theorem wp_transfer (i : ℕ) (k : Call) (dto : TransferDto) :
    (transfer i dto).wp (ownLogic i k) agreesPost nothing := by
  refine wp_bind.mpr (wp_mono ?_ (wp_transferPrepare i k dto))
  rintro (e | tx) v h
  · exact h
  obtain ⟨hprep, rfl⟩ := h
  have hpending : ∀ net, Agrees (some tx) net := agrees_pending hprep.pending
  -- the two balance changes, each of which may fail
  refine wp_bind.mpr (wp_attempt.mpr ?_)
  refine wp_bind.mpr (wp_read rfl rfl (fun _ => ?_) fun _ => hpending _)
  refine wp_bind.mpr (wp_adjust (fun _ _ _ => ?_) fun _ => hpending _)
  refine wp_adjust (fun _ _ _ => ?_) fun _ => hpending _
  refine wp_bind.mpr (wp_now fun t => ?_)
  -- the confirmation write
  refine wp_bind.mpr (wp_attempt.mpr ?_)
  refine wp_bind.mpr (wp_read rfl rfl (fun _ => ?_) fun _ => hpending _)
  refine wp_commit hprep.id ?_ fun _ => hpending _
  refine agrees_completed rfl ?_
  change _ = tx.effect
  rw [hprep.effect, zero_add]

/-! ### Withdrawal -/

/-- The debit of a withdrawal. -/
abbrev WithdrawalDto.debit (dto : WithdrawalDto) : UserId → String → ℤ :=
  moved dto.userId dto.currency (-totalChecked dto.amount)

/-- The PENDING record is in place and the debit is in force. -/
def debitedPost (i : TxId) (eff debit : UserId → String → ℤ) (r : Except Err Transaction)
    (v : Own) : Prop :=
  match r with
  | .ok tx => Prepared i eff tx ∧ v = (some tx, debit)
  | .error _ => Agrees v.1 v.2

theorem wp_withdrawalPrepare (i : ℕ) (k : Call) (dto : WithdrawalDto) :
    (withdrawalPrepare i dto).wp (ownLogic i k) (debitedPost i dto.debit dto.debit) nothing := by
  have herr : Agrees none 0 := agrees_none 0
  refine wp_bind.mpr (wp_read rfl rfl (fun _ => ?_) fun _ => herr)
  refine wp_bind.mpr (wp_read rfl rfl (fun _ => ?_) fun _ => herr)
  refine wp_bind.mpr (wp_reject (fun _ => ?_) herr)
  refine wp_bind.mpr (wp_read rfl rfl (fun _ => ?_) fun _ => herr)
  refine wp_bind.mpr (wp_read rfl rfl (fun _ => ?_) fun _ => herr)
  refine wp_bind.mpr (wp_reject (fun _ => ?_) herr)
  refine wp_bind.mpr (wp_insert rfl (fun t => ?_) fun _ => herr)
  have hcreate : Prepared i dto.debit ((dto.create i).stamp t) := ⟨rfl, rfl, rfl⟩
  refine wp_bind.mpr (wp_mono ?_ (wp_generateReceiptNumber hcreate))
  rintro (e | tx) v h
  · exact h
  obtain ⟨hprep, rfl⟩ := h
  refine wp_bind.mpr (wp_adjust (fun _ _ _ => ?_) fun _ => agrees_pending hprep.pending _)
  refine ⟨hprep, ?_⟩
  rw [zero_add]

/-- The catch branch: from a row that agrees with the debit in force, the
refund and FAILED, or a failure on the way. -/
theorem wp_withdrawalFailed {dto : WithdrawalDto} {tx row : Transaction} (err : Err)
    (hid : tx.id = i) (hrow : Agrees (some row) dto.debit)
    (hdone : row.status ≠ .failed ∧ row.status ≠ .cancelled) :
    (withdrawalFailed i dto tx err).wp (ownLogic i k) agreesPost (some row, dto.debit) := by
  refine wp_bind.mpr (wp_adjust (fun htie _ _ => ?_) fun _ => hrow)
  have hback : dto.debit + moved dto.userId dto.currency (totalChecked dto.amount) = 0 :=
    moved_add_neg _ _ (htie rfl)
  rw [hback]
  refine wp_bind.mpr (wp_save hid ?_ fun hnot e => ?_)
  · refine wp_bind.mpr (wp_read rfl rfl (fun _ => ?_) fun _ => ?_)
    · exact agrees_undone (Or.inl rfl) rfl
    · exact agrees_undone (Or.inl rfl) rfl
  · -- the row was not COMPLETED, so it still says PENDING
    have hnc : row.status ≠ .completed := fun hc => hnot rfl (congrArg some hc)
    rintro _ ⟨⟩
    exact ⟨fun hc => absurd hc hnc, fun hf => hf.elim (absurd · hdone.1) (absurd · hdone.2)⟩

theorem wp_withdrawal (i : ℕ) (k : Call) (dto : WithdrawalDto) :
    (createWithdrawal i dto).wp (ownLogic i k) agreesPost nothing := by
  refine wp_bind.mpr (wp_mono ?_ (wp_withdrawalPrepare i k dto))
  rintro (e | tx) v h
  · exact h
  obtain ⟨hprep, rfl⟩ := h
  refine wp_bind.mpr (wp_now fun t => ?_)
  have hcompleted : Agrees (some (tx.complete t)) dto.debit :=
    agrees_completed rfl hprep.effect.symm
  refine wp_bind.mpr (wp_attempt.mpr (wp_bind.mpr (wp_save hprep.id ?_ fun _ err => ?_)))
  · refine wp_read rfl rfl (fun _ => hcompleted) fun err => ?_
    exact wp_withdrawalFailed err hprep.id hcompleted (by simp [Transaction.complete])
  · exact wp_withdrawalFailed err hprep.id (agrees_pending hprep.pending _)
      (by simp [hprep.pending])

/-! ### Swap -/

/-- The debit of a swap. -/
abbrev SwapDto.debit (dto : SwapDto) : UserId → String → ℤ :=
  moved dto.userId dto.fromCurrency (-totalChecked dto.fromAmount)

/-- Debit and credit of a swap. -/
abbrev SwapDto.both (dto : SwapDto) : UserId → String → ℤ :=
  dto.debit + moved dto.userId dto.toCurrency dto.toAmount

/-- Between two awaits of the retry loop: the record in memory and the stored
row say PENDING with the debit in force, or COMPLETED with both in force. -/
structure SwapInv (i : TxId) (dto : SwapDto) (tx : Transaction) (v : Own) : Prop where
  id : tx.id = i
  effect : tx.effect = dto.both
  memory : (tx.status = .pending ∧ v.2 = dto.debit) ∨ (tx.status = .completed ∧ v.2 = dto.both)
  row : ∃ r, v.1 = some r ∧ (r.status = .pending ∨
    (r.status = .completed ∧ r.effect = dto.both ∧ v.2 = dto.both))

theorem SwapInv.agrees {dto : SwapDto} {tx : Transaction} {v : Own} (h : SwapInv i dto tx v) :
    Agrees v.1 v.2 := by
  obtain ⟨r, hr, hp | ⟨hc, heff, hnet⟩⟩ := h.row
  · rw [hr]
    exact agrees_pending hp _
  · rw [hr]
    exact agrees_completed hc (hnet.trans heff.symm)

/-- Saving the record in memory keeps the invariant. -/
theorem SwapInv.save {dto : SwapDto} {tx tx' : Transaction} {v : Own} (h : SwapInv i dto tx v)
    (hid : tx'.id = tx.id) (heff : tx'.effect = tx.effect) (hstatus : tx'.status = tx.status) :
    SwapInv i dto tx' (some tx', v.2) := by
  refine ⟨hid.trans h.id, heff.trans h.effect, ?_, ⟨tx', rfl, ?_⟩⟩
  · rw [hstatus]
    exact h.memory
  · rw [hstatus, heff, h.effect]
    rcases h.memory with ⟨hp, -⟩ | ⟨hc, hnet⟩
    · exact Or.inl hp
    · exact Or.inr ⟨hc, rfl, hnet⟩

/-- What an attempt ends with. -/
def attemptPost (i : TxId) (dto : SwapDto)
    (r : Except Err (Except (Err × Transaction) Transaction)) (v : Own) : Prop :=
  match r with
  | .ok (.ok _) => Agrees v.1 v.2
  | .ok (.error (_, tx)) => SwapInv i dto tx v
  | .error _ => False

theorem wp_swapAttempt {dto : SwapDto} {tx : Transaction} {v : Own} (n : ℕ)
    (h : SwapInv i dto tx v) :
    (swapAttempt i dto n tx).wp (ownLogic i (.swap dto)) (attemptPost i dto) v := by
  refine wp_bind.mpr (wp_attempt.mpr (wp_adjust (fun _ honce _ => ?_) fun err => h))
  -- the credit was allowed, so only the debit was in force; now both are
  have hdebit : v.2 = dto.debit := honce dto rfl (by simp)
  have hboth : v.2 + moved dto.userId dto.toCurrency dto.toAmount = dto.both := by rw [hdebit]
  rw [hboth]
  obtain ⟨r, hr, hstatus⟩ := h.row
  have hrow : r.status = .pending ∨ (r.status = .completed ∧ r.effect = dto.both) :=
    hstatus.imp id fun hc => ⟨hc.1, hc.2.1⟩
  refine wp_bind.mpr (wp_now fun t => ?_)
  have hdirty : SwapInv i dto (tx.completeAttempt t n) (v.1, dto.both) := by
    refine ⟨h.id, h.effect, Or.inr ⟨rfl, rfl⟩, ⟨r, hr, ?_⟩⟩
    exact hrow.imp id fun hc => ⟨hc.1, hc.2, rfl⟩
  have hsaved : SwapInv i dto (tx.completeAttempt t n) (some (tx.completeAttempt t n), dto.both) :=
    hdirty.save rfl rfl rfl
  refine wp_bind.mpr (wp_attempt.mpr (wp_bind.mpr (wp_save h.id ?_ fun _ _ => hdirty)))
  exact wp_read rfl rfl (fun _ => hsaved.agrees) fun _ => hsaved

theorem wp_swapGiveUp {dto : SwapDto} {tx : Transaction} {v : Own} (lastError : Err)
    (h : SwapInv i dto tx v) :
    (swapGiveUp i dto tx lastError).wp (ownLogic i (.swap dto)) agreesPost v := by
  refine wp_bind.mpr (wp_adjust (fun htie honce _ => ?_) fun _ => h.agrees)
  have hdebit : v.2 = dto.debit := honce dto rfl (by simp)
  have hback : v.2 + moved dto.userId dto.fromCurrency (totalChecked dto.fromAmount) = 0 := by
    rw [hdebit]
    exact moved_add_neg _ _ (htie rfl)
  rw [hback]
  obtain ⟨r, hr, hstatus⟩ := h.row
  refine wp_bind.mpr (wp_save h.id ?_ fun hnot e => ?_)
  · refine wp_bind.mpr (wp_read rfl rfl (fun _ => ?_) fun _ => ?_)
    · exact agrees_undone (Or.inl rfl) rfl
    · exact agrees_undone (Or.inl rfl) rfl
  · have hnc : r.status ≠ .completed := by
      intro hc
      refine hnot rfl ?_
      rw [hr]
      exact congrArg some hc
    change Agrees v.1 0
    rw [hr]
    exact agrees_pending (hstatus.resolve_right fun hc => hnc hc.1) _

theorem wp_swapLoop {dto : SwapDto} (left : ℕ) {tx : Transaction} {v : Own} (lastError : Err)
    (h : SwapInv i dto tx v) :
    (swapLoop i dto left lastError tx).wp (ownLogic i (.swap dto)) agreesPost v := by
  induction left generalizing tx v lastError with
  | zero => exact wp_swapGiveUp lastError h
  | succ left ih =>
    refine wp_bind.mpr (wp_mono ?_ (wp_swapAttempt _ h))
    rintro (e | (⟨err, tx'⟩ | tx')) v' hpost
    · exact hpost.elim
    · have hinv : SwapInv i dto tx' v' := hpost
      refine wp_bind.mpr (wp_save hinv.id ?_ fun _ _ => hinv.agrees)
      exact ih err (hinv.save rfl rfl rfl)
    · exact hpost

theorem wp_swap (i : ℕ) (dto : SwapDto) :
    (createSwap i dto).wp (ownLogic i (.swap dto)) agreesPost nothing := by
  have herr : Agrees none 0 := agrees_none 0
  refine wp_bind.mpr ?_
  refine wp_bind.mpr (wp_read rfl rfl (fun _ => ?_) fun _ => herr)
  refine wp_bind.mpr (wp_read rfl rfl (fun _ => ?_) fun _ => herr)
  refine wp_bind.mpr (wp_read rfl rfl (fun _ => ?_) fun _ => herr)
  refine wp_bind.mpr (wp_reject (fun _ => ?_) herr)
  refine wp_insert rfl (fun t => ?_) fun _ => herr
  have hpending : ((dto.create i).stamp t).status = .pending := rfl
  refine wp_bind.mpr (wp_adjust (fun _ _ _ => ?_) fun _ => agrees_pending hpending _)
  refine wp_swapLoop MAX_RETRIES .fault ⟨rfl, rfl, Or.inl ⟨rfl, ?_⟩, ⟨_, rfl, Or.inl rfl⟩⟩
  exact zero_add _

end Calls

/-! ## The calls that only overwrite a status -/

/-- The call stores a row of its own. -/
def Call.creates : Call → Bool
  | .transfer _ | .deposit _ | .withdrawal _ | .swap _ => true
  | .reverse _ _ => true
  | .cancel _ | .reconcile | .tick _ => false

/-- A command that moves no money and writes a row only to undo its status. -/
def Undoes (c : Cmd) : Prop :=
  c.mover = none ∧ (c.writes = [] ∨ ∃ site tx, c = .saveTransaction site tx ∧
    (site = .cancelled ∨ site = .timedOut) ∧ (tx.status = .failed ∨ tx.status = .cancelled))

theorem cancelTransaction_undoes (id : TxId) : (cancelTransaction id).Issues Undoes := by
  refine issues_bind (issues_bind (issues_call.mpr ⟨rfl, Or.inl rfl⟩) ?_) fun tx => ?_
  · rintro (_ | tx)
    · exact issues_throw _
    · exact issues_done _
  refine issues_bind (issues_rejectWhen _ _) fun _ => ?_
  refine issues_bind (issues_call.mpr ⟨rfl, Or.inr ?_⟩) fun _ => issues_done _
  exact ⟨.cancelled, tx.withStatus .cancelled, rfl, Or.inl rfl, Or.inr rfl⟩

theorem failTimedOut_undoes (timedOut : List Transaction) :
    (failTimedOut timedOut).Issues Undoes := by
  induction timedOut with
  | nil => exact issues_done _
  | cons tx rest ih =>
    refine issues_bind (issues_call.mpr ⟨rfl, Or.inl rfl⟩) fun acquired => ?_
    have hsave : Undoes (.saveTransaction .timedOut (tx.withStatus .failed)) :=
      ⟨rfl, Or.inr ⟨.timedOut, tx.withStatus .failed, rfl, Or.inr rfl, Or.inl rfl⟩⟩
    cases acquired with
    | false => exact ih
    | true =>
      refine issues_bind (issues_bind (issues_attempt (issues_call.mpr hsave)) fun _ => ?_)
        fun _ => ih
      exact issues_bind (issues_call.mpr ⟨rfl, Or.inl rfl⟩) fun _ => issues_ofExcept _

theorem reconcilePendingTransactions_undoes :
    reconcilePendingTransactions.Issues Undoes := by
  refine issues_bind (issues_call.mpr ⟨rfl, Or.inl rfl⟩) fun acquired => ?_
  split
  · refine issues_bind (issues_attempt ?_) fun _ => ?_
    · refine issues_bind (issues_call.mpr ⟨rfl, Or.inl rfl⟩) fun t => ?_
      exact issues_bind (issues_call.mpr ⟨rfl, Or.inl rfl⟩) failTimedOut_undoes
    · exact issues_bind (issues_call.mpr ⟨rfl, Or.inl rfl⟩) fun _ => issues_ofExcept _
  · exact issues_done _

theorem prog_undoes {i : ℕ} {k : Call} (h : k.creates = false) : (prog i k).Issues Undoes := by
  cases k with
  | cancel id => exact issues_bind (cancelTransaction_undoes id) fun _ => issues_done _
  | reconcile => exact issues_bind reconcilePendingTransactions_undoes fun _ => issues_done _
  | tick ms =>
    exact issues_bind (issues_call.mpr ⟨rfl, Or.inl rfl⟩) fun _ => issues_done _
  | _ => cases h

/-- An orderly step of such a call leaves a row alone, or undoes the status of a
transaction that has ended with no effect in force. -/
theorem ownView_of_undoes {cfg : ServerConfig}
    {th : Thread Call Cmd Cmd.Reply Err (Option Transaction)} {c : Cmd} {fault : Option Err}
    (hc : Undoes c)
    (ho : Orderly cfg th c (failed (outcome fault (exec c cfg.state)))) (x : ℕ) :
    ownView x (after (outcome fault (exec c cfg.state)) cfg.state) = ownView x cfg.state ∨
    (cfg.ended x = true ∧
      Agrees (ownView x (after (outcome fault (exec c cfg.state)) cfg.state)).1
        (ownView x (after (outcome fault (exec c cfg.state)) cfg.state)).2) := by
  cases hout : outcome fault (exec c cfg.state) with
  | error e => exact Or.inl rfl
  | ok r =>
    obtain ⟨a, db'⟩ := r
    rw [hout] at ho
    have hexec := (outcome_eq_ok hout).2
    have hnet : db'.netOf x = cfg.state.netOf x := exec_netOf hexec (by simp [hc.1])
    by_cases hx : x ∈ c.writes
    · obtain hnil | ⟨site, tx, rfl, hsite, hstatus⟩ := hc.2
      · rw [hnil] at hx
        cases hx
      · obtain rfl := List.mem_singleton.mp hx
        obtain ⟨hended, hzero⟩ := ho.overwrite rfl site tx rfl hsite
        obtain ⟨-, rfl⟩ := exec_saveTransaction hexec
        refine Or.inr ⟨hended, ?_⟩
        rw [after_ok, ownView_put rfl]
        exact agrees_undone hstatus hzero
    · exact Or.inl (Prod.ext (exec_transaction hexec hx) hnet)

/-! ## All calls together -/

/-- The invariant: an identity without a call has nothing, and once the call
that creates a row has ended, its status agrees. -/
structure Settled (cfg : ServerConfig) : Prop where
  unborn : ∀ x, cfg.thread x = none → ownView x cfg.state = nothing
  agrees : ∀ x th, cfg.thread x = some th → th.proc.isDone = true ∨ th.call.creates = false →
    Agrees (ownView x cfg.state).1 (ownView x cfg.state).2

/-- While call `i` runs, the others leave alone what it owns. -/
structure AgreeRely (i : ℕ) (_ : Call) (cfg cfg' : ServerConfig) : Prop where
  thread : cfg'.thread i = cfg.thread i
  view : cfg.ended i = false → ownView i cfg'.state = ownView i cfg.state

/-- What a step of call `i` may do. -/
structure AgreeGuar (i : ℕ) (k : Call) (cfg cfg' : ServerConfig) : Prop where
  threads : ∀ x ≠ i, cfg'.thread x = cfg.thread x
  views : ∀ x ≠ i, ownView x cfg'.state = ownView x cfg.state ∨
    (cfg.ended x = true ∧ Agrees (ownView x cfg'.state).1 (ownView x cfg'.state).2)
  self : ∃ th, cfg'.thread i = some th ∧ th.call = k ∧
    (th.proc.isDone = true ∨ k.creates = false →
      Agrees (ownView i cfg'.state).1 (ownView i cfg'.state).2)

theorem Settled.keeps {i : ℕ} {k : Call} {cfg cfg' : ServerConfig} (h : Settled cfg)
    (hg : AgreeGuar i k cfg cfg') : Settled cfg' := by
  obtain ⟨th, hth, rfl, hself⟩ := hg.self
  refine ⟨?_, ?_⟩
  · intro x hx
    have hxi : x ≠ i := by
      rintro rfl
      rw [hth] at hx
      cases hx
    rw [hg.threads x hxi] at hx
    rcases hg.views x hxi with hsame | ⟨hended, -⟩
    · rw [hsame]
      exact h.unborn x hx
    · rw [Config.ended, hx] at hended
      cases hended
  · intro x th' hth' hdone
    by_cases hxi : x = i
    · subst hxi
      rw [hth] at hth'
      cases hth'
      exact hself hdone
    · rw [hg.threads x hxi] at hth'
      rcases hg.views x hxi with hsame | ⟨-, hagrees⟩
      · rw [hsame]
        exact h.agrees x th' hth' hdone
      · exact hagrees

/-- A creating call of an orderly run, from its first await to its last. -/
theorem wp_prog {i : ℕ} {k : Call} (hk : k.creates = true) {cfg : ServerConfig}
    (hD : orderly.onCall cfg i k) : (prog i k).wp (ownLogic i k) agreesPost nothing := by
  cases k with
  | transfer dto =>
    refine wp_bind.mpr (wp_mono ?_ (wp_transfer i _ dto))
    rintro (e | tx) v h <;> exact h
  | withdrawal dto =>
    refine wp_bind.mpr (wp_mono ?_ (wp_withdrawal i _ dto))
    rintro (e | tx) v h <;> exact h
  | swap dto =>
    refine wp_bind.mpr (wp_mono ?_ (wp_swap i dto))
    rintro (e | tx) v h <;> exact h
  | deposit dto => cases hD
  | reverse id input => cases hD
  | _ => cases hk

theorem safe_of_creates {i : ℕ} {k : Call} (hk : k.creates = true) {cfg cfg₀ : ServerConfig}
    (hD : orderly.onCall cfg₀ i k) (hview : ownView i cfg.state = nothing) :
    Safe server orderly Settled (AgreeRely i k) (AgreeGuar i k) i k (prog i k) cfg := by
  refine safe_of_wp (L := ownLogic i k) (Q := agreesPost) rfl (fun _ _ _ => ⟨rfl, rfl⟩)
    ?rely ?allows ?fails ?guar ?wp
  case rely =>
    intro cfg cfg' th c next hr hth hproc
    refine hr.view ?_
    have hrunning := Config.ended_of_await hth hproc
    unfold Config.ended at hrunning ⊢
    rw [← hr.thread]
    exact hrunning
  case allows =>
    intro cfg th c hth hcall ho
    refine ⟨ho.refund rfl, ?_⟩
    rintro dto rfl site call tx a cur delta hc hsite
    rw [← Config.id_of_thread hth]
    exact ho.swapOnce rfl dto hcall site call tx a cur delta hc hsite
  case fails =>
    intro cfg th c fault e hth hcall hfault hout ho
    refine ⟨?_, ho.failedSave rfl⟩
    rcases hfault with rfl | hmay
    · -- without an injected fault only a command that checks something is refused
      cases c <;> first | rfl | cases hout
    · exact hmay
  case guar =>
    intro cfg th c next r hJ hth hcall hproc hframe hpost
    refine ⟨fun x hx => Config.thread_resume_ne hth hx next r, ?_, ?_⟩
    · intro x hx
      exact Or.inl (Prod.ext (hframe x hx).1 (hframe x hx).2)
    · refine ⟨_, (Config.thread_resume ..).trans (if_pos (Config.id_of_thread hth)), hcall, ?_⟩
      rintro (hdone | hcreates)
      · cases hres : next (reply r) with
        | done res => exact hpost res hres
        | await c' next' =>
          simp only [hres] at hdone
          cases hdone
      · rw [hk] at hcreates
        cases hcreates
  case wp =>
    change (prog i k).wp (ownLogic i k) agreesPost (ownView i cfg.state)
    rw [hview]
    exact wp_prog hk hD

theorem safe_of_undoes {i : ℕ} {k : Call} (hk : k.creates = false) (cfg : ServerConfig) :
    Safe server orderly Settled (AgreeRely i k) (AgreeGuar i k) i k (prog i k) cfg := by
  refine safe_of_issues (P := Undoes) ?_ (prog_undoes hk)
  intro cfg th c next fault hJ hth hcall hproc hc ho
  have hviews := ownView_of_undoes hc ho
  refine ⟨fun x hx => Config.thread_resume_ne hth hx next _, fun x _ => hviews x, ?_⟩
  refine ⟨_, (Config.thread_resume ..).trans (if_pos (Config.id_of_thread hth)), hcall, ?_⟩
  intro _
  rcases hviews i with hsame | ⟨-, hagrees⟩
  · rw [Config.resume_state]
    change Agrees (ownView i (after (outcome fault (exec c cfg.state)) cfg.state)).1
      (ownView i (after (outcome fault (exec c cfg.state)) cfg.state)).2
    rw [hsame]
    exact hJ.agrees i th hth (Or.inr (by rw [hcall, hk]))
  · exact hagrees

theorem agreement_relyGuarantee :
    RelyGuarantee server orderly Settled AgreeRely AgreeGuar where
  refl _ _ _ := ⟨rfl, fun _ => rfl⟩
  trans i k cfg₁ cfg₂ cfg₃ h₁ h₂ := by
    refine ⟨h₂.thread.trans h₁.thread, ?_⟩
    intro hended
    refine (h₂.view ?_).trans (h₁.view hended)
    unfold Config.ended at hended ⊢
    rw [h₁.thread]
    exact hended
  compat i k j th cfg cfg' _ hj hg _ := by
    refine ⟨hg.threads j hj, ?_⟩
    intro hended
    rcases hg.views j hj with hsame | ⟨hended', -⟩
    · exact hsame
    · rw [hended] at hended'
      cases hended'
  keeps _ _ _ _ hJ hg := hJ.keeps hg
  spawn cfg i k hJ hfresh hD := by
    have hnothing := hJ.unborn i hfresh
    refine ⟨⟨?_, ?_⟩, ?_, ?_⟩
    · intro x hx
      rw [Config.thread_spawn] at hx
      split at hx
      · cases hx
      · exact hJ.unborn x hx
    · intro x th hth hdone
      rw [Config.thread_spawn] at hth
      split at hth
      · rename_i hix
        subst hix
        rw [Config.spawn_state, hnothing]
        exact agrees_none _
      · exact hJ.agrees x th hth hdone
    · intro j th hth
      have hij : i ≠ j := by
        rintro rfl
        rw [hfresh] at hth
        cases hth
      refine ⟨?_, fun _ => rfl⟩
      rw [Config.thread_spawn, if_neg hij]
    · cases hk : k.creates with
      | true => exact safe_of_creates hk hD hnothing
      | false => exact safe_of_undoes hk _

/-! ## The invariant over all runs -/

/-- Every balance is the initial one and the moves made since. -/
def Db.Accounted (before db : Db) : Prop :=
  ∀ a c, db.cents a c = before.cents a c + db.net (fun _ => true) a c

/-- No step of any call changes a balance without a logged move. -/
theorem accounted_reach {D : Discipline Call Cmd Cmd.Reply Err Db (Option Transaction)} {db : Db}
    (hmoves : db.moves = []) {cfg : ServerConfig} (h : Reach server D (start db) cfg) :
    db.Accounted cfg.state := by
  refine h.invariant (I := fun cfg => db.Accounted cfg.state) ?init ?call ?step
  case init =>
    intro a c
    change db.cents a c = db.cents a c + Move.net db.moves _ a c
    rw [hmoves]
    exact (add_zero _).symm
  case call => exact fun _ _ _ hI _ _ => hI
  case step =>
    intro cfg i fault th c next hI _ _ _ _ _ a cur
    rw [Config.resume_state]
    cases hout : outcome fault (server.exec c cfg.state) with
    | error e => exact hI a cur
    | ok r =>
      obtain ⟨b, db'⟩ := r
      have hkeeps := exec_cents_sub_net (outcome_eq_ok hout).2 a cur
      have hbefore := hI a cur
      rw [after_ok]
      omega

/-- **Status and balances agree.** In every configuration that orderly steps
reach, the balances are what the logged moves made them, and once the call that
creates transaction `x` has ended, the stored status of `x` says what these
moves were. -/
theorem agreement_reach {db : Db} (hrows : db.transactions = []) (hmoves : db.moves = [])
    {cfg : ServerConfig} (h : Reach server orderly (start db) cfg) :
    db.Accounted cfg.state ∧
    ∀ x, cfg.running x = false → Agrees (cfg.state.transaction x) (cfg.state.netOf x) := by
  refine ⟨accounted_reach hmoves h, ?_⟩
  have hstart : Settled (start db) := by
    refine ⟨?_, ?_⟩
    · intro x _
      refine Prod.ext ?_ ?_
      · change Table.get Transaction.id db.transactions x = none
        rw [hrows]
        rfl
      · change Move.net db.moves _ = 0
        rw [hmoves]
        rfl
    · intro x th hth
      cases hth
  have hsettled := agreement_relyGuarantee.reach hstart rfl h
  intro x hx
  cases hth : cfg.thread x with
  | none =>
    have hnothing : cfg.state.transaction x = none := congrArg Prod.fst (hsettled.unborn x hth)
    rw [hnothing]
    exact agrees_none _
  | some th =>
    refine hsettled.agrees x th hth (Or.inl ?_)
    simpa [Config.running, hth] using hx

/-! ### A transfer alone is orderly -/

/-- No refund, and no save of FAILED or CANCELLED. -/
def Plain (c : Cmd) : Prop :=
  (∀ site call tx a cur delta, c = .adjustBalance site call tx a cur delta → site ≠ .refund) ∧
  (∀ site tx, c = .saveTransaction site tx → ∀ s ∈ [.failed, .cancelled, .timedOut], site ≠ s)

theorem plain_of_preparatory {c : Cmd} (h : c.preparatory = true) : Plain c := by
  refine ⟨?_, ?_⟩
  · rintro site call tx a cur delta rfl
    cases h
  · rintro site tx rfl s hs rfl
    simp only [List.mem_cons, List.not_mem_nil, or_false] at hs
    rcases hs with rfl | rfl | rfl <;> cases h

theorem transfer_plain (i : ℕ) (dto : TransferDto) : (prog i (.transfer dto)).Issues Plain := by
  have hread : ∀ c : Cmd, c.mover = none → c.writes = [] → Plain c := by
    refine fun c hmover hwrites => ⟨?_, ?_⟩
    · rintro site call tx a cur delta rfl
      cases hmover
    · rintro site tx rfl
      cases hwrites
  have hadjust : ∀ site call tx a cur delta, site ≠ .refund →
      Plain (.adjustBalance site call tx a cur delta) := by
    refine fun site call tx a cur delta hsite => ⟨?_, ?_⟩
    · rintro _ _ _ _ _ _ ⟨⟩
      exact hsite
    · rintro _ _ ⟨⟩
  have hcommit : ∀ rows, Plain (.commit rows) := by
    refine fun rows => ⟨?_, ?_⟩
    · rintro _ _ _ _ _ _ ⟨⟩
    · rintro _ _ ⟨⟩
  refine issues_bind (issues_bind ?_ fun tx => ?_) fun _ => issues_done _
  · exact (transferPrepare_preparatory i dto).mono fun _ => plain_of_preparatory
  refine issues_bind (issues_attempt ?_) ?_
  · refine issues_bind (issues_call.mpr (hread _ rfl rfl)) fun _ => ?_
    refine issues_bind (issues_call.mpr (hadjust _ _ _ _ _ _ (by simp))) fun _ => ?_
    exact issues_call.mpr (hadjust _ _ _ _ _ _ (by simp))
  rintro (e | b)
  · exact issues_done _
  refine issues_bind (issues_call.mpr (hread _ rfl rfl)) fun t => ?_
  refine issues_bind (issues_attempt ?_) fun _ => issues_done _
  exact issues_bind (issues_call.mpr (hread _ rfl rfl)) fun _ => issues_call.mpr (hcommit _)

theorem orderly_of_plain {cfg : ServerConfig}
    {th : Thread Call Cmd Cmd.Reply Err (Option Transaction)} {c : Cmd} {failed : Bool}
    {dto : TransferDto} (hth : th.call = .transfer dto) (h : Plain c) :
    Orderly cfg th c failed := by
  refine ⟨?_, ?_, ?_, ?_⟩
  · intro _ call tx a cur delta hc
    exact absurd rfl (h.1 _ _ _ _ _ _ hc)
  · intro _ dto' hswap
    rw [hth] at hswap
    cases hswap
  · intro _ tx hc
    exact absurd rfl (h.2 _ _ hc _ (by simp))
  · intro _ site tx hc hsite
    rcases hsite with rfl | rfl <;> exact absurd rfl (h.2 _ _ hc _ (by simp))

/-- A transfer of sixty dollars by itself: COMPLETED, and in force. -/
theorem agreement_reach_sixty : ∃ cfg : ServerConfig,
    Reach server orderly (start twoAccounts) cfg ∧ cfg.running 0 = false ∧
    (cfg.state.transaction 0).map Transaction.status = some .completed ∧
    twoAccounts.Accounted cfg.state ∧
    Agrees (cfg.state.transaction 0) (cfg.state.netOf 0) := by
  have hcalled : Reach server orderly (start twoAccounts)
      ((start twoAccounts).spawn 0 (.transfer sixtyDollars) (prog 0 (.transfer sixtyDollars))) :=
    .call 0 (Call.transfer sixtyDollars) .refl rfl rfl
  obtain ⟨cfg, th, hreach, hth, -, hdone, hstate⟩ := hcalled.run_to_end
    ((Config.thread_spawn ..).trans (if_pos rfl)) (transfer_plain 0 sixtyDollars)
    (fun _ _ => rfl) fun _ _ _ _ hcall hc => orderly_of_plain hcall hc
  have hrunning : cfg.running 0 = false := by
    rw [Config.running, hth]
    simp [hdone, Proc.isDone]
  obtain ⟨haccounted, hagrees⟩ := agreement_reach rfl rfl hreach
  refine ⟨cfg, hreach, hrunning, ?_, haccounted, hagrees 0 hrunning⟩
  rw [hstate]
  decide +kernel

/-! ### A cancelled transfer whose money has moved -/

/-- A transfer whose confirmation write fails after both balance changes, then
the cancellation of the row it left PENDING. -/
def cancelAfterMoves : List (Event Call Err) :=
  [.call 0 (.transfer sixtyDollars)] ++ List.replicate 11 (.step 0 none) ++
    [.step 0 (some .fault), .call 1 (.cancel 0), .step 1 none, .step 1 none]

theorem statusWriters_disagree : ∃ (cfg : ServerConfig) (tx : Transaction),
    Reach server statusWriters (start twoAccounts) cfg ∧
    cfg.threads.all (fun th => th.proc.isDone) = true ∧
    cfg.state.transaction 0 = some tx ∧ tx.status = .cancelled ∧
    cfg.state.netOf 0 1 "USD" = -6000 ∧ cfg.state.netOf 0 2 "USD" = 6000 ∧
    ¬ Agrees (cfg.state.transaction 0) (cfg.state.netOf 0) := by
  obtain ⟨cfg, hrun⟩ : ∃ cfg, server.run (start twoAccounts) cancelAfterMoves = some cfg :=
    Option.isSome_iff_exists.mp (by decide +kernel)
  have hfinal : ((server.run (start twoAccounts) cancelAfterMoves).map fun cfg =>
      (cfg.threads.all (fun th => th.proc.isDone),
        (cfg.state.transaction 0).map Transaction.status,
        cfg.state.netOf 0 1 "USD", cfg.state.netOf 0 2 "USD")) =
      some (true, some .cancelled, -6000, 6000) := by decide +kernel
  rw [hrun] at hfinal
  simp only [Option.map_some, Option.some.injEq, Prod.mk.injEq] at hfinal
  obtain ⟨hdone, hstatus, hsender, hreceiver⟩ := hfinal
  obtain ⟨tx, htx, hcancelled⟩ := Option.map_eq_some_iff.mp hstatus
  refine ⟨cfg, tx, ?_, hdone, htx, hcancelled, hsender, hreceiver, ?_⟩
  · refine Reach.refl.of_run ?_ (fun _ _ _ _ => trivial) hrun
    intro i k hmem _
    simp only [cancelAfterMoves, List.cons_append, List.nil_append, List.mem_cons, List.mem_append,
      List.mem_replicate, reduceCtorEq, and_false, or_false, false_or, List.not_mem_nil] at hmem
    rcases hmem with h | h
    · cases h
      rfl
    · cases h
      rfl
  · intro hagrees
    have hzero := (hagrees tx htx).2 (Or.inr hcancelled)
    rw [hzero] at hsender
    cases hsender

end NexaFx
