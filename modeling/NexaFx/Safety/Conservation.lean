import NexaFx.Lib.Journal
import NexaFx.Safety.BalanceCache
import NexaFx.Safety.PayOut

/-!
# NexaFx — where the money comes from

All calls of the transaction services, interleaved at every await, with any of
the awaits failing. What is in the wallets is what was there at the start and
what the calls have moved; and what a call has moved at any moment is an
initial piece of its script: a transfer debits before it credits, a withdrawal
debits before it refunds, a swap debits before it credits up to three times and
refunds last, a deposit credits once.

* `money_conserved` — the wallets of a currency hold what they held at the start
  and the sum of what each call has moved, according to its script;
* `transfers_create_nothing` — so a run of transfers leaves no more money than
  there was, but for one hundredth for each amount at a tie.
-/

namespace NexaFx

open Async Decimal Proc

-- ---------------------------------------------------------------------------
-- What is held, and what is moved
-- ---------------------------------------------------------------------------

/-- All that the wallets of a currency hold, in hundredths. -/
def Db.held (db : Db) (currency : String) : ℤ :=
  (db.wallets.map fun w => if w.currency = currency then w.balance else 0).sum

/-- What a log adds to the wallets of a currency. -/
def Move.flow (ms : List Move) (currency : String) : ℤ :=
  (ms.map fun m => if m.currency = currency then m.cents else 0).sum

/-- The moves of call `i`, in their order. -/
def Db.movesOf (db : Db) (i : ℕ) : List Move := db.moves.filter fun m => decide (m.call = i)

/-- What an accepted balance change logs. -/
def Move.entry (call : ℕ) (tx : TxId) (accountId : UserId) (currency : String) (delta : ℚ) :
    List Move :=
  if delta = 0 then []
  else [⟨call, tx, accountId, normalizeCurrencyCode currency, shift (100 * delta)⟩]

/-- What a command logs in the name of call `i` when it is carried out. -/
def Cmd.entries (i : ℕ) : Cmd → List Move
  | .adjustBalance _ call tx accountId currency delta =>
    if call = i then Move.entry call tx accountId currency delta else []
  | _ => []

/-- Whatever its reply is. -/
def Cmd.enters (i : ℕ) (c : Cmd) (_ : c.Reply) : List Move := c.entries i

namespace Move

@[simp] theorem flow_nil (c : String) : flow [] c = 0 := rfl

@[simp] theorem flow_append (ms ms' : List Move) (c : String) :
    flow (ms ++ ms') c = flow ms c + flow ms' c := by
  simp [flow]

theorem flow_entry (call : ℕ) (tx : TxId) (a : UserId) (currency : String) (delta : ℚ)
    (c : String) : flow (entry call tx a currency delta) c =
      if normalizeCurrencyCode currency = c then shift (100 * delta) else 0 := by
  unfold entry
  by_cases hzero : delta = 0
  · subst hzero
    rw [if_pos rfl, Db.shift_zero, ite_self]
    rfl
  · rw [if_neg hzero]
    simp [flow]

end Move

/-! ## One command -/

section Commands

variable {db db' : Db}

theorem movesOf_append {ms : List Move} (h : db'.moves = db.moves ++ ms) (i : ℕ) :
    db'.movesOf i = db.movesOf i ++ ms.filter fun m => decide (m.call = i) := by
  rw [Db.movesOf, h, List.filter_append, ← Db.movesOf]

/-- Only a balance change moves money. -/
theorem mover_cases (c : Cmd) : c.mover = none ∨
    ∃ site call tx a cur delta, c = .adjustBalance site call tx a cur delta := by
  cases c with
  | adjustBalance site call tx a cur delta => exact Or.inr ⟨site, call, tx, a, cur, delta, rfl⟩
  | _ => exact Or.inl rfl

theorem entries_of_still {c : Cmd} (h : c.mover = none) (i : ℕ) : c.entries i = [] := by
  cases c with
  | adjustBalance => cases h
  | _ => rfl

/-- A command logs its entries and nothing else. -/
theorem exec_movesOf {c : Cmd} {a : c.Reply} (h : exec c db = .ok (a, db')) (i : ℕ) :
    db'.movesOf i = db.movesOf i ++ c.entries i := by
  rcases mover_cases c with hmover | ⟨site, call, tx, acc, cur, delta, rfl⟩
  · rw [Db.movesOf, (exec_wallets h hmover).2, ← Db.movesOf, entries_of_still hmover,
      List.append_nil]
  · have hadj := exec_adjustBalance_ok h
    rw [movesOf_append hadj.moves]
    refine congrArg (db.movesOf i ++ ·) ?_
    show _ = if call = i then Move.entry call tx acc cur delta else []
    rw [Move.entry]
    by_cases hzero : delta = 0
    · simp [hzero]
    · rw [if_neg hzero]
      by_cases hcall : call = i
      · rw [if_pos hcall, List.filter_cons_of_pos (by simpa using hcall), List.filter_nil]
      · rw [if_neg hcall, List.filter_cons_of_neg (by simpa using hcall), List.filter_nil]

/-- The wallet that is written over held what its key says. -/
theorem held_moveBalance (call : ℕ) (tx : TxId) (a : UserId) (cur : String) (b : ℤ) (c : String) :
    (db.moveBalance call tx ((db.wallet a cur).getD (.create a cur)) b).held c =
      db.held c + if cur = c then b - db.cents a cur else 0 := by
  obtain ⟨hacc, hcur⟩ := Db.getD_create_key db a cur
  rw [Db.held, Db.moveBalance, Table.sum_put, ← Db.held]
  simp only [Wallet.key, hacc, hcur]
  rw [← Db.wallet, add_sub_assoc]
  congr 1
  cases hw : db.wallet a cur with
  | none =>
    have hcents : db.cents a cur = 0 := by
      rw [Db.cents, hw]
      rfl
    rw [hcents]
    simp
  | some w =>
    have hcents : db.cents a cur = w.balance := by
      rw [Db.cents, hw]
      rfl
    rw [hcents, Option.map_some, Option.getD_some, (Db.wallet_key hw).2]
    split <;> rfl

/-- What an accepted balance change adds is what it logs. -/
theorem adjustBalance_held {call : ℕ} {tx : TxId} {a : UserId} {cur : String} {delta : ℚ} {b : ℤ}
    (h : db.adjustBalance call tx a cur delta = .ok (b, db')) (c : String) :
    db'.held c - Move.flow db'.moves c = db.held c - Move.flow db.moves c := by
  unfold Db.adjustBalance at h
  cases hcur : validateCurrency cur with
  | error e =>
    rw [hcur] at h
    cases h
  | ok normalized =>
    simp only [hcur] at h
    split at h
    · cases h
      rfl
    · split at h
      · cases h
      · cases h
        obtain ⟨-, hkey⟩ := Db.getD_create_key db a normalized
        rw [held_moveBalance, Db.moveBalance, Move.flow_append, hkey, Db.getD_create_balance]
        simp only [Move.flow, List.map_cons, List.map_nil, List.sum_cons, List.sum_nil]
        ring

theorem exec_held {c : Cmd} {a : c.Reply} (h : exec c db = .ok (a, db')) (cur : String) :
    db'.held cur - Move.flow db'.moves cur = db.held cur - Move.flow db.moves cur := by
  rcases mover_cases c with hmover | ⟨site, call, tx, acc, currency, delta, rfl⟩
  · obtain ⟨hwallets, hmoves⟩ := exec_wallets h hmover
    rw [Db.held, hwallets, hmoves, ← Db.held]
  · rw [exec_adjustBalance] at h
    exact adjustBalance_held h cur

end Commands

-- ---------------------------------------------------------------------------
-- The scripts of the calls
-- ---------------------------------------------------------------------------

/-- The debit of the sender, then the credit of the receiver. -/
def TransferDto.script (i : ℕ) (dto : TransferDto) : List Move :=
  Move.entry i i dto.senderId dto.currency (-dto.amount) ++
    Move.entry i i dto.receiverId dto.currency dto.amount

/-- The debit of amount and fee, then the refund. -/
def WithdrawalDto.script (i : ℕ) (dto : WithdrawalDto) : List Move :=
  Move.entry i i dto.userId dto.currency (-totalChecked dto.amount) ++
    Move.entry i i dto.userId dto.currency (totalChecked dto.amount)

/-- The debit of amount and fee, then `n` credits of the target amount. -/
def SwapDto.script (i : ℕ) (dto : SwapDto) (n : ℕ) : List Move :=
  Move.entry i i dto.userId dto.fromCurrency (-totalChecked dto.fromAmount) ++
    (List.replicate n (Move.entry i i dto.userId dto.toCurrency dto.toAmount)).flatten

/-- The refund of a swap. -/
def SwapDto.refundMoves (i : ℕ) (dto : SwapDto) : List Move :=
  Move.entry i i dto.userId dto.fromCurrency (totalChecked dto.fromAmount)

/-- The credit of the sender of a row, then the debit of its receiver. -/
def Transaction.reversalScript (i : ℕ) (tx : Transaction) : List Move :=
  Move.entry i tx.id tx.senderId tx.currency (toFixed 8 tx.amount) ++
    Move.entry i tx.id tx.receiverId tx.currency (toFixed 8 (-tx.amount))

/-- What a call may have moved so far. -/
def Call.Moved (i : ℕ) : Call → List Move → Prop
  | .transfer dto, ms => ms <+: dto.script i ∧ (ms ≠ [] → 0 < dto.amount)
  | .deposit dto, ms => ms <+: Move.entry i i dto.userId dto.currency dto.amount
  | .withdrawal dto, ms => ms <+: dto.script i
  | .swap dto, ms => ms = [] ∨ ∃ n ≤ MAX_RETRIES, ms = dto.script i n ∨
      ms = dto.script i n ++ dto.refundMoves i
  | .reverse id _, ms => ms = [] ∨ ∃ tx : Transaction, tx.id = id ∧ tx.reversedAt = none ∧
      ms <+: tx.reversalScript i
  | .cancel _, ms | .reconcile, ms | .tick _, ms => ms = []

/-- A stored row is found under its key. -/
def Answers : (c : Cmd) → c.Reply → Prop
  | .findTransaction id, found => ∀ tx, found = some tx → tx.id = id
  | _, _ => True

theorem exec_answers {c : Cmd} {db db' : Db} {a : c.Reply} (h : exec c db = .ok (a, db')) :
    Answers c a := by
  cases c with
  | findTransaction id =>
    intro tx hfound
    cases h
    exact Table.key_of_get _ hfound
  | _ => trivial

section Scripts

variable {i : ℕ}

theorem entries_of_preparatory {c : Cmd} (h : c.preparatory = true) : c.entries i = [] :=
  entries_of_still (Cmd.mover_of_preparatory h) i

theorem entries_self (site : AdjustSite) (tx : TxId) (a : UserId) (cur : String) (delta : ℚ) :
    (Cmd.adjustBalance site i tx a cur delta).entries i = Move.entry i tx a cur delta :=
  if_pos rfl

/-- A call logs in its own name only. -/
theorem prog_entries {j : ℕ} (h : i ≠ j) (k : Call) :
    (prog i k).Issues fun c => ∀ a, c.enters j a = [] := by
  refine (BalanceCache.prog_by i k).mono fun c hc _ => ?_
  cases c with
  | adjustBalance site call tx a cur delta =>
    obtain rfl := hc.1
    exact if_neg h
  | _ => rfl

/-- Preparation logs nothing. -/
theorem quiet_of_preparatory {α : Type} {p : TxProc α} (hp : p.Issues (·.preparatory = true)) :
    p.Issues fun c => ∀ a, c.enters i a = [] :=
  hp.mono fun _ hc _ => entries_of_preparatory hc

/-- A balance change in the name of the call. -/
theorem journals_adjust {P : List Move → Prop} {l : List Move} {site : AdjustSite} {tx : TxId}
    {a : UserId} {cur : String} {delta : ℚ} {post : Except Err ℤ → List Move → Prop} (h : P l)
    (hmoved : P (l ++ Move.entry i tx a cur delta))
    (hok : ∀ b, post (.ok b) (l ++ Move.entry i tx a cur delta)) (herror : ∀ e, post (.error e) l) :
    (await (.adjustBalance site i tx a cur delta)).Journals Answers (Cmd.enters i) P post l := by
  rw [← entries_self site] at hmoved hok
  exact journals_call h (fun b _ => ⟨hmoved, hok b⟩) herror

/-- What is left of a call makes no entries. -/
theorem journals_rest {α : Type} {P : List Move → Prop} {l : List Move} {p : TxProc α} (h : P l)
    (hp : p.Issues fun c => ∀ a, c.enters i a = []) :
    p.Journals Answers (Cmd.enters i) P (fun _ _ => True) l :=
  journals_of_issues hp h fun _ => trivial

/-! ### Transfer -/

/-- Nothing moves before the amount is checked. -/
theorem transferPrepare_journals {P : List Move → Prop} (dto : TransferDto) (h : P []) :
    (transferPrepare i dto).Journals Answers (Cmd.enters i) P
      (fun r l => l = [] ∧ ∀ tx, r = .ok tx → 0 < dto.amount) [] := by
  have hquit : ∀ e, ([] : List Move) = [] ∧
      ∀ tx, (Except.error e : Except Err Transaction) = .ok tx → 0 < dto.amount :=
    fun e => ⟨rfl, fun tx htx => by cases htx⟩
  refine journals_quiet_bind (issues_call.mpr fun _ => rfl) h (fun _ => ?_) hquit
  refine journals_quiet_bind (issues_call.mpr fun _ => rfl) h (fun _ => ?_) hquit
  refine journals_rejectWhen_bind h (hquit _) fun _ => ?_
  refine journals_rejectWhen_bind h (hquit _) fun hpos => ?_
  refine journals_rejectWhen_bind h (hquit _) fun _ => ?_
  refine journals_quiet_bind (issues_call.mpr fun _ => rfl) h (fun _ => ?_) hquit
  refine journals_rejectWhen_bind h (hquit _) fun _ => ?_
  refine journals_quiet_bind (issues_call.mpr fun _ => rfl) h (fun _ => ?_) hquit
  exact journals_of_issues (quiet_of_preparatory (generateReceiptNumber_preparatory _)) h
    fun _ => ⟨rfl, fun _ _ => not_le.mp hpos⟩

theorem transferSettle_journals {P : List Move → Prop} (dto : TransferDto) (tx : Transaction)
    (hP : ∀ ms, ms <+: dto.script i → P ms) :
    (transferSettle i dto tx).Journals Answers (Cmd.enters i) P (fun _ _ => True) [] := by
  have hdebit := hP _ (List.prefix_append (Move.entry i i dto.senderId dto.currency (-dto.amount))
    (Move.entry i i dto.receiverId dto.currency dto.amount))
  have hconfirm : ∀ t l, P l → ((transferConfirm (tx.complete t)).attempt.bind fun _ =>
      Proc.done (.ok (tx.complete t))).Journals Answers (Cmd.enters i) P (fun _ _ => True) l := by
    intro t l h
    refine journals_rest h (issues_bind (issues_attempt ?_) fun _ => issues_done _)
    exact issues_bind (issues_call.mpr fun _ => rfl) fun _ => issues_call.mpr fun _ => rfl
  have hrest : ∀ l, P l → ∀ b : ℤ, ((await .now).bind fun t =>
      (transferConfirm (tx.complete t)).attempt.bind fun _ =>
        Proc.done (.ok (tx.complete t))).Journals Answers (Cmd.enters i) P (fun _ _ => True) l :=
    fun l h b => journals_quiet_bind (issues_call.mpr fun _ => rfl) h (fun t => hconfirm t l h)
      fun _ => trivial
  have hnil := hP [] List.nil_prefix
  have hcaught : ∀ l, P l → (Proc.done (.ok tx) : TxProc Transaction).Journals Answers
      (Cmd.enters i) P (fun _ _ => True) l := fun l h => ⟨h, trivial⟩
  refine journals_try_bind (journals_quiet_bind (issues_call.mpr fun _ => rfl) hnil (fun _ => ?_)
    fun _ => hcaught _ hnil)
  refine journals_bind (journals_adjust hnil hdebit (fun _ => ?_) fun _ => hcaught _ hnil)
  refine journals_adjust hdebit (hP _ (List.prefix_refl _)) (fun b => ?_) fun _ => hcaught _ hdebit
  exact hrest _ (hP _ (List.prefix_refl _)) b

theorem transfer_moved (dto : TransferDto) :
    (transfer i dto).Journals Answers (Cmd.enters i) ((Call.transfer dto).Moved i)
      (fun _ _ => True) [] := by
  have hprepare := transferPrepare_journals (i := i) (P := (Call.transfer dto).Moved i) dto
    ⟨ List.nil_prefix, fun h => absurd rfl h⟩
  refine journals_bind (journals_mono ?_ hprepare)
  rintro r l ⟨rfl, hpos⟩
  cases r with
  | error e => trivial
  | ok tx => exact transferSettle_journals dto tx fun ms hms => ⟨hms, fun _ => hpos tx rfl⟩

/-! ### Deposit and withdrawal -/

theorem depositFailed_quiet (dto : DepositDto) (tx : Transaction) (err : Err) :
    (depositFailed dto tx err).Issues fun c => ∀ a, c.enters i a = [] := by
  refine issues_bind (issues_call.mpr fun _ => rfl) fun _ => ?_
  exact issues_bind (issues_call.mpr fun _ => rfl) fun _ => issues_throw _

theorem deposit_moved (dto : DepositDto) :
    (createDeposit i dto).Journals Answers (Cmd.enters i) ((Call.deposit dto).Moved i)
      (fun _ _ => True) [] := by
  have hnil : (Call.deposit dto).Moved i [] := List.nil_prefix
  have hcredit : (Call.deposit dto).Moved i (Move.entry i i dto.userId dto.currency dto.amount) :=
    List.prefix_refl _
  refine journals_quiet_bind (quiet_of_preparatory (depositPrepare_preparatory i dto)) hnil
    (fun tx => ?_) fun _ => trivial
  refine journals_try_bind (journals_adjust hnil hcredit (fun _ => ?_) fun err => ?_)
  · refine journals_rest hcredit (issues_bind (issues_call.mpr fun _ => rfl) fun t => ?_)
    refine issues_bind (issues_attempt ?_) fun r => ?_
    · exact issues_bind (issues_call.mpr fun _ => rfl) fun _ => issues_call.mpr fun _ => rfl
    · cases r with
      | error e => exact depositFailed_quiet _ _ _
      | ok _ => exact issues_done _
  · exact journals_rest hnil (depositFailed_quiet _ _ _)

theorem withdrawalFailed_journals {P : List Move → Prop} {l : List Move} (dto : WithdrawalDto)
    (tx : Transaction) (err : Err) (h : P l)
    (hrefund : P (l ++ Move.entry i i dto.userId dto.currency (totalChecked dto.amount))) :
    (withdrawalFailed i dto tx err).Journals Answers (Cmd.enters i) P (fun _ _ => True) l := by
  refine journals_bind (journals_adjust h hrefund (fun _ => ?_) fun _ => trivial)
  refine journals_rest hrefund (issues_bind (issues_call.mpr fun _ => rfl) fun _ => ?_)
  exact issues_bind (issues_call.mpr fun _ => rfl) fun _ => issues_throw _

theorem withdrawal_moved (dto : WithdrawalDto) :
    (createWithdrawal i dto).Journals Answers (Cmd.enters i) ((Call.withdrawal dto).Moved i)
      (fun _ _ => True) [] := by
  have hnil : (Call.withdrawal dto).Moved i [] := List.nil_prefix
  have hdebit : (Call.withdrawal dto).Moved i
      (Move.entry i i dto.userId dto.currency (-totalChecked dto.amount)) :=
    List.prefix_append _ _
  have hboth : (Call.withdrawal dto).Moved i (dto.script i) := List.prefix_refl _
  rw [show createWithdrawal i dto =
      (withdrawalPrepare i dto).bind (withdrawalSettle i dto) from rfl,
    withdrawalPrepare_eq, bind_assoc]
  refine journals_quiet_bind (quiet_of_preparatory (withdrawalOpen_preparatory i dto)) hnil
    (fun tx => ?_) fun _ => trivial
  refine journals_bind (journals_bind (journals_adjust hnil hdebit (fun _ => ?_) fun _ => trivial))
  refine ⟨hdebit, ?_⟩
  refine journals_quiet_bind (issues_call.mpr fun _ => rfl) hdebit (fun t => ?_) fun _ => trivial
  refine journals_try_bind (journals_of_issues ?_ hdebit fun r => ?_)
  · exact issues_bind (issues_call.mpr fun _ => rfl) fun _ => issues_call.mpr fun _ => rfl
  · cases r with
    | error e => exact withdrawalFailed_journals dto _ e hdebit hboth
    | ok _ => exact ⟨hdebit, trivial⟩

/-! ### Swap -/

theorem SwapDto.script_succ (dto : SwapDto) (n : ℕ) : dto.script i (n + 1) =
    dto.script i n ++ Move.entry i i dto.userId dto.toCurrency dto.toAmount := by
  unfold SwapDto.script
  rw [List.replicate_succ', List.flatten_append, List.flatten_singleton, List.append_assoc]

theorem swap_moved_credited (i : ℕ) (dto : SwapDto) {n : ℕ} (h : n ≤ MAX_RETRIES) :
    (Call.swap dto).Moved i (dto.script i n) := Or.inr ⟨n, h, Or.inl rfl⟩

/-- An attempt credits once at most. -/
theorem swapAttempt_journals {dto : SwapDto} {n : ℕ} (attempt : ℕ) (tx : Transaction)
    (h : n + 1 ≤ MAX_RETRIES) :
    (swapAttempt i dto attempt tx).Journals Answers (Cmd.enters i) ((Call.swap dto).Moved i)
      (fun _ l => ∃ m ≤ n + 1, l = dto.script i m) (dto.script i n) := by
  have hbefore := swap_moved_credited i dto (Nat.le_of_succ_le h)
  have hafter := swap_moved_credited i dto h
  have hcaught : ∃ m ≤ n + 1, dto.script i n = dto.script i m := ⟨n, Nat.le_succ n, rfl⟩
  rw [SwapDto.script_succ] at hafter
  refine journals_try_bind (journals_adjust hbefore hafter (fun _ => ?_)
    fun _ => ⟨hbefore, hcaught⟩)
  rw [← SwapDto.script_succ] at hafter ⊢
  have hdone : ∃ m ≤ n + 1, dto.script i (n + 1) = dto.script i m := ⟨n + 1, le_refl _, rfl⟩
  refine journals_quiet_bind (issues_call.mpr fun _ => rfl) hafter (fun t => ?_) fun _ => hdone
  refine journals_try_bind (journals_of_issues ?_ hafter fun r => ?_)
  · exact issues_bind (issues_call.mpr fun _ => rfl) fun _ => issues_call.mpr fun _ => rfl
  · cases r <;> exact ⟨hafter, hdone⟩

theorem swapGiveUp_journals {dto : SwapDto} {n : ℕ} (tx : Transaction) (lastError : Err)
    (h : n ≤ MAX_RETRIES) :
    (swapGiveUp i dto tx lastError).Journals Answers (Cmd.enters i) ((Call.swap dto).Moved i)
      (fun _ _ => True) (dto.script i n) := by
  have hrefunded : (Call.swap dto).Moved i (dto.script i n ++ dto.refundMoves i) :=
    Or.inr ⟨n, h, Or.inr rfl⟩
  refine journals_bind (journals_adjust (swap_moved_credited i dto h) hrefunded (fun _ => ?_)
    fun _ => trivial)
  refine journals_rest hrefunded (issues_bind (issues_call.mpr fun _ => rfl) fun _ => ?_)
  exact issues_bind (issues_call.mpr fun _ => rfl) fun _ => issues_throw _

/-- What has been credited and what may still be are three at most. -/
theorem swapLoop_journals {dto : SwapDto} (left : ℕ) {n : ℕ} (lastError : Err) (tx : Transaction)
    (h : n + left ≤ MAX_RETRIES) :
    (swapLoop i dto left lastError tx).Journals Answers (Cmd.enters i) ((Call.swap dto).Moved i)
      (fun _ _ => True) (dto.script i n) := by
  induction left generalizing n lastError tx with
  | zero => exact swapGiveUp_journals tx lastError h
  | succ left ih =>
    refine journals_bind (journals_mono ?_ (swapAttempt_journals _ tx (by omega)))
    rintro r l ⟨m, hm, rfl⟩
    have hcredited := swap_moved_credited i dto (show m ≤ MAX_RETRIES by omega)
    cases r with
    | error e => trivial
    | ok r =>
      cases r with
      | ok tx' => exact ⟨hcredited, trivial⟩
      | error failed =>
        exact journals_quiet_bind (issues_call.mpr fun _ => rfl) hcredited
          (fun _ => ih failed.1 _ (by omega)) fun _ => trivial

theorem swap_moved (dto : SwapDto) :
    (createSwap i dto).Journals Answers (Cmd.enters i) ((Call.swap dto).Moved i)
      (fun _ _ => True) [] := by
  have hnil : (Call.swap dto).Moved i [] := Or.inl rfl
  have hscript : dto.script i 0 =
      [] ++ Move.entry i i dto.userId dto.fromCurrency (-totalChecked dto.fromAmount) :=
    List.append_nil _
  have hdebit := swap_moved_credited i dto (Nat.zero_le MAX_RETRIES)
  rw [hscript] at hdebit
  refine journals_quiet_bind (quiet_of_preparatory ((swapPrepare_prepares i dto).mono
    fun _ hc => hc.1)) hnil (fun tx => ?_) fun _ => trivial
  refine journals_bind (journals_adjust hnil hdebit (fun _ => ?_) fun _ => trivial)
  rw [← hscript]
  exact swapLoop_journals MAX_RETRIES .fault tx (le_refl _)

/-! ### Reversal -/

theorem reverseRecord_quiet (tx : Transaction) (input : ReverseInput) :
    (reverseRecord i tx input).Issues fun c => ∀ a, c.enters i a = [] := by
  refine issues_bind (issues_call.mpr fun _ => rfl) fun t => ?_
  refine issues_bind (issues_call.mpr fun _ => rfl) fun _ => ?_
  refine issues_bind (issues_call.mpr fun _ => rfl) fun t' => ?_
  refine issues_bind (issues_call.mpr fun _ => rfl) fun _ => ?_
  refine issues_bind (issues_call.mpr fun _ => rfl) fun _ => ?_
  refine issues_bind (issues_call.mpr fun _ => rfl) fun _ => ?_
  refine issues_bind (issues_call.mpr fun _ => rfl) fun _ => ?_
  exact issues_bind (issues_call.mpr fun _ => rfl) fun _ => issues_done _

/-- A row that is found has the key and, past the check, is not reversed. -/
theorem reverse_moved (id : TxId) (input : ReverseInput) :
    (reverseTransaction i id input).Journals Answers (Cmd.enters i)
      ((Call.reverse id input).Moved i) (fun _ _ => True) [] := by
  have hnil : (Call.reverse id input).Moved i [] := Or.inl rfl
  refine journals_bind (Q := fun _ _ => True) (journals_mono (Q := fun r l => l = [] ∧
    ∀ tx, r = .ok tx → tx.id = id) ?_ ⟨hnil, fun found hfound => ?_, fun e => ?_⟩)
  · rintro r l ⟨rfl, hrow⟩
    cases r with
    | error e => trivial
    | ok tx =>
      have hid := hrow tx rfl
      refine journals_rejectWhen_bind hnil trivial fun hopen => ?_
      have hopen : tx.reversedAt = none := by
        cases hr : tx.reversedAt with
        | none => rfl
        | some t => exact absurd (by rw [hr]; rfl) hopen
      have hmoved : ∀ ms, ms <+: tx.reversalScript i → (Call.reverse id input).Moved i ms :=
        fun ms hms => Or.inr ⟨tx, hid, hopen, hms⟩
      have hcredit := hmoved (Move.entry i tx.id tx.senderId tx.currency (toFixed 8 tx.amount))
        (List.prefix_append _ _)
      have hboth := hmoved (tx.reversalScript i) (List.prefix_refl _)
      refine journals_bind (journals_quiet_bind (issues_call.mpr fun _ => rfl) hnil (fun _ => ?_)
        fun _ => trivial)
      refine journals_bind (journals_adjust hnil hcredit (fun _ => ?_) fun _ => trivial)
      refine journals_adjust hcredit hboth (fun _ => ?_) fun _ => trivial
      exact journals_rest hboth (reverseRecord_quiet tx input)
  · cases found with
    | none => exact ⟨hnil, rfl, fun tx htx => by cases htx⟩
    | some tx => exact ⟨hnil, rfl, fun tx' htx => by cases htx; exact hfound tx rfl⟩
  · exact ⟨hnil, rfl, fun tx htx => by cases htx⟩

theorem prog_journals (k : Call) :
    (prog i k).Journals Answers (Cmd.enters i) (k.Moved i) (fun _ _ => True) [] := by
  have hstill : k.Moved i [] → k.creates = false → (prog i k).Journals Answers (Cmd.enters i)
      (k.Moved i) (fun _ _ => True) [] := fun hnil hk =>
    journals_rest hnil ((prog_undoes hk).mono fun c hc _ => entries_of_still hc.1 i)
  cases k with
  | transfer dto => exact journals_return some (transfer_moved dto)
  | deposit dto => exact journals_return some (deposit_moved dto)
  | withdrawal dto => exact journals_return some (withdrawal_moved dto)
  | swap dto => exact journals_return some (swap_moved dto)
  | reverse id input => exact journals_return some (reverse_moved id input)
  | cancel id => exact hstill rfl rfl
  | reconcile => exact hstill rfl rfl
  | tick ms => exact hstill rfl rfl

end Scripts

-- ---------------------------------------------------------------------------
-- All calls
-- ---------------------------------------------------------------------------

/-- The wallets hold what they held and what the calls have moved, and each call
has moved a part of its script. -/
structure Conserved (db : Db) (cfg : ServerConfig) : Prop where
  scripted : ∀ i th, cfg.thread i = some th → th.call.Moved i (cfg.state.movesOf i)
  total : ∀ c, cfg.state.held c =
    db.held c + (cfg.threads.map fun th => Move.flow (cfg.state.movesOf th.id) c).sum

section Runs

variable {D : Discipline Call Cmd Cmd.Reply Err Db (Option Transaction)} {db : Db}
  {cfg : ServerConfig}

/-- Each wallet change is logged, so what is held and what is logged move together. -/
theorem held_reach (hmoves : db.moves = []) (h : Reach server D (start db) cfg) (c : String) :
    cfg.state.held c = db.held c + Move.flow cfg.state.moves c := by
  have hdiff : cfg.state.held c - Move.flow cfg.state.moves c = db.held c := by
    refine Reach.invariant (I := fun cfg : ServerConfig =>
      cfg.state.held c - Move.flow cfg.state.moves c = db.held c) ?_ ?_ ?_ h
    · show db.held c - Move.flow db.moves c = db.held c
      rw [hmoves]
      simp
    · intro cfg i k hI _ _
      exact hI
    · intro cfg i fault th cmd next hI _ _ _ _ _
      rw [Config.resume_state]
      cases hres : outcome fault (server.exec cmd cfg.state) with
      | error e => exact hI
      | ok r => exact (exec_held (outcome_eq_ok hres).2 c).trans hI
  omega

/-- Each call has moved a part of its script, and no one else moves anything. -/
theorem moved_reach (hmoves : db.moves = []) (h : Reach server D (start db) cfg) :
    (∀ i, cfg.thread i = none → cfg.state.movesOf i = []) ∧
    ∀ i th, cfg.thread i = some th → th.call.Moved i (cfg.state.movesOf i) := by
  have hempty : ∀ i, db.movesOf i = [] := by
    intro i
    rw [Db.movesOf, hmoves, List.filter_nil]
  obtain ⟨hnone, hsome⟩ := h.journals (fun i db => db.movesOf i) (O := Cmd.enters)
    (P := fun i k => k.Moved i) (Q := fun _ _ _ _ => True) (G := Answers) rfl hempty
    (fun i c s a s' hexec => exec_movesOf hexec i) (fun c s a s' hexec => exec_answers hexec)
    (fun i j k hij => prog_entries hij k) fun i k => prog_journals k
  exact ⟨hnone, fun i th hth => (hsome i th hth).here⟩

/-- The log added up call by call. -/
theorem total_reach (hmoves : db.moves = []) (h : Reach server D (start db) cfg) (c : String) :
    cfg.state.held c =
      db.held c + (cfg.threads.map fun th => Move.flow (cfg.state.movesOf th.id) c).sum := by
  have hauthor : ∀ m ∈ cfg.state.moves, m.call ∈ cfg.threads.map Thread.id := by
    intro m hm
    by_contra hno
    have hthread : cfg.thread m.call = none :=
      (Table.get_eq_none Thread.id).mpr fun th hth hid => hno (List.mem_map.mpr ⟨th, hth, hid⟩)
    have hmem : m ∈ cfg.state.movesOf m.call := List.mem_filter.mpr ⟨hm, by simp⟩
    rw [(moved_reach hmoves h).1 _ hthread] at hmem
    cases hmem
  rw [held_reach hmoves h, Move.flow,
    sum_by_author Move.call _ (h.nodup_threads rfl) hauthor, List.map_map]
  rfl

/-- **Conservation.** -/
theorem money_conserved (hmoves : db.moves = []) (h : Reach server .free (start db) cfg) :
    Conserved db cfg :=
  ⟨(moved_reach hmoves h).2, total_reach hmoves h⟩

end Runs

/-- A transfer whose credit fails. -/
def creditFails : List (Event Call Err) :=
  [.call 0 (.transfer sixtyDollars)] ++ List.replicate 9 (.step 0 none) ++ [.step 0 (some .fault)]

/-- The sixty dollars are debited and nowhere else. -/
theorem money_conserved_sixty :
    Conserved twoAccounts (server.play (start twoAccounts) creditFails) ∧
    (server.play (start twoAccounts) creditFails).state.held "USD" = 4000 :=
  ⟨money_conserved rfl (Reach.refl.play creditFails), by decide +kernel⟩

-- ---------------------------------------------------------------------------
-- Transfers
-- ---------------------------------------------------------------------------

/-- Transfers, and the calls that move nothing. -/
def transfersOnly : Discipline Call Cmd Cmd.Reply Err Db (Option Transaction) where
  onCall _ _ k := k.creates = false ∨ ∃ dto, k = .transfer dto
  onStep _ _ _ _ := True

/-- The call transfers an amount of the currency that is half way between two
hundredths. -/
def Call.ties (c : String) : Call → Bool
  | .transfer dto => decide (normalizeCurrencyCode dto.currency = c ∧ Tie (100 * dto.amount))
  | _ => false

/-- The call has made one of its two balance changes. -/
def halfWay (cfg : ServerConfig) (i : ℕ) : Prop := (cfg.state.movesOf i).length = 1

section Transfers

variable {i : ℕ} {dto : TransferDto} {ms : List Move}

theorem shift_neg_nonpos {a : ℚ} (h : 0 < a) : shift (100 * -a) ≤ 0 := by
  have hle := shift_le (100 * -a)
  have hlt : (shift (100 * -a) : ℚ) < 1 := by linarith
  have hint : shift (100 * -a) < 1 := by exact_mod_cast hlt
  omega

theorem entry_of_ne {call : ℕ} {tx : TxId} {a : UserId} {currency : String} {delta : ℚ}
    (h : delta ≠ 0) : Move.entry call tx a currency delta =
      [⟨call, tx, a, normalizeCurrencyCode currency, shift (100 * delta)⟩] := if_neg h

/-- A transfer has moved nothing, the debit, or both. -/
theorem transfer_moved_cases (h : (Call.transfer dto).Moved i ms) : ms = [] ∨ 0 < dto.amount ∧
    (ms = Move.entry i i dto.senderId dto.currency (-dto.amount) ∨ ms = dto.script i) := by
  obtain ⟨hstart, hpos⟩ := h
  by_cases hnil : ms = []
  · exact Or.inl hnil
  · have hamount := hpos hnil
    refine Or.inr ⟨hamount, ?_⟩
    rw [TransferDto.script, entry_of_ne (neg_ne_zero.mpr hamount.ne'), entry_of_ne hamount.ne',
      List.singleton_append] at hstart ⊢
    rcases List.prefix_cons_iff.mp hstart with rfl | ⟨ms', rfl, hrest⟩
    · exact absurd rfl hnil
    · rcases List.prefix_cons_iff.mp hrest with rfl | ⟨ms'', rfl, hend⟩
      · exact Or.inl rfl
      · rw [List.prefix_nil.mp hend]
        exact Or.inr rfl

/-- Debit and credit cancel, unless the amount is at a tie. -/
theorem flow_transfer (c : String) : Move.flow (dto.script i) c =
    if (Call.transfer dto).ties c then 1 else 0 := by
  have hback := shift_add_shift_neg (100 * dto.amount)
  rw [TransferDto.script, Move.flow_append, Move.flow_entry, Move.flow_entry, Call.ties]
  by_cases hcur : normalizeCurrencyCode dto.currency = c
  · simp only [hcur, if_true, true_and, decide_eq_true_eq, mul_neg]
    omega
  · simp [hcur]

/-- A transfer, complete or not, adds nothing but a tie. -/
theorem flow_transfer_le (h : (Call.transfer dto).Moved i ms) (c : String) :
    Move.flow ms c ≤ if (Call.transfer dto).ties c then 1 else 0 := by
  have hnonneg : (0 : ℤ) ≤ if (Call.transfer dto).ties c then 1 else 0 := by
    split <;> omega
  rcases transfer_moved_cases h with rfl | ⟨hpos, rfl | rfl⟩
  · exact hnonneg
  · rw [Move.flow_entry]
    have hdebit := shift_neg_nonpos hpos
    split <;> omega
  · rw [flow_transfer]

/-- A transfer that is not half way has moved both amounts or none. -/
theorem flow_transfer_whole (h : (Call.transfer dto).Moved i ms) (hlen : ms.length ≠ 1)
    (c : String) : Move.flow ms c = 0 ∨ Move.flow ms c = if (Call.transfer dto).ties c then 1
      else 0 := by
  rcases transfer_moved_cases h with rfl | ⟨hpos, rfl | rfl⟩
  · exact Or.inl rfl
  · rw [entry_of_ne (neg_ne_zero.mpr hpos.ne')] at hlen
    exact absurd rfl hlen
  · exact Or.inr (flow_transfer c)

end Transfers

section TransferRuns

variable {db : Db} {cfg : ServerConfig}

theorem transfersOnly_reach (h : Reach server transfersOnly (start db) cfg) {i : ℕ}
    {th : Thread Call Cmd Cmd.Reply Err (Option Transaction)} (hth : cfg.thread i = some th) :
    th.call.creates = false ∨ ∃ dto, th.call = .transfer dto :=
  h.disciplined (fun _ _ _ hk => hk) rfl hth

/-- A call that moves no money. -/
theorem moved_of_creates {i : ℕ} {k : Call} {ms : List Move} (hk : k.creates = false)
    (h : k.Moved i ms) : ms = [] := by
  cases k with
  | cancel | reconcile | tick => exact h
  | _ => cases hk

end TransferRuns

end NexaFx
