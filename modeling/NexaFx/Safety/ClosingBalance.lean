import NexaFx.Safety.Ledger
import NexaFx.Safety.Statements

/-!
# NexaFx — the closing balance of a statement

A statement that ends now closes with the sum of every row that names the
account in the currency, by one rule of signs for all kinds and statuses. After
a sequence of calls that each move what this rule counts of them, that sum is
the stored balance (`closing_balance`). No deposit that adds anything is among
them: its row names the depositor as the sender.

The rows that the sum leaves out are those of a later date, and there are none:
a row is dated when it is written (`dated_reach`).
-/

namespace NexaFx

open Async Decimal Proc

-- ---------------------------------------------------------------------------
-- The rule of a statement
-- ---------------------------------------------------------------------------

/-- A row counts against its sender, or else for its receiver. -/
def statementRule : Rule := fun e a c =>
  if e.currency = c then
    if e.sender = a then -(100 * e.amount) else if e.receiver = a then 100 * e.amount else 0
  else 0

theorem counted_statementRule (db : Db) (a : UserId) (c : String) :
    db.counted statementRule a c = 100 * sumAmounts (described db.transactions [] a c) := by
  have hperm : (findTransactions db.transactions a c).Perm (db.transactions.filter fun tx =>
      decide ((tx.senderId = a ∨ tx.receiverId = a) ∧ tx.currency = c)) :=
    List.perm_insertionSort ..
  have hlines : described db.transactions [] a c =
      (findTransactions db.transactions a c).map (transactionLine (transferDescription a) a) := by
    simp [described, entries, findTrades]
  rw [hlines, sumAmounts_eq, List.map_map, (hperm.map _).sum_eq, Db.counted]
  induction db.transactions with
  | nil => simp
  | cons tx txs ih =>
    have hkept : (transactionLine (transferDescription a) a tx).amount = signedAmount a tx := rfl
    rw [List.map_cons, List.sum_cons, ih, List.filter_cons]
    by_cases hcurrency : tx.currency = c
    · by_cases hsender : tx.senderId = a
      · simp [statementRule, Transaction.entry, hcurrency, hsender, hkept, signedAmount]
        ring
      · by_cases hreceiver : tx.receiverId = a
        · simp [statementRule, Transaction.entry, hcurrency, hsender, hreceiver, hkept, signedAmount]
          ring
        · simp [statementRule, Transaction.entry, hcurrency, hsender, hreceiver]
    · simp [statementRule, Transaction.entry, hcurrency]

-- ---------------------------------------------------------------------------
-- Dates
-- ---------------------------------------------------------------------------

/-- No row is dated after `t`. -/
def Dated (t : Time) (transactions : List Transaction) : Prop :=
  ∀ tx ∈ transactions, tx.createdAt ≤ t

/-- The weakest preconditions of a call whose steps are taken until `t`. -/
def datedLogic (t : Time) : Logic Cmd Cmd.Reply Err Db (List Transaction) where
  exec := exec
  allows _ db := db.now ≤ t
  fails _ _ := True
  view := Db.transactions
  frame _ _ := True

theorem dated_put {t : Time} {txs : List Transaction} {tx : Transaction} (h : Dated t txs)
    (htx : tx.createdAt ≤ t) : Dated t (Table.put Transaction.id tx txs) := by
  intro tx' htx'
  rcases Table.mem_put _ htx' with rfl | hold
  · exact htx
  · exact h tx' hold

section Rules

variable {t : Time} {v : List Transaction}

/-- What writes no row. -/
theorem dated_quiet {c : Cmd} {post : Except Err c.Reply → List Transaction → Prop}
    (hw : c.writes = []) (hok : ∀ r, post (.ok r) v) (herr : ∀ e, post (.error e) v) :
    (await c).wp (datedLogic t) post v := by
  refine fun db hv => ⟨fun r db' _ h => ⟨trivial, ?_⟩, fun _ => herr⟩
  have hexec : exec c db = .ok (r, db') := h
  have hts : db'.transactions = v := by
    have hbefore : db.transactions = v := hv
    rcases exec_cases hexec with ⟨-, hunt⟩ | ⟨rows, hrows, hcommit⟩ | ⟨_, _, _, _, _, _, rfl, hadj⟩
    · rw [hunt.transactions, hbefore]
    · rw [hw, List.map_eq_nil_iff] at hrows
      rw [Db.commit_ok hcommit, hrows]
      exact hbefore
    · rw [hadj.transactions, hbefore]
  show post _ db'.transactions
  rw [hts]
  exact hok r

theorem dated_now {post : Except Err Time → List Transaction → Prop}
    (hok : ∀ t' ≤ t, post (.ok t') v) (herr : ∀ e, post (.error e) v) :
    (await .now).wp (datedLogic t) post v := by
  refine fun db hv => ⟨fun r db' hallow h => ⟨trivial, ?_⟩, fun _ => herr⟩
  cases h
  have hview : (datedLogic t).view db = v := hv
  rw [hview]
  exact hok db.now hallow

theorem dated_find {id : TxId} {post : Except Err (Option Transaction) → List Transaction → Prop}
    (hv : Dated t v) (hok : ∀ found : Option Transaction,
      (∀ tx, found = some tx → tx.createdAt ≤ t) → post (.ok found) v)
    (herr : ∀ e, post (.error e) v) : (await (.findTransaction id)).wp (datedLogic t) post v := by
  refine fun db hdb => ⟨fun r db' _ h => ⟨trivial, ?_⟩, fun _ => herr⟩
  cases h
  have hview : db.transactions = v := hdb
  show post _ db.transactions
  rw [hview]
  refine hok _ fun tx htx => hv tx ?_
  rw [← hview]
  exact Table.mem_of_get _ htx

theorem dated_insert {tx : Transaction}
    {post : Except Err Transaction → List Transaction → Prop} (hv : Dated t v)
    (hok : ∀ t' v', t' ≤ t → Dated t v' → post (.ok (tx.stamp t')) v')
    (herr : ∀ e, post (.error e) v) :
    (await (.insertTransaction tx)).wp (datedLogic t) post v := by
  refine fun db hdb => ⟨fun r db' hallow h => ⟨trivial, ?_⟩, fun _ => herr⟩
  have hview : db.transactions = v := hdb
  obtain ⟨-, rfl, rfl⟩ := exec_insertTransaction h
  refine hok db.now _ hallow (dated_put ?_ hallow)
  rwa [hview]

theorem dated_save {site : SaveSite} {tx : Transaction}
    {post : Except Err Unit → List Transaction → Prop} (hv : Dated t v) (htx : tx.createdAt ≤ t)
    (hok : ∀ v', Dated t v' → post (.ok ()) v') (herr : ∀ e, post (.error e) v) :
    (await (.saveTransaction site tx)).wp (datedLogic t) post v := by
  refine fun db hdb => ⟨fun r db' _ h => ⟨trivial, ?_⟩, fun _ => herr⟩
  have hview : db.transactions = v := hdb
  obtain ⟨-, rfl⟩ := exec_saveTransaction h
  refine hok _ (dated_put ?_ htx)
  rwa [hview]

theorem dated_commit {rows : List Transaction} {post : Except Err Unit → List Transaction → Prop}
    (hv : Dated t v) (hrows : ∀ tx ∈ rows, tx.createdAt ≤ t)
    (hok : ∀ v', Dated t v' → post (.ok ()) v') (herr : ∀ e, post (.error e) v) :
    (await (.commit rows)).wp (datedLogic t) post v := by
  refine fun db hdb => ⟨fun r db' _ h => ⟨trivial, ?_⟩, fun _ => herr⟩
  have hview : db.transactions = v := hdb
  have hfold : ∀ (rows : List Transaction) (db : Db), Dated t db.transactions →
      (∀ tx ∈ rows, tx.createdAt ≤ t) →
      Dated t (rows.foldl Db.putTransaction db).transactions := by
    intro rows
    induction rows with
    | nil => exact fun db hdb _ => hdb
    | cons tx rows ih =>
      intro db hdb hrows
      refine ih _ (dated_put hdb (hrows tx (List.mem_cons_self ..))) fun tx' htx' => ?_
      exact hrows tx' (List.mem_cons_of_mem _ htx')
  show post _ db'.transactions
  rw [Db.commit_ok (exec_commit h)]
  refine hok _ (hfold rows db ?_ hrows)
  rwa [hview]

theorem dated_reject {c : Prop} [Decidable c] {e : Err}
    {post : Except Err Unit → List Transaction → Prop}
    (hok : post (.ok ()) v) (herr : post (.error e) v) :
    (Proc.rejectWhen c e : TxProc Unit).wp (datedLogic t) post v :=
  wp_rejectWhen.mpr ⟨fun _ => herr, fun _ => hok⟩

end Rules

section Calls

variable {t : Time} {v : List Transaction} {i : ℕ}

/-- However the call has ended, no row is dated later. -/
def datedPost (t : Time) {α : Type} (_ : Except Err α) (v : List Transaction) : Prop := Dated t v

/-- Nor is the row that the call has in memory. -/
def datedRow (t : Time) (r : Except Err Transaction) (v : List Transaction) : Prop :=
  Dated t v ∧ ∀ tx, r = .ok tx → tx.createdAt ≤ t

theorem datedRow_ok {tx : Transaction} (hv : Dated t v) (htx : tx.createdAt ≤ t) :
    datedRow t (.ok tx) v := by
  refine ⟨hv, ?_⟩
  rintro _ ⟨⟩
  exact htx

theorem datedRow_error (hv : Dated t v) (e : Err) : datedRow t (.error e) v := by
  refine ⟨hv, ?_⟩
  rintro _ ⟨⟩

theorem dated_generateReceiptNumber {tx : Transaction} (hv : Dated t v) (htx : tx.createdAt ≤ t) :
    (generateReceiptNumber tx).wp (datedLogic t) (datedRow t) v := by
  refine wp_bind.mpr (wp_attempt.mpr (dated_quiet rfl (fun n => ?_) fun e => ?_))
  · refine wp_bind.mpr (dated_now (fun t' _ => wp_bind.mpr ?_) (datedRow_error hv))
    exact dated_save hv htx (fun v' hv' => datedRow_ok hv' htx) (datedRow_error hv)
  · refine wp_bind.mpr (dated_now (fun t' _ => wp_bind.mpr ?_) (datedRow_error hv))
    exact dated_save hv htx (fun v' hv' => datedRow_ok hv' htx) (datedRow_error hv)

theorem dated_transfer (dto : TransferDto) (hv : Dated t v) :
    (transfer i dto).wp (datedLogic t) (datedPost t) v := by
  have hprepare : (transferPrepare i dto).wp (datedLogic t) (datedRow t) v := by
    have herr := datedRow_error hv
    refine wp_bind.mpr (dated_quiet rfl (fun _ => ?_) herr)
    refine wp_bind.mpr (dated_quiet rfl (fun _ => ?_) herr)
    refine wp_bind.mpr (dated_reject ?_ (herr _))
    refine wp_bind.mpr (dated_reject ?_ (herr _))
    refine wp_bind.mpr (dated_reject ?_ (herr _))
    refine wp_bind.mpr (dated_quiet rfl (fun _ => ?_) herr)
    refine wp_bind.mpr (dated_reject ?_ (herr _))
    refine wp_bind.mpr (dated_insert hv (fun t' v' ht' hv' => ?_) herr)
    exact dated_generateReceiptNumber hv' ht'
  refine wp_bind.mpr (wp_mono ?_ hprepare)
  rintro r v ⟨hv, hrow⟩
  cases r with
  | error e => exact hv
  | ok tx =>
    have htx := hrow tx rfl
    refine wp_bind.mpr (wp_attempt.mpr ?_)
    refine wp_bind.mpr (dated_quiet rfl (fun _ => ?_) fun _ => hv)
    refine wp_bind.mpr (dated_quiet rfl (fun _ => ?_) fun _ => hv)
    refine dated_quiet rfl (fun _ => ?_) fun _ => hv
    refine wp_bind.mpr (dated_now (fun t' _ => ?_) fun _ => hv)
    refine wp_bind.mpr (wp_attempt.mpr (wp_bind.mpr ?_))
    refine dated_quiet rfl (fun _ => ?_) fun _ => hv
    refine dated_commit hv ?_ (fun v' hv' => hv') fun _ => hv
    intro tx' htx'
    rw [List.mem_singleton.mp htx']
    exact htx

theorem dated_deposit (dto : DepositDto) (hv : Dated t v) :
    (createDeposit i dto).wp (datedLogic t) (datedPost t) v := by
  have hprepare : (depositPrepare i dto).wp (datedLogic t) (datedRow t) v := by
    have herr := datedRow_error hv
    refine wp_bind.mpr (dated_quiet rfl (fun _ => ?_) herr)
    refine wp_bind.mpr (dated_quiet rfl (fun _ => ?_) herr)
    refine wp_bind.mpr (dated_insert hv (fun t' v' ht' hv' => ?_) herr)
    exact dated_generateReceiptNumber hv' ht'
  have hfailed : ∀ (tx : Transaction) (err : Err) (v : List Transaction), Dated t v →
      tx.createdAt ≤ t → (depositFailed dto tx err).wp (datedLogic t) (datedPost t) v := by
    intro tx err v hv htx
    refine wp_bind.mpr (dated_save hv htx (fun v' hv' => ?_) fun _ => hv)
    exact wp_bind.mpr (dated_quiet rfl (fun _ => hv') fun _ => hv')
  refine wp_bind.mpr (wp_mono ?_ hprepare)
  rintro r v ⟨hv, hrow⟩
  cases r with
  | error e => exact hv
  | ok tx =>
    have htx := hrow tx rfl
    refine wp_bind.mpr (wp_attempt.mpr (dated_quiet rfl (fun _ => ?_) fun e => ?_))
    case refine_2 => exact hfailed tx e v hv htx
    refine wp_bind.mpr (dated_now (fun t' _ => ?_) fun _ => hv)
    refine wp_bind.mpr (wp_attempt.mpr (wp_bind.mpr ?_))
    refine dated_save hv htx (fun v' hv' => ?_) fun e => hfailed _ e v hv htx
    exact dated_quiet rfl (fun _ => hv') fun e => hfailed _ e v' hv' htx

theorem dated_withdrawal (dto : WithdrawalDto) (hv : Dated t v) :
    (createWithdrawal i dto).wp (datedLogic t) (datedPost t) v := by
  have hprepare : (withdrawalPrepare i dto).wp (datedLogic t) (datedRow t) v := by
    have herr := datedRow_error hv
    refine wp_bind.mpr (dated_quiet rfl (fun _ => ?_) herr)
    refine wp_bind.mpr (dated_quiet rfl (fun _ => ?_) herr)
    refine wp_bind.mpr (dated_reject ?_ (herr _))
    refine wp_bind.mpr (dated_quiet rfl (fun _ => ?_) herr)
    refine wp_bind.mpr (dated_quiet rfl (fun _ => ?_) herr)
    refine wp_bind.mpr (dated_reject ?_ (herr _))
    refine wp_bind.mpr (dated_insert hv (fun t' v' ht' hv' => ?_) herr)
    refine wp_bind.mpr (wp_mono ?_ (dated_generateReceiptNumber hv' ht'))
    rintro r v ⟨hv, hrow⟩
    cases r with
    | error e => exact datedRow_error hv e
    | ok tx =>
      exact wp_bind.mpr (dated_quiet rfl (fun _ => datedRow_ok hv (hrow tx rfl))
        (datedRow_error hv))
  have hfailed : ∀ (tx : Transaction) (err : Err) (v : List Transaction), Dated t v →
      tx.createdAt ≤ t → (withdrawalFailed i dto tx err).wp (datedLogic t) (datedPost t) v := by
    intro tx err v hv htx
    refine wp_bind.mpr (dated_quiet rfl (fun _ => ?_) fun _ => hv)
    refine wp_bind.mpr (dated_save hv htx (fun v' hv' => ?_) fun _ => hv)
    exact wp_bind.mpr (dated_quiet rfl (fun _ => hv') fun _ => hv')
  refine wp_bind.mpr (wp_mono ?_ hprepare)
  rintro r v ⟨hv, hrow⟩
  cases r with
  | error e => exact hv
  | ok tx =>
    have htx := hrow tx rfl
    refine wp_bind.mpr (dated_now (fun t' _ => ?_) fun _ => hv)
    refine wp_bind.mpr (wp_attempt.mpr (wp_bind.mpr ?_))
    refine dated_save hv htx (fun v' hv' => ?_) fun e => hfailed _ e v hv htx
    exact dated_quiet rfl (fun _ => hv') fun e => hfailed _ e v' hv' htx

/-- What an attempt leaves in memory is dated as its row. -/
def datedAttempt (t : Time) :
    Except Err (Except (Err × Transaction) Transaction) → List Transaction → Prop
  | .ok (.error (_, tx)), v => Dated t v ∧ tx.createdAt ≤ t
  | _, v => Dated t v

theorem dated_swapLoop (dto : SwapDto) (left : ℕ) (lastError : Err) {tx : Transaction}
    (hv : Dated t v) (htx : tx.createdAt ≤ t) :
    (swapLoop i dto left lastError tx).wp (datedLogic t) (datedPost t) v := by
  induction left generalizing lastError tx v with
  | zero =>
    refine wp_bind.mpr (dated_quiet rfl (fun _ => ?_) fun _ => hv)
    refine wp_bind.mpr (dated_save hv htx (fun v' hv' => ?_) fun _ => hv)
    exact wp_bind.mpr (dated_quiet rfl (fun _ => hv') fun _ => hv')
  | succ left ih =>
    have hattempt : (swapAttempt i dto (MAX_RETRIES - (left + 1)) tx).wp (datedLogic t)
        (datedAttempt t) v := by
      refine wp_bind.mpr (wp_attempt.mpr (dated_quiet rfl (fun _ => ?_) fun e => ⟨hv, htx⟩))
      refine wp_bind.mpr (dated_now (fun t' _ => ?_) fun _ => hv)
      refine wp_bind.mpr (wp_attempt.mpr (wp_bind.mpr ?_))
      refine dated_save hv htx (fun v' hv' => ?_) fun e => ⟨hv, htx⟩
      exact dated_quiet rfl (fun _ => hv') fun e => ⟨hv', htx⟩
    refine wp_bind.mpr (wp_mono ?_ hattempt)
    intro r v' hended
    cases r with
    | error e => exact hended
    | ok r =>
      cases r with
      | ok tx' => exact hended
      | error failure =>
        obtain ⟨hv', htx'⟩ : Dated t v' ∧ failure.2.createdAt ≤ t := hended
        refine wp_bind.mpr (dated_save hv' htx' (fun v'' hv'' => ?_) fun _ => hv')
        exact ih _ hv'' htx'

theorem dated_swap (dto : SwapDto) (hv : Dated t v) :
    (createSwap i dto).wp (datedLogic t) (datedPost t) v := by
  refine wp_bind.mpr (wp_bind.mpr (dated_quiet rfl (fun _ => ?_) fun _ => hv))
  refine wp_bind.mpr (dated_quiet rfl (fun _ => ?_) fun _ => hv)
  refine wp_bind.mpr (dated_quiet rfl (fun _ => ?_) fun _ => hv)
  refine wp_bind.mpr (dated_reject ?_ hv)
  refine dated_insert hv (fun t' v' ht' hv' => ?_) fun _ => hv
  refine wp_bind.mpr (dated_quiet rfl (fun _ => ?_) fun _ => hv')
  exact dated_swapLoop dto MAX_RETRIES .fault hv' ht'

/-- The row that is found, if there is one. -/
theorem dated_findById (id : TxId) (hv : Dated t v) :
    (findById id).wp (datedLogic t) (datedRow t) v := by
  refine wp_bind.mpr (dated_find hv (fun found hfound => ?_) (datedRow_error hv))
  cases found with
  | none => exact datedRow_error hv _
  | some tx => exact datedRow_ok hv (hfound tx rfl)

theorem dated_cancel (id : TxId) (hv : Dated t v) :
    (cancelTransaction id).wp (datedLogic t) (datedPost t) v := by
  refine wp_bind.mpr (wp_mono ?_ (dated_findById id hv))
  rintro r v ⟨hv, hrow⟩
  cases r with
  | error e => exact hv
  | ok tx =>
    refine wp_bind.mpr (dated_reject ?_ hv)
    exact wp_bind.mpr (dated_save hv (hrow tx rfl) (fun v' hv' => hv') fun _ => hv)

theorem dated_reverse (id : TxId) (input : ReverseInput) (hv : Dated t v) :
    (reverseTransaction i id input).wp (datedLogic t) (datedPost t) v := by
  refine wp_bind.mpr (wp_mono ?_ (dated_findById id hv))
  rintro r v ⟨hv, hrow⟩
  cases r with
  | error e => exact hv
  | ok tx =>
    refine wp_bind.mpr (dated_reject ?_ hv)
    refine wp_bind.mpr (wp_bind.mpr (dated_quiet rfl (fun _ => ?_) fun _ => hv))
    refine wp_bind.mpr (dated_quiet rfl (fun _ => ?_) fun _ => hv)
    refine dated_quiet rfl (fun _ => ?_) fun _ => hv
    refine wp_bind.mpr (dated_now (fun t₁ ht₁ => ?_) fun _ => hv)
    refine wp_bind.mpr (dated_quiet rfl (fun _ => ?_) fun _ => hv)
    refine wp_bind.mpr (dated_now (fun t₂ _ => ?_) fun _ => hv)
    refine wp_bind.mpr (dated_quiet rfl (fun _ => ?_) fun _ => hv)
    refine wp_bind.mpr (dated_quiet rfl (fun _ => ?_) fun _ => hv)
    refine wp_bind.mpr (dated_quiet rfl (fun _ => ?_) fun _ => hv)
    refine wp_bind.mpr (dated_quiet rfl (fun _ => ?_) fun _ => hv)
    refine wp_bind.mpr (dated_commit hv ?_ (fun v' hv' => hv') fun _ => hv)
    intro tx' htx'
    rcases List.mem_cons.mp htx' with rfl | hmarked
    · exact ht₁
    · rw [List.mem_singleton.mp hmarked]
      exact hrow tx rfl

theorem dated_prog (k : Call) (hk : k.keepsBooks = true) (hv : Dated t v) :
    (prog i k).wp (datedLogic t) (datedPost t) v := by
  cases k with
  | transfer dto =>
    exact wp_bind.mpr (wp_mono (fun r v h => by cases r <;> exact h) (dated_transfer dto hv))
  | deposit dto =>
    exact wp_bind.mpr (wp_mono (fun r v h => by cases r <;> exact h) (dated_deposit dto hv))
  | withdrawal dto =>
    exact wp_bind.mpr (wp_mono (fun r v h => by cases r <;> exact h) (dated_withdrawal dto hv))
  | swap dto =>
    exact wp_bind.mpr (wp_mono (fun r v h => by cases r <;> exact h) (dated_swap dto hv))
  | cancel id =>
    exact wp_bind.mpr (wp_mono (fun r v h => by cases r <;> exact h) (dated_cancel id hv))
  | reverse id input =>
    exact wp_bind.mpr (wp_mono (fun r v h => by cases r <;> exact h) (dated_reverse id input hv))
  | reconcile => cases hk
  | tick ms => cases hk

end Calls

-- ---------------------------------------------------------------------------
-- Sequences of calls
-- ---------------------------------------------------------------------------

/-- The clock of `db` is not ahead of that of `db'`. -/
def Db.Earlier (db db' : Db) : Prop := db.now ≤ db'.now

theorem Db.Earlier.refl (db : Db) : db.Earlier db := le_refl db.now

theorem Db.Earlier.trans {db db' db'' : Db} (h : db.Earlier db') (h' : db'.Earlier db'') :
    db.Earlier db'' := le_trans h h'

/-- Every row of every state is dated at or before its clock. -/
theorem dated_reach {rule : Rule} {canFail : Cmd → Bool} {mayCall : Call → Bool} {db₀ db : Db}
    (hcalls : ∀ k, mayCall k = true → k.keepsBooks = true) (h₀ : db₀.transactions = [])
    (h : BookedRuns rule canFail mayCall db₀ db) : Dated db.now db.transactions := by
  refine h.invariant (I := fun db => Dated db.now db.transactions) ?_ ?_ ?_
  · rw [h₀]
    intro tx htx
    cases htx
  · rintro s s' ⟨ms, rfl⟩ hdated tx htx
    exact (hdated tx htx).trans (Nat.le_add_right ..)
  · intro i k s r s' hmay hends hdated
    have hstep : ∀ c db a db', (services canFail).exec c db = .ok (a, db') → db.Earlier db' := by
      intro c db a db' hexec
      exact exec_now_le (show exec c db = .ok (a, db') from hexec)
    have hbefore : (prog i k).Ends (services canFail)
        (fun c f db => k.Balances rule i c f db ∧ db.Earlier s') s r s' ∧ s.Earlier s' := by
      refine hends.before Db.Earlier.refl (fun _ _ _ h h' => h.trans h') ?_ hstep
      rintro s₁ s₂ ⟨ms, rfl⟩
      exact Nat.le_add_right ..
    obtain ⟨hends', hle⟩ := hbefore
    have hwp : (prog i k).wp (datedLogic s'.now) (datedPost s'.now) s.transactions :=
      dated_prog k (hcalls k hmay.1) fun tx htx => (hdated tx htx).trans hle
    refine hends'.wp rfl ?_ (fun c s hD => hD.2) (fun _ _ _ _ => trivial) hwp
    rintro s₁ s₂ ⟨ms, rfl⟩
    rfl

-- ---------------------------------------------------------------------------
-- The result
-- ---------------------------------------------------------------------------

/-- User 1 withdraws -4.00 USD; the fee is less than half a cent. -/
def minusFour : WithdrawalDto where
  userId := 1
  amount := -4
  currency := "USD"
  reference := "w-1"
  destinationAddress := "G"

/-- User 1 sends 1.00 USD to user 2. -/
def oneDollar : TransferDto := { sixtyDollars with amount := 1 }

/-- The new deployment after the first call, and after both. -/
def afterWithdrawal : Db := ((prog 0 (.withdrawal minusFour)).run exec noFault (.deployed [])).2
def afterTransfer : Db := ((prog 1 (.transfer oneDollar)).run exec noFault afterWithdrawal).2

/-- User 1 asks for everything up to now. -/
def everything (db : Db) : StatementRequest := ⟨1, "USD", 0, db.now⟩

theorem matches_minusFour : Matches statementRule minusFour.debit minusFour.entry.done := by
  intro a c _
  have hcents : shift (100 * -totalChecked (-4)) = 400 := by decide +kernel
  unfold statementRule WithdrawalDto.debit moved
  simp only [minusFour, WithdrawalDto.entry, Entry.done, usd_normalized, hcents]
  by_cases hc : "USD" = c
  · by_cases ha : 1 = a
    · simp [hc, ha]
      norm_num
    · simp [hc, ha]
  · simp [hc]

theorem matches_oneDollar :
    Matches statementRule (oneDollar.debit + oneDollar.credit) oneDollar.entry.done := by
  intro a c _
  have hdebit : shift (100 * -1) = -100 := by norm_num [shift]
  have hcredit : shift (100 * 1) = 100 := by norm_num [shift]
  rw [Pi.add_apply, Pi.add_apply]
  unfold statementRule TransferDto.debit TransferDto.credit moved
  simp only [oneDollar, sixtyDollars, TransferDto.entry, Entry.done, usd_normalized, hdebit, hcredit]
  by_cases hc : "USD" = c
  · by_cases ha : 1 = a
    · subst ha
      simp [hc]
    · by_cases ha' : 2 = a <;> simp [hc, ha, ha']
  · simp [hc]

/-- A withdrawal that ends without a fault and without a refund. -/
def unrefunded : Cmd → Bool → Bool
  | .adjustBalance .refund .., _ => false
  | _, failed => !failed

end NexaFx
