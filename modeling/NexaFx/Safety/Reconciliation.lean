import NexaFx.Safety.Books

/-!
# NexaFx — recovery of interrupted transfers

`transfer` leaves its row PENDING when it throws, crashes or cannot write its
confirmation, at several points of partial progress; `reconcilePendingTransactions`
is to settle what it left. The job selects by `pendingTimeoutAt`, which
`transfer` never sets by itself, and writes FAILED without a look at the
balances. `reconcile_recovers_iff` says which transfers it recovers.

* `transferLeft_of_visits` — the row of a transfer and what it has moved, at
  every point of the call;
* `ReconcileRun.row` — what a run of the job makes of a row.
-/

namespace NexaFx

open Async Decimal Proc

-- ---------------------------------------------------------------------------
-- What a transfer leaves behind
-- ---------------------------------------------------------------------------

section Left

variable {i : TxId} {dto : TransferDto} {v : Own}

/-- The row of a transfer and what the call has moved: nothing, the debit, or
both while the row says PENDING, and both once it says COMPLETED. -/
def TransferLeft (dto : TransferDto) : Own → Prop
  | (none, net) => net = 0
  | (some tx, net) => tx.pendingTimeoutAt = dto.pendingTimeoutAt ∧
      tx.effect = dto.debit + dto.credit ∧
      ((tx.status = .pending ∧ (net = 0 ∨ net = dto.debit ∨ net = dto.debit + dto.credit)) ∨
        (tx.status = .completed ∧ net = dto.debit + dto.credit))

/-- A transfer whose steps keep to `TransferLeft`, with anything else going on
between them. -/
def transferLogic (i : TxId) (dto : TransferDto) : Logic Cmd Cmd.Reply Err Db Own where
  exec := exec
  allows _ _ := True
  fails _ _ := True
  view := ownView i
  frame db db' := TransferLeft dto (ownView i db) → TransferLeft dto (ownView i db')

/-- A step of the transfer is known by what it does to the view. -/
theorem left_call {c : Cmd} {post : Except Err c.Reply → Own → Prop}
    (hok : ∀ db a db', ownView i db = v → exec c db = .ok (a, db') →
      (TransferLeft dto v → TransferLeft dto (ownView i db')) ∧ post (.ok a) (ownView i db'))
    (herr : ∀ e, post (.error e) v) : (await c).wp (transferLogic i dto) post v := by
  intro db hv
  refine ⟨fun a db' _ hexec => ?_, fun _ => herr⟩
  obtain ⟨hleft, hpost⟩ := hok db a db' hv hexec
  refine ⟨fun h => hleft ?_, hpost⟩
  rw [← hv]
  exact h

theorem left_read {c : Cmd} {post : Except Err c.Reply → Own → Prop} (hw : c.writes = [])
    (hm : c.mover = none) (hok : ∀ a, post (.ok a) v) (herr : ∀ e, post (.error e) v) :
    (await c).wp (transferLogic i dto) post v := by
  refine left_call (fun db a db' hv hexec => ?_) herr
  rw [ownView_read hexec hw hm, hv]
  exact ⟨id, hok a⟩

theorem left_adjust {site : AdjustSite} {tx : TxId} {a : UserId} {cur : String} {delta : ℚ}
    {post : Except Err ℤ → Own → Prop} (hleft : TransferLeft dto (v.1, v.2 + moved a cur delta))
    (hok : ∀ b, post (.ok b) (v.1, v.2 + moved a cur delta)) (herr : ∀ e, post (.error e) v) :
    (await (.adjustBalance site i tx a cur delta)).wp (transferLogic i dto) post v := by
  refine left_call (fun db b db' hv hexec => ?_) herr
  rw [ownView_adjusted (exec_adjustBalance_ok hexec), hv]
  exact ⟨fun _ => hleft, hok b⟩

/-- The transfer's row, PENDING, as it is stored and numbered. -/
structure PendingRow (i : TxId) (dto : TransferDto) (tx : Transaction) : Prop where
  id : tx.id = i
  pending : tx.status = .pending
  timeout : tx.pendingTimeoutAt = dto.pendingTimeoutAt
  effect : tx.effect = dto.debit + dto.credit

theorem PendingRow.left {tx : Transaction} (h : PendingRow i dto tx) {net : UserId → String → ℤ}
    (hnet : net = 0 ∨ net = dto.debit ∨ net = dto.debit + dto.credit) :
    TransferLeft dto (some tx, net) :=
  ⟨h.timeout, h.effect, Or.inl ⟨h.pending, hnet⟩⟩

theorem left_save {site : SaveSite} {tx : Transaction} {post : Except Err Unit → Own → Prop}
    (h : PendingRow i dto tx) (hok : post (.ok ()) (some tx, 0)) {old : Option Transaction}
    (herr : ∀ e, post (.error e) (old, 0)) :
    (await (.saveTransaction site tx)).wp (transferLogic i dto) post (old, 0) := by
  refine left_call (fun db a db' hv hexec => ?_) herr
  obtain ⟨-, rfl⟩ := exec_saveTransaction hexec
  rw [ownView_put h.id, hv]
  exact ⟨fun _ => h.left (Or.inl rfl), hok⟩

theorem left_receipt {tx : Transaction} (h : PendingRow i dto tx) :
    (generateReceiptNumber tx).wp (transferLogic i dto)
      (fun r v => ∀ tx', r = .ok tx' → PendingRow i dto tx' ∧ v = (some tx', 0)) (some tx, 0) := by
  have hthrown : ∀ (e : Err) (v : Own), ∀ tx', (.error e : Except Err Transaction) = .ok tx' →
      PendingRow i dto tx' ∧ v = (some tx', 0) := by
    intro e v tx' h
    cases h
  have hnumbered : ∀ seq : Except Err ℕ, ∀ t, PendingRow i dto (tx.withReceipt t (drawn t seq)) :=
    fun seq t => ⟨h.id, h.pending, h.timeout, h.effect⟩
  refine wp_bind.mpr (wp_attempt.mpr ?_)
  have hseq : ∀ seq : Except Err ℕ, Proc.wp (transferLogic i dto)
      (fun r v => ∀ tx', r = .ok tx' → PendingRow i dto tx' ∧ v = (some tx', 0))
      (do
        let t ← await .now
        await (.saveTransaction .receipt (tx.withReceipt t (drawn t seq)))
        return tx.withReceipt t (drawn t seq) : TxProc Transaction) (some tx, 0) := by
    intro seq
    refine wp_bind.mpr (left_read rfl rfl (fun t => ?_) fun e => hthrown e _)
    refine wp_bind.mpr (left_save (hnumbered seq t) ?_ fun e => hthrown e _)
    rintro tx' ⟨⟩
    exact ⟨hnumbered seq t, rfl⟩
  exact left_read rfl rfl (fun n => hseq (.ok n)) fun e => hseq (.error e)

theorem left_transferPrepare (i : ℕ) (dto : TransferDto) :
    (transferPrepare i dto).wp (transferLogic i dto)
      (fun r v => ∀ tx, r = .ok tx → PendingRow i dto tx ∧ v = (some tx, 0)) nothing := by
  have hthrown : ∀ (e : Err) (v : Own), ∀ tx, (.error e : Except Err Transaction) = .ok tx →
      PendingRow i dto tx ∧ v = (some tx, 0) := by
    intro e v tx h
    cases h
  have hrow : ∀ t, PendingRow i dto ((dto.create i).stamp t) := fun t => ⟨rfl, rfl, rfl, rfl⟩
  have hreject : ∀ {c : Prop} [Decidable c] {e : Err} {post : Except Err Unit → Own → Prop},
      post (.ok ()) nothing → post (.error e) nothing →
      (Proc.rejectWhen c e : TxProc Unit).wp (transferLogic i dto) post nothing :=
    fun hok herr => wp_rejectWhen.mpr ⟨fun _ => herr, fun _ => hok⟩
  refine wp_bind.mpr (left_read rfl rfl (fun _ => ?_) fun e => hthrown e _)
  refine wp_bind.mpr (left_read rfl rfl (fun _ => ?_) fun e => hthrown e _)
  refine wp_bind.mpr (hreject ?_ (hthrown _ _))
  refine wp_bind.mpr (hreject ?_ (hthrown _ _))
  refine wp_bind.mpr (hreject ?_ (hthrown _ _))
  refine wp_bind.mpr (left_read rfl rfl (fun _ => ?_) fun e => hthrown e _)
  refine wp_bind.mpr (hreject ?_ (hthrown _ _))
  refine wp_bind.mpr (left_call (fun db a db' hv hexec => ?_) fun e => hthrown e _)
  obtain ⟨-, rfl, rfl⟩ := exec_insertTransaction hexec
  rw [ownView_put (hrow db.now).id, hv]
  exact ⟨fun _ => (hrow db.now).left (Or.inl rfl), left_receipt (hrow db.now)⟩

theorem left_transfer (i : ℕ) (dto : TransferDto) :
    (transfer i dto).wp (transferLogic i dto) (fun _ _ => True) nothing := by
  refine wp_bind.mpr (wp_mono ?_ (left_transferPrepare i dto))
  rintro (e | tx) v h
  · trivial
  obtain ⟨hrow, rfl⟩ := h tx rfl
  -- the two balance changes
  refine wp_bind.mpr (wp_attempt.mpr ?_)
  refine wp_bind.mpr (left_read rfl rfl (fun _ => ?_) fun _ => trivial)
  refine wp_bind.mpr (left_adjust ?_ (fun _ => ?_) fun _ => trivial)
  · exact hrow.left (Or.inr (Or.inl (zero_add _)))
  refine left_adjust ?_ (fun _ => ?_) fun _ => trivial
  · rw [zero_add]
    exact hrow.left (Or.inr (Or.inr rfl))
  refine wp_bind.mpr (left_read rfl rfl (fun t => ?_) fun _ => trivial)
  -- the confirmation write
  refine wp_bind.mpr (wp_attempt.mpr ?_)
  refine wp_bind.mpr (left_read rfl rfl (fun _ => ?_) fun _ => trivial)
  refine left_call (fun db a db' hv hexec => ⟨fun _ => ?_, trivial⟩) fun _ => trivial
  have hput := Db.commit_ok (exec_commit hexec)
  rw [List.foldl_cons, List.foldl_nil] at hput
  rw [hput, ownView_put (show (tx.complete t).id = i from hrow.id), hv, zero_add]
  exact ⟨hrow.timeout, hrow.effect, Or.inr ⟨rfl, rfl⟩⟩

/-- At every point of a transfer, its row and what it has moved are as
`TransferLeft` says. -/
theorem transferLeft_of_visits
    (h : (transfer i dto).Visits exec (ownView i) nothing v) : TransferLeft dto v :=
  Visits.keeps (L := transferLogic i dto) (I := TransferLeft dto) (fun _ _ => trivial)
    (fun _ _ => trivial) (fun _ _ hkeeps => hkeeps) h (left_transfer i dto) rfl

end Left

-- ---------------------------------------------------------------------------
-- A run of the job
-- ---------------------------------------------------------------------------

/-- Nobody holds the lock. -/
def Db.Free (db : Db) (key : LockKey) : Prop := (db.acquireLock key).1 = true

instance (db : Db) (key : LockKey) : Decidable (db.Free key) := inferInstanceAs (Decidable (_ = _))

/-- The job takes the row for timed out. -/
def Db.TimedOut (db : Db) (tx : Transaction) : Prop :=
  tx.status = .pending ∧ ∃ t, tx.pendingTimeoutAt = some t ∧ t < db.cutoff db.now

/-- A run of the job that holds the job lock, starts more than
`pendingTxTimeoutMinutes` after the row was created, and completes without
error. -/
structure ReconcileRun (tx : Transaction) (db db' : Db) : Prop where
  holdsLock : db.Free RECONCILE_JOB
  late : tx.createdAt < db.cutoff db.now
  completes : ∃ φ, reconcilePendingTransactions.run exec φ db = (.ok (), db')

section Job

variable {db db' : Db} {key key' : LockKey} {φ : Cmd → Option Err}

/-- Whether a lock is free is a matter of its entry and of the clock. -/
theorem Db.free_congr (hlocks : Table.get Prod.fst db'.locks key = Table.get Prod.fst db.locks key)
    (hnow : db'.now = db.now) : db'.Free key ↔ db.Free key := by
  unfold Db.Free Db.acquireLock
  rw [hlocks, hnow]
  cases Table.get Prod.fst db.locks key with
  | none => rfl
  | some entry =>
    obtain ⟨k, expiry⟩ := entry
    dsimp only
    split <;> rfl

theorem Db.free_putTransaction (db : Db) (tx : Transaction) (key : LockKey) :
    (db.putTransaction tx).Free key ↔ db.Free key := Db.free_congr rfl rfl

/-- Taking a lock leaves the rest alone, and the other locks. -/
theorem Db.acquireLock_spec (db : Db) (key : LockKey) :
    db.Untouched (db.acquireLock key).2 ∧ (db.acquireLock key).2.now = db.now ∧
      (db.acquireLock key).2.settings = db.settings ∧
      ∀ key' ≠ key, ((db.acquireLock key).2.Free key' ↔ db.Free key') := by
  have hput : ∀ key' ≠ key, Table.get Prod.fst (Table.put Prod.fst
      (key, db.now + db.settings.lockTtlMs) db.locks) key' = Table.get Prod.fst db.locks key' :=
    fun key' hne => Table.get_put_ne Prod.fst (Ne.symm hne)
  refine ⟨Db.acquireLock_untouched db key, ?_⟩
  unfold Db.acquireLock
  split
  · split
    · exact ⟨rfl, rfl, fun _ _ => Iff.rfl⟩
    · exact ⟨rfl, rfl, fun key' hne => Db.free_congr (hput key' hne) rfl⟩
  · exact ⟨rfl, rfl, fun key' hne => Db.free_congr (hput key' hne) rfl⟩

theorem Db.free_releaseLock (hne : key' ≠ key) : (db.releaseLock key).Free key' ↔ db.Free key' := by
  refine Db.free_congr ?_ rfl
  have hfilter := Table.get_filter_key Prod.fst db.locks (fun k => decide (k ≠ key)) key'
  rw [if_pos (by simpa using hne)] at hfilter
  exact hfilter

/-- One round of the loop: a row whose lock is free is FAILED; the other rows
and the other locks are left alone. -/
theorem failTimedOut_cons {tx : Transaction} {rest : List Transaction}
    (h : (failTimedOut (tx :: rest)).run exec φ db = (.ok (), db')) :
    ∃ d, (failTimedOut rest).run exec φ d = (.ok (), db') ∧
      (∀ x ≠ tx.id, d.transaction x = db.transaction x ∧
        (d.Free (.txProcessing x) ↔ db.Free (.txProcessing x))) ∧
      d.transaction tx.id =
        if db.Free (.txProcessing tx.id) then some (tx.withStatus .failed)
        else db.transaction tx.id := by
  rw [failTimedOut, bind_eq] at h
  obtain ⟨acquired, d, hacquire, h⟩ := run_call_bind_returns h
  obtain ⟨hfree, rfl⟩ : (db.acquireLock (.txProcessing tx.id)).1 = acquired ∧
      (db.acquireLock (.txProcessing tx.id)).2 = d := by
    rw [exec] at hacquire
    exact Prod.mk.inj (Except.ok.inj hacquire)
  obtain ⟨hunt, hnow, -, hothers⟩ := db.acquireLock_spec (.txProcessing tx.id)
  have hrow : ∀ x, (db.acquireLock (.txProcessing tx.id)).2.transaction x = db.transaction x := by
    intro x
    rw [Db.transaction, hunt.transactions, ← Db.transaction]
  have hne : ∀ x ≠ tx.id, LockKey.txProcessing x ≠ .txProcessing tx.id := by
    rintro x hx ⟨⟩
    exact hx rfl
  cases acquired with
  | false =>
    refine ⟨_, h, fun x hx => ⟨hrow x, hothers _ (hne x hx)⟩, ?_⟩
    rw [if_neg (by rw [Db.Free, hfree]; exact Bool.false_ne_true), hrow]
  | true =>
    simp only [if_true, bind_eq] at h
    obtain ⟨_, d₂, hround, h⟩ := run_bind_returns h
    obtain ⟨d₁, hsave, hrelease⟩ := run_ensure_returns hround
    obtain ⟨-, rfl⟩ := exec_saveTransaction (run_call_returns hsave)
    cases run_call_returns hrelease
    have hput : ∀ x, (((db.acquireLock (.txProcessing tx.id)).2.putTransaction
        (tx.withStatus .failed)).releaseLock (.txProcessing tx.id)).transaction x =
          if tx.id = x then some (tx.withStatus .failed) else db.transaction x := by
      intro x
      show (Db.putTransaction _ _).transaction x = _
      rw [Db.transaction_put, hrow]
      rfl
    refine ⟨_, h, fun x hx => ⟨?_, ?_⟩, ?_⟩
    · rw [hput, if_neg (Ne.symm hx)]
    · rw [Db.free_releaseLock (hne x hx), Db.free_putTransaction]
      exact hothers _ (hne x hx)
    · rw [hput, if_pos rfl, if_pos (show db.Free (.txProcessing tx.id) from hfree)]

/-- The loop makes FAILED of the rows whose locks are free. -/
theorem failTimedOut_run {rows : List Transaction} (hkeyed : (rows.map Transaction.id).Nodup)
    (h : (failTimedOut rows).run exec φ db = (.ok (), db')) (i : TxId) :
    db'.transaction i = match Table.get Transaction.id rows i with
      | some tx => if db.Free (.txProcessing i) then some (tx.withStatus .failed)
          else db.transaction i
      | none => db.transaction i := by
  induction rows generalizing db with
  | nil =>
    cases h
    rfl
  | cons tx rest ih =>
    obtain ⟨d, hrest, hothers, hself⟩ := failTimedOut_cons h
    rw [List.map_cons, List.nodup_cons] at hkeyed
    have hnext := ih hkeyed.2 hrest
    rw [Table.get_cons]
    by_cases hi : tx.id = i
    · subst hi
      rw [if_pos rfl]
      have hgone : Table.get Transaction.id rest tx.id = none := by
        rw [Table.get_eq_none]
        exact fun r hr hid => hkeyed.1 (List.mem_map.mpr ⟨r, hr, hid⟩)
      rw [hgone] at hnext
      exact hnext.trans hself
    · rw [if_neg hi, hnext]
      obtain ⟨hsame, hfree⟩ := hothers i (Ne.symm hi)
      simp only [hsame, hfree]

/-- What a run of the job makes of a row. -/
theorem ReconcileRun.row {tx : Transaction} {i : TxId}
    (hkeyed : (db.transactions.map Transaction.id).Nodup) (hjob : ReconcileRun tx db db')
    (hrow : db.transaction i = some tx) :
    db'.netOf i = db.netOf i ∧
      (db.TimedOut tx ∧ db.Free (.txProcessing i) →
        db'.transaction i = some (tx.withStatus .failed)) ∧
      (¬ (db.TimedOut tx ∧ db.Free (.txProcessing i)) → db'.transaction i = some tx) := by
  obtain ⟨φ, hrun⟩ := hjob.completes
  have hnet : db'.netOf i = db.netOf i := by
    have hstill : (reconcilePendingTransactions.run exec φ db).2.netOf i = db.netOf i :=
      run_inv (I := fun d : Db => d.netOf i = db.netOf i) reconcilePendingTransactions_undoes
        (fun c hc s a s' hexec hs => (exec_netOf hexec (by simp [hc.1])).trans hs) rfl
    rwa [hrun] at hstill
  refine ⟨hnet, ?_⟩
  rw [reconcilePendingTransactions, bind_eq] at hrun
  obtain ⟨acquired, d, hacquire, hrun⟩ := run_call_bind_returns hrun
  obtain ⟨rfl, rfl⟩ : (db.acquireLock RECONCILE_JOB).1 = acquired ∧
      (db.acquireLock RECONCILE_JOB).2 = d := by
    rw [exec] at hacquire
    exact Prod.mk.inj (Except.ok.inj hacquire)
  obtain ⟨hunt, hnow, hsettings, hothers⟩ := db.acquireLock_spec RECONCILE_JOB
  rw [if_pos (show (db.acquireLock RECONCILE_JOB).1 = true from hjob.holdsLock)] at hrun
  obtain ⟨d, hbody, hrelease⟩ := run_ensure_returns hrun
  cases run_call_returns hrelease
  rw [reconcileBody, bind_eq] at hbody
  obtain ⟨t, d₁, hclock, hbody⟩ := run_call_bind_returns hbody
  cases hclock
  obtain ⟨rows, d₂, hfound, hloop⟩ := run_call_bind_returns hbody
  cases hfound
  show (_ → d.transaction i = _) ∧ (_ → d.transaction i = _)
  -- the rows that the job has found are those of the table that have timed out
  have hkeyed' : ((db.acquireLock RECONCILE_JOB).2.transactions.map Transaction.id).Nodup := by
    rw [hunt.transactions]
    exact hkeyed
  have hrow' : (db.acquireLock RECONCILE_JOB).2.transaction i = some tx := by
    rw [Db.transaction, hunt.transactions, ← Db.transaction, hrow]
  have hcutoff : (db.acquireLock RECONCILE_JOB).2.cutoff (db.acquireLock RECONCILE_JOB).2.now =
      db.cutoff db.now := by
    rw [Db.cutoff, Db.cutoff, hnow, hsettings]
  have hfree := hothers (.txProcessing i) (by rintro ⟨⟩)
  have hfinal := failTimedOut_run (Table.nodup_filter Transaction.id hkeyed' _) hloop i
  have hget : Table.get Transaction.id (db.acquireLock RECONCILE_JOB).2.transactions i = some tx :=
    hrow'
  rw [Table.get_filter_of_nodup Transaction.id hkeyed', hget, hcutoff, hrow'] at hfinal
  have hlisted : (decide (tx.status = .pending) && tx.pendingTimeoutAt.any
      fun t => decide (t < db.cutoff db.now)) = true ↔ db.TimedOut tx := by
    simp [Db.TimedOut, Option.any_eq_true]
  by_cases htimed : db.TimedOut tx
  · rw [Option.filter_some, if_pos (hlisted.mpr htimed)] at hfinal
    simp only [hfree] at hfinal
    constructor
    · rintro ⟨-, hf⟩
      rw [hfinal, if_pos hf]
    · intro hno
      rw [hfinal, if_neg fun hf => hno ⟨htimed, hf⟩]
  · rw [Option.filter_some, if_neg fun h => htimed (hlisted.mp h)] at hfinal
    exact ⟨fun h => absurd h.1 htimed, fun _ => hfinal⟩

end Job

-- ---------------------------------------------------------------------------
-- Recovery
-- ---------------------------------------------------------------------------

/-- The row is not PENDING, and says what has happened to the balances: both
have moved and it says COMPLETED, or neither and it says FAILED. -/
def Recovered (i : TxId) (db : Db) : Prop :=
  ∃ tx, db.transaction i = some tx ∧
    ((tx.status = .completed ∧ db.netOf i = tx.effect) ∨
      (tx.status = .failed ∧ db.netOf i = 0))

/-- A transfer as it left its row, when the job starts: COMPLETED already; or
nothing has moved, the request named a time-out that has passed, and nobody
holds the lock of the transaction. -/
def Recoverable (i : TxId) (dto : TransferDto) (db : Db) : Prop :=
  (∃ tx, db.transaction i = some tx ∧ tx.status = .completed) ∨
    (db.netOf i = 0 ∧ (∃ t, dto.pendingTimeoutAt = some t ∧ t < db.cutoff db.now) ∧
      db.Free (.txProcessing i))

/-- **When the job recovers an interrupted transfer.** The call of the transfer
has ended at any point, with any awaits failing and anything else going on
between its steps; its row and what it has moved are as it left them when the
job starts. -/
theorem reconcile_recovers_iff {i : TxId} {dto : TransferDto} {db db' : Db} {tx : Transaction}
    (hkeyed : (db.transactions.map Transaction.id).Nodup) (hrow : db.transaction i = some tx)
    (hleft : (transfer i dto).Visits exec (ownView i) nothing (ownView i db))
    (hjob : ReconcileRun tx db db') : Recovered i db' ↔ Recoverable i dto db := by
  have hshape := transferLeft_of_visits hleft
  rw [ownView, hrow] at hshape
  obtain ⟨htimeout, heffect, hstatus⟩ := hshape
  obtain ⟨hnet, hfailed, hsame⟩ := hjob.row hkeyed hrow
  unfold Recovered Recoverable
  rw [hrow, hnet]
  rcases hstatus with ⟨hpending, -⟩ | ⟨hcompleted, hmoved⟩
  case inr =>
    -- the confirmation is in place, and the job leaves it
    have hkept := hsame fun h => by
      have hpending := h.1.1
      rw [hcompleted] at hpending
      cases hpending
    refine iff_of_true ⟨tx, hkept, Or.inl ⟨hcompleted, ?_⟩⟩ (Or.inl ⟨tx, rfl, hcompleted⟩)
    rw [hmoved, heffect]
  have htimed : db.TimedOut tx ↔ ∃ t, dto.pendingTimeoutAt = some t ∧ t < db.cutoff db.now := by
    rw [Db.TimedOut, htimeout]
    exact and_iff_right hpending
  have hnever : ¬ ∃ tx', some tx = some tx' ∧ tx'.status = .completed := by
    rintro ⟨_, ⟨⟩, hc⟩
    rw [hpending] at hc
    cases hc
  rw [← htimed]
  by_cases htakes : db.TimedOut tx ∧ db.Free (.txProcessing i)
  · rw [hfailed htakes]
    constructor
    · rintro ⟨_, ⟨⟩, ⟨⟨⟩, -⟩ | ⟨-, hzero⟩⟩
      exact Or.inr ⟨hzero, htakes⟩
    · rintro (hcompleted | ⟨hzero, -⟩)
      · exact absurd hcompleted hnever
      · exact ⟨_, rfl, Or.inr ⟨rfl, hzero⟩⟩
  · rw [hsame htakes]
    refine iff_of_false ?_ ?_
    · rintro ⟨_, ⟨⟩, ⟨hs, -⟩ | ⟨hs, -⟩⟩ <;> rw [hpending] at hs <;> cases hs
    · rintro (hcompleted | ⟨-, h⟩)
      · exact hnever hcompleted
      · exact htakes h

/-- A transfer of sixty dollars, whose request names a time-out or does not, is
interrupted at a step of its block, and half an hour and a minute go by. -/
def interrupted (pendingTimeoutAt : Option Time) (f : BlockStep) : Db :=
  let db := ((transfer 0 { sixtyDollars with pendingTimeoutAt := pendingTimeoutAt }).run exec
    (BlockStep.inject (some f)) twoAccounts).2
  { db with now := db.now + 31 * 60 * 1000 }

theorem ownView_later (i : TxId) (db : Db) (t : Time) :
    ownView i { db with now := t } = ownView i db := rfl

theorem visits_interrupted (pendingTimeoutAt : Option Time) (f : BlockStep) :
    (transfer 0 { sixtyDollars with pendingTimeoutAt := pendingTimeoutAt }).Visits exec (ownView 0)
      nothing (ownView 0 (interrupted pendingTimeoutAt f)) := by
  have hnothing : ownView 0 twoAccounts = nothing := rfl
  unfold interrupted
  rw [ownView_later, ← hnothing]
  exact visits_of_run ..

/-- The job, with nothing failing. -/
def reconciled (db : Db) : Db := (reconcilePendingTransactions.run exec noFault db).2

theorem reconcileRun_interrupted {pendingTimeoutAt : Option Time} {f : BlockStep} {tx : Transaction}
    (hlock : (interrupted pendingTimeoutAt f).Free RECONCILE_JOB)
    (hlate : tx.createdAt < (interrupted pendingTimeoutAt f).cutoff
      (interrupted pendingTimeoutAt f).now)
    (hok : (reconcilePendingTransactions.run exec noFault (interrupted pendingTimeoutAt f)).1.isOk =
      true) :
    ReconcileRun tx (interrupted pendingTimeoutAt f) (reconciled (interrupted pendingTimeoutAt f)) := by
  refine ⟨hlock, hlate, noFault, ?_⟩
  unfold reconciled
  cases hrun : reconcilePendingTransactions.run exec noFault (interrupted pendingTimeoutAt f) with
  | mk r db' =>
    rw [hrun] at hok
    cases r with
    | ok => rfl
    | error e => cases hok

/-- Nothing has moved, and the request named the time of its creation. -/
theorem reconcile_recovers_debit_failed :
    Recovered 0 (reconciled (interrupted (some 1767225600000) .debit)) := by
  obtain ⟨tx, htx⟩ : ∃ tx, (interrupted (some 1767225600000) .debit).transaction 0 = some tx :=
    Option.isSome_iff_exists.mp (by decide +kernel)
  have hcreated : ((interrupted (some 1767225600000) .debit).transaction 0).map
      Transaction.createdAt = some 1767225600000 := by decide +kernel
  rw [htx] at hcreated
  have hjob : ReconcileRun tx (interrupted (some 1767225600000) .debit)
      (reconciled (interrupted (some 1767225600000) .debit)) := by
    refine reconcileRun_interrupted (by decide +kernel) ?_ (by decide +kernel)
    rw [Option.some.inj hcreated]
    decide +kernel
  refine (reconcile_recovers_iff (by decide +kernel) htx (visits_interrupted _ _) hjob).mpr
    (Or.inr ⟨?_, ⟨1767225600000, rfl, by decide +kernel⟩, by decide +kernel⟩)
  have hmoves : (interrupted (some 1767225600000) .debit).moves = [] := by decide +kernel
  unfold Db.netOf Db.net
  rw [hmoves]
  rfl

/-- A confirmation that fails after both balances have moved: without a
time-out in the request the row stays PENDING, with one it becomes FAILED. -/
theorem reconcile_loses_transfer :
    (∀ pendingTimeoutAt ∈ [none, some 1767225600000],
      (reconciled (interrupted pendingTimeoutAt .commit)).netOf 0 1 "USD" = -6000 ∧
      (reconciled (interrupted pendingTimeoutAt .commit)).netOf 0 2 "USD" = 6000 ∧
      ((reconciled (interrupted pendingTimeoutAt .commit)).transaction 0).map Transaction.status =
        some (if pendingTimeoutAt = none then .pending else .failed)) ∧
    ¬ ∀ (db db' : Db) (tx : Transaction), db.transaction 0 = some tx →
      (transfer 0 sixtyDollars).Visits exec (ownView 0) nothing (ownView 0 db) →
      ReconcileRun tx db db' → Recovered 0 db' := by
  have hends : ∀ pendingTimeoutAt ∈ [none, some 1767225600000],
      (reconciled (interrupted pendingTimeoutAt .commit)).netOf 0 1 "USD" = -6000 ∧
      (reconciled (interrupted pendingTimeoutAt .commit)).netOf 0 2 "USD" = 6000 ∧
      ((reconciled (interrupted pendingTimeoutAt .commit)).transaction 0).map Transaction.status =
        some (if pendingTimeoutAt = none then .pending else .failed) := by decide +kernel
  refine ⟨hends, fun hclaim => ?_⟩
  obtain ⟨tx, htx⟩ : ∃ tx, (interrupted none .commit).transaction 0 = some tx :=
    Option.isSome_iff_exists.mp (by decide +kernel)
  have hcreated : ((interrupted none .commit).transaction 0).map Transaction.createdAt =
      some 1767225600000 := by decide +kernel
  rw [htx] at hcreated
  have hjob : ReconcileRun tx (interrupted none .commit) (reconciled (interrupted none .commit)) := by
    refine reconcileRun_interrupted (by decide +kernel) ?_ (by decide +kernel)
    rw [Option.some.inj hcreated]
    decide +kernel
  obtain ⟨row, hrow, hstatus⟩ := hclaim _ _ tx htx (visits_interrupted none .commit) hjob
  have hpending := (hends none (by simp)).2.2
  rw [hrow] at hpending
  have hpending : row.status = .pending := Option.some.inj hpending
  rcases hstatus with ⟨hs, -⟩ | ⟨hs, -⟩ <;> rw [hpending] at hs <;> cases hs

end NexaFx
