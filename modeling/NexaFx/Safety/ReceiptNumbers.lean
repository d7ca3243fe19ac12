import NexaFx.Lib.Exclusive
import NexaFx.Lib.Separator
import NexaFx.Model.Transactions

/-!
# NexaFx — receipt numbers

`generateReceiptNumber` composes the year with the next number of a sequence,
or, where the query fails, with the last six digits of the clock. The sequence
never gives a number twice; the clock shows the same six digits every thousand
seconds, and they may be those of a sequence number of the same year.

A `Run` is a run of the server that notes what the calls have drawn and with
which receipt numbers rows were saved. When no two of its receipts meet in this
way, the numbers are different, and once a payment has stored its row no write
of that row is refused by a unique index (`receipts_unique`).
-/

namespace NexaFx

open Async

namespace Receipts

-- ---------------------------------------------------------------------------
-- What the calls have drawn
-- ---------------------------------------------------------------------------

/-- Where the digits come from. -/
inductive Draw where
  | sequence (n : ℕ)
  | clock
  deriving DecidableEq

def Draw.digits : Draw → Time → List Char
  | .sequence n, _ => padStart n
  | .clock, t => lastSix t

/-- A receipt number as it was composed: by the call that makes the transaction
`txId`, at `time`. -/
structure Receipt where
  txId : TxId
  draw : Draw
  time : Time
  deriving DecidableEq

def Receipt.number (r : Receipt) : String := receiptText (yearOf r.time) (r.draw.digits r.time)

/-- A run of the server. -/
structure Run where
  cfg : ServerConfig
  /-- The draws, with the calls that made them. -/
  drawn : List (TxId × Draw)
  receipts : List Receipt
  /-- The rows as they were saved with their receipt numbers. -/
  saved : List Transaction

/-- Call `i` takes a step at the command `c`. -/
def Run.note (run : Run) (i : TxId) (fault : Option Err) : Cmd → Run
  | .nextReceipt =>
    { run with
      drawn := run.drawn ++
        [(i, if fault.isSome then .clock else .sequence (run.cfg.state.receiptSeq + 1))] }
  | .now =>
    -- a call reads the clock again, when its payment is completed
    match Table.get Prod.fst run.drawn i with
    | some (_, draw) =>
      if i ∈ run.receipts.map Receipt.txId then run
      else { run with receipts := run.receipts ++ [⟨i, draw, run.cfg.state.now⟩] }
    | none => run
  | .saveTransaction .receipt tx => { run with saved := run.saved ++ [tx] }
  | _ => run

def Run.noted (run : Run) : Event Call Err → Run
  | .call _ _ => run
  | .step i fault =>
    match (run.cfg.thread i).bind fun th => th.proc.waitsOn with
    | some c => run.note i fault c
    | none => run

def Run.step (run : Run) (e : Event Call Err) : Option Run :=
  (server.step run.cfg e).map fun cfg => { run.noted e with cfg := cfg }

def Run.follow (run : Run) : List (Event Call Err) → Option Run
  | [] => some run
  | e :: es => (run.step e).bind fun run' => run'.follow es

/-- No call has been made. -/
def begin (db : Db) : Run := ⟨start db, [], [], []⟩

-- ---------------------------------------------------------------------------
-- The property
-- ---------------------------------------------------------------------------

/-- A write of a row that has been stored. -/
def rewrites : Cmd → Bool
  | .saveTransaction _ _ | .managerSave _ | .commit _ => true
  | _ => false

/-- Different transactions have different receipt numbers, and no write that a
payment is about to make once its row is stored meets a unique index. -/
structure Unique (run : Run) : Prop where
  distinct : ∀ tx ∈ run.saved, ∀ tx' ∈ run.saved, tx.id ≠ tx'.id →
    tx.receiptNumber ≠ tx'.receiptNumber
  accepted : ∀ i th c next, run.cfg.thread i = some th → th.proc = .await c next →
    rewrites c = true → exec c run.cfg.state ≠ .error .uniqueViolation

/-- Transfers, deposits and withdrawals, and the passing of time. -/
def pays : Call → Bool
  | .transfer _ | .deposit _ | .withdrawal _ | .tick _ => true
  | _ => false

/-- Two receipts of one year that do not meet: neither do the digits of two
clocks, nor those of a clock and a sequence number. -/
def Apart (r r' : Receipt) : Prop :=
  yearOf r.time = yearOf r'.time →
    match r.draw, r'.draw with
    | .clock, .clock => lastSix r.time ≠ lastSix r'.time
    | .clock, .sequence n => lastSix r.time ≠ padStart n
    | .sequence n, .clock => padStart n ≠ lastSix r'.time
    | .sequence _, .sequence _ => True

-- ---------------------------------------------------------------------------
-- The texts
-- ---------------------------------------------------------------------------

theorem padStart_injective {n m : ℕ} (h : padStart n = padStart m) : n = m :=
  Separator.leftpad_toDigits_injective h

theorem receiptText_injective {year year' : ℕ} {digits digits' : List Char}
    (h : receiptText year digits = receiptText year' digits') :
    year = year' ∧ digits = digits' := by
  have hlist := congrArg String.toList h
  have hdash : "-".toList = ['-'] := rfl
  simp only [receiptText, String.toList_append, String.toList_ofList, hdash, List.append_assoc,
    List.singleton_append, List.append_cancel_left_eq] at hlist
  obtain ⟨hyear, hdigits⟩ := Separator.split_first (Separator.notMem_toString rfl year)
    (Separator.notMem_toString rfl year') hlist
  exact ⟨Separator.toString_injective (String.toList_inj.mp hyear), hdigits⟩

/-- Receipts that are apart, with different numbers where both are of the sequence. -/
theorem number_ne {r r' : Receipt} (hapart : Apart r r')
    (hsequence : ∀ n, r.draw = .sequence n → r'.draw ≠ .sequence n) : r.number ≠ r'.number := by
  intro h
  obtain ⟨hyear, hdigits⟩ := receiptText_injective h
  have hmeet := hapart hyear
  cases hr : r.draw with
  | clock =>
    cases hr' : r'.draw with
    | clock =>
      rw [hr, hr'] at hmeet hdigits
      exact hmeet hdigits
    | sequence n =>
      rw [hr, hr'] at hmeet hdigits
      exact hmeet hdigits
  | sequence n =>
    cases hr' : r'.draw with
    | clock =>
      rw [hr, hr'] at hmeet hdigits
      exact hmeet hdigits
    | sequence m =>
      rw [hr, hr'] at hdigits
      exact hsequence n hr (padStart_injective hdigits ▸ hr')

theorem Apart.symm {r r' : Receipt} (h : Apart r r') : Apart r' r := by
  intro hyear
  have hmeet := h hyear.symm
  cases hr : r.draw <;> cases hr' : r'.draw <;> rw [hr, hr'] at hmeet
  · trivial
  · exact hmeet.symm
  · exact hmeet.symm
  · exact hmeet.symm

instance : Std.Symm Apart := ⟨fun _ _ => Apart.symm⟩

-- ---------------------------------------------------------------------------
-- The table
-- ---------------------------------------------------------------------------

/-- The row bears no receipt number, or that of a receipt of its transaction. -/
def Filed (receipts : List Receipt) (tx : Transaction) : Prop :=
  tx.receiptNumber = none ∨ ∃ r ∈ receipts, r.txId = tx.id ∧ tx.receiptNumber = some r.number

structure Indexed (receipts : List Receipt) (db : Db) : Prop where
  ids : (db.transactions.map Transaction.id).Nodup
  references : ∀ row ∈ db.transactions, ∀ row' ∈ db.transactions,
    row.reference = row'.reference → row.id = row'.id
  filed : ∀ row ∈ db.transactions, Filed receipts row

/-- No two transactions have receipts with one number. -/
def Distinct (receipts : List Receipt) : Prop :=
  ∀ r ∈ receipts, ∀ r' ∈ receipts, r.txId ≠ r'.txId → r.number ≠ r'.number

/-- The row is stored with this reference. -/
def Referenced (db : Db) (tx : Transaction) : Prop :=
  ∃ row, db.transaction tx.id = some row ∧ row.reference = tx.reference

section Tables

variable {receipts : List Receipt} {db db' : Db} {tx row : Transaction}

theorem mem_of_transaction {i : TxId} (h : db.transaction i = some row) :
    row ∈ db.transactions ∧ row.id = i :=
  ⟨Table.mem_of_get _ h, Table.key_of_get _ h⟩

theorem other_of_not_violates (h : db.violatesUnique tx = false) (hrow : row ∈ db.transactions)
    (hid : row.id ≠ tx.id) : row.reference ≠ tx.reference := by
  intro hreference
  have hrow' := List.any_eq_false.mp h row hrow
  simp [hid, hreference] at hrow'

theorem Indexed.store (h : Indexed receipts db) (hfiled : Filed receipts tx)
    (hstore : db.storeTransaction tx = .ok db') : Indexed receipts db' := by
  obtain ⟨hstores, rfl⟩ := Db.storeTransaction_ok hstore
  have hother : ∀ row ∈ db.transactions, row.id ≠ tx.id → row.reference ≠ tx.reference :=
    fun row hrow hid => other_of_not_violates hstores.unique hrow hid
  refine ⟨Table.nodup_put _ h.ids, fun row hrow row' hrow' heq => ?_, fun row hrow => ?_⟩
  · rcases Table.mem_put_cases _ h.ids hrow with rfl | ⟨hold, hne⟩ <;>
      rcases Table.mem_put_cases _ h.ids hrow' with rfl | ⟨hold', hne'⟩
    · rfl
    · exact absurd heq.symm (hother row' hold' hne')
    · exact absurd heq (hother row hold hne)
    · exact h.references row hold row' hold' heq
  · rcases Table.mem_put _ hrow with rfl | hold
    · exact hfiled
    · exact h.filed row hold

theorem Indexed.commit {rows : List Transaction} (h : Indexed receipts db)
    (hfiled : ∀ tx ∈ rows, Filed receipts tx) (hcommit : db.commit rows = .ok db') :
    Indexed receipts db' := by
  induction rows generalizing db with
  | nil =>
    cases hcommit
    exact h
  | cons tx rows ih =>
    rw [Db.commit] at hcommit
    split at hcommit
    · cases hcommit
    · rename_i hstore
      exact ih (h.store (hfiled tx List.mem_cons_self) hstore)
        (fun tx' htx' => hfiled tx' (List.mem_cons_of_mem tx htx')) hcommit

theorem Filed.mono {receipts' : List Receipt} (h : Filed receipts tx) :
    Filed (receipts ++ receipts') tx :=
  h.imp id fun ⟨r, hr, hid, hnumber⟩ => ⟨r, List.mem_append_left _ hr, hid, hnumber⟩

theorem Indexed.mono {receipts' : List Receipt} (h : Indexed receipts db) :
    Indexed (receipts ++ receipts') db :=
  ⟨h.ids, h.references, fun row hrow => (h.filed row hrow).mono⟩

/-- A row that is written again meets no other. -/
theorem Indexed.not_violates (h : Indexed receipts db) (hdistinct : Distinct receipts)
    (hrow : Referenced db tx) (hfiled : Filed receipts tx) : db.violatesUnique tx = false := by
  obtain ⟨own, hown, hreference⟩ := hrow
  obtain ⟨hmem, hid⟩ := mem_of_transaction hown
  unfold Db.violatesUnique
  rw [List.any_eq_false]
  intro row hmem'
  simp only [Bool.and_eq_true, Bool.or_eq_true, decide_eq_true_eq, not_and, not_or]
  intro hne
  refine ⟨fun hsame => ?_, fun hsome hsame => ?_⟩
  · exact hne ((h.references row hmem' own hmem (hsame.trans hreference.symm)).trans hid)
  · rw [hsame] at hsome
    rcases hfiled with hnone | ⟨r, hr, hrid, hnumber⟩
    · rw [hnone] at hsome
      cases hsome
    · rcases h.filed row hmem' with hnone | ⟨r', hr', hrid', hnumber'⟩
      · rw [← hsame, hnone] at hsome
        cases hsome
      · rw [hnumber', hnumber] at hsame
        exact hdistinct r' hr' r hr (fun heq => hne (hrid'.symm.trans (heq.trans hrid)))
          (Option.some.inj hsame)

theorem Indexed.store_accepted (h : Indexed receipts db) (hdistinct : Distinct receipts)
    (hrow : Referenced db tx) (hfiled : Filed receipts tx) :
    db.storeTransaction tx ≠ .error .uniqueViolation := by
  intro herror
  rw [Db.storeTransaction, h.not_violates hdistinct hrow hfiled] at herror
  revert herror
  split
  · rename_i hfalse
    cases hfalse
  · split <;> simp

end Tables

-- ---------------------------------------------------------------------------
-- What is left of a payment
-- ---------------------------------------------------------------------------

/-- Commands that neither look at a row nor write one. -/
def aside : Cmd → Bool
  | .ensureAccepted _ | .isUserDeactivated _ | .accountExists _ | .limitCheck .. => true
  | .getBalance .. | .now | .adjustBalance .. | .auditLog .. => true
  | .invalidateWalletBalanceCache _ | .startTransaction | .tick _ => true
  | _ => false

/-- The same row with another status. -/
structure Same (tx tx' : Transaction) : Prop where
  id : tx'.id = tx.id
  reference : tx'.reference = tx.reference
  receiptNumber : tx'.receiptNumber = tx.receiptNumber

/-- The command writes no other row than `tx`, and keeps its receipt number. -/
def Keeps (tx : Transaction) : Cmd → Prop
  | .saveTransaction .receipt _ => False
  | .saveTransaction _ tx' => Same tx tx'
  | .managerSave tx' => Same tx tx'
  | .commit rows => ∀ tx' ∈ rows, Same tx tx'
  | c => aside c = true

/-- The receipt number is composed from a draw. -/
def compose (draw : Draw) (tx : Transaction) : TxProc Transaction := do
  let t ← await .now
  await (.saveTransaction .receipt (tx.withReceipt t (draw.digits t)))
  return tx.withReceipt t (draw.digits t)

abbrev Payment := TxProc (Option Transaction)

/-- A payment that is still to store its row. -/
inductive Opening (i : TxId) : Payment → Prop
  | done (r : Except Err (Option Transaction)) : Opening i (.done r)
  | await {c : Cmd} {next : Except Err c.Reply → Payment} (here : aside c = true)
      (rest : ∀ r, Opening i (next r)) : Opening i (.await c next)
  | insert (tx : Transaction) (k : Transaction → Payment) (id : tx.id = i)
      (receiptNumber : tx.receiptNumber = none) (rest : ∀ tx', (k tx').Issues (Keeps tx')) :
      Opening i ((await (.insertTransaction tx)).bind fun tx => (generateReceiptNumber tx).bind k)

section Programs

variable {i : TxId}

theorem opening_call_bind {c : Cmd} {k : c.Reply → Payment} (hc : aside c = true)
    (hk : ∀ a, Opening i (k a)) : Opening i ((NexaFx.await c).bind k) :=
  .await hc fun r => match r with
    | .ok a => hk a
    | .error _ => .done _

theorem opening_rejectWhen_bind {c : Prop} [Decidable c] {e : Err} {k : Unit → Payment}
    (hk : Opening i (k ())) : Opening i ((Proc.rejectWhen c e).bind k) := by
  unfold Proc.rejectWhen
  split
  · exact .done _
  · exact hk

theorem Same.complete {tx tx' : Transaction} (h : Same tx tx') (t : Time) :
    Same tx (tx'.complete t) :=
  ⟨h.id, h.reference, h.receiptNumber⟩

theorem Same.withStatus {tx tx' : Transaction} (h : Same tx tx') (status : TransactionStatus) :
    Same tx (tx'.withStatus status) :=
  ⟨h.id, h.reference, h.receiptNumber⟩

theorem Same.refl (tx : Transaction) : Same tx tx := ⟨rfl, rfl, rfl⟩

theorem transferSettle_keeps (i : ℕ) (dto : TransferDto) (tx : Transaction) :
    (transferSettle i dto tx).Issues (Keeps tx) := by
  refine Proc.issues_bind (Proc.issues_attempt (Proc.issues_bind (Proc.issues_call.mpr rfl)
    fun _ => Proc.issues_bind (Proc.issues_call.mpr rfl) fun _ => Proc.issues_call.mpr rfl))
    fun r => ?_
  cases r with
  | error e => exact Proc.issues_done _
  | ok a =>
    refine Proc.issues_bind (Proc.issues_call.mpr rfl) fun t => Proc.issues_bind
      (Proc.issues_attempt (Proc.issues_bind (Proc.issues_call.mpr ?_) fun _ =>
        Proc.issues_call.mpr ?_)) fun _ => Proc.issues_done _
    · exact (Same.refl tx).complete t
    · intro tx' htx'
      obtain rfl := List.mem_singleton.mp htx'
      exact (Same.refl tx).complete t

theorem depositFailed_keeps (dto : DepositDto) {tx tx' : Transaction} (h : Same tx tx') (err : Err) :
    (depositFailed dto tx' err).Issues (Keeps tx) :=
  Proc.issues_bind (Proc.issues_call.mpr (h.withStatus .failed)) fun _ =>
    Proc.issues_bind (Proc.issues_call.mpr rfl) fun _ => Proc.issues_throw err

theorem depositSettle_keeps (i : ℕ) (dto : DepositDto) (tx : Transaction) :
    (depositSettle i dto tx).Issues (Keeps tx) := by
  refine Proc.issues_bind (Proc.issues_attempt (Proc.issues_call.mpr rfl)) fun r => ?_
  cases r with
  | error err => exact depositFailed_keeps dto (Same.refl tx) err
  | ok a =>
    refine Proc.issues_bind (Proc.issues_call.mpr rfl) fun t => ?_
    have hsame := (Same.refl tx).complete t
    refine Proc.issues_bind (Proc.issues_attempt (Proc.issues_bind (Proc.issues_call.mpr hsame)
      fun _ => Proc.issues_call.mpr rfl)) fun r => ?_
    cases r with
    | error err => exact depositFailed_keeps dto hsame err
    | ok => exact Proc.issues_done _

theorem withdrawalSettle_keeps (i : ℕ) (dto : WithdrawalDto) (tx : Transaction) :
    (withdrawalSettle i dto tx).Issues (Keeps tx) := by
  refine Proc.issues_bind (Proc.issues_call.mpr rfl) fun t => ?_
  have hsame := (Same.refl tx).complete t
  refine Proc.issues_bind (Proc.issues_attempt (Proc.issues_bind (Proc.issues_call.mpr hsame)
    fun _ => Proc.issues_call.mpr rfl)) fun r => ?_
  cases r with
  | ok => exact Proc.issues_done _
  | error err =>
    exact Proc.issues_bind (Proc.issues_call.mpr rfl) fun _ =>
      Proc.issues_bind (Proc.issues_call.mpr (hsame.withStatus .failed)) fun _ =>
        Proc.issues_bind (Proc.issues_call.mpr rfl) fun _ => Proc.issues_throw err

/-- The payments up to the insert. -/
theorem opening_prog {k : Call} (hk : pays k = true) : Opening i (prog i k) := by
  cases k with
  | transfer dto =>
    simp only [prog, transfer, transferPrepare, Proc.bind_eq, Proc.bind_assoc]
    refine opening_call_bind rfl fun _ => opening_call_bind rfl fun _ =>
      opening_rejectWhen_bind (opening_rejectWhen_bind (opening_rejectWhen_bind
        (opening_call_bind rfl fun _ => opening_rejectWhen_bind ?_)))
    exact .insert _ _ rfl rfl fun tx =>
      Proc.issues_bind (transferSettle_keeps i dto tx) fun _ => Proc.issues_done _
  | deposit dto =>
    simp only [prog, createDeposit, depositPrepare, Proc.bind_eq, Proc.bind_assoc]
    refine opening_call_bind rfl fun _ => opening_call_bind rfl fun _ => ?_
    exact .insert _ _ rfl rfl fun tx =>
      Proc.issues_bind (depositSettle_keeps i dto tx) fun _ => Proc.issues_done _
  | withdrawal dto =>
    simp only [prog, createWithdrawal, withdrawalPrepare, Proc.bind_eq, Proc.bind_assoc,
      Proc.pure_eq, Proc.done_ok_bind]
    refine opening_call_bind rfl fun _ => opening_call_bind rfl fun _ =>
      opening_rejectWhen_bind (opening_call_bind rfl fun _ => opening_call_bind rfl fun _ =>
        opening_rejectWhen_bind ?_)
    exact .insert _ _ rfl rfl fun tx => Proc.issues_bind (Proc.issues_call.mpr rfl) fun _ =>
      Proc.issues_bind (withdrawalSettle_keeps i dto tx) fun _ => Proc.issues_done _
  | tick ms => exact opening_call_bind rfl fun _ => .done _
  | swap _ | cancel _ | reverse _ _ | reconcile => cases hk

end Programs

-- ---------------------------------------------------------------------------
-- Runs of payments
-- ---------------------------------------------------------------------------

/-- The call has drawn nothing and has no receipt. -/
structure Unnumbered (run : Run) (i : TxId) : Prop where
  drawn : i ∉ run.drawn.map Prod.fst
  receipts : i ∉ run.receipts.map Receipt.txId

/-- How far a payment has come. -/
inductive Stage (run : Run) (i : TxId) : Payment → Prop
  | opening {p : Payment} (rest : Opening i p) (norow : run.cfg.state.transaction i = none)
      (unnumbered : Unnumbered run i) : Stage run i p
  | querying (tx : Transaction) (k : Transaction → Payment)
      (row : run.cfg.state.transaction i = some tx) (receiptNumber : tx.receiptNumber = none)
      (unnumbered : Unnumbered run i) (rest : ∀ tx', (k tx').Issues (Keeps tx')) :
      Stage run i ((generateReceiptNumber tx).bind k)
  | reading (tx : Transaction) (draw : Draw) (k : Transaction → Payment)
      (row : run.cfg.state.transaction i = some tx) (drawn : (i, draw) ∈ run.drawn)
      (unreceipted : i ∉ run.receipts.map Receipt.txId) (rest : ∀ tx', (k tx').Issues (Keeps tx')) :
      Stage run i ((compose draw tx).bind k)
  | saving (tx : Transaction) (k : Transaction → Payment) (id : tx.id = i)
      (row : Referenced run.cfg.state tx)
      (receipt : ∃ r ∈ run.receipts, r.txId = i ∧ tx.receiptNumber = some r.number)
      (rest : ∀ tx', (k tx').Issues (Keeps tx')) :
      Stage run i ((await (.saveTransaction .receipt tx)).bind fun _ => k tx)
  | settling {p : Payment} (tx : Transaction) (id : tx.id = i) (row : Referenced run.cfg.state tx)
      (receipt : ∃ r ∈ run.receipts, r.txId = i ∧ tx.receiptNumber = some r.number)
      (rest : p.Issues (Keeps tx)) : Stage run i p
  | ended (r : Except Err (Option Transaction)) : Stage run i (.done r)

/-- What the notes of a run have to do with its tables. -/
structure Noted (run : Run) : Prop where
  indexed : Indexed run.receipts run.cfg.state
  once : (run.drawn.map Prod.fst).Nodup
  drawn : ∀ r ∈ run.receipts, (r.txId, r.draw) ∈ run.drawn
  given : ∀ i n, (i, Draw.sequence n) ∈ run.drawn → n ≤ run.cfg.state.receiptSeq ∧
    ∀ j, (j, Draw.sequence n) ∈ run.drawn → j = i
  saved : ∀ tx ∈ run.saved, ∃ r ∈ run.receipts, r.txId = tx.id ∧ tx.receiptNumber = some r.number

/-- What holds throughout a run of payments. -/
structure Inv (run : Run) : Prop where
  stages : ∀ i th, run.cfg.thread i = some th → Stage run i th.proc
  fresh : ∀ i, run.cfg.thread i = none → run.cfg.state.transaction i = none ∧ Unnumbered run i
  noted : Noted run

/-- Nothing has changed but for the call `i`. -/
structure Beside (run run' : Run) (i : TxId) : Prop where
  rows : ∀ j, j ≠ i → run'.cfg.state.transaction j = run.cfg.state.transaction j
  drawn : ∀ j, j ≠ i → ∀ d, (j, d) ∈ run'.drawn ↔ (j, d) ∈ run.drawn
  receipts : ∀ r : Receipt, r.txId ≠ i → (r ∈ run'.receipts ↔ r ∈ run.receipts)

section Runs

variable {run run' : Run} {i j : TxId} {p : Payment}

theorem Unnumbered.frame (h : Unnumbered run j) (hbeside : Beside run run' i) (hj : j ≠ i) :
    Unnumbered run' j := by
  refine ⟨fun hmem => ?_, fun hmem => ?_⟩
  · obtain ⟨⟨_, d⟩, hd, rfl⟩ := List.mem_map.mp hmem
    exact h.drawn (List.mem_map.mpr ⟨_, (hbeside.drawn _ hj d).mp hd, rfl⟩)
  · obtain ⟨r, hr, rfl⟩ := List.mem_map.mp hmem
    exact h.receipts (List.mem_map.mpr ⟨r, (hbeside.receipts r hj).mp hr, rfl⟩)

/-- A step of another call. -/
theorem Stage.frame (h : Stage run j p) (hbeside : Beside run run' i) (hj : j ≠ i) :
    Stage run' j p := by
  have hrow := hbeside.rows j hj
  have hdrawn := hbeside.drawn j hj
  have hreceipts : ∀ r : Receipt, r.txId = j → (r ∈ run'.receipts ↔ r ∈ run.receipts) :=
    fun r hr => hbeside.receipts r (hr ▸ hj)
  have hunnumbered := fun h : Unnumbered run j => h.frame hbeside hj
  have hreceipt : ∀ {tx : Transaction},
      (∃ r ∈ run.receipts, r.txId = j ∧ tx.receiptNumber = some r.number) →
      ∃ r ∈ run'.receipts, r.txId = j ∧ tx.receiptNumber = some r.number := by
    rintro tx ⟨r, hr, hid, hnumber⟩
    exact ⟨r, (hreceipts r hid).mpr hr, hid, hnumber⟩
  have hreferenced : ∀ {tx : Transaction}, tx.id = j → Referenced run.cfg.state tx →
      Referenced run'.cfg.state tx := by
    rintro tx rfl ⟨row, hfound, hreference⟩
    exact ⟨row, hrow.trans hfound, hreference⟩
  cases h with
  | opening rest norow unnumbered =>
    exact .opening rest (hrow.trans norow) (hunnumbered unnumbered)
  | querying tx k row receiptNumber unnumbered rest =>
    exact .querying tx k (hrow.trans row) receiptNumber (hunnumbered unnumbered) rest
  | reading tx draw k row drawn unreceipted rest =>
    refine .reading tx draw k (hrow.trans row) ((hdrawn draw).mpr drawn) (fun hmem => ?_) rest
    obtain ⟨r, hr, rfl⟩ := List.mem_map.mp hmem
    exact unreceipted (List.mem_map.mpr ⟨r, (hreceipts r rfl).mp hr, rfl⟩)
  | saving tx k id row receipt rest => exact .saving tx k id (hreferenced id row) (hreceipt receipt) rest
  | settling tx id row receipt rest =>
    exact .settling tx id (hreferenced id row) (hreceipt receipt) rest
  | ended r => exact .ended r

/-- A command that has nothing to do with rows. -/
theorem exec_aside {c : Cmd} {db db' : Db} {a : c.Reply} (hc : aside c = true)
    (h : exec c db = .ok (a, db')) :
    db'.transactions = db.transactions ∧ db'.receiptSeq = db.receiptSeq := by
  cases c with
  | ensureAccepted u =>
    obtain ⟨-, rfl⟩ := exec_ensureAccepted h
    exact ⟨rfl, rfl⟩
  | limitCheck u amount currency =>
    have hlimit := exec_limitCheck h
    unfold Db.limitCheck at hlimit
    split at hlimit
    · cases hlimit
    · simp only at hlimit
      repeat' split at hlimit
      all_goals cases hlimit
      exact ⟨rfl, rfl⟩
  | getBalance u currency =>
    obtain ⟨-, -, rfl⟩ := exec_getBalance h
    exact ⟨rfl, rfl⟩
  | adjustBalance site call tx a cur delta =>
    obtain ⟨ws, ms, rfl⟩ := (exec_adjustBalance_ok h).rest
    exact ⟨rfl, rfl⟩
  | isUserDeactivated _ | accountExists _ | now | auditLog _ _ _ | startTransaction | tick _
    | invalidateWalletBalanceCache _ =>
    cases h
    exact ⟨rfl, rfl⟩
  | _ => cases hc

/-- A command that has nothing to do with rows is not noted, unless it is the
first look at the clock after a draw. -/
theorem note_aside {c : Cmd} (hc : aside c = true) (fault : Option Err)
    (h : i ∉ run.drawn.map Prod.fst ∨ i ∈ run.receipts.map Receipt.txId) :
    run.note i fault c = run := by
  cases c with
  | now =>
    unfold Run.note
    cases hget : Table.get Prod.fst run.drawn i with
    | none => rfl
    | some entry =>
      have hmem : i ∈ run.drawn.map Prod.fst :=
        List.mem_map.mpr ⟨entry, Table.mem_of_get _ hget, Table.key_of_get _ hget⟩
      exact if_pos (h.resolve_left (not_not.mpr hmem))
  | nextReceipt | saveTransaction _ _ => cases hc
  | _ => rfl

section Step

variable {th : Thread Call Cmd Cmd.Reply Err (Option Transaction)} {c : Cmd}
  {next : Except Err c.Reply → Payment} {out : Except Err (c.Reply × Db)}

theorem Inv.resumed (h : Inv run) (hth : run.cfg.thread i = some th)
    (hcfg : run'.cfg = run.cfg.resume th next out) (hself : Stage run' i (next (reply out)))
    (hbeside : Beside run run' i) (hnoted : Noted run') : Inv run' := by
  refine ⟨fun j th' hth' => ?_, fun j hnone => ?_, hnoted⟩
  · by_cases hj : j = i
    · subst hj
      rw [hcfg, Config.thread_resume, if_pos (Config.id_of_thread hth)] at hth'
      rw [← Option.some.inj hth']
      exact hself
    · rw [hcfg, Config.thread_resume_ne hth hj] at hth'
      exact (h.stages j th' hth').frame hbeside hj
  · have hj : j ≠ i := by
      rintro rfl
      rw [hcfg, Config.thread_resume, if_pos (Config.id_of_thread hth)] at hnone
      cases hnone
    rw [hcfg, Config.thread_resume_ne hth hj] at hnone
    obtain ⟨hrow, hunnumbered⟩ := h.fresh j hnone
    exact ⟨(hbeside.rows j hj).trans hrow, hunnumbered.frame hbeside hj⟩

/-- The tables and the notes are what they were. -/
theorem Noted.same (h : Noted run) (hts : run'.cfg.state.transactions = run.cfg.state.transactions)
    (hseq : run'.cfg.state.receiptSeq = run.cfg.state.receiptSeq)
    (hnotes : run'.drawn = run.drawn ∧ run'.receipts = run.receipts ∧ run'.saved = run.saved) :
    Noted run' := by
  obtain ⟨hdrawn, hreceipts, hsaved⟩ := hnotes
  obtain ⟨hindexed, honce, hdraws, hgiven, hfiled⟩ := h
  refine ⟨⟨?_, ?_, ?_⟩, ?_, ?_, ?_, ?_⟩
  · rw [hts]
    exact hindexed.ids
  · rw [hts]
    exact hindexed.references
  · rw [hts, hreceipts]
    exact hindexed.filed
  · rw [hdrawn]
    exact honce
  · rw [hdrawn, hreceipts]
    exact hdraws
  · rw [hdrawn, hseq]
    exact hgiven
  · rw [hsaved, hreceipts]
    exact hfiled

theorem Beside.same (hts : run'.cfg.state.transactions = run.cfg.state.transactions)
    (hdrawn : run'.drawn = run.drawn) (hreceipts : run'.receipts = run.receipts) (i : TxId) :
    Beside run run' i := by
  refine ⟨fun j _ => ?_, fun j _ d => ?_, fun r _ => ?_⟩
  · rw [Db.transaction, hts, ← Db.transaction]
  · rw [hdrawn]
  · rw [hreceipts]

/-- The run after call `i` has gone on. -/
def Run.resume (run : Run) (i : TxId) (fault : Option Err)
    (th : Thread Call Cmd Cmd.Reply Err (Option Transaction)) {c : Cmd}
    (next : Except Err c.Reply → Payment) : Run :=
  { run.note i fault c with
    cfg := run.cfg.resume th next (outcome fault (exec c run.cfg.state)) }

theorem resume_cfg (run : Run) (i : TxId) (fault : Option Err)
    (th : Thread Call Cmd Cmd.Reply Err (Option Transaction)) {c : Cmd}
    (next : Except Err c.Reply → Payment) : (run.resume i fault th next).cfg =
      run.cfg.resume th next (outcome fault (exec c run.cfg.state)) := rfl

variable {fault : Option Err}

theorem resume_notes (th : Thread Call Cmd Cmd.Reply Err (Option Transaction))
    (next : Except Err c.Reply → Payment) (hnote : run.note i fault c = run) :
    (run.resume i fault th next).drawn = run.drawn ∧
      (run.resume i fault th next).receipts = run.receipts ∧
      (run.resume i fault th next).saved = run.saved := by
  unfold Run.resume
  rw [hnote]
  exact ⟨rfl, rfl, rfl⟩

/-- A step that changes no table and is not noted. -/
theorem Inv.quiet (h : Inv run) (hth : run.cfg.thread i = some th) (hnote : run.note i fault c = run)
    (hts : (after (outcome fault (exec c run.cfg.state)) run.cfg.state).transactions =
      run.cfg.state.transactions)
    (hseq : (after (outcome fault (exec c run.cfg.state)) run.cfg.state).receiptSeq =
      run.cfg.state.receiptSeq)
    (hself : Stage (run.resume i fault th next) i
      (next (reply (outcome fault (exec c run.cfg.state))))) : Inv (run.resume i fault th next) := by
  have hnotes := resume_notes th next hnote
  exact h.resumed hth (resume_cfg ..) hself (.same hts hnotes.1 hnotes.2.1 i)
    (h.noted.same hts hseq hnotes)

theorem after_aside (hc : aside c = true) (fault : Option Err) (db : Db) :
    (after (outcome fault (exec c db)) db).transactions = db.transactions ∧
      (after (outcome fault (exec c db)) db).receiptSeq = db.receiptSeq := by
  cases hout : outcome fault (exec c db) with
  | error e => exact ⟨rfl, rfl⟩
  | ok r => exact exec_aside hc (outcome_eq_ok hout).2

theorem Unnumbered.congr {run' : Run} (h : Unnumbered run i) (hdrawn : run'.drawn = run.drawn)
    (hreceipts : run'.receipts = run.receipts) : Unnumbered run' i :=
  ⟨hdrawn ▸ h.drawn, hreceipts ▸ h.receipts⟩

theorem transaction_congr {db db' : Db} (h : db'.transactions = db.transactions) (i : TxId) :
    db'.transaction i = db.transaction i := by
  rw [Db.transaction, h, ← Db.transaction]

/-- A payment before its insert. -/
theorem Inv.opening (h : Inv run) (hth : run.cfg.thread i = some th) (hc : aside c = true)
    (hnext : ∀ r, Opening i (next r)) (hnorow : run.cfg.state.transaction i = none)
    (hunnumbered : Unnumbered run i) : Inv (run.resume i fault th next) := by
  have hnote := note_aside hc fault (Or.inl hunnumbered.drawn)
  obtain ⟨hts, hseq⟩ := after_aside hc fault run.cfg.state
  obtain ⟨hdrawn, hreceipts, -⟩ := resume_notes th next hnote
  exact h.quiet hth hnote hts hseq (.opening (hnext _) ((transaction_congr hts i).trans hnorow)
    (hunnumbered.congr hdrawn hreceipts))

/-- The row is stored. -/
theorem Inv.inserted (h : Inv run) (hth : run.cfg.thread i = some th) {tx : Transaction}
    {k : Transaction → Payment} (hid : tx.id = i) (hreceipt : tx.receiptNumber = none)
    (hrest : ∀ tx', (k tx').Issues (Keeps tx')) (hunnumbered : Unnumbered run i) :
    Inv (run.resume i fault th (c := .insertTransaction tx) fun r =>
      (Proc.done r).bind fun tx => (generateReceiptNumber tx).bind k) := by
  cases hout : outcome fault (exec (.insertTransaction tx) run.cfg.state) with
  | error e =>
    refine h.quiet hth rfl ?_ ?_ ?_ <;> rw [hout]
    · rfl
    · rfl
    · exact .ended _
  | ok r =>
    obtain ⟨a, db'⟩ := r
    obtain ⟨hstores, rfl, rfl⟩ := exec_insertTransaction (outcome_eq_ok hout).2
    have hstate : (run.resume i fault th (c := .insertTransaction tx) fun r =>
        (Proc.done r).bind fun tx => (generateReceiptNumber tx).bind k).cfg.state =
        run.cfg.state.putTransaction (tx.stamp run.cfg.state.now) := by
      unfold Run.resume
      rw [hout]
      rfl
    subst hid
    refine h.resumed hth (resume_cfg ..) ?_ ⟨fun j hj => ?_, fun j _ d => Iff.rfl, fun r _ => Iff.rfl⟩
      ⟨?_, h.noted.once, h.noted.drawn, ?_, h.noted.saved⟩
    · rw [hout]
      refine .querying (tx.stamp run.cfg.state.now) k ?_ hreceipt
        (hunnumbered.congr rfl rfl) hrest
      rw [hstate, Db.transaction_put]
      exact if_pos rfl
    · rw [hstate, Db.transaction_put]
      exact if_neg (Ne.symm hj)
    · rw [hstate]
      have hfiled : Filed run.receipts (tx.stamp run.cfg.state.now) := Or.inl hreceipt
      exact h.noted.indexed.store hfiled (Db.storeTransaction_of_stores hstores)
    · rw [hstate]
      exact h.noted.given

/-- The sequence has been asked. -/
theorem Inv.queried (h : Inv run) (hth : run.cfg.thread i = some th) {tx : Transaction}
    {k : Transaction → Payment} (hrow : run.cfg.state.transaction i = some tx)
    (hunnumbered : Unnumbered run i) (hrest : ∀ tx', (k tx').Issues (Keeps tx')) :
    Inv (run.resume i fault th (c := .nextReceipt) fun seq =>
      (compose (match seq with
        | .ok n => .sequence n
        | .error _ => .clock) tx).bind k) := by
  -- what the sequence has given before is smaller than what it gives now
  have hnew : ∀ j, (j, Draw.sequence (run.cfg.state.receiptSeq + 1)) ∉ run.drawn := by
    intro j hj
    have hle := (h.noted.given j _ hj).1
    omega
  have hdrawn : ∀ draw, ((run.drawn ++ [(i, draw)]).map Prod.fst).Nodup := by
    intro draw
    rw [List.map_append, List.nodup_append]
    refine ⟨h.noted.once, List.nodup_singleton _, ?_⟩
    rintro j hj j' hj' rfl
    obtain rfl := List.mem_singleton.mp hj'
    exact hunnumbered.drawn hj
  have hbeside : ∀ draw j, j ≠ i → ∀ d, (j, d) ∈ run.drawn ++ [(i, draw)] ↔ (j, d) ∈ run.drawn := by
    intro draw j hj d
    rw [List.mem_append, List.mem_singleton, Prod.mk.injEq]
    exact or_iff_left fun hmem => hj hmem.1
  cases fault with
  | some e =>
    refine h.resumed hth (resume_cfg ..) ?_ ⟨fun j _ => rfl, hbeside .clock, fun r _ => Iff.rfl⟩
      ⟨h.noted.indexed, hdrawn .clock, fun r hr => List.mem_append_left _ (h.noted.drawn r hr),
        fun j n hj => ?_, h.noted.saved⟩
    · exact .reading tx .clock k hrow (List.mem_append_right _ List.mem_cons_self)
        hunnumbered.receipts hrest
    · have hold : ∀ j, (j, Draw.sequence n) ∈ run.drawn ++ [(i, .clock)] →
          (j, Draw.sequence n) ∈ run.drawn := by
        intro j hj
        simpa using hj
      obtain ⟨hle, hsame⟩ := h.noted.given j n (hold j hj)
      exact ⟨hle, fun j' hj' => hsame j' (hold j' hj')⟩
  | none =>
    refine h.resumed hth (resume_cfg ..) ?_ ⟨fun j _ => rfl, hbeside (.sequence _),
        fun r _ => Iff.rfl⟩
      ⟨⟨h.noted.indexed.ids, h.noted.indexed.references, h.noted.indexed.filed⟩,
        hdrawn (.sequence _), fun r hr => List.mem_append_left _ (h.noted.drawn r hr),
        fun j n hj => ?_, h.noted.saved⟩
    · exact .reading tx (.sequence _) k hrow (List.mem_append_right _ List.mem_cons_self)
        hunnumbered.receipts hrest
    · change (j, Draw.sequence n) ∈ run.drawn ++ [(i, .sequence (run.cfg.state.receiptSeq + 1))] at hj
      change n ≤ run.cfg.state.receiptSeq + 1 ∧ ∀ j', (j', Draw.sequence n) ∈
        run.drawn ++ [(i, .sequence (run.cfg.state.receiptSeq + 1))] → j' = j
      simp only [List.mem_append, List.mem_singleton, Prod.mk.injEq, Draw.sequence.injEq] at hj ⊢
      rcases hj with hold | ⟨rfl, rfl⟩
      · obtain ⟨hle, hsame⟩ := h.noted.given j n hold
        refine ⟨by omega, fun j' hj' => ?_⟩
        rcases hj' with hold' | ⟨-, rfl⟩
        · exact hsame j' hold'
        · exact absurd hold (hnew j)
      · refine ⟨le_rfl, fun j' hj' => ?_⟩
        rcases hj' with hold' | ⟨rfl, -⟩
        · exact absurd hold' (hnew j')
        · rfl

/-- The clock has answered. -/
def composing (draw : Draw) (tx : Transaction) (k : Transaction → Payment)
    (t : Except Err Time) : Payment :=
  (Proc.done t).bind fun t =>
    (await (.saveTransaction .receipt (tx.withReceipt t (draw.digits t)))).bind fun _ =>
      k (tx.withReceipt t (draw.digits t))

theorem Inv.composed (h : Inv run) (hth : run.cfg.thread i = some th) {tx : Transaction}
    {draw : Draw} {k : Transaction → Payment} (hrow : run.cfg.state.transaction i = some tx)
    (hdrawn : (i, draw) ∈ run.drawn) (hunreceipted : i ∉ run.receipts.map Receipt.txId)
    (hrest : ∀ tx', (k tx').Issues (Keeps tx')) :
    Inv (run.resume i none th (c := .now) (composing draw tx k)) := by
  let r : Receipt := ⟨i, draw, run.cfg.state.now⟩
  have hget : Table.get Prod.fst run.drawn i = some (i, draw) :=
    Table.get_of_mem Prod.fst h.noted.once hdrawn
  have hnote : run.note i none .now = { run with receipts := run.receipts ++ [r] } := by
    rw [Run.note, hget]
    exact if_neg hunreceipted
  have hrun : run.resume i none th (c := .now) (composing draw tx k) =
      { cfg := run.cfg.resume th (c := .now) (composing draw tx k)
          (outcome none (exec .now run.cfg.state))
        drawn := run.drawn, receipts := run.receipts ++ [r], saved := run.saved } := by
    rw [Run.resume, hnote]
  rw [hrun]
  obtain ⟨hmem, hid⟩ := mem_of_transaction hrow
  refine h.resumed hth rfl ?_ ⟨fun j _ => rfl, fun j _ d => Iff.rfl, fun r' hr' => ?_⟩
    ⟨h.noted.indexed.mono, h.noted.once, fun r' hr' => ?_, h.noted.given, fun tx' htx' => ?_⟩
  · refine .saving (tx.withReceipt run.cfg.state.now (draw.digits run.cfg.state.now)) k hid
      ⟨tx, ?_, rfl⟩ ⟨r, List.mem_append_right _ List.mem_cons_self, rfl, rfl⟩ hrest
    exact (congrArg run.cfg.state.transaction hid).trans hrow
  · rw [List.mem_append, List.mem_singleton]
    exact or_iff_left fun heq => hr' (congrArg Receipt.txId heq)
  · rcases List.mem_append.mp hr' with hold | hnew
    · exact h.noted.drawn r' hold
    · obtain rfl := List.mem_singleton.mp hnew
      exact hdrawn
  · obtain ⟨r', hr', hfiled⟩ := h.noted.saved tx' htx'
    exact ⟨r', List.mem_append_left _ hr', hfiled⟩

theorem referenced_put {db : Db} {tx tx' : Transaction} (h : tx'.id = tx.id)
    (hreference : tx'.reference = tx.reference) : Referenced (db.putTransaction tx') tx :=
  ⟨tx', by rw [Db.transaction_put, if_pos h], hreference⟩

/-- The row is saved with its receipt number. -/
theorem Inv.saved (h : Inv run) (hth : run.cfg.thread i = some th) {tx : Transaction}
    {k : Transaction → Payment} (hid : tx.id = i)
    (hreceipt : ∃ r ∈ run.receipts, r.txId = i ∧ tx.receiptNumber = some r.number)
    (hrest : ∀ tx', (k tx').Issues (Keeps tx')) :
    Inv (run.resume i fault th (c := .saveTransaction .receipt tx) fun r =>
      (Proc.done r).bind fun _ => k tx) := by
  subst hid
  have hsaved : ∀ tx' ∈ run.saved ++ [tx], ∃ r ∈ run.receipts, r.txId = tx'.id ∧
      tx'.receiptNumber = some r.number := by
    intro tx' htx'
    rcases List.mem_append.mp htx' with hold | hnew
    · exact h.noted.saved tx' hold
    · obtain rfl := List.mem_singleton.mp hnew
      exact hreceipt
  cases hout : outcome fault (exec (.saveTransaction .receipt tx) run.cfg.state) with
  | error e =>
    have hstate : (run.resume tx.id fault th (c := .saveTransaction .receipt tx) fun r =>
        (Proc.done r).bind fun _ => k tx).cfg.state = run.cfg.state := by
      unfold Run.resume
      rw [hout]
      rfl
    refine h.resumed hth (resume_cfg ..) ?_ ⟨fun j _ => ?_, fun j _ d => Iff.rfl,
      fun r _ => Iff.rfl⟩ ⟨?_, h.noted.once, h.noted.drawn, ?_, hsaved⟩
    · rw [hout]
      exact .ended _
    · rw [hstate]
    · rw [hstate]
      exact h.noted.indexed
    · rw [hstate]
      exact h.noted.given
  | ok r =>
    obtain ⟨a, db'⟩ := r
    obtain ⟨hstores, rfl⟩ := exec_saveTransaction (outcome_eq_ok hout).2
    have hstate : (run.resume tx.id fault th (c := .saveTransaction .receipt tx) fun r =>
        (Proc.done r).bind fun _ => k tx).cfg.state = run.cfg.state.putTransaction tx := by
      unfold Run.resume
      rw [hout]
      rfl
    refine h.resumed hth (resume_cfg ..) ?_ ⟨fun j hj => ?_, fun j _ d => Iff.rfl,
      fun r _ => Iff.rfl⟩ ⟨?_, h.noted.once, h.noted.drawn, ?_, hsaved⟩
    · rw [hout]
      refine .settling tx rfl ?_ hreceipt (hrest tx)
      rw [hstate]
      exact referenced_put rfl rfl
    · rw [hstate, Db.transaction_put, if_neg (Ne.symm hj)]
    · rw [hstate]
      exact h.noted.indexed.store (Or.inr hreceipt) (Db.storeTransaction_of_stores hstores)
    · rw [hstate]
      exact h.noted.given

/-- A payment that writes its row again, or leaves the table alone. -/
theorem Inv.rewritten (h : Inv run) (hth : run.cfg.thread i = some th) {tx : Transaction}
    (hnote : run.note i fault c = run) (hid : tx.id = i)
    (hreceipt : ∃ r ∈ run.receipts, r.txId = i ∧ tx.receiptNumber = some r.number)
    (hrest : ∀ r, (next r).Issues (Keeps tx)) {db' : Db}
    (hstate : after (outcome fault (exec c run.cfg.state)) run.cfg.state = db')
    (hrows : ∀ j, j ≠ i → db'.transaction j = run.cfg.state.transaction j)
    (hrow : Referenced db' tx) (hindexed : Indexed run.receipts db')
    (hseq : db'.receiptSeq = run.cfg.state.receiptSeq) : Inv (run.resume i fault th next) := by
  subst hstate
  obtain ⟨hdrawn, hreceipts, hsaved⟩ := resume_notes th next hnote
  refine h.resumed hth (resume_cfg ..) (.settling tx hid hrow ?_ (hrest _))
    ⟨hrows, fun j _ d => ?_, fun r _ => ?_⟩ ⟨?_, ?_, ?_, ?_, ?_⟩
  · rw [hreceipts]
    exact hreceipt
  · rw [hdrawn]
  · rw [hreceipts]
  · rw [hreceipts]
    exact hindexed
  · rw [hdrawn]
    exact h.noted.once
  · rw [hdrawn, hreceipts]
    exact h.noted.drawn
  · rw [hdrawn]
    have hgiven := h.noted.given
    rw [← hseq] at hgiven
    exact hgiven
  · rw [hsaved, hreceipts]
    exact h.noted.saved

theorem referenced_foldl {db : Db} {tx : Transaction} {rows : List Transaction}
    (hsame : ∀ tx' ∈ rows, Same tx tx') (h : Referenced db tx) :
    Referenced (rows.foldl Db.putTransaction db) tx := by
  induction rows generalizing db with
  | nil => exact h
  | cons tx' rows ih =>
    have hput := hsame tx' List.mem_cons_self
    exact ih (fun tx'' htx'' => hsame tx'' (List.mem_cons_of_mem tx' htx''))
      (referenced_put hput.id hput.reference)

theorem Same.filed {receipts : List Receipt} {tx tx' : Transaction} (h : Same tx tx')
    (hreceipt : ∃ r ∈ receipts, r.txId = tx.id ∧ tx.receiptNumber = some r.number) :
    Filed receipts tx' := by
  obtain ⟨r, hr, hid, hnumber⟩ := hreceipt
  exact Or.inr ⟨r, hr, hid.trans h.id.symm, h.receiptNumber.trans hnumber⟩

/-- What a command does that keeps the row. -/
theorem keeps_cases {tx : Transaction} (h : Keeps tx c) :
    aside c = true ∨ (∃ site tx', c = .saveTransaction site tx' ∧ site ≠ .receipt ∧ Same tx tx') ∨
      (∃ tx', c = .managerSave tx' ∧ Same tx tx') ∨
      ∃ rows, c = .commit rows ∧ ∀ tx' ∈ rows, Same tx tx' := by
  cases c with
  | saveTransaction site tx' =>
    right
    left
    cases site with
    | receipt => cases h
    | _ => exact ⟨_, tx', rfl, by simp, h⟩
  | managerSave tx' => exact Or.inr (Or.inr (Or.inl ⟨tx', rfl, h⟩))
  | commit rows => exact Or.inr (Or.inr (Or.inr ⟨rows, rfl, h⟩))
  | _ => exact Or.inl h

theorem note_save (run : Run) (i : TxId) (fault : Option Err) {site : SaveSite}
    (h : site ≠ .receipt) (tx : Transaction) :
    run.note i fault (.saveTransaction site tx) = run := by
  cases site with
  | receipt => exact absurd rfl h
  | _ => rfl

/-- A payment with its receipt number goes on. -/
theorem Inv.settled (h : Inv run) (hth : run.cfg.thread i = some th) {tx : Transaction}
    (hid : tx.id = i) (hrow : Referenced run.cfg.state tx)
    (hreceipt : ∃ r ∈ run.receipts, r.txId = i ∧ tx.receiptNumber = some r.number)
    (hkeeps : Keeps tx c) (hrest : ∀ r, (next r).Issues (Keeps tx)) :
    Inv (run.resume i fault th next) := by
  subst hid
  have hindexed := h.noted.indexed
  -- rows of the transaction that are published
  have hcommitted : ∀ (rows : List Transaction) {db' : Db}, (∀ tx' ∈ rows, Same tx tx') →
      run.cfg.state.commit rows = .ok db' → run.note tx.id fault c = run →
      after (outcome fault (exec c run.cfg.state)) run.cfg.state = db' →
      Inv (run.resume tx.id fault th next) := by
    intro rows db' hsame hcommit hnote hstate
    refine h.rewritten hth hnote rfl hreceipt hrest hstate (fun j hj => ?_) ?_
      (hindexed.commit (fun tx' htx' => (hsame tx' htx').filed hreceipt) hcommit) ?_
    · rw [Db.commit_ok hcommit]
      refine Db.transaction_foldl_put fun hmem => ?_
      obtain ⟨tx', htx', rfl⟩ := List.mem_map.mp hmem
      exact hj (hsame tx' htx').id
    · rw [Db.commit_ok hcommit]
      exact referenced_foldl hsame hrow
    · rw [Db.commit_ok hcommit]
      obtain ⟨ts, hts⟩ := Db.foldl_putTransaction run.cfg.state rows
      rw [hts]
  have hfails : ∀ {e : Err}, outcome fault (exec c run.cfg.state) = .error e →
      run.note tx.id fault c = run → Inv (run.resume tx.id fault th next) := by
    intro e hout hnote
    exact hcommitted [] (by simp) rfl hnote (congrArg (after · run.cfg.state) hout)
  rcases keeps_cases hkeeps with hc | ⟨site, tx', rfl, hsite, hsame⟩ | ⟨tx', rfl, hsame⟩ |
    ⟨rows, rfl, hsame⟩
  · have hnote := note_aside hc fault (Or.inr (by
      obtain ⟨r, hr, hrid, -⟩ := hreceipt
      exact List.mem_map.mpr ⟨r, hr, hrid⟩))
    obtain ⟨hts, hseq⟩ := after_aside hc fault run.cfg.state
    refine h.rewritten hth hnote rfl hreceipt hrest rfl (fun j _ => transaction_congr hts j) ?_
      ⟨hts ▸ hindexed.ids, hts ▸ hindexed.references, hts ▸ hindexed.filed⟩ hseq
    obtain ⟨row, hfound, hreference⟩ := hrow
    exact ⟨row, (transaction_congr hts tx.id).trans hfound, hreference⟩
  · have hnote := note_save run tx.id fault hsite tx'
    cases hout : outcome fault (exec (.saveTransaction site tx') run.cfg.state) with
    | error e => exact hfails hout hnote
    | ok r =>
      obtain ⟨a, db'⟩ := r
      obtain ⟨hstores, rfl⟩ := exec_saveTransaction (outcome_eq_ok hout).2
      refine hcommitted [tx'] (fun tx'' htx'' => ?_) ?_ hnote (congrArg (after · run.cfg.state) hout)
      · rw [List.mem_singleton.mp htx'']
        exact hsame
      · rw [Db.commit, Db.storeTransaction_of_stores hstores]
        rfl
  · cases hout : outcome fault (exec (.managerSave tx') run.cfg.state) with
    | error e => exact hfails hout rfl
    | ok r =>
      obtain ⟨a, db'⟩ := r
      obtain ⟨-, rfl⟩ := exec_managerSave (outcome_eq_ok hout).2
      exact hcommitted [] (by simp) rfl rfl (congrArg (after · run.cfg.state) hout)
  · cases hout : outcome fault (exec (.commit rows) run.cfg.state) with
    | error e => exact hfails hout rfl
    | ok r =>
      obtain ⟨a, db'⟩ := r
      exact hcommitted rows hsame (exec_commit (outcome_eq_ok hout).2) rfl (congrArg (after · run.cfg.state) hout)

/-- A step of a payment. -/
theorem Inv.goes_on (h : Inv run) (hth : run.cfg.thread i = some th) (hproc : th.proc = .await c next)
    (hfault : fault = none ∨ mayFail c = true) : Inv (run.resume i fault th next) := by
  have hstage := h.stages i th hth
  rw [hproc] at hstage
  generalize hp : Proc.await c next = p at hstage
  cases hstage with
  | opening rest norow unnumbered =>
    cases rest with
    | done r => cases hp
    | await here rest =>
      cases hp
      exact h.opening hth here rest norow unnumbered
    | insert tx k id receiptNumber rest =>
      obtain ⟨rfl, hnext⟩ := Proc.await.inj hp
      cases hnext
      exact h.inserted hth id receiptNumber rest unnumbered
  | querying tx k row receiptNumber unnumbered rest =>
    obtain ⟨rfl, hnext⟩ := Proc.await.inj hp
    have hsame : next = fun seq => (compose (match seq with
        | .ok n => .sequence n
        | .error _ => .clock) tx).bind k := by
      rw [eq_of_heq hnext]
      funext seq
      cases seq <;> rfl
    subst hsame
    exact h.queried hth row unnumbered rest
  | reading tx draw k row drawn unreceipted rest =>
    obtain ⟨rfl, hnext⟩ := Proc.await.inj hp
    have hsame : next = composing draw tx k := by
      rw [eq_of_heq hnext]
      funext t
      cases t with
      | error e => rfl
      | ok t =>
        simp only [composing, Proc.done_ok_bind, Proc.bind_eq, Proc.bind_assoc, Proc.pure_eq]
    subst hsame
    -- the clock cannot fail
    obtain rfl := hfault.resolve_right (by decide)
    exact h.composed hth row drawn unreceipted rest
  | saving tx k id row receipt rest =>
    obtain ⟨rfl, hnext⟩ := Proc.await.inj hp
    cases hnext
    exact h.saved hth id receipt rest
  | settling tx id row receipt rest =>
    cases hp
    exact h.settled hth id row receipt rest.1 rest.2
  | ended r => cases hp

end Step

/-- **Step lemma.** -/
theorem Inv.step (h : Inv run) {e : Event Call Err} (hpays : ∀ i k, e = .call i k → pays k = true)
    (hstep : run.step e = some run') : Inv run' := by
  obtain ⟨cfg', hcfg, rfl⟩ := Option.map_eq_some_iff.mp hstep
  rcases server.step_cases hcfg with ⟨i, k, rfl, hfresh, rfl⟩ |
    ⟨i, fault, th, c, next, rfl, hth, hproc, -, hfault, rfl⟩
  · refine ⟨fun j th hth => ?_, fun j hnone => ?_, h.noted.same rfl rfl ⟨rfl, rfl, rfl⟩⟩
    · rcases Config.thread_spawn_cases hth with ⟨rfl, rfl⟩ | hold
      · obtain ⟨hnorow, hunnumbered⟩ := h.fresh j hfresh
        exact .opening (opening_prog (hpays j k rfl)) hnorow (hunnumbered.congr rfl rfl)
      · have hbeside : Beside run { run with cfg := run.cfg.spawn i k (server.prog i k) } (j + 1) :=
          ⟨fun _ _ => rfl, fun _ _ _ => Iff.rfl, fun _ _ => Iff.rfl⟩
        exact (h.stages j th hold).frame hbeside (Nat.ne_of_lt (Nat.lt_succ_self j))
    · change (run.cfg.spawn i k (server.prog i k)).thread j = none at hnone
      rw [Config.thread_spawn] at hnone
      split at hnone
      · cases hnone
      · obtain ⟨hnorow, hunnumbered⟩ := h.fresh j hnone
        exact ⟨hnorow, hunnumbered.congr rfl rfl⟩
  · have hnoted : run.noted (.step i fault) = run.note i fault c := by
      simp only [Run.noted, hth, Option.bind_some, hproc, Proc.waitsOn]
    rw [hnoted]
    exact h.goes_on hth hproc hfault

/-- **Run lemma.** -/
theorem Inv.follow (h : Inv run) {es : List (Event Call Err)}
    (hpays : ∀ i k, .call i k ∈ es → pays k = true) (hrun : run.follow es = some run') :
    Inv run' := by
  induction es generalizing run with
  | nil =>
    cases hrun
    exact h
  | cons e es ih =>
    obtain ⟨run₁, hstep, hrest⟩ := Option.bind_eq_some_iff.mp hrun
    refine ih (h.step (fun i k he => hpays i k ?_) hstep)
      (fun i k hmem => hpays i k (List.mem_cons_of_mem e hmem)) hrest
    rw [he]
    exact List.mem_cons_self

theorem inv_begin {db : Db} (hempty : db.transactions = []) : Inv (begin db) := by
  have hts : (begin db).cfg.state.transactions = [] := hempty
  have hnone : ∀ row ∈ (begin db).cfg.state.transactions, False := by
    rw [hts]
    simp
  refine ⟨fun i th hth => ?_, fun i _ => ⟨?_, List.not_mem_nil, List.not_mem_nil⟩,
    ⟨⟨?_, fun row hrow => (hnone row hrow).elim, fun row hrow => (hnone row hrow).elim⟩,
      List.nodup_nil, fun r hr => ?_, fun i n hmem => ?_, fun tx htx => ?_⟩⟩
  · cases hth
  · rw [Db.transaction, hts, Table.get_nil]
  · rw [hts]
    exact List.nodup_nil
  · cases hr
  · cases hmem
  · cases htx

end Runs

-- ---------------------------------------------------------------------------
-- Unique receipt numbers
-- ---------------------------------------------------------------------------

section Unique

variable {run : Run} {db : Db} {es : List (Event Call Err)}

/-- Receipts that are apart have different numbers: the sequence gives none twice. -/
theorem Inv.distinct (h : Inv run) (hapart : run.receipts.Pairwise Apart) :
    Distinct run.receipts := by
  intro r hr r' hr' hne
  have hpair : Apart r r' := by
    refine hapart.forall hr hr' fun heq => hne ?_
    rw [heq]
  refine number_ne hpair fun n hn hn' => ?_
  have hdrawn := h.noted.drawn r hr
  have hdrawn' := h.noted.drawn r' hr'
  rw [hn] at hdrawn
  rw [hn'] at hdrawn'
  exact hne ((h.noted.given r'.txId n hdrawn').2 r.txId hdrawn)

theorem commit_accepted {receipts : List Receipt} {tx : Transaction} {rows : List Transaction}
    (hindexed : Indexed receipts db) (hdistinct : Distinct receipts) (hrow : Referenced db tx)
    (hreceipt : ∃ r ∈ receipts, r.txId = tx.id ∧ tx.receiptNumber = some r.number)
    (hsame : ∀ tx' ∈ rows, Same tx tx') : db.commit rows ≠ .error .uniqueViolation := by
  induction rows generalizing db with
  | nil => simp [Db.commit]
  | cons tx' rows ih =>
    have hput := hsame tx' List.mem_cons_self
    have hrow' : Referenced db tx' := by
      obtain ⟨row, hfound, hreference⟩ := hrow
      exact ⟨row, (congrArg db.transaction hput.id).trans hfound,
        hreference.trans hput.reference.symm⟩
    have haccepted := hindexed.store_accepted hdistinct hrow' (hput.filed hreceipt)
    rw [Db.commit]
    cases hstore : db.storeTransaction tx' with
    | error e =>
      rw [hstore] at haccepted
      exact haccepted
    | ok db' =>
      obtain ⟨-, rfl⟩ := Db.storeTransaction_ok hstore
      exact ih (hindexed.store (hput.filed hreceipt) hstore)
        (referenced_put hput.id hput.reference) fun tx'' htx'' =>
          hsame tx'' (List.mem_cons_of_mem tx' htx'')

/-- The row of a transaction with a receipt is written again. -/
theorem save_accepted {receipts : List Receipt} {tx tx' : Transaction}
    (hindexed : Indexed receipts db) (hdistinct : Distinct receipts) (hrow : Referenced db tx)
    (hreceipt : ∃ r ∈ receipts, r.txId = tx.id ∧ tx.receiptNumber = some r.number)
    (hsame : Same tx tx') : db.storeTransaction tx' ≠ .error .uniqueViolation := by
  intro herror
  have hall : ∀ tx'' ∈ [tx'], Same tx tx'' := by
    intro tx'' htx''
    rw [List.mem_singleton.mp htx'']
    exact hsame
  refine commit_accepted hindexed hdistinct hrow hreceipt hall ?_
  rw [Db.commit, herror]

theorem exec_saveTransaction_error {site : SaveSite} {tx : Transaction} {e : Err}
    (h : exec (.saveTransaction site tx) db = .error e) : db.storeTransaction tx = .error e := by
  rw [exec] at h
  split at h
  · rename_i herror
    cases h
    exact herror
  · cases h

theorem exec_managerSave_error {tx : Transaction} {e : Err}
    (h : exec (.managerSave tx) db = .error e) : db.storeTransaction tx = .error e := by
  rw [exec] at h
  split at h
  · rename_i herror
    cases h
    exact herror
  · cases h

theorem exec_commit_error {rows : List Transaction} {e : Err}
    (h : exec (.commit rows) db = .error e) : db.commit rows = .error e := by
  rw [exec] at h
  split at h
  · rename_i herror
    cases h
    exact herror
  · cases h

theorem not_rewrites_of_aside {c : Cmd} (h : aside c = true) : rewrites c = false := by
  cases c <;> first | rfl | cases h

/-- A payment with its receipt number writes its row. -/
theorem keeps_accepted {receipts : List Receipt} {tx : Transaction} {c : Cmd}
    (hindexed : Indexed receipts db) (hdistinct : Distinct receipts) (hrow : Referenced db tx)
    (hreceipt : ∃ r ∈ receipts, r.txId = tx.id ∧ tx.receiptNumber = some r.number)
    (hkeeps : Keeps tx c) (hrewrites : rewrites c = true) :
    exec c db ≠ .error .uniqueViolation := by
  intro herror
  rcases keeps_cases hkeeps with hc | ⟨site, tx', rfl, -, hsame⟩ | ⟨tx', rfl, hsame⟩ |
    ⟨rows, rfl, hsame⟩
  · rw [not_rewrites_of_aside hc] at hrewrites
    cases hrewrites
  · exact save_accepted hindexed hdistinct hrow hreceipt hsame (exec_saveTransaction_error herror)
  · exact save_accepted hindexed hdistinct hrow hreceipt hsame (exec_managerSave_error herror)
  · exact commit_accepted hindexed hdistinct hrow hreceipt hsame (exec_commit_error herror)

theorem Inv.accepted (h : Inv run) (hdistinct : Distinct run.receipts) {i : TxId}
    {th : Thread Call Cmd Cmd.Reply Err (Option Transaction)} {c : Cmd}
    {next : Except Err c.Reply → Payment} (hth : run.cfg.thread i = some th)
    (hproc : th.proc = .await c next) (hrewrites : rewrites c = true) :
    exec c run.cfg.state ≠ .error .uniqueViolation := by
  have hstage := h.stages i th hth
  rw [hproc] at hstage
  generalize hp : Proc.await c next = p at hstage
  cases hstage with
  | opening rest _ _ =>
    cases rest with
    | done r => cases hp
    | await here _ =>
      cases hp
      rw [not_rewrites_of_aside here] at hrewrites
      cases hrewrites
    | insert tx k _ _ _ =>
      obtain ⟨rfl, -⟩ := Proc.await.inj hp
      cases hrewrites
  | querying tx k _ _ _ _ =>
    obtain ⟨rfl, -⟩ := Proc.await.inj hp
    cases hrewrites
  | reading tx draw k _ _ _ _ =>
    obtain ⟨rfl, -⟩ := Proc.await.inj hp
    cases hrewrites
  | saving tx k id row receipt _ =>
    obtain ⟨rfl, -⟩ := Proc.await.inj hp
    subst id
    exact fun herror => save_accepted h.noted.indexed hdistinct row receipt (Same.refl tx)
      (exec_saveTransaction_error herror)
  | settling tx id row receipt rest =>
    cases hp
    subst id
    exact keeps_accepted h.noted.indexed hdistinct row receipt rest.1 hrewrites
  | ended r => cases hp

/-- **Receipt numbers are unique** in a run whose receipts are apart. -/
theorem receipts_unique (hempty : db.transactions = [])
    (hpays : ∀ i k, .call i k ∈ es → pays k = true) (hrun : (begin db).follow es = some run)
    (hapart : run.receipts.Pairwise Apart) : Unique run := by
  have hinv := (inv_begin hempty).follow hpays hrun
  have hdistinct := hinv.distinct hapart
  refine ⟨fun tx htx tx' htx' hne heq => ?_, fun i th c next hth hproc hrewrites =>
    hinv.accepted hdistinct hth hproc hrewrites⟩
  obtain ⟨r, hr, hid, hnumber⟩ := hinv.noted.saved tx htx
  obtain ⟨r', hr', hid', hnumber'⟩ := hinv.noted.saved tx' htx'
  rw [hnumber, hnumber'] at heq
  refine hdistinct r hr r' hr' (fun hsame => hne ?_) (Option.some.inj heq)
  rw [← hid, ← hid', hsame]

end Unique

/-- User 1 holds 30.00 USD, and user 2 none. -/
def payerAndPayee : Db :=
  .deployed [{ Wallet.create 1 "USD" with balance := 3000 }, Wallet.create 2 "USD"]

/-- A transfer of 10.00 USD. -/
def tenDollars (reference : String) : Call := .transfer ⟨1, 2, 10, "USD", reference, none⟩

/-- The first seven awaits of a transfer: its row is saved with its receipt number. -/
def filing (i : TxId) (fault : Option Err) : List (Event Call Err) :=
  [.step i none, .step i none, .step i none, .step i none, .step i fault, .step i none,
    .step i none]

/-- Of two transfers the second takes its number from the clock. -/
def numbered : List (Event Call Err) :=
  .call 0 (tenDollars "a") :: .call 1 (tenDollars "b") :: filing 0 none ++ filing 1 (some .fault)

/-- The sequence fails twice, and the clock shows the same six digits a thousand
seconds later. -/
def wrapped : List (Event Call Err) :=
  .call 0 (tenDollars "a") :: filing 0 (some .fault) ++
    [.call 1 (.tick 1000000), .step 1 none, .call 2 (tenDollars "b")] ++
    (filing 2 (some .fault)).take 6

theorem numbered_unique : ∃ run, (begin payerAndPayee).follow numbered = some run ∧ Unique run := by
  have hrun : ((begin payerAndPayee).follow numbered).any (fun run => run.receipts =
      [⟨0, .sequence 1, 1767225600000⟩, ⟨1, .clock, 1767225600000⟩]) = true := by
    decide +kernel
  obtain ⟨run, hfollow, hreceipts⟩ := Option.any_eq_true .. |>.mp hrun
  refine ⟨run, hfollow, receipts_unique rfl (fun i k hmem => ?_) hfollow ?_⟩
  · simp only [numbered, filing, List.cons_append, List.nil_append, List.mem_cons, Event.call.injEq,
      reduceCtorEq, List.not_mem_nil, or_false] at hmem
    rcases hmem with ⟨-, rfl⟩ | ⟨-, rfl⟩ <;> rfl
  · rw [of_decide_eq_true hreceipts]
    simp only [List.pairwise_cons, List.mem_singleton, forall_eq, List.not_mem_nil, false_imp_iff,
      implies_true, List.Pairwise.nil, and_true]
    intro _
    show padStart 1 ≠ lastSix 1767225600000
    decide +kernel

/-- The second transfer has stored its row, and the unique index refuses its
receipt number. -/
theorem receipt_numbers_meet :
    ¬ ∀ es run, (∀ i k, .call i k ∈ es → pays k = true) →
      (begin payerAndPayee).follow es = some run → Unique run := by
  intro h
  have hrun : ((begin payerAndPayee).follow wrapped).any (fun run =>
      (run.cfg.state.transaction 2).any (fun tx => tx.status = .pending) &&
        (run.cfg.thread 2).any fun th => match th.proc with
          | .await c _ => rewrites c && match exec c run.cfg.state with
            | .error e => decide (e = .uniqueViolation)
            | .ok _ => false
          | .done _ => false) = true := by
    decide +kernel
  obtain ⟨run, hfollow, hrefused⟩ := Option.any_eq_true .. |>.mp hrun
  rw [Bool.and_eq_true] at hrefused
  obtain ⟨th, hth, hproc⟩ := Option.any_eq_true .. |>.mp hrefused.2
  have hunique := h wrapped run (fun i k hmem => ?_) hfollow
  · split at hproc
    · rename_i c next hawait
      rw [Bool.and_eq_true] at hproc
      obtain ⟨hrewrites, hexec⟩ := hproc
      split at hexec
      · rename_i e herror
        rw [of_decide_eq_true hexec] at herror
        exact hunique.accepted 2 th c next hth hawait hrewrites herror
      · cases hexec
    · cases hproc
  · simp only [wrapped, filing, List.cons_append, List.nil_append, List.mem_cons, Event.call.injEq,
      reduceCtorEq, List.take, List.not_mem_nil, false_or, or_false] at hmem
    rcases hmem with ⟨-, rfl⟩ | ⟨-, rfl⟩ | ⟨-, rfl⟩ <;> rfl

end Receipts

end NexaFx
