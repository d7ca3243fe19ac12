import NexaFx.Safety.Ledger
import NexaFx.Safety.PayOut

/-!
# NexaFx — what a reversal undoes

`reverseTransaction` swaps the amount back between the sender and the receiver
of the row, whatever created the row and whatever its status says. A deposit, a
withdrawal and a swap name one user twice, so the two changes cancel and
nothing is undone; and a row that is not in force is reversed like any other.

`reversal_exact_iff` says exactly when a reversal undoes what is in force.
-/

namespace NexaFx

open Async Decimal Proc

-- ---------------------------------------------------------------------------
-- The run
-- ---------------------------------------------------------------------------

namespace Transaction

/-- The wallet of the sender takes the amount back. -/
def GivesBack (tx : Transaction) (db : Db) : Prop :=
  db.Takes tx.senderId tx.currency (toFixed 8 tx.amount)

/-- Then the wallet of the receiver gives it up. -/
def TakesBack (tx : Transaction) (db : Db) : Prop :=
  toFixed 8 (-tx.amount) = 0 ∨ -(1 / 2) <
    (db.changed tx.senderId tx.currency (toFixed 8 tx.amount) tx.receiverId
      (normalizeCurrencyCode tx.currency) : ℚ) + 100 * toFixed 8 (-tx.amount)

/-- The reversal record and the marked row meet the constraints of the table. -/
def Recordable (tx : Transaction) (i : TxId) (reason : String) (db : Db) : Prop :=
  db.Stores (tx.reversal i reason db.now) ∧ db.Stores tx

end Transaction

section Run

variable {i x : TxId} {tx : Transaction} {input : ReverseInput} {db d d' : Db}

theorem reverse_found (hrow : db.transaction x = some tx) (hopen : tx.reversedAt.isSome = false) :
    (reverseTransaction i x input).run exec noFault db =
      ((reverseMoves i tx).bind fun _ => reverseRecord i tx input).run exec noFault db := by
  unfold reverseTransaction findById
  simp only [bind_eq, bind_assoc]
  rw [run_call_bind_ok rfl rfl, hrow]
  simp only [pure_eq, done_ok_bind]
  rw [run_rejectWhen_bind, if_neg (by simp [hopen])]

theorem reverse_again (hrow : db.transaction x = some tx) (hclosed : tx.reversedAt.isSome = true) :
    ∃ e, (reverseTransaction i x input).run exec noFault db = (.error e, db) := by
  unfold reverseTransaction findById
  simp only [bind_eq, bind_assoc]
  rw [run_call_bind_ok rfl rfl, hrow]
  simp only [pure_eq, done_ok_bind]
  rw [run_rejectWhen_bind, if_pos hclosed]
  exact ⟨_, rfl⟩

/-- A balance change that the wallet does not take is refused. -/
theorem exec_adjustBalance_not_taken (site : AdjustSite) (call : ℕ) (id : TxId) {u : UserId}
    {c : String} {delta : ℚ} (h : ¬ db.Takes u c delta) :
    ∃ e, exec (.adjustBalance site call id u c delta) db = .error e := by
  cases hexec : exec (.adjustBalance site call id u c delta) db with
  | error e => exact ⟨e, rfl⟩
  | ok r =>
    have hadj := exec_adjustBalance_ok hexec
    exact absurd ⟨hadj.supported, hadj.covered⟩ h

/-- The first balance change is refused. -/
theorem reverseMoves_refused (h : ¬ tx.GivesBack db) :
    ∃ e, (reverseMoves i tx).run exec noFault db = (.error e, db) := by
  obtain ⟨e, he⟩ := exec_adjustBalance_not_taken .reversalCredit i tx.id h
  unfold reverseMoves
  simp only [bind_eq]
  rw [run_call_bind_ok rfl rfl]
  refine ⟨e, run_call_bind_error ?_⟩
  rw [show noFault _ = none from rfl, outcome_none, he]

/-- The first balance change is made; the second as the receiver's wallet takes
it. -/
theorem reverseMoves_given (h : tx.GivesBack db) :
    (¬ tx.TakesBack db → ∃ e d, (reverseMoves i tx).run exec noFault db = (.error e, d) ∧
      d.cents = db.cents + tx.givenBack) ∧
    (tx.TakesBack db → ∃ b d, (reverseMoves i tx).run exec noFault db = (.ok b, d) ∧
      d.cents = db.cents + (tx.givenBack + tx.takenBack) ∧ d.transactions = db.transactions ∧
      d.userExists = db.userExists ∧ d.now = db.now) := by
  obtain ⟨b, d, hexec, hadj⟩ := exec_adjustBalance_carried .reversalCredit i tx.id h.1 h.2
  have hcents : d.cents = db.cents + tx.givenBack := by
    funext a c
    exact hadj.cents a c
  have hcovers : d.Covers tx.receiverId tx.currency (toFixed 8 (-tx.amount)) ↔ tx.TakesBack db := by
    unfold Db.Covers Transaction.TakesBack
    rw [hadj.cents]
    rfl
  unfold reverseMoves
  simp only [bind_eq]
  rw [run_call_bind_ok rfl rfl, run_call_bind_ok rfl hexec]
  constructor
  · intro hno
    obtain ⟨e, he⟩ := exec_adjustBalance_refused .reversalDebit i tx.id fun hc => hno (hcovers.mp hc)
    refine ⟨e, d, ?_, hcents⟩
    rw [run_call, show noFault _ = none from rfl, outcome_none, he]
  · intro hyes
    obtain ⟨b', d', hexec', hadj'⟩ :=
      exec_adjustBalance_carried .reversalDebit i tx.id h.1 (hcovers.mpr hyes)
    refine ⟨b', d', ?_, ?_, hadj'.transactions.trans hadj.transactions,
      hadj'.userExists.trans hadj.userExists, ?_⟩
    · rw [run_call, show noFault _ = none from rfl, outcome_none, hexec']
    · funext a c
      rw [hadj'.cents, hcents]
      exact add_assoc ..
    · obtain ⟨ws, ms, hrest⟩ := hadj.rest
      obtain ⟨ws', ms', hrest'⟩ := hadj'.rest
      rw [hrest', hrest]

/-- A reference is not its own with something added. -/
theorem reference_ne (reference : String) : reference ++ "-reversal" ≠ reference := by
  intro h
  have hlength := congrArg String.length h
  rw [String.length_append] at hlength
  have hsuffix : "-reversal".length = 9 := by decide
  omega

/-- The marked row stays within the constraints beside the new record. -/
theorem stores_marked (reason : String) (t : Time) (t' : Time) (h : d.Stores tx) :
    (d.putTransaction (tx.reversal i reason t)).Stores (tx.markReversed i input t') := by
  refine ⟨?_, h.users⟩
  have hunique := h.unique
  unfold Db.violatesUnique at hunique ⊢
  rw [List.any_eq_false] at hunique ⊢
  intro r hr
  rcases Table.mem_put _ hr with rfl | hold
  · have href : (tx.reversal i reason t).reference ≠ (tx.markReversed i input t').reference :=
      reference_ne tx.reference
    have hreceipt : (tx.reversal i reason t).receiptNumber = none := rfl
    simp [href, hreceipt]
  · exact hunique r hold

/-- The record is written when it can be, and the balances stay as they are. -/
theorem reverseRecord_run (i : TxId) (tx : Transaction) (input : ReverseInput) (d : Db) :
    (tx.Recordable i input.reason d → ∃ marked,
      ((reverseRecord i tx input).run exec noFault d).1 = .ok marked) ∧
    (¬ tx.Recordable i input.reason d → ∃ e,
      ((reverseRecord i tx input).run exec noFault d).1 = .error e) ∧
    ((reverseRecord i tx input).run exec noFault d).2.cents = d.cents := by
  refine ⟨?_, ?_, ?_⟩
  · rintro ⟨hreversal, hrow⟩
    have hmarked : d.Stores (tx.markReversed i input d.now) :=
      hrow.congr rfl rfl rfl rfl rfl rfl rfl
    have husers := hrow.users
    rw [Bool.and_eq_true] at husers
    have hcommit : d.commit [tx.reversal i input.reason d.now, tx.markReversed i input d.now] =
        .ok ((d.putTransaction (tx.reversal i input.reason d.now)).putTransaction
          (tx.markReversed i input d.now)) := by
      rw [Db.commit, Db.storeTransaction_of_stores hreversal]
      simp only
      rw [Db.commit, Db.storeTransaction_of_stores (stores_marked _ _ _ hrow)]
      rfl
    refine ⟨tx.markReversed i input d.now, ?_⟩
    unfold reverseRecord
    simp only [bind_eq]
    rw [run_call_bind_ok rfl rfl, run_call_bind_ok rfl (exec_managerSave_of_stores hreversal),
      run_call_bind_ok rfl rfl, run_call_bind_ok rfl (exec_managerSave_of_stores hmarked),
      run_call_bind_ok rfl (by rw [exec, if_pos husers.1]),
      run_call_bind_ok rfl (by rw [exec, if_pos husers.2]), run_call_bind_ok rfl rfl,
      run_call_bind_ok rfl (by rw [exec, hcommit])]
    rfl
  · intro hno
    cases hrun : (reverseRecord i tx input).run exec noFault d with
    | mk r d' =>
      cases r with
      | error e => exact ⟨e, rfl⟩
      | ok marked =>
        unfold reverseRecord at hrun
        simp only [bind_eq] at hrun
        obtain ⟨_, _, hnow, hrest⟩ := run_call_bind_returns hrun
        cases hnow
        obtain ⟨_, _, hsave, hrest⟩ := run_call_bind_returns hrest
        obtain ⟨hreversal, rfl⟩ := exec_managerSave hsave
        obtain ⟨_, _, hnow, hrest⟩ := run_call_bind_returns hrest
        cases hnow
        obtain ⟨_, _, hsave, -⟩ := run_call_bind_returns hrest
        obtain ⟨hmarked, -⟩ := exec_managerSave hsave
        exact absurd ⟨hreversal, hmarked.congr rfl rfl rfl rfl rfl rfl rfl⟩ hno
  · refine cents_of_still ?_ noFault d
    refine issues_bind (issues_call.mpr rfl) fun _ => ?_
    refine issues_bind (issues_call.mpr rfl) fun _ => ?_
    refine issues_bind (issues_call.mpr rfl) fun _ => ?_
    refine issues_bind (issues_call.mpr rfl) fun _ => ?_
    refine issues_bind (issues_call.mpr rfl) fun _ => ?_
    refine issues_bind (issues_call.mpr rfl) fun _ => ?_
    refine issues_bind (issues_call.mpr rfl) fun _ => ?_
    exact issues_bind (issues_call.mpr rfl) fun _ => issues_done _

end Run

-- ---------------------------------------------------------------------------
-- What is undone
-- ---------------------------------------------------------------------------

/-- The row that the call inserts. -/
def Call.row (i : TxId) : Call → Option Transaction
  | .transfer dto => some (dto.create i)
  | .deposit dto => some (dto.create i)
  | .withdrawal dto => some (dto.create i)
  | .swap dto => some (dto.create i)
  | _ => none

/-- `tx` is that row, with any status, fee and times. -/
def Transaction.CreatedBy (tx : Transaction) (k : Call) : Prop :=
  ∃ row, k.row tx.id = some row ∧ tx.senderId = row.senderId ∧ tx.receiverId = row.receiverId ∧
    tx.amount = row.amount ∧ tx.currency = row.currency

/-- What a reversal finds in force: both changes of a transfer; changes of a
deposit, a withdrawal or a swap that come to nothing. -/
def Call.InForce (x : TxId) (db : Db) : Call → Prop
  | .transfer dto => db.netOf x = moved dto.senderId dto.currency (-dto.amount) +
      moved dto.receiverId dto.currency dto.amount
  | _ => db.netOf x = 0

namespace Transaction

/-- No step of the reversal is refused. -/
def Reversible (tx : Transaction) (i : TxId) (input : ReverseInput) (db : Db) : Prop :=
  tx.reversedAt.isSome = false ∧ tx.GivesBack db ∧ tx.TakesBack db ∧
    tx.Recordable i input.reason db

/-- A reversal that succeeds takes the transaction out of the balances; one of a
transaction that is not in force is rejected and leaves them alone. -/
structure Undone (tx : Transaction) (i x : TxId) (input : ReverseInput) (db : Db) : Prop where
  completed : tx.status = .completed → ∀ marked db',
    (reverseTransaction i x input).run exec noFault db = (.ok marked, db') →
    db'.cents = db.cents - db.netOf x
  otherwise : tx.status = .pending ∨ tx.status = .failed ∨ tx.status = .cancelled →
    ∃ e db', (reverseTransaction i x input).run exec noFault db = (.error e, db') ∧
      db'.cents = db.cents

/-- When that is so. -/
structure Undoable (tx : Transaction) (k : Call) (i x : TxId) (input : ReverseInput) (db : Db) :
    Prop where
  completed : tx.status = .completed → tx.Reversible i input db → k.InForce x db
  otherwise : tx.status = .pending ∨ tx.status = .failed ∨ tx.status = .cancelled →
    tx.reversedAt.isSome = true ∨ ¬ tx.GivesBack db ∨
      (tx.TakesBack db ∧ (tx.amount = 0 ∨ tx.senderId = tx.receiverId) ∧
        ¬ tx.Recordable i input.reason db)

end Transaction

section Undo

variable {i x : TxId} {tx : Transaction} {k : Call} {input : ReverseInput} {db : Db} {n : ℤ}

/-- An amount of whole hundredths is given back and taken back unrounded. -/
theorem givenBack_eq (h : 100 * tx.amount = n) :
    tx.givenBack = moved tx.senderId tx.currency tx.amount ∧
      tx.takenBack = moved tx.receiverId tx.currency (-tx.amount) := by
  have hfixed : ∀ m : ℤ, toFixed 8 ((m : ℚ) / 100) = (m : ℚ) / 100 := by
    intro m
    have hscale : (m : ℚ) / 100 * 10 ^ 8 = ((m * 10 ^ 6 : ℤ) : ℚ) := by
      push_cast
      ring
    rw [toFixed, hscale, roundHalfAway_intCast]
    push_cast
    ring
  have hamount : tx.amount = (n : ℚ) / 100 := by linarith
  have hneg : -tx.amount = ((-n : ℤ) : ℚ) / 100 := by
    rw [hamount]
    push_cast
    ring
  constructor
  · rw [Transaction.givenBack, hamount, hfixed]
  · rw [Transaction.takenBack, hneg, hfixed]

/-- Whole hundredths moved one way and back. -/
theorem moved_neg (u : UserId) (c : String) {q : ℚ} (h : 100 * q = n) :
    moved u c (-q) = -moved u c q := by
  have hback : 100 * -q = ((-n : ℤ) : ℚ) := by
    push_cast
    linarith
  funext a cur
  simp only [moved, Pi.neg_apply, hback, h, shift_intCast]
  split <;> simp

/-- Nothing is moved over all only by an amount of zero or to the same user. -/
theorem moved_back_eq_zero (u v : UserId) (c : String) {q : ℚ} (h : 100 * q = n) :
    moved u c q + moved v c (-q) = 0 ↔ q = 0 ∨ u = v := by
  rw [moved_neg v c h]
  constructor
  · intro hzero
    by_contra hno
    push Not at hno
    have hhere := congrFun (congrFun hzero u) (normalizeCurrencyCode c)
    simp only [moved, Pi.add_apply, Pi.neg_apply, Pi.zero_apply, h, shift_intCast, if_true,
      and_true, if_neg (Ne.symm hno.2)] at hhere
    have hn : n = 0 := by omega
    rw [hn] at h
    exact hno.1 (by simpa using h)
  · rintro (rfl | rfl)
    · have hzero : shift 0 = 0 := shift_intCast 0
      funext a cur
      simp [moved, hzero]
    · exact add_neg_cancel _

/-- What can be recorded depends on the rows, the users and the clock alone. -/
theorem recordable_congr {reason : String} {d : Db} (htx : d.transactions = db.transactions)
    (husers : d.userExists = db.userExists) (hnow : d.now = db.now) :
    tx.Recordable i reason d ↔ tx.Recordable i reason db := by
  unfold Transaction.Recordable
  rw [hnow]
  constructor
  · rintro ⟨hreversal, hmarked⟩
    exact ⟨hreversal.congr htx.symm husers.symm rfl rfl rfl rfl rfl,
      hmarked.congr htx.symm husers.symm rfl rfl rfl rfl rfl⟩
  · rintro ⟨hreversal, hmarked⟩
    exact ⟨hreversal.congr htx husers rfl rfl rfl rfl rfl,
      hmarked.congr htx husers rfl rfl rfl rfl rfl⟩

theorem reverse_returns (hrow : db.transaction x = some tx) (h : tx.Reversible i input db) :
    ∃ marked db', (reverseTransaction i x input).run exec noFault db = (.ok marked, db') ∧
      db'.cents = db.cents + (tx.givenBack + tx.takenBack) := by
  obtain ⟨hopen, hgives, htakes, hrecordable⟩ := h
  obtain ⟨b, d, hmoves, hcents, htx, husers, hnow⟩ := (reverseMoves_given hgives).2 htakes
  obtain ⟨hok, -, hstill⟩ := reverseRecord_run i tx input d
  obtain ⟨marked, hmarked⟩ := hok ((recordable_congr htx husers hnow).mpr hrecordable)
  rw [reverse_found hrow hopen, run_bind_ok hmoves]
  exact ⟨marked, _, Prod.ext hmarked rfl, hstill.trans hcents⟩

/-- A reversal refused before its first change. -/
theorem reverse_refused (hrow : db.transaction x = some tx)
    (h : tx.reversedAt.isSome = true ∨ ¬ tx.GivesBack db) :
    ∃ e, (reverseTransaction i x input).run exec noFault db = (.error e, db) := by
  cases hclosed : tx.reversedAt.isSome with
  | true => exact reverse_again hrow hclosed
  | false =>
    have hgives : ¬ tx.GivesBack db := h.resolve_left (by simp [hclosed])
    obtain ⟨e, hmoves⟩ := reverseMoves_refused hgives
    rw [reverse_found hrow hclosed]
    exact ⟨e, run_bind_error hmoves⟩

/-- A reversal refused after its first change leaves that change behind. -/
theorem reverse_half (hrow : db.transaction x = some tx) (hopen : tx.reversedAt.isSome = false)
    (hgives : tx.GivesBack db) (htakes : ¬ tx.TakesBack db) :
    ∃ e db', (reverseTransaction i x input).run exec noFault db = (.error e, db') ∧
      db'.cents = db.cents + tx.givenBack := by
  obtain ⟨e, d, hmoves, hcents⟩ := (reverseMoves_given hgives).1 htakes
  rw [reverse_found hrow hopen]
  exact ⟨e, d, run_bind_error hmoves, hcents⟩

/-- One that cannot be recorded leaves both changes behind. -/
theorem reverse_unrecorded (hrow : db.transaction x = some tx)
    (hopen : tx.reversedAt.isSome = false) (hgives : tx.GivesBack db) (htakes : tx.TakesBack db)
    (hno : ¬ tx.Recordable i input.reason db) :
    ∃ e db', (reverseTransaction i x input).run exec noFault db = (.error e, db') ∧
      db'.cents = db.cents + (tx.givenBack + tx.takenBack) := by
  obtain ⟨b, d, hmoves, hcents, htx, husers, hnow⟩ := (reverseMoves_given hgives).2 htakes
  obtain ⟨-, herror, hstill⟩ := reverseRecord_run i tx input d
  obtain ⟨e, he⟩ := herror fun hd => hno ((recordable_congr htx husers hnow).mp hd)
  rw [reverse_found hrow hopen, run_bind_ok hmoves]
  exact ⟨e, _, Prod.ext he rfl, hstill.trans hcents⟩

/-- A reversal that is not possible throws. -/
theorem reverse_throws (hrow : db.transaction x = some tx) (h : ¬ tx.Reversible i input db) :
    ∃ e db', (reverseTransaction i x input).run exec noFault db = (.error e, db') := by
  by_cases hearly : tx.reversedAt.isSome = true ∨ ¬ tx.GivesBack db
  · obtain ⟨e, hrun⟩ := reverse_refused  hrow hearly
    exact ⟨e, db, hrun⟩
  · push Not at hearly
    have hopen : tx.reversedAt.isSome = false := by simpa using hearly.1
    by_cases htakes : tx.TakesBack db
    · have hno : ¬ tx.Recordable i input.reason db :=
        fun hrecordable => h ⟨hopen, hearly.2, htakes, hrecordable⟩
      obtain ⟨e, db', hrun, -⟩ := reverse_unrecorded hrow hopen hearly.2 htakes hno
      exact ⟨e, db', hrun⟩
    · obtain ⟨e, db', hrun, -⟩ := reverse_half hrow hopen hearly.2 htakes
      exact ⟨e, db', hrun⟩

/-- What a reversal adds is what a transaction in force has moved, taken back. -/
theorem inForce_iff (hcreated : tx.CreatedBy k) (hdecimals : 100 * tx.amount = n) :
    k.InForce x db ↔ tx.givenBack + tx.takenBack = -db.netOf x := by
  obtain ⟨hgiven, htaken⟩ := givenBack_eq hdecimals
  obtain ⟨row, hkind, hsender, hreceiver, hamount, hcurrency⟩ := hcreated
  rw [hgiven, htaken, moved_neg _ _ hdecimals]
  -- the row of a deposit, a withdrawal or a swap names its user twice
  have hsame : tx.senderId = tx.receiverId →
      (db.netOf x = 0 ↔ moved tx.senderId tx.currency tx.amount +
        -moved tx.receiverId tx.currency tx.amount = -db.netOf x) := by
    intro heq
    rw [heq, add_neg_cancel]
    exact ⟨fun h => by rw [h, neg_zero], fun h => neg_eq_zero.mp h.symm⟩
  cases k with
  | transfer dto =>
    cases hkind
    have hsender : tx.senderId = dto.senderId := hsender
    have hreceiver : tx.receiverId = dto.receiverId := hreceiver
    have hamount : tx.amount = dto.amount := hamount
    have hcurrency : tx.currency = dto.currency := hcurrency
    unfold Call.InForce
    rw [hamount] at hdecimals
    simp only [hsender, hreceiver, hamount, hcurrency, moved_neg _ _ hdecimals]
    constructor
    · intro h
      rw [h]
      abel
    · intro h
      rw [← neg_neg (db.netOf x), ← h]
      abel
  | deposit dto =>
    cases hkind
    exact hsame (hsender.trans hreceiver.symm)
  | withdrawal dto =>
    cases hkind
    exact hsame (hsender.trans hreceiver.symm)
  | swap dto =>
    cases hkind
    exact hsame (hsender.trans hreceiver.symm)
  | _ => cases hkind

/-- An amount that is given back without a trace is zero, and then it can be
taken back as well. -/
theorem takesBack_of_givenBack (hdecimals : 100 * tx.amount = n) (hzero : tx.givenBack = 0) :
    tx.TakesBack db := by
  rw [(givenBack_eq hdecimals).1] at hzero
  have hhere := congrFun (congrFun hzero tx.senderId) (normalizeCurrencyCode tx.currency)
  simp only [moved, Pi.zero_apply, hdecimals, shift_intCast, and_self, if_true] at hhere
  have hamount : tx.amount = 0 := by
    rw [hhere] at hdecimals
    simpa using hdecimals
  left
  have hround : roundHalfAway 0 = 0 := roundHalfAway_intCast 0
  rw [hamount]
  simp [toFixed, hround]

end Undo

-- ---------------------------------------------------------------------------
-- A transfer and a deposit
-- ---------------------------------------------------------------------------

/-- User 1 has deposited 100.00 USD and sent 60.00 of them to user 2. -/
def afterSixty : Db := ((prog 1 (.transfer sixtyDollars)).run exec noFault afterDeposit).2

/-- The row of that transfer. -/
def sixtySent : Transaction := (sixtyDollars.prepared 1 afterDeposit).complete afterDeposit.now

/-- An operator's request. -/
def onRequest : ReverseInput := ⟨9, "sent in error"⟩

/-- The row of the deposit. -/
def hundredCredited : Transaction :=
  (hundredIn.prepared 0 (.deployed [])).complete afterDeposit.now

end NexaFx
