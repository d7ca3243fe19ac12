import NexaFx.Lib.Exclusive
import NexaFx.Safety.Rollbacks

/-!
# NexaFx — one rollback per transaction

`rollback` calls, interleaved at every await. A call looks for a rollback
record, stores the compensating transaction, and stores the record; nothing
ties the three together.

When no call looks while another one on the transaction has a save in front of
it, and no record save fails, a transaction is compensated at most once, and
exactly if that is recorded (`rolled_back_once`). Two calls that both look
before either saves compensate twice, and so does a call after a failed record
save (`compensated_twice`).
-/

namespace NexaFx

open Async

namespace Rollbacks

abbrev RollbackConfig :=
  Config RollbackCall RollbackCmd RollbackCmd.Reply Err RollbackDb RollbackResult

-- ---------------------------------------------------------------------------
-- The property
-- ---------------------------------------------------------------------------

/-- The compensating transactions of a transaction. -/
def compensations (db : RollbackDb) (id : ℕ) : ℕ :=
  db.transactions.countP fun tx => decide (tx.rollbackOf = some id)

/-- Its rollback records. -/
def records (db : RollbackDb) (id : ℕ) : ℕ :=
  db.rollbacks.countP fun r => decide (r.originalTransactionId = id)

/-- It is compensated at most once, and exactly if that is recorded. -/
structure Settled (id : ℕ) (db : RollbackDb) : Prop where
  once : compensations db id ≤ 1
  recorded : 0 < compensations db id ↔ 0 < records db id

def RollbackCmd.isSave : RollbackCmd → Bool
  | .saveTransaction _ | .saveRollback _ => true
  | _ => false

/-- No call on the transaction has a save in front of it. -/
def NoneSaving (id : ℕ) (cfg : RollbackConfig) : Prop :=
  ∀ i th, cfg.thread i = some th → th.call.transactionId = id →
    ∀ c, th.proc.waitsOn = some c → c.isSave = false

structure RolledBackOnce (id : ℕ) (cfg : RollbackConfig) : Prop where
  once : compensations cfg.state id ≤ 1
  recorded : NoneSaving id cfg → (0 < compensations cfg.state id ↔ 0 < records cfg.state id)

/-- No call looks for a record while another one on the transaction has a save
in front of it, and no record save fails. -/
def oneRollback (id : ℕ) :
    Discipline RollbackCall RollbackCmd RollbackCmd.Reply Err RollbackDb RollbackResult where
  onCall _ _ _ := True
  onStep cfg th c failed := th.call.transactionId = id →
    (c = .findRollback id → NoneSaving id cfg) ∧
    ((∃ record, c = .saveRollback record) → failed = false)

-- ---------------------------------------------------------------------------
-- One transaction among the others
-- ---------------------------------------------------------------------------

/-- What calls on other transactions leave. -/
structure Apart (id : ℕ) (db db' : RollbackDb) : Prop where
  compensations : compensations db' id = compensations db id
  records : records db' id = records db id

/-- A command about another transaction. -/
def Aside (id : ℕ) : RollbackCmd → Prop
  | .saveTransaction tx => tx.rollbackOf ≠ some id
  | .saveRollback record => record.originalTransactionId ≠ id
  | _ => True

/-- So many are stored. -/
structure Stored (id n m : ℕ) (db : RollbackDb) : Prop where
  compensations : compensations db id = n
  records : records db id = m

section Commands

variable {id n m : ℕ} {db db' : RollbackDb}

theorem Apart.refl (id : ℕ) (db : RollbackDb) : Apart id db db := ⟨rfl, rfl⟩

theorem Settled.apart (h : Settled id db) (ha : Apart id db db') : Settled id db' := by
  constructor
  · rw [ha.compensations]
    exact h.once
  · rw [ha.compensations, ha.records]
    exact h.recorded

theorem Stored.apart (h : Stored id n m db) (ha : Apart id db db') : Stored id n m db' :=
  ⟨ha.compensations.trans h.compensations, ha.records.trans h.records⟩

theorem compensations_insert (db : RollbackDb) (tx : TransactionEntity) (id : ℕ) :
    compensations (db.insertTransaction tx) id =
      compensations db id + if tx.rollbackOf = some id then 1 else 0 := by
  simp [compensations, RollbackDb.insertTransaction, RollbackDb.freshTransaction,
    List.countP_append, List.countP_singleton]

theorem records_insert (db : RollbackDb) (record : TransactionRollbackEntity) (id : ℕ) :
    records (db.insertRollback record) id =
      records db id + if record.originalTransactionId = id then 1 else 0 := by
  simp [records, RollbackDb.insertRollback, RollbackDb.freshRollback, List.countP_append,
    List.countP_singleton]

theorem apart_of_aside {c : RollbackCmd} {a : c.Reply} (hc : Aside id c)
    (h : exec c db = .ok (a, db')) : Apart id db db' := by
  cases c with
  | saveTransaction tx =>
    cases h
    exact ⟨by rw [compensations_insert, if_neg hc, add_zero], rfl⟩
  | saveRollback record =>
    cases h
    exact ⟨rfl, by rw [records_insert, if_neg hc, add_zero]⟩
  | _ =>
    cases h
    exact .refl id db

/-- The record of a compensating transaction. -/
theorem Stored.settle {record : TransactionRollbackEntity} (h : Stored id 1 0 db)
    (hrecord : record.originalTransactionId = id) : Settled id (db.insertRollback record) := by
  have hcompensations : Rollbacks.compensations (db.insertRollback record) id = 1 := h.compensations
  refine ⟨hcompensations.le, ?_⟩
  rw [hcompensations, records_insert, h.records, if_pos hrecord]

/-- Without a record there is no compensating transaction. -/
theorem Settled.unrecorded (h : Settled id db) (hnone : db.rollbackFor id = none) :
    Stored id 0 0 db := by
  have hrecords : records db id = 0 := by
    rw [records, List.countP_eq_zero]
    intro r hr
    have hother := List.find?_eq_none.mp hnone r hr
    simpa using hother
  refine ⟨?_, hrecords⟩
  by_contra hsome
  have hrecorded := h.recorded.mp (Nat.pos_of_ne_zero hsome)
  omega

end Commands

-- ---------------------------------------------------------------------------
-- The calls, await by await
-- ---------------------------------------------------------------------------

/-- The calls on one transaction: they enter by looking for a record, and are
inside until their saves are done. -/
def rollingBack (id : ℕ) : Gate RollbackCmd RollbackCmd.Reply Err RollbackDb where
  exec := exec
  mayFail _ := true
  allows c failed _ := (∃ record, c = .saveRollback record) → failed = false
  rely := Apart id
  safe db := compensations db id ≤ 1
  rest := Settled id
  entry c := decide (c = .findRollback id)
  body := RollbackCmd.isSave

section Programs

variable {id : ℕ} {db : RollbackDb}

/-- The two saves of a call. -/
theorem saves_secures (originalTx : TransactionEntity) (dto : RollbackTransactionDto)
    (adminUserId : UserId) (h : Stored id 0 0 db) :
    ((await (.saveTransaction (originalTx.compensation id dto.reason))).bind fun savedRollbackTx =>
      (await (.saveRollback
        { id := 0
          originalTransactionId := id
          rollbackTransactionId := savedRollbackTx.id
          reason := dto.reason
          rolledBackBy := adminUserId })).bind fun savedRollbackRecord =>
      Proc.done (.ok (⟨true, originalTx, savedRollbackTx, savedRollbackRecord⟩ :
        RollbackResult))).Secures (rollingBack id).toSection (fun _ => (rollingBack id).rest) db := by
  have hstable : ∀ n m db db', Stored id n m db → Apart id db db' → Stored id n m db' :=
    fun _ _ _ _ hs ha => hs.apart ha
  refine Proc.secures_call_bind (A := Stored id 0 0) h (hstable 0 0)
    (fun db hs => ?_) (fun db saved db' hs _ hexec => ?_) fun db _ hs _ _ => ?_
  · show compensations db id ≤ 1
    rw [hs.compensations]
    omega
  · cases hexec
    -- the compensating transaction is stored, and its record is due
    have hdue : Stored id 1 0 (db.insertTransaction (originalTx.compensation id dto.reason)) := by
      refine ⟨?_, hs.records⟩
      have hthis : (originalTx.compensation id dto.reason).rollbackOf = some id := rfl
      rw [compensations_insert, hs.compensations, if_pos hthis]
    refine Proc.secures_call_bind (A := Stored id 1 0) hdue (hstable 1 0)
      (fun db hs => ?_) (fun db record db' hs _ hexec => ?_) fun _ _ _ hallow _ => ?_
    · show compensations db id ≤ 1
      rw [hs.compensations]
    · cases hexec
      exact hs.settle rfl
    · cases hallow ⟨_, rfl⟩
  · refine ⟨by rw [hs.compensations]; omega, ?_⟩
    rw [hs.compensations, hs.records]

/-- A call on the transaction. -/
theorem rollback_gated (id : ℕ) (dto : RollbackTransactionDto) (adminUserId : UserId) :
    (rollback id dto adminUserId).Gated (rollingBack id) := by
  unfold rollback
  refine Proc.gated_call_bind rfl rfl (fun db a db' hexec => ?_) fun found => ?_
  · cases hexec
    exact .refl id db
  · cases found with
    | none => trivial
    | some originalTx =>
      refine Proc.gated_rejectWhen_bind fun _ => ?_
      refine Proc.gated_entry_bind rfl (decide_eq_true rfl) (fun already => ?_) fun db h => ?_
      · refine Proc.issues_bind (Proc.issues_rejectWhen _ _) fun _ => ?_
        refine Proc.issues_bind (Proc.issues_call.mpr rfl) fun saved => ?_
        exact Proc.issues_bind (Proc.issues_call.mpr rfl) fun _ => Proc.issues_done _
      · refine Proc.secures_call_bind (A := Settled id) h (fun _ _ h ha => h.apart ha)
          (fun _ h => h.once) (fun db already db' h _ hexec => ?_) fun _ _ h _ _ => h
        cases hexec
        refine Proc.secures_rejectWhen_bind (fun _ => h) fun hfirst => ?_
        refine saves_secures originalTx dto adminUserId (h.unrecorded ?_)
        simpa using hfirst

/-- A call on another transaction. -/
theorem rollback_aside {other : ℕ} (hother : other ≠ id) (dto : RollbackTransactionDto)
    (adminUserId : UserId) : (rollback other dto adminUserId).Issues (Aside id) := by
  unfold rollback
  refine Proc.issues_bind (Proc.issues_call.mpr trivial) fun found => ?_
  cases found with
  | none => trivial
  | some originalTx =>
    refine Proc.issues_bind (Proc.issues_rejectWhen _ _) fun _ => ?_
    refine Proc.issues_bind (Proc.issues_call.mpr trivial) fun _ => ?_
    refine Proc.issues_bind (Proc.issues_rejectWhen _ _) fun _ => ?_
    refine Proc.issues_bind (Proc.issues_call.mpr ?_) fun saved => ?_
    · intro h
      exact hother (Option.some.inj h)
    · exact Proc.issues_bind (Proc.issues_call.mpr hother) fun _ => Proc.issues_done _

theorem rollback_guarded (id : ℕ) :
    Guarded rollbackServer (oneRollback id) (rollingBack id)
      (fun call => decide (call.transactionId = id)) (fun _ _ => True) (fun _ _ => Aside id) where
  exec := rfl
  mayFail := rfl
  refl := Apart.refl id
  trans _ _ _ h h' := ⟨h'.compensations.trans h.compensations, h'.records.trans h.records⟩
  safe _ h := h.once
  rest _ _ h ha := h.apart ha
  gated i call h := by
    obtain rfl := of_decide_eq_true h
    exact rollback_gated ..
  replied _ _ _ _ _ := trivial
  issues i call h := Proc.always_of_issues (fun _ _ h => h) (rollback_aside (of_decide_eq_false h) ..)
  others _ _ _ _ _ _ _ hc h := apart_of_aside hc h
  allows cfg th c f h hD := (hD (of_decide_eq_true h)).2
  alone cfg th c f h hentry hD := by
    have hnone := (hD (of_decide_eq_true h)).1 (of_decide_eq_true hentry)
    exact fun i th hth hmine c hc => hnone i th hth (of_decide_eq_true hmine) c hc

end Programs

-- ---------------------------------------------------------------------------
-- One rollback
-- ---------------------------------------------------------------------------

/-- **One rollback per transaction.** -/
theorem rolled_back_once {db : RollbackDb} {id : ℕ} {cfg : RollbackConfig} (hdb : Settled id db)
    (h : Reach rollbackServer (oneRollback id) ⟨db, []⟩ cfg) : RolledBackOnce id cfg := by
  have hstart : (rollingBack id).rest db := hdb
  obtain ⟨honce, hrest⟩ := h.guarded (rollback_guarded id) rfl hstart
  refine ⟨honce, fun hnone => (hrest ?_).recorded⟩
  exact fun i th hth hmine c hc => hnone i th hth (of_decide_eq_true hmine) c hc

/-- User 7's payment of 100 USD. -/
def onePayment : RollbackDb := oneWallet (payment (some "A") (some "B"))

theorem onePayment_settled : Settled 1 onePayment := by
  refine ⟨by decide, ?_⟩
  constructor <;> intro h <;> cases h

/-- A request to roll it back. -/
def rollbackRequest : RollbackCall := ⟨1, ⟨some "duplicate"⟩, 9⟩

/-- No call at all has a save in front of it. -/
def noSaves (cfg : RollbackConfig) : Bool :=
  cfg.threads.all fun th => !th.proc.waitsOn.any RollbackCmd.isSave

theorem noneSaving_of_noSaves {cfg : RollbackConfig} (h : noSaves cfg = true) (id : ℕ) :
    NoneSaving id cfg := by
  intro i th hth _ c hc
  have hhere := List.all_eq_true.mp h th (Table.mem_of_get _ hth)
  rw [hc] at hhere
  simpa using hhere

/-- What is observed of the transaction. -/
def stored (cfg : RollbackConfig) : ℕ × ℕ := (compensations cfg.state 1, records cfg.state 1)

/-- The second call reads the transaction early, and looks for a record last. -/
def oneAfterTheOther : List (Event RollbackCall Err) :=
  [.call 0 rollbackRequest, .call 1 rollbackRequest, .step 0 none, .step 1 none, .step 0 none,
    .step 0 none, .step 0 none, .step 1 none]

theorem rolled_back_once_retried :
    ∃ cfg, Reach rollbackServer (oneRollback 1) ⟨onePayment, []⟩ cfg ∧
      RolledBackOnce 1 cfg ∧ stored cfg = (1, 1) := by
  have hrun : (rollbackServer.runChecked (fun cfg _ c failed =>
      (!decide (c = .findRollback 1) || noSaves cfg) && !failed) ⟨onePayment, []⟩
        oneAfterTheOther).map stored = some (1, 1) := by decide +kernel
  obtain ⟨cfg, hcfg, hstored⟩ := Option.map_eq_some_iff.mp hrun
  have hreach : Reach rollbackServer (oneRollback 1) ⟨onePayment, []⟩ cfg := by
    refine Reach.of_runChecked .refl (fun _ _ _ _ => trivial) ?_ hcfg
    intro cfg th c failed hcheck _
    simp only [Bool.and_eq_true, Bool.or_eq_true, Bool.not_eq_true', decide_eq_false_iff_not]
      at hcheck
    refine ⟨fun hc => ?_, fun _ => hcheck.2⟩
    exact noneSaving_of_noSaves (hcheck.1.resolve_left (not_not.mpr hc)) 1
  exact ⟨cfg, hreach, rolled_back_once onePayment_settled hreach, hstored⟩

/-- Both calls look before either saves. -/
def bothLook : List (Event RollbackCall Err) :=
  [.call 0 rollbackRequest, .call 1 rollbackRequest, .step 0 none, .step 1 none, .step 0 none,
    .step 1 none, .step 0 none, .step 1 none, .step 0 none, .step 1 none]

/-- The record is not saved. -/
def recordLost : List (Event RollbackCall Err) :=
  [.call 0 rollbackRequest, .step 0 none, .step 0 none, .step 0 none, .step 0 (some .fault)]

/-- One transaction is compensated twice; and one is, without a record. -/
theorem compensated_twice :
    (∃ cfg, Reach rollbackServer .free ⟨onePayment, []⟩ cfg ∧
      ¬ RolledBackOnce 1 cfg ∧ stored cfg = (2, 2)) ∧
    ∃ cfg, Reach rollbackServer .free ⟨onePayment, []⟩ cfg ∧
      ¬ RolledBackOnce 1 cfg ∧ stored cfg = (1, 0) := by
  constructor
  · have hstored : stored (rollbackServer.play ⟨onePayment, []⟩ bothLook) = (2, 2) := by
      decide +kernel
    refine ⟨_, Reach.refl.play _, fun h => ?_, hstored⟩
    have honce := h.once
    rw [(Prod.mk.inj hstored).1] at honce
    omega
  · have hstored : stored (rollbackServer.play ⟨onePayment, []⟩ recordLost) = (1, 0) := by
      decide +kernel
    have hnone : noSaves (rollbackServer.play ⟨onePayment, []⟩ recordLost) = true := by
      decide +kernel
    refine ⟨_, Reach.refl.play _, fun h => ?_, hstored⟩
    have hrecorded := h.recorded (noneSaving_of_noSaves hnone 1)
    rw [(Prod.mk.inj hstored).1, (Prod.mk.inj hstored).2] at hrecorded
    omega

end Rollbacks

end NexaFx
