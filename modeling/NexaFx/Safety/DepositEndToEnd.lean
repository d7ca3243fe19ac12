import NexaFx.Model.Deposits
import NexaFx.Safety.PayOut

/-!
# NexaFx — a deposit from end to end

What `createDeposit` returns and leaves behind for every pattern of failures of
its awaited steps (`DepositFaults`). As it is written, it never comes to its
first row. With the row built, a failure after the credit ends in a branch that
takes the deposit for one that credited nothing.

Main result: `createDeposit_endToEnd_iff`.
-/

namespace NexaFx

open Async Decimal Proc

-- ---------------------------------------------------------------------------
-- Failure patterns
-- ---------------------------------------------------------------------------

/-- Which of the awaited steps fail. -/
structure DepositFaults where
  terms : Bool
  limits : Bool
  insert : Bool
  sequence : Bool
  receipt : Bool
  credit : Bool
  complete : Bool
  invalidate : Bool
  failed : Bool
  audit : Bool

/-- The flag of the step. -/
def DepositFaults.flag (p : DepositFaults) : Cmd → Bool
  | .ensureAccepted _ => p.terms
  | .limitCheck .. => p.limits
  | .insertTransaction _ => p.insert
  | .nextReceipt => p.sequence
  | .saveTransaction .receipt _ => p.receipt
  | .adjustBalance (.credit _) .. => p.credit
  | .saveTransaction (.completed _) _ => p.complete
  | .invalidateWalletBalanceCache _ => p.invalidate
  | .saveTransaction .failed _ => p.failed
  | .auditLog .. => p.audit
  | _ => false

def DepositFaults.inject (p : DepositFaults) (c : Cmd) : Option Err :=
  if p.flag c = true then some .fault else none

/-- The request of a user who accepted the terms: a positive number of whole
cents of a supported currency within the limits. The row, with either receipt
number, meets the constraints of the table. -/
structure DepositDto.Clear (i : TxId) (dto : DepositDto) (db : Db) : Prop where
  fresh : db.transaction i = none
  terms : db.termsAccepted dto.userId = true
  limit : ∃ db', db.limitCheck dto.userId (totalChecked dto.amount) dto.currency = .ok db' ∧
    db'.Stores (dto.create i) ∧
    db'.Stores (((dto.create i).stamp db'.now).withReceipt db'.now (padStart (db'.receiptSeq + 1))) ∧
    db'.Stores (((dto.create i).stamp db'.now).withReceipt db'.now (lastSix db'.now))
  supported : validateCurrency dto.currency = .ok (normalizeCurrencyCode dto.currency)
  cents : ∃ n : ℕ, 0 < n ∧ 100 * dto.amount = n
  stored : 0 ≤ db.cents dto.userId (normalizeCurrencyCode dto.currency)

/-- What is asked of a deposit that ended with `r` in the database `d` after
the steps `ts`. -/
structure EndToEnd (i : TxId) (dto : DepositDto) (db : Db) (r : Except Err Transaction) (d : Db)
    (ts : List (Step Cmd Db)) : Prop where
  /-- When no step failed, the deposit is completed. -/
  completes : (∀ st ∈ ts, st.ok = true) →
    ∃ tx, r = .ok tx ∧ tx.status = .completed ∧
      (d.transaction i).map Transaction.status = some .completed ∧
      (d.cents dto.userId (normalizeCurrencyCode dto.currency) : ℚ) =
        db.cents dto.userId (normalizeCurrencyCode dto.currency) + 100 * dto.amount
  /-- When it throws with the row stored, nothing else is left of it. -/
  fails : ∀ e, r = .error e → (d.transaction i).isSome →
    d.cents dto.userId (normalizeCurrencyCode dto.currency) =
        db.cents dto.userId (normalizeCurrencyCode dto.currency) ∧
      (d.transaction i).map Transaction.status = some .failed

/-- The patterns on which a deposit does what is asked. -/
def DepositFaults.Clean (p : DepositFaults) : Prop :=
  p.terms = true ∨ p.limits = true ∨ p.insert = true ∨
    (p.receipt = false ∧
      if p.credit = true then p.failed = false else p.complete = false ∧ p.invalidate = false)

section Faults

variable {p : DepositFaults} {c : Cmd} {d e : Db}

theorem inject_of_flag (h : p.flag c = true) : p.inject c = some .fault := if_pos h

theorem inject_of_not_flag (h : p.flag c = false) : p.inject c = none := if_neg (by simp [h])

/-- A step that is made to fail. -/
theorem yields_failed (h : p.flag c = true) :
    Yields exec p.inject (Proc.call c : TxProc c.Reply) d (.error .fault) d [⟨c, false, d⟩] :=
  Yields.call_error (by rw [inject_of_flag h, outcome_some])

/-- A step that is not. -/
theorem yields_made {a : c.Reply} (h : p.flag c = false) (hexec : exec c d = .ok (a, e)) :
    Yields exec p.inject (Proc.call c : TxProc c.Reply) d (.ok a) e [⟨c, true, e⟩] :=
  Yields.call (inject_of_not_flag h) hexec

end Faults

-- ---------------------------------------------------------------------------
-- The row
-- ---------------------------------------------------------------------------

section Row

variable {i : TxId} {dto : DepositDto} {db d : Db} {p : DepositFaults} {tx : Transaction}

/-- One of the steps failed. -/
def Failing (ts : List (Step Cmd Db)) : Prop := ∃ st ∈ ts, st.ok = false

theorem failing_singleton (c : Cmd) (d : Db) : Failing [⟨c, false, d⟩] :=
  ⟨_, List.mem_singleton.mpr rfl, rfl⟩

theorem Failing.append_left {ts : List (Step Cmd Db)} (h : Failing ts)
    (ts' : List (Step Cmd Db)) : Failing (ts' ++ ts) := by
  obtain ⟨st, hst, hok⟩ := h
  exact ⟨st, List.mem_append_right _ hst, hok⟩

theorem Failing.append_right {ts : List (Step Cmd Db)} (h : Failing ts)
    (ts' : List (Step Cmd Db)) : Failing (ts ++ ts') := by
  obtain ⟨st, hst, hok⟩ := h
  exact ⟨st, List.mem_append_left _ hst, hok⟩

theorem Failing.not_all {ts : List (Step Cmd Db)} (h : Failing ts) :
    ¬ ∀ st ∈ ts, st.ok = true := by
  obtain ⟨st, hst, hok⟩ := h
  intro hall
  rw [hall st hst] at hok
  cases hok

/-- The receipt number is stored with the row, or the call ends with the row as
it was. -/
theorem generateReceiptNumber_yields (p : DepositFaults)
    (hseq : d.Stores (tx.withReceipt d.now (padStart (d.receiptSeq + 1))))
    (hclock : d.Stores (tx.withReceipt d.now (lastSix d.now))) :
    if p.receipt = true then
      ∃ e d' ts, Yields exec p.inject (generateReceiptNumber tx) d (.error e) d' ts ∧ Failing ts ∧
        d'.cents = d.cents ∧ d'.transactions = d.transactions
    else
      ∃ tx' d' ts, Yields exec p.inject (generateReceiptNumber tx) d (.ok tx') d' ts ∧
        d'.cents = d.cents ∧ d'.Stores tx' ∧ tx'.id = tx.id ∧ tx'.status = tx.status ∧
        (d'.transaction tx.id).map Transaction.status = some tx.status := by
  -- the number comes from the sequence, or from the clock
  obtain ⟨seq, d₁, ts₁, hnext, hd₁, hstores⟩ : ∃ seq d₁ ts₁,
      Yields exec p.inject (await .nextReceipt).attempt d (.ok seq) d₁ ts₁ ∧
        (∃ n, d₁ = { d with receiptSeq := n }) ∧
        d₁.Stores (tx.withReceipt d.now (drawn d.now seq)) := by
    cases hflag : p.sequence with
    | true =>
      exact ⟨_, _, _, (yields_failed (c := .nextReceipt) hflag).attempt, ⟨_, rfl⟩, hclock⟩
    | false =>
      exact ⟨_, _, _, (yields_made (c := .nextReceipt) hflag rfl).attempt, ⟨_, rfl⟩,
        hseq.congr rfl rfl rfl rfl rfl rfl rfl⟩
  obtain ⟨n, rfl⟩ := hd₁
  have hnow : Yields exec p.inject (await .now) { d with receiptSeq := n } (.ok d.now) _ _ :=
    yields_made (c := .now) rfl rfl
  split
  · rename_i hflag
    have hsave := fun tx' => yields_failed (p := p) (c := .saveTransaction .receipt tx')
      (d := { d with receiptSeq := n }) hflag
    refine ⟨_, _, _, hnext.bind (hnow.bind (hsave _).bind_error), ?_, rfl, rfl⟩
    exact ((failing_singleton _ _).append_left _).append_left _
  · rename_i hflag
    rw [Bool.not_eq_true] at hflag
    have hexec := exec_saveTransaction_of_stores .receipt hstores
    have hsave := yields_made (p := p) (c := .saveTransaction .receipt _) hflag hexec
    refine ⟨_, _, _, hnext.bind (hnow.bind (hsave.bind (.done _ _))), rfl,
      (Db.stores_put rfl).mpr hstores, rfl, rfl, ?_⟩
    exact status_put _ _ rfl

/-- The row is stored as PENDING after the checks. -/
theorem depositPrepare_yields (h : dto.Clear i db) (hp : p.terms = false) (hp' : p.limits = false)
    (hp'' : p.insert = false) :
    ∃ d, d.cents = db.cents ∧ (d.transaction i).map Transaction.status = some .pending ∧
      d.Stores (((dto.create i).stamp d.now).withReceipt d.now (padStart (d.receiptSeq + 1))) ∧
      d.Stores (((dto.create i).stamp d.now).withReceipt d.now (lastSix d.now)) ∧
      ∀ r d' ts, Yields exec p.inject (generateReceiptNumber ((dto.create i).stamp d.now)) d r d' ts →
        ∃ ts', Yields exec p.inject (depositPrepare i dto) db r d' (ts' ++ ts) := by
  obtain ⟨db₁, hlimit, hcreate, hseq, hclock⟩ := h.limit
  have hinsert : db₁.Stores ((dto.create i).stamp db₁.now) :=
    hcreate.congr rfl rfl rfl rfl rfl rfl rfl
  refine ⟨db₁.putTransaction ((dto.create i).stamp db₁.now), (Db.limitCheck_cents hlimit :),
    status_put _ _ rfl, ?_, ?_, ?_⟩
  · exact (Db.stores_put (by rfl)).mpr hseq
  · exact (Db.stores_put (by rfl)).mpr hclock
  · intro r d' ts hnumber
    have hterms := yields_made (p := p) (c := .ensureAccepted dto.userId) (d := db) (e := db) hp
      (by rw [exec, if_pos h.terms])
    have hlimits := yields_made (p := p)
      (c := .limitCheck dto.userId (totalChecked dto.amount) dto.currency) (d := db) (e := db₁) hp'
      (by rw [exec, hlimit])
    have hrow := yields_made (p := p) (c := .insertTransaction (dto.create i)) (d := db₁) hp''
      (by rw [exec, Db.storeTransaction_of_stores hinsert])
    have hall : Yields exec p.inject (depositPrepare i dto) db r d' (_ ++ (_ ++ (_ ++ ts))) :=
      hterms.bind (hlimits.bind (hrow.bind hnumber))
    rw [← List.append_assoc, ← List.append_assoc] at hall
    exact ⟨_, hall⟩

/-- A check that fails, or the insert, leaves no row. -/
theorem depositPrepare_stops (h : dto.Clear i db)
    (hp : p.terms = true ∨ p.limits = true ∨ p.insert = true) :
    ∃ e d ts, Yields exec p.inject (depositPrepare i dto) db (.error e) d ts ∧ Failing ts ∧
      d.transaction i = none := by
  obtain ⟨db₁, hlimit, -⟩ := h.limit
  cases hterms : p.terms with
  | true =>
    exact ⟨_, _, _, (yields_failed (c := .ensureAccepted dto.userId) hterms).bind_error,
      failing_singleton _ _, h.fresh⟩
  | false =>
    have haccepted := yields_made (p := p) (c := .ensureAccepted dto.userId) (d := db) (e := db)
      hterms (by rw [exec, if_pos h.terms])
    cases hlimits : p.limits with
    | true =>
      have hfail := yields_failed (p := p) (d := db)
        (c := .limitCheck dto.userId (totalChecked dto.amount) dto.currency) hlimits
      exact ⟨_, _, _, haccepted.bind hfail.bind_error, (failing_singleton _ _).append_left _,
        h.fresh⟩
    | false =>
      have hinsert : p.insert = true := by simpa [hterms, hlimits] using hp
      have hwithin := yields_made (p := p) (d := db) (e := db₁)
        (c := .limitCheck dto.userId (totalChecked dto.amount) dto.currency) hlimits
        (by rw [exec, hlimit])
      have hfail := yields_failed (p := p) (d := db₁) (c := .insertTransaction (dto.create i))
        hinsert
      refine ⟨_, _, _, haccepted.bind (hwithin.bind hfail.bind_error),
        ((failing_singleton _ _).append_left _).append_left _, ?_⟩
      rw [Db.transaction, (Db.limitCheck_untouched hlimit).transactions]
      exact h.fresh

end Row

-- ---------------------------------------------------------------------------
-- The credit and what follows it
-- ---------------------------------------------------------------------------

section Settle

variable {i : TxId} {dto : DepositDto} {d : Db} {p : DepositFaults} {tx : Transaction}

/-- The catch branch throws; the row is FAILED unless that cannot be saved. -/
theorem depositFailed_yields (dto : DepositDto) (p : DepositFaults) (err : Err) (hst : d.Stores tx) :
    ∃ e d' ts, Yields exec p.inject (depositFailed dto tx err) d (.error e) d' ts ∧
      d'.cents = d.cents ∧
      (d'.transaction tx.id).map Transaction.status =
        if p.failed = true then (d.transaction tx.id).map Transaction.status else some .failed := by
  cases hfailed : p.failed with
  | true =>
    have hsave := yields_failed (p := p) (d := d)
      (c := .saveTransaction .failed (tx.withStatus .failed)) hfailed
    exact ⟨_, _, _, hsave.bind_error, rfl, (if_pos rfl).symm⟩
  | false =>
    have hst' : d.Stores (tx.withStatus .failed) := hst.congr rfl rfl rfl rfl rfl rfl rfl
    have hsave := yields_made (p := p) (c := .saveTransaction .failed (tx.withStatus .failed))
      hfailed (exec_saveTransaction_of_stores .failed hst')
    have hstatus : ((d.putTransaction (tx.withStatus .failed)).transaction tx.id).map
        Transaction.status = some .failed := status_put _ _ rfl
    rw [if_neg Bool.false_ne_true]
    cases haudit : p.audit with
    | true =>
      have hlog := yields_failed (p := p) (d := d.putTransaction (tx.withStatus .failed))
        (c := .auditLog dto.userId "transaction.deposit.failed" tx.id) haudit
      exact ⟨_, _, _, hsave.bind hlog.bind_error, rfl, hstatus⟩
    | false =>
      have hlog := yields_made (p := p) (d := d.putTransaction (tx.withStatus .failed))
        (c := .auditLog dto.userId "transaction.deposit.failed" tx.id) haudit rfl
      exact ⟨_, _, _, hsave.bind (hlog.bind (.done _ _)), rfl, hstatus⟩

/-- The completion of a deposit goes through, or leaves the balances and throws. -/
theorem depositConfirm_yields (dto : DepositDto) (p : DepositFaults) (hst : d.Stores tx) :
    if p.complete = true ∨ p.invalidate = true then
      ∃ e d' ts, Yields exec p.inject (depositConfirm dto tx) d (.error e) d' ts ∧ Failing ts ∧
        d'.cents = d.cents ∧ d'.Stores tx
    else
      ∃ d' ts, Yields exec p.inject (depositConfirm dto tx) d (.ok ()) d' ts ∧
        d'.cents = d.cents ∧ (d'.transaction tx.id).map Transaction.status = some tx.status := by
  cases hcomplete : p.complete with
  | true =>
    have hsave := yields_failed (p := p) (d := d) (c := .saveTransaction (.completed 0) tx) hcomplete
    rw [if_pos (Or.inl rfl)]
    exact ⟨_, _, _, hsave.bind_error, failing_singleton _ _, rfl, hst⟩
  | false =>
    have hsave := yields_made (p := p) (c := .saveTransaction (.completed 0) tx)
      hcomplete (exec_saveTransaction_of_stores (.completed 0) hst)
    cases hinvalidate : p.invalidate with
    | true =>
      have hcache := yields_failed (p := p) (d := d.putTransaction tx)
        (c := .invalidateWalletBalanceCache dto.userId) hinvalidate
      rw [if_pos (Or.inr rfl)]
      exact ⟨_, _, _, hsave.bind hcache, (failing_singleton _ _).append_left _, rfl,
        (Db.stores_put rfl).mpr hst⟩
    | false =>
      have hcache := yields_made (p := p) (d := d.putTransaction tx)
        (c := .invalidateWalletBalanceCache dto.userId) hinvalidate rfl
      rw [if_neg (by simp)]
      exact ⟨_, _, hsave.bind hcache, rfl, status_put _ _ rfl⟩

/-- How a deposit ends whose row is stored: without its credit, with a credit
that is not confirmed, or completed. -/
theorem depositSettle_yields (i : TxId) {dto : DepositDto} (p : DepositFaults) {n : ℕ}
    (hcur : validateCurrency dto.currency = .ok (normalizeCurrencyCode dto.currency))
    (hn : 100 * dto.amount = n)
    (hb : 0 ≤ d.cents dto.userId (normalizeCurrencyCode dto.currency)) (hst : d.Stores tx) :
    if p.credit = true then
      ∃ e d' ts, Yields exec p.inject (depositSettle i dto tx) d (.error e) d' ts ∧ Failing ts ∧
        d'.cents = d.cents ∧ (d'.transaction tx.id).map Transaction.status =
          if p.failed = true then (d.transaction tx.id).map Transaction.status else some .failed
    else if p.complete = true ∨ p.invalidate = true then
      ∃ e d' ts, Yields exec p.inject (depositSettle i dto tx) d (.error e) d' ts ∧ Failing ts ∧
        d'.cents dto.userId (normalizeCurrencyCode dto.currency) =
          d.cents dto.userId (normalizeCurrencyCode dto.currency) + n
    else
      ∃ tx' d' ts, Yields exec p.inject (depositSettle i dto tx) d (.ok tx') d' ts ∧
        tx'.status = .completed ∧
        (d'.transaction tx.id).map Transaction.status = some .completed ∧
        d'.cents dto.userId (normalizeCurrencyCode dto.currency) =
          d.cents dto.userId (normalizeCurrencyCode dto.currency) + n := by
  split
  · rename_i hcredit
    have hfail := (yields_failed (p := p) (d := d) (c := .adjustBalance (.credit 0) i i dto.userId
      dto.currency dto.amount) hcredit).attempt
    obtain ⟨e, d', ts, hcatch, hcents, hstatus⟩ := depositFailed_yields dto p .fault hst
    exact ⟨_, _, _, hfail.bind hcatch, (failing_singleton _ _).append_right _, hcents, hstatus⟩
  · rename_i hcredit
    rw [Bool.not_eq_true] at hcredit
    have hcov : d.Covers dto.userId dto.currency dto.amount := by
      have hcast : (0 : ℚ) ≤ d.cents dto.userId (normalizeCurrencyCode dto.currency) := by
        exact_mod_cast hb
      have hpos : (0 : ℚ) ≤ n := Nat.cast_nonneg n
      refine Or.inr ?_
      rw [hn]
      linarith
    obtain ⟨b, d₁, hexec, hadj⟩ := exec_adjustBalance_carried (.credit 0) i i hcur hcov
    have hcents₁ := hadj.cents dto.userId (normalizeCurrencyCode dto.currency)
    rw [if_pos ⟨rfl, rfl⟩, hn, ← Int.cast_natCast, shift_intCast] at hcents₁
    have hmade := (yields_made (p := p) (c := .adjustBalance (.credit 0) i i dto.userId
      dto.currency dto.amount) hcredit hexec).attempt
    have hst₁ : d₁.Stores (tx.complete d₁.now) :=
      hst.congr hadj.transactions hadj.userExists rfl rfl rfl rfl rfl
    have hnow : Yields exec p.inject (await .now) d₁ (.ok d₁.now) _ _ :=
      yields_made (c := .now) rfl rfl
    have hconfirm := depositConfirm_yields dto p hst₁
    split
    · rename_i hbad
      rw [if_pos hbad] at hconfirm
      obtain ⟨e, d₂, ts, hfail, hfailing, hcents₂, hst₂⟩ := hconfirm
      obtain ⟨e', d₃, ts', hcatch, hcents₃, -⟩ := depositFailed_yields dto p e hst₂
      refine ⟨_, _, _, hmade.bind (hnow.bind (hfail.attempt.bind hcatch)), ?_, ?_⟩
      · exact ((hfailing.append_right _).append_left _).append_left _
      · rw [hcents₃, hcents₂, hcents₁]
    · rename_i hgood
      rw [if_neg hgood] at hconfirm
      obtain ⟨d₂, ts, hok, hcents₂, hstatus⟩ := hconfirm
      refine ⟨_, _, _, hmade.bind (hnow.bind (hok.attempt.bind (.done _ _))), rfl, hstatus, ?_⟩
      rw [hcents₂, hcents₁]

end Settle

-- ---------------------------------------------------------------------------
-- From end to end
-- ---------------------------------------------------------------------------

section Whole

variable {i : TxId} {dto : DepositDto} {db : Db}

/-- What is asked of a deposit that threw after a step had failed. -/
theorem endToEnd_of_error {e : Err} {d : Db} {ts : List (Step Cmd Db)} (hfailing : Failing ts) :
    EndToEnd i dto db (.error e) d ts ↔ ((d.transaction i).isSome →
      d.cents dto.userId (normalizeCurrencyCode dto.currency) =
          db.cents dto.userId (normalizeCurrencyCode dto.currency) ∧
        (d.transaction i).map Transaction.status = some .failed) :=
  ⟨fun h => h.fails e rfl, fun h => ⟨fun hall => absurd hall hfailing.not_all, fun _ _ => h⟩⟩

/-- A stored row stays. -/
theorem row_stays {α : Type} {q : TxProc α} {φ : Cmd → Option Err} {d d' : Db} {r : Except Err α}
    {ts : List (Step Cmd Db)} (hq : Yields exec φ q d r d' ts) (id : TxId)
    (h : (d.transaction id).isSome = true) : (d'.transaction id).isSome = true := by
  have hrun := run_inv (φ := φ) (I := fun db => (db.transaction id).isSome = true)
    (issues_true q) (fun _ _ _ _ _ hexec => exec_transaction_isSome hexec) h
  rwa [hq.run] at hrun

/-- With its row built, a deposit ends as it should on the clean patterns. -/
theorem createDeposit_endToEnd (h : dto.Clear i db) (p : DepositFaults) :
    EndToEnd i dto db ((createDeposit i dto).run exec p.inject db).1
        ((createDeposit i dto).run exec p.inject db).2
        ((createDeposit i dto).trace exec p.inject db) ↔ p.Clean := by
  by_cases hstops : p.terms = true ∨ p.limits = true ∨ p.insert = true
  · obtain ⟨e, d, ts, hprepare, hfailing, hnone⟩ := depositPrepare_stops h hstops
    have hrun : Yields exec p.inject (createDeposit i dto) db (.error e) d ts :=
      hprepare.bind_error
    rw [hrun.run, hrun.trace]
    refine iff_of_true ((endToEnd_of_error hfailing).mpr fun hsome => ?_) ?_
    · rw [hnone] at hsome
      cases hsome
    · unfold DepositFaults.Clean
      tauto
  have hclean : p.Clean ↔ p.receipt = false ∧
      if p.credit = true then p.failed = false else p.complete = false ∧ p.invalidate = false := by
    unfold DepositFaults.Clean
    tauto
  simp only [not_or, Bool.not_eq_true] at hstops
  obtain ⟨d, hcents, hrow, hseq, hclock, hprepare⟩ :=
    depositPrepare_yields (p := p) h hstops.1 hstops.2.1 hstops.2.2
  obtain ⟨n, hpos, hn⟩ := h.cents
  have hnumber := generateReceiptNumber_yields p hseq hclock
  rw [hclean]
  cases hreceipt : p.receipt with
  | true =>
    rw [hreceipt, if_pos rfl] at hnumber
    obtain ⟨e, d', ts, hnumber, hfailing, -, hsame⟩ := hnumber
    obtain ⟨ts', hprepare⟩ := hprepare _ _ _ hnumber
    have hrun : Yields exec p.inject (createDeposit i dto) db (.error e) d' (ts' ++ ts) :=
      hprepare.bind_error
    rw [hrun.run, hrun.trace, endToEnd_of_error (hfailing.append_left _),
      Db.transaction, hsame, ← Db.transaction, hrow]
    refine iff_of_false ?_ (by simp)
    intro hasked
    have hsome : (d.transaction i).isSome := by
      rw [← Option.isSome_map, hrow]
      rfl
    have hstatus := (hasked hsome).2
    cases hstatus
  | false =>
    rw [hreceipt, if_neg Bool.false_ne_true] at hnumber
    obtain ⟨tx, d', ts, hnumber, hcents', hst, hid, -, hstatus⟩ := hnumber
    obtain ⟨ts', hprepare⟩ := hprepare _ _ _ hnumber
    have hid : tx.id = i := hid
    have hstatus : (d'.transaction i).map Transaction.status = some .pending := hstatus
    have hbalance : d'.cents = db.cents := hcents'.trans hcents
    have hsettle := depositSettle_yields i p h.supported hn (by rw [hbalance]; exact h.stored) hst
    rw [hid, hbalance] at hsettle
    simp only [true_and]
    split at hsettle
    · rename_i hcredit
      rw [if_pos hcredit]
      obtain ⟨e, d'', ts'', hsettle, hfailing, hkept, hend⟩ := hsettle
      have hrun : Yields exec p.inject (createDeposit i dto) db (.error e) d'' _ :=
        hprepare.bind hsettle
      rw [hrun.run, hrun.trace, endToEnd_of_error (hfailing.append_left _), hend, hstatus, hkept]
      cases hfailed : p.failed with
      | true =>
        rw [hfailed, if_pos rfl, hstatus] at hend
        refine iff_of_false ?_ (by simp)
        intro hasked
        have hsome : (d''.transaction i).isSome := by
          rw [← Option.isSome_map, hend]
          rfl
        have hwrong := (hasked hsome).2
        cases hwrong
      | false => exact iff_of_true (fun _ => ⟨rfl, rfl⟩) rfl
    · rename_i hcredit
      rw [if_neg hcredit]
      split at hsettle
      · rename_i hbad
        obtain ⟨e, d'', ts'', hsettle, hfailing, hmoved⟩ := hsettle
        have hsome := row_stays hsettle i (by rw [← Option.isSome_map, hstatus]; rfl)
        have hrun : Yields exec p.inject (createDeposit i dto) db (.error e) d'' _ :=
          hprepare.bind hsettle
        rw [hrun.run, hrun.trace, endToEnd_of_error (hfailing.append_left _)]
        refine iff_of_false ?_ ?_
        · intro hasked
          have hkept : d''.cents dto.userId (normalizeCurrencyCode dto.currency) =
              db.cents dto.userId (normalizeCurrencyCode dto.currency) := (hasked hsome).1
          omega
        · rintro ⟨hcomplete, hinvalidate⟩
          rw [hcomplete, hinvalidate] at hbad
          simp at hbad
      · rename_i hgood
        obtain ⟨tx', d'', ts'', hsettle, hdone, hend, hmoved⟩ := hsettle
        have hrun : Yields exec p.inject (createDeposit i dto) db (.ok tx') d'' _ :=
          hprepare.bind hsettle
        rw [hrun.run, hrun.trace]
        refine iff_of_true ⟨fun _ => ⟨tx', rfl, hdone, hend, ?_⟩, fun e he => by cases he⟩ ?_
        · rw [hmoved, hn]
          push_cast
          rfl
        · simpa using hgood

/-- As it is written, a deposit throws before its row is stored. -/
theorem createDepositAsWritten_endToEnd (h : dto.Clear i db) (p : DepositFaults) :
    EndToEnd i dto db ((createDepositAsWritten i dto).run exec p.inject db).1
        ((createDepositAsWritten i dto).run exec p.inject db).2
        ((createDepositAsWritten i dto).trace exec p.inject db) ↔
      p.terms = true ∨ p.limits = true := by
  obtain ⟨db₁, hlimit, -⟩ := h.limit
  cases hterms : p.terms with
  | true =>
    have hrun : Yields exec p.inject (createDepositAsWritten i dto) db (.error .fault) db _ :=
      (yields_failed (c := .ensureAccepted dto.userId) hterms).bind_error
    rw [hrun.run, hrun.trace, endToEnd_of_error (failing_singleton _ _), h.fresh]
    exact iff_of_true (fun hsome => by cases hsome) (Or.inl rfl)
  | false =>
    have haccepted := yields_made (p := p) (c := .ensureAccepted dto.userId) (d := db) (e := db)
      hterms (by rw [exec, if_pos h.terms])
    cases hlimits : p.limits with
    | true =>
      have hrun : Yields exec p.inject (createDepositAsWritten i dto) db (.error .fault) db _ :=
        haccepted.bind (yields_failed (p := p) (d := db)
          (c := .limitCheck dto.userId (totalChecked dto.amount) dto.currency) hlimits).bind_error
      rw [hrun.run, hrun.trace, endToEnd_of_error ((failing_singleton _ _).append_left _), h.fresh]
      exact iff_of_true (fun hsome => by cases hsome) (Or.inr rfl)
    | false =>
      have hwithin := yields_made (p := p) (d := db) (e := db₁)
        (c := .limitCheck dto.userId (totalChecked dto.amount) dto.currency) hlimits
        (by rw [exec, hlimit])
      have hrun : Yields exec p.inject (createDepositAsWritten i dto) db (.error .fault) db₁ _ :=
        haccepted.bind (hwithin.bind (Yields.done (.error Err.fault) db₁).bind_error)
      rw [hrun.run, hrun.trace]
      refine iff_of_false ?_ (by simp)
      intro hasked
      obtain ⟨tx, hok, -⟩ := hasked.completes (by simp)
      cases hok

end Whole

/-- **A deposit from end to end.** As it is written, the call is what is asked
of it only where a step before its row fails. Were the row built, it would be on
the patterns in which a stored row gets its receipt number, a credit that was
made is confirmed, and a failure without a credit is saved. -/
theorem createDeposit_endToEnd_iff (i : TxId) (dto : DepositDto) (db : Db)
    (h : dto.Clear i db) (p : DepositFaults) :
    (EndToEnd i dto db ((createDepositAsWritten i dto).run exec p.inject db).1
        ((createDepositAsWritten i dto).run exec p.inject db).2
        ((createDepositAsWritten i dto).trace exec p.inject db) ↔
      p.terms = true ∨ p.limits = true) ∧
    (EndToEnd i dto db ((createDeposit i dto).run exec p.inject db).1
        ((createDeposit i dto).run exec p.inject db).2
        ((createDeposit i dto).trace exec p.inject db) ↔ p.Clean) :=
  ⟨createDepositAsWritten_endToEnd h p, createDeposit_endToEnd h p⟩

/-- User 1 deposits 25.00 USD. -/
def twentyFive : DepositDto := ⟨1, 25, "USD", "d"⟩

def nothingFails : DepositFaults :=
  ⟨false, false, false, false, false, false, false, false, false, false⟩

theorem twentyFive_clear : twentyFive.Clear 0 oneAccount where
  fresh := rfl
  terms := rfl
  limit := by
    obtain ⟨db', hlimit⟩ : ∃ db', oneAccount.limitCheck 1 (totalChecked 25) "USD" = .ok db' := by
      have hok : (oneAccount.limitCheck 1 (totalChecked 25) "USD").isOk = true := by
        decide +kernel
      cases hlimit : oneAccount.limitCheck 1 (totalChecked 25) "USD" with
      | ok db' => exact ⟨db', rfl⟩
      | error e =>
        rw [hlimit] at hok
        cases hok
    have hunt := Db.limitCheck_untouched hlimit
    have hstores : ∀ tx : Transaction, db'.Stores tx := fun tx =>
      ⟨by rw [Db.violatesUnique, hunt.transactions]; rfl, by rw [hunt.users]; rfl⟩
    exact ⟨db', hlimit, hstores _, hstores _, hstores _⟩
  supported := by decide +kernel
  cents := ⟨2500, by decide, by decide +kernel⟩
  stored := by decide +kernel

theorem createDeposit_endToEnd_termsFail :
    EndToEnd 0 twentyFive oneAccount
      ((createDepositAsWritten 0 twentyFive).run exec
        { nothingFails with terms := true }.inject oneAccount).1
      ((createDepositAsWritten 0 twentyFive).run exec
        { nothingFails with terms := true }.inject oneAccount).2
      ((createDepositAsWritten 0 twentyFive).trace exec
        { nothingFails with terms := true }.inject oneAccount) :=
  (createDeposit_endToEnd_iff 0 twentyFive oneAccount twentyFive_clear
    { nothingFails with terms := true }).1.mpr (Or.inl rfl)

/-- Nothing fails, and the deposit of 25.00 USD throws. -/
theorem deposit_throws :
    ¬ EndToEnd 0 twentyFive oneAccount
      ((createDepositAsWritten 0 twentyFive).run exec nothingFails.inject oneAccount).1
      ((createDepositAsWritten 0 twentyFive).run exec nothingFails.inject oneAccount).2
      ((createDepositAsWritten 0 twentyFive).trace exec nothingFails.inject oneAccount) :=
  fun hasked => absurd ((createDepositAsWritten_endToEnd twentyFive_clear nothingFails).mp hasked)
    (by decide)

end NexaFx
