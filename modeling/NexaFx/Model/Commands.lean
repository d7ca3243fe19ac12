import NexaFx.Lib.Proc
import NexaFx.Model.Wallets

/-!
# NexaFx — what the services await

One command for each awaited call of the transaction services and of the
reconciliation job: repository reads and writes, the wallet, limit, fee, terms,
deactivation and audit services, Redis. `exec` gives each its atomic effect on
the database.

Awaits of the same kind at different places of the source carry a *site*, so
that "the save in the catch branch of the second attempt fails" can be said.
The site has no effect on what the command does.

A database transaction (`dataSource.transaction`) stages its writes: a
`managerSave` only checks the constraints, and `commit` publishes all staged
rows or none.
-/

namespace NexaFx

open Decimal

/-- The place of a `txRepo.save(tx)` of a row that exists. -/
inductive SaveSite where
  | receipt
  | completed (attempt : ℕ)
  | retry (attempt : ℕ)
  | failed
  | cancelled
  | timedOut
  deriving DecidableEq

/-- The place of a `walletsService.adjustBalance`. -/
inductive AdjustSite where
  | debit
  | credit (attempt : ℕ)
  | refund
  | reversalCredit
  | reversalDebit
  deriving DecidableEq

inductive Cmd where
  | ensureAccepted (userId : UserId)
  | isUserDeactivated (userId : UserId)
  | accountExists (address : String)
  | limitCheck (userId : UserId) (amount : ℚ) (currency : String)
  | getBalance (accountId : UserId) (currency : String)
  | insertTransaction (tx : Transaction)
  | nextReceipt
  /-- `new Date()`, which is no await and cannot fail. -/
  | now
  | saveTransaction (site : SaveSite) (tx : Transaction)
  | adjustBalance (site : AdjustSite) (call : ℕ) (tx : TxId) (accountId : UserId)
      (currency : String) (delta : ℚ)
  | recordFee (attempt : ℕ) (record : FeeRecord)
  | auditLog (userId : UserId) (action : String) (entityId : TxId)
  | invalidateWalletBalanceCache (userId : UserId)
  | startTransaction
  | managerSave (tx : Transaction)
  | commit (rows : List Transaction)
  | findTransaction (id : TxId)
  | findUser (id : UserId)
  | acquireLock (key : LockKey)
  | releaseLock (key : LockKey)
  | findTimedOut (asOf : Time)
  /-- Time passes. -/
  | tick (ms : ℕ)
  deriving DecidableEq

/-- What the await of a command gives. -/
@[reducible] def Cmd.Reply : Cmd → Type
  | .isUserDeactivated _ => Bool
  | .accountExists _ => Bool
  | .getBalance _ _ => ℤ
  | .insertTransaction _ => Transaction
  | .nextReceipt => ℕ
  | .now => Time
  | .adjustBalance .. => ℤ
  | .findTransaction _ => Option Transaction
  | .acquireLock _ => Bool
  | .findTimedOut _ => List Transaction
  | _ => Unit

/-! ## The services behind the commands -/

namespace Db

/-- `TransactionLimitService.toUsd`. -/
def toUsd (db : Db) (amount : ℚ) (currency : String) : Option ℚ :=
  if toUpperCase currency.toList = ['U', 'S', 'D'] then some amount
  else (db.usdRate currency).map (amount * ·)

/-- `TransactionLimitService.check`. -/
def limitCheck (db : Db) (userId : UserId) (amount : ℚ) (currency : String) : Except Err Db :=
  match db.toUsd amount currency with
  | none => .error (.unavailable "Exchange rate providers are currently unavailable")
  | some amountUsd =>
    if db.settings.singleTxLimitUsd < amountUsd then
      .error (.limitExceeded "Transaction exceeds single-transaction USD-equivalent limit of $"
        db.settings.singleTxLimitUsd)
    else
      let dayTotal := db.dailyTotals userId (dayOf db.now) + amountUsd
      let monTotal := db.monthlyTotals userId (monthOf db.now) + amountUsd
      if db.settings.dailyLimitUsd < dayTotal then
        .error (.limitExceeded "Transaction would exceed daily USD-equivalent limit of $"
          db.settings.dailyLimitUsd)
      else if db.settings.monthlyLimitUsd < monTotal then
        .error (.limitExceeded "Transaction would exceed monthly USD-equivalent limit of $"
          db.settings.monthlyLimitUsd)
      else
        .ok { db with
          dailyTotals := Function.update db.dailyTotals userId
            (Function.update (db.dailyTotals userId) (dayOf db.now) dayTotal)
          monthlyTotals := Function.update db.monthlyTotals userId
            (Function.update (db.monthlyTotals userId) (monthOf db.now) monTotal) }

/-- Write a row under the constraints of the table: unique `reference` and
`receiptNumber`, sender and receiver exist. -/
def storeTransaction (db : Db) (tx : Transaction) : Except Err Db :=
  if db.violatesUnique tx then .error .uniqueViolation
  else if db.userExists tx.senderId && db.userExists tx.receiverId then
    .ok (db.putTransaction tx)
  else .error .foreignKeyViolation

/-- Publish the staged rows of a database transaction. -/
def commit (db : Db) : List Transaction → Except Err Db
  | [] => .ok db
  | tx :: rows =>
    match db.storeTransaction tx with
    | .error e => .error e
    | .ok db' => db'.commit rows

/-- `SET key 1 PX ttl NX`. -/
def acquireLock (db : Db) (key : LockKey) : Bool × Db :=
  match Table.get Prod.fst db.locks key with
  | some (_, expiry) =>
    if db.now < expiry then (false, db)
    else (true, { db with
      locks := Table.put Prod.fst (key, db.now + db.settings.lockTtlMs) db.locks })
  | none => (true, { db with
      locks := Table.put Prod.fst (key, db.now + db.settings.lockTtlMs) db.locks })

/-- `DEL key`. -/
def releaseLock (db : Db) (key : LockKey) : Db :=
  { db with locks := db.locks.filter fun l => decide (l.1 ≠ key) }

/-- `find({ status: PENDING, pendingTimeoutAt: LessThan(cutoff) })`. -/
def findTimedOut (db : Db) (cutoff : Time) : List Transaction :=
  db.transactions.filter fun tx =>
    decide (tx.status = .pending) && tx.pendingTimeoutAt.any fun t => decide (t < cutoff)

/-- The instant before which a pending transaction has timed out. -/
def cutoff (db : Db) (asOf : Time) : Time := asOf - db.settings.pendingTxTimeoutMinutes * 60 * 1000

end Db

/-- The atomic effect of each command. -/
def exec : (c : Cmd) → Db → Except Err (c.Reply × Db)
  | .ensureAccepted userId, db =>
    if db.termsAccepted userId then .ok ((), db) else .error (.forbidden "accept_terms")
  | .isUserDeactivated userId, db => .ok (db.deactivated userId, db)
  | .accountExists address, db => .ok (db.accountFunded address, db)
  | .limitCheck userId amount currency, db =>
    match db.limitCheck userId amount currency with
    | .error e => .error e
    | .ok db' => .ok ((), db')
  | .getBalance accountId currency, db =>
    match db.getBalance accountId currency with
    | .error e => .error e
    | .ok balance => .ok (balance, db)
  | .insertTransaction tx, db =>
    match db.storeTransaction (tx.stamp db.now) with
    | .error e => .error e
    | .ok db' => .ok (tx.stamp db.now, db')
  | .nextReceipt, db => .ok (db.receiptSeq + 1, { db with receiptSeq := db.receiptSeq + 1 })
  | .now, db => .ok (db.now, db)
  | .saveTransaction _ tx, db =>
    match db.storeTransaction tx with
    | .error e => .error e
    | .ok db' => .ok ((), db')
  | .adjustBalance _ call tx accountId currency delta, db =>
    db.adjustBalance call tx accountId currency delta
  | .recordFee _ record, db => .ok ((), { db with feeRecords := db.feeRecords ++ [record] })
  | .auditLog _ _ _, db => .ok ((), db)
  | .invalidateWalletBalanceCache _, db => .ok ((), db)
  | .startTransaction, db => .ok ((), db)
  | .managerSave tx, db =>
    match db.storeTransaction tx with
    | .error e => .error e
    | .ok _ => .ok ((), db)
  | .commit rows, db =>
    match db.commit rows with
    | .error e => .error e
    | .ok db' => .ok ((), db')
  | .findTransaction id, db => .ok (db.transaction id, db)
  | .findUser id, db =>
    if db.userExists id then .ok ((), db)
    else .error (.notFound ("User " ++ toString id ++ " not found"))
  | .acquireLock key, db => .ok (db.acquireLock key)
  | .releaseLock key, db => .ok ((), db.releaseLock key)
  | .findTimedOut asOf, db => .ok (db.findTimedOut (db.cutoff asOf), db)
  | .tick ms, db => .ok ((), { db with now := db.now + ms })

/-! ## What a command can change -/

/-- The rows a command may write. -/
def Cmd.writes : Cmd → List TxId
  | .insertTransaction tx => [tx.id]
  | .saveTransaction _ tx => [tx.id]
  | .commit rows => rows.map Transaction.id
  | _ => []

/-- The transactions, wallets, moves and users are what they were. -/
structure Db.Untouched (db db' : Db) : Prop where
  transactions : db'.transactions = db.transactions
  wallets : db'.wallets = db.wallets
  moves : db'.moves = db.moves
  users : db'.userExists = db.userExists

theorem Db.Untouched.refl (db : Db) : db.Untouched db := ⟨rfl, rfl, rfl, rfl⟩

theorem Db.limitCheck_untouched {db db' : Db} {userId : UserId} {amount : ℚ} {currency : String}
    (h : db.limitCheck userId amount currency = .ok db') : db.Untouched db' := by
  unfold Db.limitCheck at h
  split at h
  · cases h
  · split at h
    · cases h
    · simp only at h
      split at h
      · cases h
      · split at h
        · cases h
        · cases h
          exact ⟨rfl, rfl, rfl, rfl⟩

theorem Db.acquireLock_untouched (db : Db) (key : LockKey) :
    db.Untouched (db.acquireLock key).2 := by
  unfold Db.acquireLock
  split
  · split
    · exact .refl db
    · exact ⟨rfl, rfl, rfl, rfl⟩
  · exact ⟨rfl, rfl, rfl, rfl⟩

/-- The constraints of the table admit the row. -/
structure Db.Stores (db : Db) (tx : Transaction) : Prop where
  unique : db.violatesUnique tx = false
  users : (db.userExists tx.senderId && db.userExists tx.receiverId) = true

theorem Db.storeTransaction_of_stores {db : Db} {tx : Transaction} (h : db.Stores tx) :
    db.storeTransaction tx = .ok (db.putTransaction tx) := by
  rw [Db.storeTransaction, h.unique, h.users]
  rfl

theorem Db.storeTransaction_of_not_stores {db : Db} {tx : Transaction} (h : ¬ db.Stores tx) :
    ∃ e, db.storeTransaction tx = .error e := by
  unfold Db.storeTransaction
  split
  · exact ⟨_, rfl⟩
  · rename_i hunique
    rw [Bool.not_eq_true] at hunique
    rw [if_neg fun husers => h ⟨hunique, husers⟩]
    exact ⟨_, rfl⟩

/-- Uniqueness is about the *other* rows: rewriting the row itself does not
matter. -/
theorem Db.violatesUnique_put {db : Db} {tx old : Transaction} (h : old.id = tx.id) :
    (db.putTransaction old).violatesUnique tx = db.violatesUnique tx := by
  unfold Db.violatesUnique
  rw [Bool.eq_iff_iff, List.any_eq_true, List.any_eq_true]
  constructor
  · rintro ⟨r, hr, hclash⟩
    rcases Table.mem_put _ hr with rfl | hmem
    · simp [h] at hclash
    · exact ⟨r, hmem, hclash⟩
  · rintro ⟨r, hr, hclash⟩
    refine ⟨r, Table.mem_put_of_ne _ hr ?_, hclash⟩
    rw [h]
    simp only [Bool.and_eq_true, decide_eq_true_eq] at hclash
    exact hclash.1

/-- The constraints look at the key, the two unique columns and the two users. -/
theorem Db.Stores.congr {db db' : Db} {tx tx' : Transaction} (h : db.Stores tx)
    (hts : db'.transactions = db.transactions)
    (husers : db'.userExists = db.userExists) (hid : tx'.id = tx.id)
    (href : tx'.reference = tx.reference) (hrec : tx'.receiptNumber = tx.receiptNumber)
    (hsend : tx'.senderId = tx.senderId) (hrecv : tx'.receiverId = tx.receiverId) :
    db'.Stores tx' := by
  refine ⟨?_, by rw [husers, hsend, hrecv]; exact h.users⟩
  have hunique := h.unique
  unfold Db.violatesUnique at hunique ⊢
  rw [hts, hid, href, hrec]
  exact hunique

theorem Db.stores_put {db : Db} {tx old : Transaction} (h : old.id = tx.id) :
    (db.putTransaction old).Stores tx ↔ db.Stores tx := by
  constructor
  · rintro ⟨hunique, husers⟩
    rw [Db.violatesUnique_put h] at hunique
    exact ⟨hunique, husers⟩
  · rintro ⟨hunique, husers⟩
    rw [← Db.violatesUnique_put h] at hunique
    exact ⟨hunique, husers⟩

theorem Db.storeTransaction_ok {db db' : Db} {tx : Transaction}
    (h : db.storeTransaction tx = .ok db') : db.Stores tx ∧ db' = db.putTransaction tx := by
  by_cases hst : db.Stores tx
  · rw [Db.storeTransaction_of_stores hst] at h
    exact ⟨hst, (Except.ok.inj h).symm⟩
  · obtain ⟨e, he⟩ := Db.storeTransaction_of_not_stores hst
    rw [he] at h
    cases h

/-! ### What it takes for a command to be carried out -/

-- the equations of `exec` are generated here, once for all its inversions
attribute [local simp] exec in
theorem exec_ensureAccepted {u : UserId} {db db' : Db} {a : Unit}
    (h : exec (.ensureAccepted u) db = .ok (a, db')) :
    db.termsAccepted u = true ∧ db' = db := by
  rw [exec] at h
  split at h
  · rename_i hterms
    cases h
    exact ⟨hterms, rfl⟩
  · cases h

theorem exec_limitCheck {u : UserId} {amount : ℚ} {currency : String} {db db' : Db} {a : Unit}
    (h : exec (.limitCheck u amount currency) db = .ok (a, db')) :
    db.limitCheck u amount currency = .ok db' := by
  rw [exec] at h
  split at h
  · cases h
  · rename_i hlim
    cases h
    exact hlim

theorem exec_getBalance {u : UserId} {currency : String} {db db' : Db} {a : ℤ}
    (h : exec (.getBalance u currency) db = .ok (a, db')) :
    validateCurrency currency = .ok (normalizeCurrencyCode currency) ∧
    a = db.cents u (normalizeCurrencyCode currency) ∧ db' = db := by
  rw [exec, Db.getBalance] at h
  cases hcur : validateCurrency currency with
  | error e =>
    rw [hcur] at h
    cases h
  | ok cur =>
    obtain rfl := validateCurrency_ok hcur
    rw [hcur] at h
    cases h
    exact ⟨rfl, rfl, rfl⟩

theorem exec_insertTransaction {tx a : Transaction} {db db' : Db}
    (h : exec (.insertTransaction tx) db = .ok (a, db')) :
    db.Stores (tx.stamp db.now) ∧ a = tx.stamp db.now ∧
    db' = db.putTransaction (tx.stamp db.now) := by
  rw [exec] at h
  split at h
  · cases h
  · rename_i hst
    cases h
    obtain ⟨hstores, hput⟩ := Db.storeTransaction_ok hst
    exact ⟨hstores, rfl, hput⟩

theorem exec_saveTransaction {site : SaveSite} {tx : Transaction} {db db' : Db} {a : Unit}
    (h : exec (.saveTransaction site tx) db = .ok (a, db')) :
    db.Stores tx ∧ db' = db.putTransaction tx := by
  rw [exec] at h
  split at h
  · cases h
  · rename_i hst
    cases h
    exact Db.storeTransaction_ok hst

theorem exec_saveTransaction_of_stores (site : SaveSite) {tx : Transaction} {db : Db}
    (h : db.Stores tx) :
    exec (.saveTransaction site tx) db = .ok ((), db.putTransaction tx) := by
  rw [exec, Db.storeTransaction_of_stores h]

theorem exec_managerSave_of_stores {tx : Transaction} {db : Db} (h : db.Stores tx) :
    exec (.managerSave tx) db = .ok ((), db) := by
  rw [exec, Db.storeTransaction_of_stores h]

theorem exec_managerSave {tx : Transaction} {db db' : Db} {a : Unit}
    (h : exec (.managerSave tx) db = .ok (a, db')) : db.Stores tx ∧ db' = db := by
  rw [exec] at h
  split at h
  · cases h
  · rename_i hst
    cases h
    exact ⟨(Db.storeTransaction_ok hst).1, rfl⟩

theorem exec_commit {rows : List Transaction} {db db' : Db} {a : Unit}
    (h : exec (.commit rows) db = .ok (a, db')) : db.commit rows = .ok db' := by
  rw [exec] at h
  split at h
  · cases h
  · rename_i hst
    cases h
    exact hst

theorem exec_findUser {u : UserId} {db db' : Db} {a : Unit}
    (h : exec (.findUser u) db = .ok (a, db')) : db.userExists u = true ∧ db' = db := by
  rw [exec] at h
  split at h
  · rename_i husers
    cases h
    exact ⟨husers, rfl⟩
  · cases h

theorem exec_adjustBalance (site : AdjustSite) (call : ℕ) (tx : TxId) (a : UserId) (c : String)
    (delta : ℚ) (db : Db) :
    exec (.adjustBalance site call tx a c delta) db = db.adjustBalance call tx a c delta := rfl

theorem exec_adjustBalance_ok {site : AdjustSite} {call : ℕ} {tx : TxId} {a : UserId}
    {c : String} {delta : ℚ} {db db' : Db} {b : ℤ}
    (h : exec (.adjustBalance site call tx a c delta) db = .ok (b, db')) :
    db.Adjusted call tx a c delta db' := by
  rw [exec_adjustBalance] at h
  exact Db.adjustBalance_ok h

theorem exec_adjustBalance_carried {db : Db} (site : AdjustSite) (call : ℕ) (tx : TxId)
    {a : UserId} {c : String} {delta : ℚ}
    (hcur : validateCurrency c = .ok (normalizeCurrencyCode c)) (h : db.Covers a c delta) :
    ∃ b db', exec (.adjustBalance site call tx a c delta) db = .ok (b, db') ∧
      db.Adjusted call tx a c delta db' := by
  obtain ⟨b, db', hok⟩ := Db.adjustBalance_accepts call tx hcur h
  exact ⟨b, db', hok, Db.adjustBalance_ok hok⟩

theorem exec_adjustBalance_refused {db : Db} (site : AdjustSite) (call : ℕ) (tx : TxId)
    {a : UserId} {c : String} {delta : ℚ} (h : ¬ db.Covers a c delta) :
    ∃ e, exec (.adjustBalance site call tx a c delta) db = .error e := by
  cases hexec : exec (.adjustBalance site call tx a c delta) db with
  | error e => exact ⟨e, rfl⟩
  | ok r =>
    obtain ⟨b, db'⟩ := r
    exact absurd (exec_adjustBalance_ok hexec).covered h

/-- **Inversion.** A command that is carried out leaves the tables alone, or
writes its rows, or changes one balance. -/
theorem exec_cases {c : Cmd} {db db' : Db} {a : c.Reply} (h : exec c db = .ok (a, db')) :
    (c.writes = [] ∧ db.Untouched db') ∨
    (∃ rows, rows.map Transaction.id = c.writes ∧ db.commit rows = .ok db') ∨
    (∃ site call tx accountId currency delta,
      c = .adjustBalance site call tx accountId currency delta ∧
      db.Adjusted call tx accountId currency delta db') := by
  cases c with
  | ensureAccepted u =>
    obtain ⟨-, rfl⟩ := exec_ensureAccepted h
    exact Or.inl ⟨rfl, .refl _⟩
  | limitCheck u amount currency =>
    exact Or.inl ⟨rfl, Db.limitCheck_untouched (exec_limitCheck h)⟩
  | getBalance u currency =>
    obtain ⟨-, -, rfl⟩ := exec_getBalance h
    exact Or.inl ⟨rfl, .refl _⟩
  | insertTransaction tx =>
    obtain ⟨hst, -, rfl⟩ := exec_insertTransaction h
    refine Or.inr (Or.inl ⟨[tx.stamp db.now], rfl, ?_⟩)
    rw [Db.commit, Db.storeTransaction_of_stores hst]
    rfl
  | saveTransaction site tx =>
    obtain ⟨hst, rfl⟩ := exec_saveTransaction h
    refine Or.inr (Or.inl ⟨[tx], rfl, ?_⟩)
    rw [Db.commit, Db.storeTransaction_of_stores hst]
    rfl
  | adjustBalance site call tx acc cur delta =>
    exact Or.inr (Or.inr ⟨site, call, tx, acc, cur, delta, rfl, exec_adjustBalance_ok h⟩)
  | managerSave tx =>
    obtain ⟨-, rfl⟩ := exec_managerSave h
    exact Or.inl ⟨rfl, .refl _⟩
  | commit rows =>
    exact Or.inr (Or.inl ⟨rows, rfl, exec_commit h⟩)
  | findUser id =>
    obtain ⟨-, rfl⟩ := exec_findUser h
    exact Or.inl ⟨rfl, .refl _⟩
  | acquireLock key =>
    rw [exec] at h
    have huntouched := Db.acquireLock_untouched db key
    rw [Except.ok.inj h] at huntouched
    exact Or.inl ⟨rfl, huntouched⟩
  | _ =>
    cases h
    exact Or.inl ⟨rfl, ⟨rfl, rfl, rfl, rfl⟩⟩

/-- Publishing rows touches nothing but those rows. -/
theorem Db.commit_ok {db db' : Db} {rows : List Transaction} (h : db.commit rows = .ok db') :
    db' = rows.foldl Db.putTransaction db := by
  induction rows generalizing db with
  | nil => exact (Except.ok.inj h).symm
  | cons tx rows ih =>
    rw [Db.commit] at h
    split at h
    · cases h
    · rename_i hst
      rw [ih h, (Db.storeTransaction_ok hst).2]
      rfl

theorem Db.foldl_putTransaction (db : Db) (rows : List Transaction) :
    ∃ ts, rows.foldl Db.putTransaction db = { db with transactions := ts } := by
  induction rows generalizing db with
  | nil => exact ⟨_, rfl⟩
  | cons tx rows ih =>
    obtain ⟨ts, hts⟩ := ih (db.putTransaction tx)
    exact ⟨ts, hts⟩

theorem Db.transaction_foldl_put {db : Db} {rows : List Transaction} {id : TxId}
    (h : id ∉ rows.map Transaction.id) :
    (rows.foldl Db.putTransaction db).transaction id = db.transaction id := by
  induction rows generalizing db with
  | nil => rfl
  | cons tx rows ih =>
    rw [List.map_cons, List.mem_cons, not_or] at h
    rw [List.foldl_cons, ih h.2, Db.transaction_put, if_neg (Ne.symm h.1)]

/-- A command that does not name a row leaves it alone. -/
theorem exec_transaction {c : Cmd} {db db' : Db} {a : c.Reply} (h : exec c db = .ok (a, db'))
    {id : TxId} (hid : id ∉ c.writes) : db'.transaction id = db.transaction id := by
  rcases exec_cases h with ⟨-, hunt⟩ | ⟨rows, hrows, hcommit⟩ | ⟨_, _, _, _, _, _, -, hadj⟩
  · rw [Db.transaction, hunt.transactions, ← Db.transaction]
  · rw [Db.commit_ok hcommit]
    rw [← hrows] at hid
    exact Db.transaction_foldl_put hid
  · rw [Db.transaction, hadj.transactions, ← Db.transaction]

/-- The call in whose name a command moves money. -/
def Cmd.mover : Cmd → Option ℕ
  | .adjustBalance _ call _ _ _ _ => some call
  | _ => none

/-- The checks and the PENDING record that precede any balance change. -/
def Cmd.preparatory : Cmd → Bool
  | .ensureAccepted _ | .isUserDeactivated _ | .accountExists _ | .limitCheck .. => true
  | .getBalance .. | .insertTransaction _ | .nextReceipt | .now => true
  | .saveTransaction .receipt _ => true
  | _ => false

/-- A command moves no money in the name of another call. -/
theorem exec_netOf {c : Cmd} {db db' : Db} {a : c.Reply} (h : exec c db = .ok (a, db'))
    {i : ℕ} (hi : c.mover ≠ some i) : db'.netOf i = db.netOf i := by
  rcases exec_cases h with ⟨-, hunt⟩ | ⟨rows, -, hcommit⟩ | ⟨_, _, _, _, _, _, rfl, hadj⟩
  · rw [Db.netOf, Db.net, hunt.moves]
    rfl
  · rw [Db.commit_ok hcommit]
    obtain ⟨ts, hts⟩ := Db.foldl_putTransaction db rows
    rw [hts]
    rfl
  · funext acc cur
    rw [hadj.netOf, if_neg, add_zero]
    intro hcall
    exact hi (congrArg some hcall.1)

/-- Only `adjustBalance` changes wallets. -/
theorem exec_wallets {c : Cmd} {db db' : Db} {a : c.Reply} (h : exec c db = .ok (a, db'))
    (hc : c.mover = none) : db'.wallets = db.wallets ∧ db'.moves = db.moves := by
  rcases exec_cases h with ⟨-, hunt⟩ | ⟨rows, -, hcommit⟩ | ⟨_, _, _, _, _, _, rfl, -⟩
  · exact ⟨hunt.wallets, hunt.moves⟩
  · rw [Db.commit_ok hcommit]
    obtain ⟨ts, hts⟩ := Db.foldl_putTransaction db rows
    rw [hts]
    exact ⟨rfl, rfl⟩
  · cases hc

/-- Every change of a balance is logged: what a wallet holds beyond the moves
made on it never changes. -/
theorem exec_cents_sub_net {c : Cmd} {db db' : Db} {r : c.Reply} (h : exec c db = .ok (r, db'))
    (a : UserId) (cur : String) :
    db'.cents a cur - db'.net (fun _ => true) a cur =
      db.cents a cur - db.net (fun _ => true) a cur := by
  rcases exec_cases h with ⟨-, hunt⟩ | ⟨rows, -, hcommit⟩ | ⟨_, _, _, _, _, _, rfl, hadj⟩
  · rw [Db.cents, Db.wallet, hunt.wallets, Db.net, hunt.moves]
    rfl
  · rw [Db.commit_ok hcommit]
    obtain ⟨ts, hts⟩ := Db.foldl_putTransaction db rows
    rw [hts]
    rfl
  · rw [hadj.cents, hadj.net]
    simp

/-! ### The clock and the locks -/

/-- Only the lock commands and time itself. -/
def Cmd.timed : Cmd → Bool
  | .acquireLock _ | .releaseLock _ | .tick _ => true
  | _ => false

/-- The clock, the locks and the settings are what they were. -/
structure Db.Steady (db db' : Db) : Prop where
  now : db'.now = db.now
  locks : db'.locks = db.locks
  settings : db'.settings = db.settings

theorem Db.Steady.refl (db : Db) : db.Steady db := ⟨rfl, rfl, rfl⟩

theorem Db.limitCheck_steady {db db' : Db} {userId : UserId} {amount : ℚ} {currency : String}
    (h : db.limitCheck userId amount currency = .ok db') : db.Steady db' := by
  unfold Db.limitCheck at h
  split at h
  · cases h
  · split at h
    · cases h
    · simp only at h
      split at h
      · cases h
      · split at h
        · cases h
        · cases h
          exact ⟨rfl, rfl, rfl⟩

theorem exec_steady {c : Cmd} {db db' : Db} {r : c.Reply} (h : exec c db = .ok (r, db'))
    (hc : c.timed = false) : db.Steady db' := by
  cases c with
  | ensureAccepted u =>
    obtain ⟨-, rfl⟩ := exec_ensureAccepted h
    exact .refl _
  | limitCheck u amount currency => exact Db.limitCheck_steady (exec_limitCheck h)
  | getBalance u currency =>
    obtain ⟨-, -, rfl⟩ := exec_getBalance h
    exact .refl _
  | insertTransaction tx =>
    obtain ⟨-, -, rfl⟩ := exec_insertTransaction h
    exact ⟨rfl, rfl, rfl⟩
  | saveTransaction site tx =>
    obtain ⟨-, rfl⟩ := exec_saveTransaction h
    exact ⟨rfl, rfl, rfl⟩
  | adjustBalance site call tx a cur delta =>
    obtain ⟨ws, ms, rfl⟩ := (exec_adjustBalance_ok h).rest
    exact ⟨rfl, rfl, rfl⟩
  | managerSave tx =>
    obtain ⟨-, rfl⟩ := exec_managerSave h
    exact .refl _
  | commit rows =>
    rw [Db.commit_ok (exec_commit h)]
    obtain ⟨ts, hts⟩ := Db.foldl_putTransaction db rows
    rw [hts]
    exact ⟨rfl, rfl, rfl⟩
  | findUser u =>
    obtain ⟨-, rfl⟩ := exec_findUser h
    exact .refl _
  | acquireLock key => cases hc
  | releaseLock key => cases hc
  | tick ms => cases hc
  | _ =>
    cases h
    exact ⟨rfl, rfl, rfl⟩

/-- No command sets the clock back. -/
theorem exec_now_le {c : Cmd} {db db' : Db} {r : c.Reply} (h : exec c db = .ok (r, db')) :
    db.now ≤ db'.now := by
  cases htimed : c.timed with
  | false => exact (exec_steady h htimed).now.ge
  | true =>
    cases c with
    | acquireLock key =>
      rw [exec] at h
      have hsame : (db.acquireLock key).2.now = db.now := by
        unfold Db.acquireLock
        split
        · split <;> rfl
        · rfl
      rw [Except.ok.inj h] at hsame
      exact hsame.ge
    | releaseLock key =>
      cases h
      exact le_rfl
    | tick ms =>
      cases h
      exact Nat.le_add_right ..
    | _ => cases htimed

/-! ### The accumulators -/

/-- Only a limit check. -/
def Cmd.counts : Cmd → Bool
  | .limitCheck .. => true
  | _ => false

/-- The limit accumulators are what they were. -/
structure Db.SameTotals (db db' : Db) : Prop where
  daily : db'.dailyTotals = db.dailyTotals
  monthly : db'.monthlyTotals = db.monthlyTotals

theorem Db.SameTotals.refl (db : Db) : db.SameTotals db := ⟨rfl, rfl⟩

theorem Db.SameTotals.trans {db db' db'' : Db} (h : db.SameTotals db') (h' : db'.SameTotals db'') :
    db.SameTotals db'' := ⟨h'.daily.trans h.daily, h'.monthly.trans h.monthly⟩

theorem exec_sameTotals {c : Cmd} {db db' : Db} {r : c.Reply} (h : exec c db = .ok (r, db'))
    (hc : c.counts = false) : db.SameTotals db' := by
  cases c with
  | limitCheck u amount currency => cases hc
  | ensureAccepted u =>
    obtain ⟨-, rfl⟩ := exec_ensureAccepted h
    exact .refl _
  | getBalance u currency =>
    obtain ⟨-, -, rfl⟩ := exec_getBalance h
    exact .refl _
  | insertTransaction tx =>
    obtain ⟨-, -, rfl⟩ := exec_insertTransaction h
    exact ⟨rfl, rfl⟩
  | saveTransaction site tx =>
    obtain ⟨-, rfl⟩ := exec_saveTransaction h
    exact ⟨rfl, rfl⟩
  | adjustBalance site call tx a cur delta =>
    obtain ⟨ws, ms, rfl⟩ := (exec_adjustBalance_ok h).rest
    exact ⟨rfl, rfl⟩
  | managerSave tx =>
    obtain ⟨-, rfl⟩ := exec_managerSave h
    exact .refl _
  | commit rows =>
    rw [Db.commit_ok (exec_commit h)]
    obtain ⟨ts, hts⟩ := Db.foldl_putTransaction db rows
    rw [hts]
    exact ⟨rfl, rfl⟩
  | findUser u =>
    obtain ⟨-, rfl⟩ := exec_findUser h
    exact .refl _
  | acquireLock key =>
    rw [exec] at h
    have hsame : db.SameTotals (db.acquireLock key).2 := by
      unfold Db.acquireLock
      split
      · split <;> exact ⟨rfl, rfl⟩
      · exact ⟨rfl, rfl⟩
    rw [Except.ok.inj h] at hsame
    exact hsame
  | _ =>
    cases h
    exact ⟨rfl, rfl⟩

/-- What a limit check adds is the USD value of the amount. -/
theorem Db.limitCheck_ok {db db' : Db} {userId : UserId} {amount : ℚ} {currency : String}
    (h : db.limitCheck userId amount currency = .ok db') :
    ∃ amountUsd, db.toUsd amount currency = some amountUsd ∧
      db' = { db with
        dailyTotals := Function.update db.dailyTotals userId
          (Function.update (db.dailyTotals userId) (dayOf db.now)
            (db.dailyTotals userId (dayOf db.now) + amountUsd))
        monthlyTotals := Function.update db.monthlyTotals userId
          (Function.update (db.monthlyTotals userId) (monthOf db.now)
            (db.monthlyTotals userId (monthOf db.now) + amountUsd)) } := by
  unfold Db.limitCheck at h
  split at h
  · cases h
  · rename_i amountUsd husd
    split at h
    · cases h
    · simp only at h
      split at h
      · cases h
      · split at h
        · cases h
        · cases h
          exact ⟨amountUsd, husd, rfl⟩

/-! ### Rows stay -/

theorem Db.transaction_put_isSome {db : Db} (tx : Transaction) {id : TxId}
    (h : (db.transaction id).isSome = true) :
    ((db.putTransaction tx).transaction id).isSome = true := by
  rw [Db.transaction_put]
  split
  · rfl
  · exact h

/-- No command deletes a row. -/
theorem exec_transaction_isSome {c : Cmd} {db db' : Db} {r : c.Reply}
    (h : exec c db = .ok (r, db')) {id : TxId} (hid : (db.transaction id).isSome = true) :
    (db'.transaction id).isSome = true := by
  rcases exec_cases h with ⟨-, hunt⟩ | ⟨rows, -, hcommit⟩ | ⟨_, _, _, _, _, _, -, hadj⟩
  · rw [Db.transaction, hunt.transactions, ← Db.transaction]
    exact hid
  · rw [Db.commit_ok hcommit]
    clear h hcommit
    induction rows generalizing db with
    | nil => exact hid
    | cons tx rows ih => exact ih (Db.transaction_put_isSome tx hid)
  · rw [Db.transaction, hadj.transactions, ← Db.transaction]
    exact hid

theorem Cmd.mover_of_preparatory {c : Cmd} (h : c.preparatory = true) : c.mover = none := by
  cases c <;> first | rfl | cases h

end NexaFx
