import NexaFx.Lib.Serial
import NexaFx.Safety.Agreement

/-!
# NexaFx — the books and the wallets

A balance is known twice: as the stored balance of the wallet, which every
`adjustBalance` moves, and as a sum over the rows of `transactions`, which the
nightly ledger verification and the statements compute, each by a rule of its
own. This module is about any such rule. What the two differ by is the `drift`.

* `Books` — what a call sees and changes of all this: the rows, its own balance
  changes and the drift of every wallet;
* `Call.Balances` — the condition on the steps of a call under which it leaves
  the books level: at each step after which it may come to its end, what it has
  moved is what the rule counts of its row;
* `level_of_ends` — a call that meets it, alone, with any of its awaits failing,
  leaves level books level.
-/

namespace NexaFx

open Async Decimal Proc

-- ---------------------------------------------------------------------------
-- Rules and drift
-- ---------------------------------------------------------------------------

/-- What the books look at in a row. -/
structure Entry where
  sender : UserId
  receiver : UserId
  amount : ℚ
  currency : String
  completed : Bool
  deriving DecidableEq

def Transaction.entry (tx : Transaction) : Entry where
  sender := tx.senderId
  receiver := tx.receiverId
  amount := tx.amount
  currency := tx.currency
  completed := decide (tx.status = .completed)

/-- The entry of the row once it says COMPLETED. -/
def Entry.done (e : Entry) : Entry := { e with completed := true }

/-- The entry of the row when it says something else. -/
def Entry.undone (e : Entry) : Entry := { e with completed := false }

@[simp] theorem entry_complete (tx : Transaction) (t : Time) :
    (tx.complete t).entry = tx.entry.done := rfl

@[simp] theorem entry_completeAttempt (tx : Transaction) (t : Time) (k : ℕ) :
    (tx.completeAttempt t k).entry = tx.entry.done := rfl

@[simp] theorem entry_failed (tx : Transaction) :
    (tx.withStatus .failed).entry = tx.entry.undone := rfl

@[simp] theorem entry_cancelled (tx : Transaction) :
    (tx.withStatus .cancelled).entry = tx.entry.undone := rfl

/-- What an entry counts on a wallet, in hundredths. -/
abbrev Rule := Entry → UserId → String → ℚ

/-- A supported code in upper case, as a wallet has it. -/
def Canonical (currency : String) : Prop := validateCurrency currency = .ok currency

instance (currency : String) : Decidable (Canonical currency) :=
  inferInstanceAs (Decidable (_ = _))

namespace Db

/-- What all rows count on a wallet. -/
def counted (db : Db) (rule : Rule) (a : UserId) (c : String) : ℚ :=
  (db.transactions.map fun tx => rule tx.entry a c).sum

/-- What the stored balance has beyond what is counted. -/
def drift (db : Db) (rule : Rule) (a : UserId) (c : String) : ℚ :=
  db.cents a c - db.counted rule a c

end Db

/-- The balance changes are what the rule counts of the entry. -/
def Matches (rule : Rule) (m : UserId → String → ℤ) (e : Entry) : Prop :=
  ∀ a c, Canonical c → (m a c : ℚ) = rule e a c

/-- No wallet that can exist has a drift. -/
def Level (drift : UserId → String → ℚ) : Prop := ∀ a c, Canonical c → drift a c = 0

-- ---------------------------------------------------------------------------
-- What a call sees of the books
-- ---------------------------------------------------------------------------

@[ext] structure Books where
  rows : TxId → Option Transaction
  net : UserId → String → ℤ
  drift : UserId → String → ℚ

/-- The books as call `i` sees them. -/
def books (rule : Rule) (i : ℕ) (db : Db) : Books := ⟨db.transaction, db.netOf i, db.drift rule⟩

namespace Books

/-- A row is written over the stored one. -/
def put (v : Books) (rule : Rule) (tx : Transaction) : Books where
  rows := Function.update v.rows tx.id (some tx)
  net := v.net
  drift a c := v.drift a c + ((v.rows tx.id).map fun old => rule old.entry a c).getD 0 -
    rule tx.entry a c

/-- The call has changed balances. -/
def move (v : Books) (m : UserId → String → ℤ) : Books where
  rows := v.rows
  net := v.net + m
  drift a c := v.drift a c + m a c

theorem move_move (v : Books) (m m' : UserId → String → ℤ) :
    (v.move m).move m' = v.move (m + m') := by
  refine Books.ext rfl (add_assoc ..) ?_
  funext a c
  show v.drift a c + m a c + m' a c = v.drift a c + ((m a c + m' a c : ℤ) : ℚ)
  push_cast
  ring

end Books

section Steps

variable {rule : Rule} {i : ℕ} {db db' : Db}

theorem books_put (rule : Rule) (i : ℕ) (db : Db) (tx : Transaction) :
    books rule i (db.putTransaction tx) = (books rule i db).put rule tx := by
  have hrows : (db.putTransaction tx).transaction = Function.update db.transaction tx.id
      (some tx) := by
    funext id
    rw [Db.transaction_put, Function.update_apply]
    simp only [eq_comm]
  have hdrift : (db.putTransaction tx).drift rule = ((books rule i db).put rule tx).drift := by
    funext a c
    have hsum := Table.sum_put Transaction.id (fun tx => rule tx.entry a c) tx db.transactions
    have hcounted : (db.putTransaction tx).counted rule a c = db.counted rule a c +
        rule tx.entry a c - ((db.transaction tx.id).map fun old => rule old.entry a c).getD 0 :=
      hsum
    have hcents : (db.putTransaction tx).cents a c = db.cents a c := rfl
    show ((db.putTransaction tx).cents a c : ℚ) - (db.putTransaction tx).counted rule a c =
      db.cents a c - db.counted rule a c +
        ((db.transaction tx.id).map fun old => rule old.entry a c).getD 0 - rule tx.entry a c
    rw [hcounted, hcents]
    ring
  exact Books.ext hrows rfl hdrift

/-- Reads, checks and staged writes do not show in the books. -/
theorem books_quiet {c : Cmd} {r : c.Reply} (h : exec c db = .ok (r, db')) (hw : c.writes = [])
    (hm : c.mover = none) : books rule i db' = books rule i db := by
  have hrows : db'.transaction = db.transaction := by
    funext id
    exact exec_transaction h (by simp [hw])
  have hts : db'.transactions = db.transactions := by
    rcases exec_cases h with ⟨-, hunt⟩ | ⟨rows, hrows, hcommit⟩ | ⟨_, _, _, _, _, _, rfl, hadj⟩
    · exact hunt.transactions
    · rw [hw, List.map_eq_nil_iff] at hrows
      rw [Db.commit_ok hcommit, hrows]
      rfl
    · exact hadj.transactions
  have hdrift : db'.drift rule = db.drift rule := by
    funext a cur
    rw [Db.drift, Db.drift, Db.counted, Db.counted, Db.cents, Db.cents, Db.wallet, Db.wallet,
      (exec_wallets h hm).1, hts]
  exact Books.ext hrows (exec_netOf h (by simp [hm])) hdrift

theorem books_adjusted {tx : TxId} {a : UserId} {cur : String} {delta : ℚ}
    (h : db.Adjusted i tx a cur delta db') :
    books rule i db' = (books rule i db).move (moved a cur delta) := by
  have hrows : db'.transaction = db.transaction := by
    funext id
    rw [Db.transaction, h.transactions, ← Db.transaction]
  have hnet : db'.netOf i = db.netOf i + moved a cur delta := by
    funext a' c'
    rw [h.netOf]
    simp only [true_and]
    rfl
  have hdrift : db'.drift rule = ((books rule i db).move (moved a cur delta)).drift := by
    funext a' c'
    show (db'.cents a' c' : ℚ) - db'.counted rule a' c' =
      db.cents a' c' - db.counted rule a' c' + moved a cur delta a' c'
    rw [Db.counted, h.transactions, ← Db.counted, h.cents, moved]
    push_cast
    ring
  exact Books.ext hrows hnet hdrift

end Steps

-- ---------------------------------------------------------------------------
-- Steps of a call that runs alone
-- ---------------------------------------------------------------------------

/-- The services, with the clock going on between two awaits. -/
def services (canFail : Cmd → Bool) : Surroundings Cmd Cmd.Reply Err Db where
  exec := exec
  mayFail := canFail
  drifts db db' := ∃ ms, db' = { db with now := db.now + ms }

/-- The weakest preconditions of call `i`, whose steps obey `D`. -/
def bookLogic (rule : Rule) (D : Cmd → Bool → Db → Prop) (i : ℕ) :
    Logic Cmd Cmd.Reply Err Db Books where
  exec := exec
  allows c db := D c false db
  fails c db := D c true db ∧ (mayFail c = true ∨ ∃ e, exec c db = .error e)
  view := books rule i
  frame _ _ := True

section Rules

variable {rule : Rule} {D : Cmd → Bool → Db → Prop} {i : ℕ} {v : Books}

/-- The base rule. -/
theorem book_call {c : Cmd} {post : Except Err c.Reply → Books → Prop}
    (hok : ∀ db db' r, books rule i db = v → D c false db → exec c db = .ok (r, db') →
      post (.ok r) (books rule i db'))
    (herr : ∀ db, books rule i db = v → D c true db → ∀ e, post (.error e) v) :
    (await c).wp (bookLogic rule D i) post v :=
  fun db hv => ⟨fun r db' hD h => ⟨trivial, hok db db' r hv hD h⟩,
    fun hfail => herr db hv hfail.1⟩

theorem book_quiet {c : Cmd} {post : Except Err c.Reply → Books → Prop} (hw : c.writes = [])
    (hm : c.mover = none) (hok : ∀ r, post (.ok r) v)
    (herr : ∀ db, books rule i db = v → D c true db → ∀ e, post (.error e) v) :
    (await c).wp (bookLogic rule D i) post v := by
  intro db hv
  refine ⟨fun r db' _ h => ⟨trivial, ?_⟩, fun hfail => herr db hv hfail.1⟩
  show post _ (books rule i db')
  rw [books_quiet h hw hm, show books rule i db = v from hv]
  exact hok r

/-- A quiet step after which the call may end. -/
theorem book_last {c : Cmd} {post : Except Err c.Reply → Books → Prop} (hw : c.writes = [])
    (hm : c.mover = none) (hok : ∀ db, books rule i db = v → D c false db → ∀ r, post (.ok r) v)
    (herr : ∀ db, books rule i db = v → D c true db → ∀ e, post (.error e) v) :
    (await c).wp (bookLogic rule D i) post v := by
  intro db hv
  refine ⟨fun r db' hD h => ⟨trivial, ?_⟩, fun hfail => herr db hv hfail.1⟩
  show post _ (books rule i db')
  rw [books_quiet h hw hm, show books rule i db = v from hv]
  exact hok db hv hD r

theorem book_now {post : Except Err Time → Books → Prop} (hok : ∀ t, post (.ok t) v) :
    (await .now).wp (bookLogic rule D i) post v := by
  intro db hv
  refine ⟨fun r db' _ h => ⟨trivial, ?_⟩, fun hfail => ?_⟩
  · cases h
    rw [show (bookLogic rule D i).view db = v from hv]
    exact hok _
  · rcases hfail.2 with hmay | ⟨e, he⟩
    · cases hmay
    · cases he

theorem book_reject {c : Prop} [Decidable c] {e : Err} {post : Except Err Unit → Books → Prop}
    (hok : ¬ c → post (.ok ()) v) (herr : post (.error e) v) :
    (Proc.rejectWhen c e : TxProc Unit).wp (bookLogic rule D i) post v :=
  wp_rejectWhen.mpr ⟨fun _ => herr, hok⟩

theorem book_find {id : TxId} {post : Except Err (Option Transaction) → Books → Prop}
    (hok : (∀ tx, v.rows id = some tx → tx.id = id) → post (.ok (v.rows id)) v)
    (herr : ∀ e, post (.error e) v) :
    (await (.findTransaction id)).wp (bookLogic rule D i) post v := by
  intro db hv
  refine ⟨fun r db' _ h => ⟨trivial, ?_⟩, fun _ => herr⟩
  cases h
  subst hv
  exact hok fun tx htx => Table.key_of_get _ htx

theorem book_insert {tx : Transaction} {post : Except Err Transaction → Books → Prop}
    (hok : ∀ t, post (.ok (tx.stamp t)) (v.put rule (tx.stamp t)))
    (herr : ∀ e, post (.error e) v) :
    (await (.insertTransaction tx)).wp (bookLogic rule D i) post v := by
  intro db hv
  refine ⟨fun r db' _ h => ⟨trivial, ?_⟩, fun _ => herr⟩
  obtain ⟨-, rfl, rfl⟩ := exec_insertTransaction h
  show post _ (books rule i _)
  rw [books_put, show books rule i db = v from hv]
  exact hok _

theorem book_save {site : SaveSite} {tx : Transaction} {post : Except Err Unit → Books → Prop}
    (hok : post (.ok ()) (v.put rule tx))
    (herr : ∀ db, books rule i db = v → D (.saveTransaction site tx) true db →
      ∀ e, post (.error e) v) :
    (await (.saveTransaction site tx)).wp (bookLogic rule D i) post v := by
  intro db hv
  refine ⟨fun r db' _ h => ⟨trivial, ?_⟩, fun hfail => herr db hv hfail.1⟩
  obtain ⟨-, rfl⟩ := exec_saveTransaction h
  show post _ (books rule i _)
  rw [books_put, show books rule i db = v from hv]
  exact hok

theorem book_commit {rows : List Transaction} {post : Except Err Unit → Books → Prop}
    (hok : ∀ db, books rule i db = v → D (.commit rows) false db →
      post (.ok ()) (rows.foldl (fun v tx => v.put rule tx) v))
    (herr : ∀ db, books rule i db = v → D (.commit rows) true db → ∀ e, post (.error e) v) :
    (await (.commit rows)).wp (bookLogic rule D i) post v := by
  intro db hv
  refine ⟨fun r db' hD h => ⟨trivial, ?_⟩, fun hfail => herr db hv hfail.1⟩
  have hfold : ∀ (rows : List Transaction) (db : Db),
      books rule i (rows.foldl Db.putTransaction db) =
        rows.foldl (fun v tx => v.put rule tx) (books rule i db) := by
    intro rows
    induction rows with
    | nil => intro db; rfl
    | cons tx rows ih =>
      intro db
      rw [List.foldl_cons, List.foldl_cons, ih, books_put]
  show post _ (books rule i db')
  rw [Db.commit_ok (exec_commit h), hfold, show books rule i db = v from hv]
  exact hok db hv hD

theorem book_adjust {site : AdjustSite} {tx : TxId} {a : UserId} {cur : String} {delta : ℚ}
    {post : Except Err ℤ → Books → Prop}
    (hok : ∀ db, books rule i db = v → D (.adjustBalance site i tx a cur delta) false db →
      ∀ b, post (.ok b) (v.move (moved a cur delta)))
    (herr : ∀ db, books rule i db = v → D (.adjustBalance site i tx a cur delta) true db →
      ∀ e, post (.error e) v) :
    (await (.adjustBalance site i tx a cur delta)).wp (bookLogic rule D i) post v := by
  refine book_call (fun db db' b hv hD h => ?_) herr
  rw [books_adjusted (exec_adjustBalance_ok h), hv]
  exact hok db hv hD b

end Rules

-- ---------------------------------------------------------------------------
-- A call that keeps a row of its own
-- ---------------------------------------------------------------------------

/-- The books `v₀` after the call has written its row, now with the entry `e`, and
has changed balances by `m`. -/
structure Booked (rule : Rule) (i : TxId) (v₀ : Books) (e : Entry) (m : UserId → String → ℤ)
    (v : Books) : Prop where
  row : ∃ tx, v.rows i = some tx ∧ tx.entry = e
  net : v.net = v₀.net + m
  drift : ∀ a c, v.drift a c = v₀.drift a c + m a c - rule e a c

section Own

variable {rule : Rule} {i : TxId} {v₀ v : Books} {e : Entry} {m : UserId → String → ℤ}
  {tx : Transaction}

theorem booked_insert (h : v₀.rows i = none) (hid : tx.id = i) (hentry : tx.entry = e) :
    Booked rule i v₀ e 0 (v₀.put rule tx) := by
  subst hentry
  refine ⟨⟨tx, ?_, rfl⟩, (add_zero _).symm, fun a c => ?_⟩
  · rw [← hid]
    exact Function.update_self ..
  · simp [Books.put, hid, h]

theorem Booked.put {e' : Entry} (h : Booked rule i v₀ e m v) (hid : tx.id = i)
    (hentry : tx.entry = e') : Booked rule i v₀ e' m (v.put rule tx) := by
  subst hentry
  obtain ⟨old, hold, rfl⟩ := h.row
  refine ⟨⟨tx, ?_, rfl⟩, h.net, fun a c => ?_⟩
  · rw [← hid]
    exact Function.update_self ..
  · show v.drift a c + ((v.rows tx.id).map fun old => rule old.entry a c).getD 0 -
      rule tx.entry a c = _
    rw [hid, hold, h.drift, Option.map_some, Option.getD_some]
    ring

theorem Booked.move (h : Booked rule i v₀ e m v) (m' : UserId → String → ℤ) :
    Booked rule i v₀ e (m + m') (v.move m') := by
  refine ⟨h.row, ?_, fun a c => ?_⟩
  · show v.net + m' = _
    rw [h.net, add_assoc]
  · show v.drift a c + m' a c = _
    rw [h.drift, Pi.add_apply, Pi.add_apply]
    push_cast
    ring

theorem Booked.level (h : Booked rule i v₀ e m v) (h₀ : Level v₀.drift)
    (hm : Matches rule m e) : Level v.drift := by
  intro a c hc
  rw [h.drift, h₀ a c hc, hm a c hc]
  ring

/-- The call has its record in place and has moved nothing; or it has thrown and
has left the books level. -/
def openedPost (rule : Rule) (i : TxId) (v₀ : Books) (e : Entry) (r : Except Err Transaction)
    (v : Books) : Prop :=
  match r with
  | .ok tx => (tx.id = i ∧ tx.entry = e) ∧ Booked rule i v₀ e 0 v
  | .error _ => Level v.drift

/-- However the call has ended, the books are level. -/
def levelPost {α : Type} (_ : Except Err α) (v : Books) : Prop := Level v.drift

/-- The record gets its receipt number. -/
theorem book_generateReceiptNumber {D : Cmd → Bool → Db → Prop} (h₀ : Level v₀.drift)
    (hreceipt : ∀ tx db, D (.saveTransaction .receipt tx) true db → Matches rule 0 e)
    (hid : tx.id = i) (hentry : tx.entry = e) (h : Booked rule i v₀ e 0 v) :
    (generateReceiptNumber tx).wp (bookLogic rule D i) (openedPost rule i v₀ e) v := by
  have hseq : ∀ seq : Except Err ℕ, Proc.wp (bookLogic rule D i) (openedPost rule i v₀ e)
      (do
        let t ← await .now
        await (.saveTransaction .receipt (tx.withReceipt t (drawn t seq)))
        return tx.withReceipt t (drawn t seq) : TxProc Transaction) v := by
    intro seq
    refine wp_bind.mpr (book_now fun t => wp_bind.mpr (book_save ?_ fun db _ hD _ => ?_))
    · exact ⟨⟨hid, hentry⟩, h.put hid hentry⟩
    · exact h.level h₀ (hreceipt _ db hD)
  exact wp_bind.mpr (wp_attempt.mpr (book_quiet rfl rfl (fun n => hseq (.ok n))
    fun _ _ _ e => hseq (.error e)))

end Own

-- ---------------------------------------------------------------------------
-- The condition on the steps of a call
-- ---------------------------------------------------------------------------

namespace TransferDto

def entry (dto : TransferDto) : Entry := ⟨dto.senderId, dto.receiverId, dto.amount, dto.currency, false⟩

def debit (dto : TransferDto) : UserId → String → ℤ := moved dto.senderId dto.currency (-dto.amount)
def credit (dto : TransferDto) : UserId → String → ℤ := moved dto.receiverId dto.currency dto.amount

/-- Where a transfer may end: nothing moved, the debit moved, or both moved. -/
def Balances (rule : Rule) (dto : TransferDto) : Cmd → Bool → Prop
  | .saveTransaction .receipt _, true => Matches rule 0 dto.entry
  | .startTransaction, true => Matches rule 0 dto.entry
  | .adjustBalance .debit .., true => Matches rule 0 dto.entry
  | .adjustBalance (.credit _) .., true => Matches rule dto.debit dto.entry
  | .managerSave _, true => Matches rule (dto.debit + dto.credit) dto.entry
  | .commit _, true => Matches rule (dto.debit + dto.credit) dto.entry
  | .commit _, false => Matches rule (dto.debit + dto.credit) dto.entry.done
  | _, _ => True

end TransferDto

namespace DepositDto

def entry (dto : DepositDto) : Entry := ⟨dto.userId, dto.userId, dto.amount, dto.currency, false⟩

def credit (dto : DepositDto) : UserId → String → ℤ := moved dto.userId dto.currency dto.amount

/-- Where a deposit may end: nothing moved, or the credit moved. -/
def Balances (rule : Rule) (dto : DepositDto) : Cmd → Bool → Prop
  | .saveTransaction .receipt _, true => Matches rule 0 dto.entry
  | .adjustBalance (.credit _) .., true => Matches rule 0 dto.entry
  | .saveTransaction (.completed _) _, true => Matches rule dto.credit dto.entry
  | .invalidateWalletBalanceCache _, true =>
    Matches rule dto.credit dto.entry ∧ Matches rule dto.credit dto.entry.done
  | .invalidateWalletBalanceCache _, false => Matches rule dto.credit dto.entry.done
  | _, _ => True

end DepositDto

namespace WithdrawalDto

def entry (dto : WithdrawalDto) : Entry := ⟨dto.userId, dto.userId, dto.amount, dto.currency, false⟩

def refund (dto : WithdrawalDto) : UserId → String → ℤ :=
  moved dto.userId dto.currency (totalChecked dto.amount)

/-- Where a withdrawal may end: nothing moved, the debit moved, or debit and
refund moved. -/
def Balances (rule : Rule) (dto : WithdrawalDto) : Cmd → Bool → Prop
  | .saveTransaction .receipt _, true => Matches rule 0 dto.entry
  | .adjustBalance .debit .., true => Matches rule 0 dto.entry
  | .invalidateWalletBalanceCache _, false => Matches rule dto.debit dto.entry.done
  | .adjustBalance .refund .., true =>
    Matches rule dto.debit dto.entry ∧ Matches rule dto.debit dto.entry.done
  | .adjustBalance .refund .., false =>
    Matches rule (dto.debit + dto.refund) dto.entry ∧
      Matches rule (dto.debit + dto.refund) dto.entry.done
  | _, _ => True

end WithdrawalDto

namespace SwapDto

def entry (dto : SwapDto) : Entry :=
  ⟨dto.userId, dto.userId, dto.fromAmount, dto.fromCurrency, false⟩

def refund (dto : SwapDto) : UserId → String → ℤ :=
  moved dto.userId dto.fromCurrency (totalChecked dto.fromAmount)

/-- The stored row says COMPLETED. -/
def StoredCompleted (i : TxId) (db : Db) : Prop :=
  (db.transaction i).map Transaction.status = some .completed

/-- Where a swap may end. What it has moved up to there depends on which of its
attempts failed after their credit. -/
def Balances (rule : Rule) (i : TxId) (dto : SwapDto) : Cmd → Bool → Db → Prop
  | .adjustBalance .debit .., true, _ => Matches rule 0 dto.entry
  | .recordFee .., false, db => Matches rule (db.netOf i) dto.entry.done
  | .saveTransaction (.retry _) _, true, db =>
    Matches rule (db.netOf i) dto.entry ∧ Matches rule (db.netOf i) dto.entry.done
  | .adjustBalance .refund .., true, db =>
    Matches rule (db.netOf i) dto.entry ∧
      (StoredCompleted i db → Matches rule (db.netOf i) dto.entry.done)
  | .adjustBalance .refund .., false, db =>
    Matches rule (db.netOf i + dto.refund) dto.entry ∧
      (StoredCompleted i db → Matches rule (db.netOf i + dto.refund) dto.entry.done)
  | _, _, _ => True

end SwapDto

namespace Transaction

/-- What a reversal of the row gives back, and what it takes. -/
def givenBack (tx : Transaction) : UserId → String → ℤ :=
  moved tx.senderId tx.currency (toFixed 8 tx.amount)
def takenBack (tx : Transaction) : UserId → String → ℤ :=
  moved tx.receiverId tx.currency (toFixed 8 (-tx.amount))

/-- The entry of its reversal record. -/
def reversalEntry (tx : Transaction) : Entry :=
  ⟨tx.receiverId, tx.senderId, tx.amount, tx.currency, false⟩

end Transaction

/-- Where a reversal of the row `tx` may end: only the credit moved, or both
moved and nothing recorded, or both moved and recorded. -/
def Transaction.ReversalBalances (rule : Rule) (tx : Transaction) : Cmd → Bool → Prop
  | .adjustBalance .reversalDebit .., true => ∀ a c, Canonical c → tx.givenBack a c = 0
  | .managerSave _, true => ∀ a c, Canonical c → (tx.givenBack + tx.takenBack) a c = 0
  | .findUser _, true => ∀ a c, Canonical c → (tx.givenBack + tx.takenBack) a c = 0
  | .auditLog .., true => ∀ a c, Canonical c → (tx.givenBack + tx.takenBack) a c = 0
  | .commit _, true => ∀ a c, Canonical c → (tx.givenBack + tx.takenBack) a c = 0
  | .commit _, false => ∀ a c, Canonical c → ((tx.givenBack + tx.takenBack) a c : ℚ) =
      rule tx.reversalEntry a c + rule tx.entry.undone a c - rule tx.entry a c
  | _, _ => True

/-- The condition on the steps of call `i`. A cancellation meets it always. -/
def Call.Balances (rule : Rule) (i : ℕ) : Call → Cmd → Bool → Db → Prop
  | .transfer dto, c, failed, _ => dto.Balances rule c failed
  | .deposit dto, c, failed, _ => dto.Balances rule c failed
  | .withdrawal dto, c, failed, _ => dto.Balances rule c failed
  | .swap dto, c, failed, db => dto.Balances rule i c failed db
  | .reverse id _, c, failed, db =>
    ∀ tx, db.transaction id = some tx → tx.ReversalBalances rule c failed
  | _, _, _, _ => True

-- ---------------------------------------------------------------------------
-- One call at a time
-- ---------------------------------------------------------------------------

section Calls

variable {rule : Rule} {i : ℕ} {v₀ v : Books}

/-! ### Transfer -/

theorem book_transferPrepare {D : Cmd → Bool → Db → Prop} {dto : TransferDto}
    (hD : ∀ c f db, D c f db → dto.Balances rule c f) (h₀ : Level v₀.drift)
    (hfresh : v₀.rows i = none) :
    (transferPrepare i dto).wp (bookLogic rule D i) (openedPost rule i v₀ dto.entry) v₀ := by
  have herr : ∀ db, books rule i db = v₀ → ∀ {c : Cmd}, D c true db → ∀ _ : Err, Level v₀.drift :=
    fun _ _ _ _ _ => h₀
  refine wp_bind.mpr (book_quiet rfl rfl (fun _ => ?_) fun db hv hf => herr db hv hf)
  refine wp_bind.mpr (book_quiet rfl rfl (fun _ => ?_) fun db hv hf => herr db hv hf)
  refine wp_bind.mpr (book_reject (fun _ => ?_) h₀)
  refine wp_bind.mpr (book_reject (fun _ => ?_) h₀)
  refine wp_bind.mpr (book_reject (fun _ => ?_) h₀)
  refine wp_bind.mpr (book_quiet rfl rfl (fun _ => ?_) fun db hv hf => herr db hv hf)
  refine wp_bind.mpr (book_reject (fun _ => ?_) h₀)
  refine wp_bind.mpr (book_insert (fun t => ?_) fun _ => h₀)
  exact book_generateReceiptNumber h₀ (fun tx db hf => hD _ _ _ hf) rfl rfl
    (booked_insert hfresh rfl rfl)

theorem book_transfer {dto : TransferDto} (h₀ : Level v₀.drift) (hfresh : v₀.rows i = none) :
    (transfer i dto).wp (bookLogic rule ((Call.transfer dto).Balances rule i) i) levelPost v₀ := by
  refine wp_bind.mpr (wp_mono ?_ (book_transferPrepare (fun _ _ _ h => h) h₀ hfresh))
  intro r v hopened
  cases r with
  | error e => exact hopened
  | ok tx =>
    obtain ⟨⟨hid, hentry⟩, hbooked⟩ := hopened
    -- what the catch branch finds is level already
    have hmoves : (transferMoves i dto).wp
        (bookLogic rule ((Call.transfer dto).Balances rule i) i)
        (fun r v' => match r with
          | .ok _ => Booked rule i v₀ dto.entry (dto.debit + dto.credit) v'
          | .error _ => Level v'.drift) v := by
      refine wp_bind.mpr (book_quiet rfl rfl (fun _ => ?_) fun db _ hf _ => hbooked.level h₀ hf)
      refine wp_bind.mpr (book_adjust (fun db _ _ b => ?_) fun db _ hf _ => hbooked.level h₀ hf)
      have hdebited : Booked rule i v₀ dto.entry dto.debit (v.move dto.debit) := by
        have hmoved := hbooked.move dto.debit
        rwa [zero_add] at hmoved
      exact book_adjust (fun db _ _ b => hdebited.move dto.credit)
        fun db _ hf _ => hdebited.level h₀ hf
    refine wp_bind.mpr (wp_attempt.mpr (wp_mono ?_ hmoves))
    intro r v' hmoved
    cases r with
    | error e => exact hmoved
    | ok b =>
      refine wp_bind.mpr (book_now fun t => wp_bind.mpr (wp_attempt.mpr (wp_bind.mpr ?_)))
      refine book_quiet rfl rfl (fun _ => ?_) fun db _ hf _ => hmoved.level h₀ hf
      refine book_commit (fun db _ hf => ?_) fun db _ hf _ => hmoved.level h₀ hf
      have hdone : (tx.complete t).entry = dto.entry.done := by rw [entry_complete, hentry]
      have hput : Booked rule i v₀ dto.entry.done _ (v'.put rule (tx.complete t)) :=
        hmoved.put hid hdone
      exact hput.level h₀ hf

/-! ### Deposit -/

theorem book_depositPrepare {D : Cmd → Bool → Db → Prop} {dto : DepositDto}
    (hD : ∀ c f db, D c f db → dto.Balances rule c f) (h₀ : Level v₀.drift)
    (hfresh : v₀.rows i = none) :
    (depositPrepare i dto).wp (bookLogic rule D i) (openedPost rule i v₀ dto.entry) v₀ := by
  refine wp_bind.mpr (book_quiet rfl rfl (fun _ => ?_) fun _ _ _ _ => h₀)
  refine wp_bind.mpr (book_quiet rfl rfl (fun _ => ?_) fun _ _ _ _ => h₀)
  refine wp_bind.mpr (book_insert (fun t => ?_) fun _ => h₀)
  exact book_generateReceiptNumber h₀ (fun tx db hf => hD _ _ _ hf) rfl rfl
    (booked_insert hfresh rfl rfl)

/-- The catch branch of a deposit: the row says FAILED, or what it said. -/
theorem book_depositFailed {D : Cmd → Bool → Db → Prop} {dto : DepositDto} {tx : Transaction}
    {e e' : Entry} {m : UserId → String → ℤ} (err : Err) (hid : tx.id = i)
    (hentry : (tx.withStatus .failed).entry = e') (h : Booked rule i v₀ e m v)
    (h₀ : Level v₀.drift) (he : Matches rule m e) (he' : Matches rule m e') :
    (depositFailed dto tx err).wp (bookLogic rule D i) levelPost v := by
  refine wp_bind.mpr (book_save ?_ fun _ _ _ _ => h.level h₀ he)
  have hput : Booked rule i v₀ e' m (v.put rule (tx.withStatus .failed)) := h.put hid hentry
  have hlevel := hput.level h₀ he'
  exact wp_bind.mpr (book_quiet rfl rfl (fun _ => hlevel) fun _ _ _ _ => hlevel)

theorem book_deposit {dto : DepositDto} (h₀ : Level v₀.drift) (hfresh : v₀.rows i = none) :
    (createDeposit i dto).wp (bookLogic rule ((Call.deposit dto).Balances rule i) i) levelPost
      v₀ := by
  refine wp_bind.mpr (wp_mono ?_ (book_depositPrepare (fun _ _ _ h => h) h₀ hfresh))
  intro r v hopened
  cases r with
  | error e => exact hopened
  | ok tx =>
    obtain ⟨⟨hid, hentry⟩, hbooked⟩ := hopened
    have hfailed : (tx.withStatus .failed).entry = dto.entry := by rw [entry_failed, hentry]; rfl
    refine wp_bind.mpr (wp_attempt.mpr (book_adjust (fun db _ _ b => ?_) fun db _ hf err => ?_))
    case refine_2 => exact book_depositFailed err hid hfailed hbooked h₀ hf hf
    have hcredited : Booked rule i v₀ dto.entry dto.credit (v.move dto.credit) := by
      have hmoved := hbooked.move dto.credit
      rwa [zero_add] at hmoved
    refine wp_bind.mpr (book_now fun t => ?_)
    have hdone : (tx.complete t).entry = dto.entry.done := by rw [entry_complete, hentry]
    have hfailed' : ((tx.complete t).withStatus .failed).entry = dto.entry := by
      rw [entry_failed, hdone]
      rfl
    refine wp_bind.mpr (wp_attempt.mpr (wp_bind.mpr ?_))
    refine book_save ?_ fun db _ hf err => ?_
    case refine_2 => exact book_depositFailed err hid hfailed' hcredited h₀ hf hf
    have hput : Booked rule i v₀ dto.entry.done dto.credit
        ((v.move dto.credit).put rule (tx.complete t)) := hcredited.put hid hdone
    refine book_last rfl rfl (fun db _ hf _ => hput.level h₀ hf) fun db _ hf err => ?_
    exact book_depositFailed err hid hfailed' hput h₀ hf.2 hf.1

/-! ### Withdrawal -/

theorem book_withdrawalPrepare {D : Cmd → Bool → Db → Prop} {dto : WithdrawalDto}
    (hD : ∀ c f db, D c f db → dto.Balances rule c f) (h₀ : Level v₀.drift)
    (hfresh : v₀.rows i = none) :
    (withdrawalPrepare i dto).wp (bookLogic rule D i) (fun r v => match r with
      | .ok tx => (tx.id = i ∧ tx.entry = dto.entry) ∧ Booked rule i v₀ dto.entry dto.debit v
      | .error _ => Level v.drift) v₀ := by
  refine wp_bind.mpr (book_quiet rfl rfl (fun _ => ?_) fun _ _ _ _ => h₀)
  refine wp_bind.mpr (book_quiet rfl rfl (fun _ => ?_) fun _ _ _ _ => h₀)
  refine wp_bind.mpr (book_reject (fun _ => ?_) h₀)
  refine wp_bind.mpr (book_quiet rfl rfl (fun _ => ?_) fun _ _ _ _ => h₀)
  refine wp_bind.mpr (book_quiet rfl rfl (fun _ => ?_) fun _ _ _ _ => h₀)
  refine wp_bind.mpr (book_reject (fun _ => ?_) h₀)
  refine wp_bind.mpr (book_insert (fun t => ?_) fun _ => h₀)
  refine wp_bind.mpr (wp_mono ?_ (book_generateReceiptNumber h₀
    (fun tx db hf => hD _ _ _ hf) rfl rfl (booked_insert hfresh rfl rfl)))
  intro r v hopened
  cases r with
  | error e => exact hopened
  | ok tx =>
    obtain ⟨hrow, hbooked⟩ := hopened
    refine wp_bind.mpr (book_adjust (fun db _ _ b => ⟨hrow, ?_⟩) fun db _ hf _ => ?_)
    · have hmoved := hbooked.move dto.debit
      rwa [zero_add] at hmoved
    · exact hbooked.level h₀ (hD _ _ _ hf)

/-- The catch branch of a withdrawal, whatever its row says. -/
theorem book_withdrawalFailed {dto : WithdrawalDto} {tx : Transaction} {e : Entry} (err : Err)
    (hid : tx.id = i) (hentry : (tx.withStatus .failed).entry = dto.entry)
    (he : e = dto.entry ∨ e = dto.entry.done) (h : Booked rule i v₀ e dto.debit v)
    (h₀ : Level v₀.drift) :
    (withdrawalFailed i dto tx err).wp
      (bookLogic rule ((Call.withdrawal dto).Balances rule i) i) levelPost v := by
  refine wp_bind.mpr (book_adjust (fun db _ hf b => ?_) fun db _ hf _ => ?_)
  case refine_2 =>
    obtain ⟨hpending, hdone⟩ := hf
    rcases he with rfl | rfl
    · exact h.level h₀ hpending
    · exact h.level h₀ hdone
  obtain ⟨hpending, hdone⟩ := hf
  have hrefunded := h.move dto.refund
  refine wp_bind.mpr (book_save ?_ fun _ _ _ _ => ?_)
  case refine_2 =>
    rcases he with rfl | rfl
    · exact hrefunded.level h₀ hpending
    · exact hrefunded.level h₀ hdone
  have hput : Booked rule i v₀ dto.entry (dto.debit + dto.refund)
      ((v.move dto.refund).put rule (tx.withStatus .failed)) := hrefunded.put hid hentry
  have hlevel := hput.level h₀ hpending
  exact wp_bind.mpr (book_quiet rfl rfl (fun _ => hlevel) fun _ _ _ _ => hlevel)

theorem book_withdrawal {dto : WithdrawalDto} (h₀ : Level v₀.drift) (hfresh : v₀.rows i = none) :
    (createWithdrawal i dto).wp (bookLogic rule ((Call.withdrawal dto).Balances rule i) i) levelPost
      v₀ := by
  refine wp_bind.mpr (wp_mono ?_ (book_withdrawalPrepare (fun _ _ _ h => h) h₀ hfresh))
  intro r v hopened
  cases r with
  | error e => exact hopened
  | ok tx =>
    obtain ⟨⟨hid, hentry⟩, hdebited⟩ := hopened
    refine wp_bind.mpr (book_now fun t => wp_bind.mpr (wp_attempt.mpr (wp_bind.mpr ?_)))
    have hdone : (tx.complete t).entry = dto.entry.done := by rw [entry_complete, hentry]
    have hfailed : ((tx.complete t).withStatus .failed).entry = dto.entry := by
      rw [entry_failed, hdone]
      rfl
    refine book_save ?_ fun db _ hf err => ?_
    case refine_2 => exact book_withdrawalFailed err hid hfailed (Or.inl rfl) hdebited h₀
    have hput : Booked rule i v₀ dto.entry.done dto.debit (v.put rule (tx.complete t)) :=
      hdebited.put hid hdone
    refine book_last rfl rfl (fun db _ hf _ => hput.level h₀ hf) fun db _ hf err => ?_
    exact book_withdrawalFailed err hid hfailed (Or.inr rfl) hput h₀

/-! ### Swap -/

/-- A swap between two steps: its row, stored or in memory, says COMPLETED or
not, and some of its balance changes are made. -/
structure SwapBooked (rule : Rule) (i : TxId) (dto : SwapDto) (v₀ : Books) (tx : Transaction)
    (v : Books) : Prop where
  id : tx.id = i
  entry : tx.entry = dto.entry ∨ tx.entry = dto.entry.done
  booked : ∃ e m, (e = dto.entry ∨ e = dto.entry.done) ∧ Booked rule i v₀ e m v

/-- The stored row says what its entry says. -/
theorem Booked.storedCompleted {e : Entry} {m : UserId → String → ℤ} {db : Db}
    (h : Booked rule i v₀ e m (books rule i db)) (he : e.completed = true) :
    SwapDto.StoredCompleted i db := by
  obtain ⟨tx, htx, rfl⟩ := h.row
  have hrow : db.transaction i = some tx := htx
  have hstatus : tx.status = .completed := of_decide_eq_true he
  unfold SwapDto.StoredCompleted
  rw [hrow, Option.map_some, hstatus]

/-- What the call has moved is what the log says. -/
theorem Booked.netOf {e : Entry} {m : UserId → String → ℤ} {db : Db}
    (h : Booked rule i v₀ e m (books rule i db)) (hnet : v₀.net = 0) : db.netOf i = m := by
  have hsum : db.netOf i = v₀.net + m := h.net
  rw [hsum, hnet, zero_add]

theorem SwapBooked.undone {dto : SwapDto} {tx : Transaction} (h : SwapBooked rule i dto v₀ tx v) :
    tx.entry.undone = dto.entry := by
  rcases h.entry with hentry | hentry <;> rw [hentry] <;> rfl

/-- All retries are exhausted. -/
theorem book_swapGiveUp {dto : SwapDto} {tx : Transaction} (lastError : Err) (h₀ : Level v₀.drift)
    (hnet : v₀.net = 0) (h : SwapBooked rule i dto v₀ tx v) :
    (swapGiveUp i dto tx lastError).wp (bookLogic rule ((Call.swap dto).Balances rule i) i)
      levelPost v := by
  obtain ⟨e, m, he, hbooked⟩ := h.booked
  refine wp_bind.mpr (book_adjust (fun db hv hf b => ?_) fun db hv hf _ => ?_)
  case refine_2 =>
    subst hv
    obtain ⟨hpending, hdone⟩ := hf
    rw [hbooked.netOf hnet] at hpending hdone
    rcases he with rfl | rfl
    · exact hbooked.level h₀ hpending
    · exact hbooked.level h₀ (hdone (hbooked.storedCompleted rfl))
  subst hv
  obtain ⟨hpending, hdone⟩ := hf
  rw [hbooked.netOf hnet] at hpending hdone
  have hrefunded := hbooked.move dto.refund
  refine wp_bind.mpr (book_save ?_ fun _ _ _ _ => ?_)
  case refine_2 =>
    rcases he with rfl | rfl
    · exact hrefunded.level h₀ hpending
    · exact hrefunded.level h₀ (hdone (hbooked.storedCompleted rfl))
  have hfailed : (tx.withStatus .failed).entry = dto.entry := by rw [entry_failed, h.undone]
  have hput : Booked rule i v₀ dto.entry (m + dto.refund)
      (((books rule i db).move dto.refund).put rule (tx.withStatus .failed)) :=
    hrefunded.put h.id hfailed
  have hlevel := hput.level h₀ hpending
  exact wp_bind.mpr (book_quiet rfl rfl (fun _ => hlevel) fun _ _ _ _ => hlevel)

/-- An attempt ends the call, or leaves it between two steps. -/
def bookedAttempt (rule : Rule) (i : TxId) (dto : SwapDto) (v₀ : Books) :
    Except Err (Except (Err × Transaction) Transaction) → Books → Prop
  | .ok (.ok _), v => Level v.drift
  | .ok (.error (_, tx)), v => SwapBooked rule i dto v₀ tx v
  | .error _, _ => False

theorem book_swapAttempt {dto : SwapDto} {tx : Transaction} (k : ℕ) (h₀ : Level v₀.drift)
    (hnet : v₀.net = 0) (h : SwapBooked rule i dto v₀ tx v) :
    (swapAttempt i dto k tx).wp (bookLogic rule ((Call.swap dto).Balances rule i) i)
      (bookedAttempt rule i dto v₀) v := by
  obtain ⟨e, m, he, hbooked⟩ := h.booked
  refine wp_bind.mpr (wp_attempt.mpr (book_adjust (fun db _ _ b => ?_) fun _ _ _ _ => h))
  have hcredited := hbooked.move (moved dto.userId dto.toCurrency dto.toAmount)
  refine wp_bind.mpr (book_now fun t => wp_bind.mpr (wp_attempt.mpr (wp_bind.mpr ?_)))
  have hdone : (tx.completeAttempt t k).entry = dto.entry.done := by
    rw [entry_completeAttempt]
    rcases h.entry with hentry | hentry
    · rw [hentry]
    · rw [hentry]
      rfl
  refine book_save ?_ fun _ _ _ _ => ⟨h.id, Or.inr hdone, e, _, he, hcredited⟩
  have hput : Booked rule i v₀ dto.entry.done _ ((v.move _).put rule (tx.completeAttempt t k)) :=
    hcredited.put h.id hdone
  refine book_last rfl rfl (fun db hv hf _ => ?_) fun _ _ _ _ =>
    ⟨h.id, Or.inr hdone, _, _, Or.inr rfl, hput⟩
  have hmatch : Matches rule (db.netOf i) dto.entry.done := hf
  rw [← hv] at hput
  rw [hput.netOf hnet] at hmatch
  rw [← hv]
  exact hput.level h₀ hmatch

theorem book_swapLoop {dto : SwapDto} (left : ℕ) (lastError : Err) {tx : Transaction}
    (h₀ : Level v₀.drift) (hnet : v₀.net = 0) (h : SwapBooked rule i dto v₀ tx v) :
    (swapLoop i dto left lastError tx).wp (bookLogic rule ((Call.swap dto).Balances rule i) i)
      levelPost v := by
  induction left generalizing lastError tx v with
  | zero => exact book_swapGiveUp lastError h₀ hnet h
  | succ left ih =>
    refine wp_bind.mpr (wp_mono ?_ (book_swapAttempt _ h₀ hnet h))
    intro r v' hattempt
    cases r with
    | error e => exact hattempt.elim
    | ok r =>
      cases r with
      | ok tx' => exact hattempt
      | error failure =>
        obtain ⟨err, tx'⟩ := failure
        have hbetween : SwapBooked rule i dto v₀ tx' v' := hattempt
        obtain ⟨e, m, he, hbooked⟩ := hbetween.booked
        refine wp_bind.mpr (book_save ?_ fun db hv hf _ => ?_)
        · refine ih err ⟨hbetween.id, hbetween.entry, _, m, hbetween.entry, ?_⟩
          exact hbooked.put hbetween.id rfl
        · -- the catch branch cannot save
          obtain ⟨hpending, hdone⟩ : Matches rule (db.netOf i) dto.entry ∧
            Matches rule (db.netOf i) dto.entry.done := hf
          subst hv
          rw [hbooked.netOf hnet] at hpending hdone
          rcases he with rfl | rfl
          · exact hbooked.level h₀ hpending
          · exact hbooked.level h₀ hdone

theorem book_swap {dto : SwapDto} (h₀ : Level v₀.drift) (hfresh : v₀.rows i = none)
    (hnet : v₀.net = 0) :
    (createSwap i dto).wp (bookLogic rule ((Call.swap dto).Balances rule i) i) levelPost v₀ := by
  refine wp_bind.mpr (wp_bind.mpr (book_quiet rfl rfl (fun _ => ?_) fun _ _ _ _ => h₀))
  refine wp_bind.mpr (book_quiet rfl rfl (fun _ => ?_) fun _ _ _ _ => h₀)
  refine wp_bind.mpr (book_quiet rfl rfl (fun _ => ?_) fun _ _ _ _ => h₀)
  refine wp_bind.mpr (book_reject (fun _ => ?_) h₀)
  refine book_insert (fun t => ?_) fun _ => h₀
  have hinserted : Booked rule i v₀ dto.entry 0 (v₀.put rule ((dto.create i).stamp t)) :=
    booked_insert hfresh rfl rfl
  refine wp_bind.mpr (book_adjust (fun db _ _ b => ?_) fun db _ hf _ => hinserted.level h₀ hf)
  exact book_swapLoop MAX_RETRIES .fault h₀ hnet
    ⟨rfl, Or.inl rfl, dto.entry, _, Or.inl rfl, hinserted.move _⟩

/-! ### Cancel -/

theorem book_cancel (id : TxId) (h₀ : Level v₀.drift) :
    (cancelTransaction id).wp (bookLogic rule ((Call.cancel id).Balances rule i) i) levelPost
      v₀ := by
  refine wp_bind.mpr (wp_bind.mpr (book_find (fun hid => ?_) fun _ => h₀))
  cases hrow : v₀.rows id with
  | none => exact h₀
  | some tx =>
    refine wp_bind.mpr (book_reject (fun hpending => ?_) h₀)
    refine wp_bind.mpr (book_save ?_ fun _ _ _ _ => h₀)
    -- the row counts as before
    have hstatus : tx.status = .pending := not_not.mp hpending
    have hentry : (tx.withStatus .cancelled).entry = tx.entry := by
      simp [Transaction.entry, Transaction.withStatus, hstatus]
    intro a c hc
    show v₀.drift a c + ((v₀.rows tx.id).map fun old => rule old.entry a c).getD 0 -
      rule (tx.withStatus .cancelled).entry a c = 0
    rw [hid tx hrow, hrow, hentry, h₀ a c hc, Option.map_some, Option.getD_some]
    ring

/-! ### Reverse -/

/-- Balance changes that amount to nothing leave the books level. -/
theorem Level.move (h₀ : Level v₀.drift) {m : UserId → String → ℤ}
    (hm : ∀ a c, Canonical c → m a c = 0) : Level (v₀.move m).drift := by
  intro a c hc
  show v₀.drift a c + m a c = 0
  rw [h₀ a c hc, hm a c hc]
  simp

theorem book_reverseRecord {tx : Transaction} {input : ReverseInput}
    (h₀ : Level v₀.drift) (hfresh : v₀.rows i = none) (hrow : v₀.rows tx.id = some tx) :
    (reverseRecord i tx input).wp
      (bookLogic rule ((Call.reverse tx.id input).Balances rule i) i) levelPost
      (v₀.move (tx.givenBack + tx.takenBack)) := by
  have hfound : ∀ db, books rule i db = v₀.move (tx.givenBack + tx.takenBack) →
      db.transaction tx.id = some tx := by
    intro db hv
    have hrows := congrFun (congrArg Books.rows hv) tx.id
    exact hrows.trans hrow
  have hzero : ∀ {α : Type} (r : Except Err α),
      (∀ a c, Canonical c → (tx.givenBack + tx.takenBack) a c = 0) →
      levelPost r (v₀.move (tx.givenBack + tx.takenBack)) := fun _ hm => h₀.move hm
  refine wp_bind.mpr (book_now fun t => wp_bind.mpr ?_)
  refine book_quiet rfl rfl (fun _ => ?_) fun db hv hf e => hzero (.error e : Except Err Unit)
    (hf tx (hfound db hv))
  refine wp_bind.mpr (book_now fun t' => wp_bind.mpr ?_)
  refine book_quiet rfl rfl (fun _ => ?_) fun db hv hf e => hzero (.error e : Except Err Unit)
    (hf tx (hfound db hv))
  refine wp_bind.mpr (book_quiet rfl rfl (fun _ => ?_) fun db hv hf e =>
    hzero (.error e : Except Err Unit) (hf tx (hfound db hv)))
  refine wp_bind.mpr (book_quiet rfl rfl (fun _ => ?_) fun db hv hf e =>
    hzero (.error e : Except Err Unit) (hf tx (hfound db hv)))
  refine wp_bind.mpr (book_quiet rfl rfl (fun _ => ?_) fun db hv hf e =>
    hzero (.error e : Except Err Unit) (hf tx (hfound db hv)))
  refine wp_bind.mpr (book_commit (fun db hv hf => ?_) fun db hv hf e =>
    hzero (.error e : Except Err Unit) (hf tx (hfound db hv)))
  have hrecorded : ∀ a c, Canonical c → ((tx.givenBack + tx.takenBack) a c : ℚ) =
      rule tx.reversalEntry a c + rule tx.entry.undone a c - rule tx.entry a c :=
    hf tx (hfound db hv)
  have hne : tx.id ≠ i := by
    intro heq
    rw [heq, hfresh] at hrow
    cases hrow
  intro a c hc
  -- the new record counts, and the row as it is now instead of as it was
  show v₀.drift a c + ((tx.givenBack + tx.takenBack) a c : ℤ) +
      ((v₀.rows i).map fun old => rule old.entry a c).getD 0 - rule tx.reversalEntry a c +
      ((Function.update v₀.rows i (some (tx.reversal i input.reason t)) tx.id).map
        fun old => rule old.entry a c).getD 0 - rule tx.entry.undone a c = 0
  rw [hfresh, Function.update_of_ne hne, hrow, hrecorded a c hc, h₀ a c hc]
  simp only [Option.map_none, Option.getD_none, Option.map_some, Option.getD_some]
  ring

theorem book_reverse (id : TxId) (input : ReverseInput) (h₀ : Level v₀.drift)
    (hfresh : v₀.rows i = none) :
    (reverseTransaction i id input).wp
      (bookLogic rule ((Call.reverse id input).Balances rule i) i) levelPost v₀ := by
  refine wp_bind.mpr (wp_bind.mpr (book_find (fun hid => ?_) fun _ => h₀))
  cases hrow : v₀.rows id with
  | none => exact h₀
  | some tx =>
    obtain rfl := hid tx hrow
    refine wp_bind.mpr (book_reject (fun _ => ?_) h₀)
    refine wp_bind.mpr (wp_bind.mpr (book_quiet rfl rfl (fun _ => ?_) fun _ _ _ _ => h₀))
    refine wp_bind.mpr (book_adjust (fun db _ _ b => ?_) fun _ _ _ _ => h₀)
    refine book_adjust (fun db _ _ b => ?_) fun db hv hf e => ?_
    · have hboth : (v₀.move tx.givenBack).move tx.takenBack =
          v₀.move (tx.givenBack + tx.takenBack) := Books.move_move ..
      show (reverseRecord i tx input).wp _ _ ((v₀.move tx.givenBack).move tx.takenBack)
      rw [hboth]
      exact book_reverseRecord h₀ hfresh hrow
    · have hfound : db.transaction tx.id = some tx :=
        (congrFun (congrArg Books.rows hv) tx.id).trans hrow
      exact h₀.move (hf tx hfound)

end Calls

-- ---------------------------------------------------------------------------
-- Sequences of calls
-- ---------------------------------------------------------------------------

/-- The calls that keep the books: all but the reconciliation job. Time passes by
itself. -/
def Call.keepsBooks : Call → Bool
  | .reconcile | .tick _ => false
  | _ => true

/-- The identity of a call is new. -/
structure Fresh (db : Db) (i : ℕ) : Prop where
  row : db.transaction i = none
  moves : db.netOf i = 0

/-- **One call.** Alone, with any of its awaits failing, a call whose steps meet
the condition leaves level books level. -/
theorem level_of_ends {rule : Rule} {canFail : Cmd → Bool} {i : ℕ} {k : Call} {db db' : Db}
    {r : Except Err (Option Transaction)} (hcan : ∀ c, canFail c = true → mayFail c = true)
    (hk : k.keepsBooks = true) (hfresh : Fresh db i)
    (hends : (prog i k).Ends (services canFail) (k.Balances rule i) db r db')
    (hlevel : Level (db.drift rule)) : Level (db'.drift rule) := by
  have hwp : (prog i k).wp (bookLogic rule (k.Balances rule i) i) levelPost (books rule i db) := by
    cases k with
    | transfer dto =>
      exact wp_bind.mpr (wp_mono (fun r v h => by cases r <;> exact h)
        (book_transfer hlevel hfresh.row))
    | deposit dto =>
      exact wp_bind.mpr (wp_mono (fun r v h => by cases r <;> exact h)
        (book_deposit hlevel hfresh.row))
    | withdrawal dto =>
      exact wp_bind.mpr (wp_mono (fun r v h => by cases r <;> exact h)
        (book_withdrawal hlevel hfresh.row))
    | swap dto =>
      exact wp_bind.mpr (wp_mono (fun r v h => by cases r <;> exact h)
        (book_swap hlevel hfresh.row hfresh.moves))
    | cancel id =>
      exact wp_bind.mpr (wp_mono (fun r v h => by cases r <;> exact h) (book_cancel id hlevel))
    | reverse id input =>
      exact wp_bind.mpr (wp_mono (fun r v h => by cases r <;> exact h)
        (book_reverse id input hlevel hfresh.row))
    | reconcile => cases hk
    | tick ms => cases hk
  refine hends.wp rfl ?_ (fun c s h => h) ?_ hwp
  · rintro s s' ⟨ms, rfl⟩
    rfl
  · intro c s hD hfails
    exact ⟨hD, hfails.imp_left (hcan c)⟩

/-- Sequences of calls that do not overlap, whose steps meet the condition. -/
abbrev BookedRuns (rule : Rule) (canFail : Cmd → Bool) (mayCall : Call → Bool) (db₀ db : Db) :
    Prop :=
  Serial (services canFail) prog (fun db i k => mayCall k = true ∧ Fresh db i)
    (fun i k => k.Balances rule i) db₀ db

/-- Sequences of calls that do not overlap, whatever their steps do. -/
abbrev Histories (canFail : Cmd → Bool) (mayCall : Call → Bool) (db₀ db : Db) : Prop :=
  Serial (services canFail) prog (fun db i k => mayCall k = true ∧ Fresh db i)
    (fun _ _ _ _ _ => True) db₀ db

/-- A call that is carried out without a fault. -/
theorem Histories.run {canFail : Cmd → Bool} {mayCall : Call → Bool} {db₀ db : Db}
    (h : Histories canFail mayCall db₀ db) {i : ℕ} {k : Call} (hk : mayCall k = true)
    (hfresh : Fresh db i) :
    Histories canFail mayCall db₀ ((prog i k).run exec noFault db).2 :=
  .call h i k ⟨hk, hfresh⟩ (ends_run (fun _ => Or.inl rfl) (prog i k) db)

/-- A call that has not been made is new. -/
theorem fresh_of_moves {db : Db} {i : ℕ} {ms : List Move} (hrow : db.transaction i = none)
    (hmoves : db.moves = ms) (hnone : ∀ m ∈ ms, m.call ≠ i) : Fresh db i := by
  refine ⟨hrow, ?_⟩
  funext a c
  have hfilter : (ms.filter fun m =>
      decide (m.call = i) && decide (m.account = a ∧ m.currency = c)) = [] := by
    rw [List.filter_eq_nil_iff]
    intro m hm
    simp [hnone m hm]
  rw [Db.netOf, Db.net, hmoves, Move.net, hfilter]
  rfl

/-- **The books stay level.** -/
theorem level_reach {rule : Rule} {canFail : Cmd → Bool} {mayCall : Call → Bool} {db₀ db : Db}
    (hcan : ∀ c, canFail c = true → mayFail c = true)
    (hcalls : ∀ k, mayCall k = true → k.keepsBooks = true) (h₀ : Level (db₀.drift rule))
    (h : BookedRuns rule canFail mayCall db₀ db) : Level (db.drift rule) := by
  refine h.invariant (I := fun db => Level (db.drift rule)) h₀ ?_ ?_
  · rintro s s' ⟨ms, rfl⟩ hlevel
    exact hlevel
  · intro i k s r s' hmay hends hlevel
    exact level_of_ends hcan (hcalls k hmay.1) hmay.2 hends hlevel


end NexaFx
